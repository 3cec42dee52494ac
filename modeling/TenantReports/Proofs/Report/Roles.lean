import TenantReports.Proofs.Api.History

/-!
Who may run a definition that lists roles: its runs are made by requests with one of these roles, or
by batches through schedules, and only such requests are answered with rows of its runs, but for
the trend of its snapshots, which is shown to every role.
-/

namespace TenantReports

open Table (IsLater)

namespace Definition

/-- Whether a role is among those that a definition lists, if it lists any. -/
def Admits (definition : Definition) (role : Option String) : Prop :=
  definition.rolePermissions = [] ∨ ∃ name ∈ definition.rolePermissions, role = some name

theorem listsRole_texts (names : List String) (role : Option String) :
    listsRole (.texts names) (.orNull .text role) =
      .ok (decide (∃ name ∈ names, role = some name)) := by
  have hsame : ∀ name, (Value.text name).sameKey (.orNull .text role) =
      decide (role = some name) := by
    intro name
    cases role with
    | none => rfl
    | some role =>
        change (name == role) = _
        rw [Bool.eq_iff_iff, beq_iff_eq, decide_eq_true_iff, Option.some.injEq, eq_comm]
  have hany : ((names.map Value.text).any fun item => item.sameKey (.orNull .text role)) =
      decide (∃ name ∈ names, role = some name) := by
    rw [Bool.eq_iff_iff, List.any_map, List.any_eq_true, decide_eq_true_iff]
    refine exists_congr fun name => and_congr_right fun _ => ?_
    rw [Function.comp_apply, hsame, decide_eq_true_iff]
  exact congrArg Except.ok hany

theorem isOpenTo_iff {definition : Definition} {role : Option String} :
    definition.IsOpenTo role ↔ definition.Admits role := by
  unfold IsOpenTo Admits requirePermitted
  rw [listsRole_texts]
  by_cases hlists : ∃ name ∈ definition.rolePermissions, role = some name
  · rw [decide_eq_true hlists]
    refine ⟨fun _ => .inr hlists, fun _ => ?_⟩
    split <;> rfl
  · rw [decide_eq_false hlists]
    cases hroles : definition.rolePermissions with
    | nil => exact ⟨fun _ => .inl rfl, fun _ => rfl⟩
    | cons name names =>
        rw [hroles] at hlists
        refine ⟨fun h => (nomatch h), fun h => ?_⟩
        rcases h with hnone | hlisted
        · cases hnone
        · exact absurd hlisted hlists

end Definition

theorem ReportSource.eq_of_definition? {source : ReportSource} {id : Uuid}
    (h : source.definition? = some id) : source = .definition id := by
  cases source with
  | definition other => exact congrArg ReportSource.definition (Option.some.inj h)
  | custom report => cases h

namespace Database

/-- Definitions stay, with the roles that they list. -/
def KeepsRoles (db db' : Database) : Prop :=
  ∀ old ∈ db.definitions, ∃ row ∈ db'.definitions,
    row.id = old.id ∧ row.rolePermissions = old.rolePermissions

theorem KeepsRoles.refl (db : Database) : db.KeepsRoles db := fun old hold => ⟨old, hold, rfl, rfl⟩

theorem KeepsRoles.trans {db₁ db₂ db₃ : Database} (h : db₁.KeepsRoles db₂)
    (h' : db₂.KeepsRoles db₃) : db₁.KeepsRoles db₃ := by
  intro old hold
  obtain ⟨mid, hmid, hid, hroles⟩ := h old hold
  obtain ⟨row, hrow, hid', hroles'⟩ := h' mid hmid
  exact ⟨row, hrow, hid'.trans hid, hroles'.trans hroles⟩

end Database

/-! Steps -/

namespace Api

variable {request : ApiRequest} {past : Database} {owner : Option Uuid} {p q : Platform}

theorem Step.keepsRoles (h : Step request past owner p q) :
    p.database.KeepsRoles q.database := by
  have hsame : q.database.definitions = p.database.definitions →
      p.database.KeepsRoles q.database :=
    fun heq old hold => ⟨old, heq ▸ hold, rfl, rfl⟩
  cases h with
  | aside h => exact hsame (congrArg Database.definitions h.database)
  | run kept own source cause =>
      exact hsame ((congrArg Database.definitions (Runs.Sending.database_left _)).trans rfl)
  | keep own id => exact hsame (Database.continues_putSnapshot _ _).definitions
  | define manager written =>
      exact fun old hold => ⟨old, List.mem_append_left _ hold, rfl, rfl⟩
  | @deactivate _ _ definition stored offered =>
      refine fun old hold => ⟨_, List.mem_map_of_mem hold, ?_, ?_⟩
      · split <;> rfl
      · split <;> rfl
  | _ => exact hsame rfl

theorem Steps.keepsRoles (h : Steps request past p q) : p.database.KeepsRoles q.database := by
  induction h with
  | refl => exact .refl _
  | tail _ hstep ih =>
      obtain ⟨owner, hstep⟩ := hstep
      exact ih.trans hstep.keepsRoles

/-- A schedule keeps its definition, from when a request creates it. -/
theorem Steps.schedule_definition (h : Steps request p.database p q) (hsound : Sound p.database) :
    ∀ row ∈ q.database.schedules,
      (∃ old ∈ p.database.schedules, row.id = old.id ∧ row.definition = old.definition) ∨
      IsLater p.database .schedules row.id ∧ request.Asks .createSchedule := by
  refine Steps.origin (t := .schedules) (·.definition) h hsound (fun _ asked => asked) ?_
  intro owner r r' hsteps hstep row hrow
  have hfollows := Steps.follows hsteps hsound
  rcases (hstep.schedules hfollows.sound).origin hrow with
    ⟨mid, hmid, hid, -, rfl | ⟨-, -, hdefinition, -⟩⟩ | ⟨hid, -, asked, -⟩
  · exact .inl ⟨row, hmid, hid, rfl⟩
  · exact .inl ⟨mid, hmid, hid, hdefinition⟩
  · exact .inr ⟨hid, asked⟩

/-- The execution of a definition was there, or it is that of a run with a cause. -/
theorem Steps.execution_cause (h : Steps request p.database p q) (hsound : Sound p.database) :
    ∀ row ∈ q.database.executions,
      (∃ old ∈ p.database.executions, row.id = old.id ∧
        row.source.definition? = old.source.definition?) ∨
      IsLater p.database .executions row.id ∧ ∀ id, row.source.definition? = some id →
        Cause request p.database p.database.schedules (.definition id) := by
  refine Steps.origin (t := .executions) (·.source.definition?) h hsound
    (fun hsame hcause id hid => hcause id (hsame.symm.trans hid)) ?_
  intro owner r r' hsteps hstep row hrow
  have hfollows := Steps.follows hsteps hsound
  rcases (hstep.executions hfollows.sound).origin hrow with
    ⟨mid, hmid, hid, -, rfl | ⟨-, -, hsame | ⟨_, hcustom, hforgot⟩⟩⟩ | ⟨hid, -, -, -, -, hcause, -⟩
  · exact .inl ⟨row, hmid, hid, rfl⟩
  · exact .inl ⟨mid, hmid, hid, congrArg _ hsame⟩
  · refine .inl ⟨mid, hmid, hid, ?_⟩
    rw [hcustom, hforgot]
    rfl
  · refine .inr ⟨hid, fun id hdefinition => ?_⟩
    rw [ReportSource.eq_of_definition? hdefinition] at hcause
    generalize hsource : ReportSource.definition id = source at hcause ⊢
    cases hcause with
    | own mayRun => exact .own mayRun
    | schedule asked stored =>
        rcases Steps.schedule_definition hsteps hsound _ stored with
          ⟨old, hold, -, hkept⟩ | ⟨-, hcreates⟩
        · rw [hkept]
          exact .schedule asked hold
        · cases asked.eq hcreates

/-! Answers -/

/-- A value that holds no row of a run of a definition, and no metrics of such rows. -/
inductive Withholds (db : Database) (definition : Uuid) : Value → Prop
  | plain {v : Value} (h : Plain v) : Withholds db definition v
  | execution (row : Execution) : Withholds db definition (shownExecution row)
  | customReport (row : CustomReport) (spec : ReportSpec) :
      Withholds db definition (.record (row.metaFields .short ++
        spec.fields.map fun field => (field.1, field.2.toValue)))
  | schedule (row : Schedule) : Withholds db definition (.record (row.fields .short))
  | preview (sql : String) : Withholds db definition (.record [("sql", .text sql)])
  | result {row : Execution} {result : ReportResult} (stored : row ∈ db.executions)
      (of : result.execution = row.id) (other : row.source ≠ .definition definition) :
      Withholds db definition (shownResult result)
  | comparison {row : Execution} {result : ReportResult} {comparison : Snapshots.Comparison}
      (stored : row ∈ db.executions) (of : result.execution = row.id)
      (other : row.source ≠ .definition definition)
      (previous : comparison.previous = Snapshots.noHistory ∨
        ∃ snapshot ∈ db.snapshots, snapshot.definition ≠ definition ∧
          comparison.previous = snapshot.metrics) :
      Withholds db definition
        (.record [("current", shownResult result), ("comparison", comparison.toValue)])
  | list {values : List Value} (h : ∀ v ∈ values, Withholds db definition v) :
      Withholds db definition (.list values)

/-- A request that may not run a definition, and that asks for no trend, is served without rows of
its runs. -/
theorem Served.withholds {db : Database} {tenant definition : Uuid} {v : Value}
    (h : Served request past db tenant v) (notTrend : ¬ request.Asks .showTrend)
    (closed : ¬ request.MayRun past (.definition definition)) : Withholds db definition v := by
  have hother : ∀ row : Execution, request.MayRun past row.source →
      row.source ≠ .definition definition :=
    fun row mayRun hsource => closed (hsource ▸ mayRun)
  induction h with
  | definition stored visible => exact .plain (.definition _)
  | execution stored own => exact .execution _
  | snapshot asked stored own => exact absurd asked notTrend
  | customReport stored own read => exact .customReport _ _
  | schedule stored own => exact .schedule _
  | @result row _ stored own of mayRun => exact .result stored of (hother row mayRun)
  | @comparison row _ _ stored own of mayRun previous =>
      refine .comparison stored of (hother row mayRun) (previous.imp_right ?_)
      rintro ⟨snapshot, hstored, -, hsource, heq⟩
      refine ⟨snapshot, hstored, fun hsame => hother row mayRun ?_, heq⟩
      rw [hsource, hsame]
  | preview sql => exact .preview sql
  | list _ ih => exact .list ih
  | nothing => exact .plain .nothing

end Api

open Api (Cause Withholds)

namespace History

variable {settings : Settings} {exchanges before after : List Exchange} {db : Database}
  {e : Exchange} {d : Definition}

theorem keepsRoles (h : History settings exchanges db)
    (hsplit : exchanges = before ++ e :: after) : e.met.database.KeepsRoles db := by
  induction h generalizing after with
  | start => exact absurd hsplit (by simp)
  | next past last met configured ih =>
      subst met
      have hlast := last.steps.keepsRoles
      rcases List.eq_nil_or_concat after with rfl | ⟨rest, other, rfl⟩
      · obtain ⟨-, hlast'⟩ := List.append_inj' hsplit rfl
        cases hlast'
        exact hlast
      · have hjoin : before ++ e :: rest.concat other = (before ++ e :: rest) ++ [other] := by simp
        exact (ih (List.append_inj' (hsplit.trans hjoin) rfl).1).trans hlast

/-- A role that may run a definition by itself is one that the definition admits. -/
theorem admits_of_mayRun (h : History settings exchanges db)
    (hsplit : exchanges = before ++ e :: after) (hd : d ∈ db.definitions)
    (mayRun : e.request.MayRun e.met.database (.definition d.id)) : d.Admits e.request.role := by
  generalize hsource : ReportSource.definition d.id = source at mayRun
  cases mayRun with
  | custom report => cases hsource
  | @definition met stored isOpen =>
      obtain ⟨row, hrow, hid, hroles⟩ :=
        h.keepsRoles hsplit met (List.mem_of_find?_eq_some stored)
      have hsame := ReportSource.definition.inj hsource
      obtain rfl := h.sound.definitions.eq_of_id_eq hrow hd (hid.trans hsame.symm)
      have hadmits := Definition.isOpenTo_iff.mp isOpen
      unfold Definition.Admits at hadmits ⊢
      rw [hroles]
      exact hadmits

/-- Every execution of a definition was recorded by an exchange that had a cause for it. -/
theorem executions_caused (h : History settings exchanges db) :
    ∀ row ∈ db.executions, ∃ before e after, exchanges = before ++ e :: after ∧
      ∀ id, row.source.definition? = some id →
        IsLater e.met.database .executions row.id ∧
        row.id ∈ e.left.database.executions.map (·.id) ∧
        Cause e.request e.met.database e.met.database.schedules (.definition id) := by
  refine h.origin (t := .executions) rfl fun e hsound row hrow => ?_
  rcases e.steps.execution_cause hsound row hrow with ⟨old, hold, hid, hsame⟩ | ⟨hlater, hcause⟩
  · refine .inl ⟨old, hold, fun first hmade id hdefinition => ?_⟩
    rw [hid]
    exact hmade id (hsame.symm.trans hdefinition)
  · exact .inr fun id hdefinition => ⟨hlater, List.mem_map_of_mem hrow, hcause id hdefinition⟩

/-- Every schedule of a definition was created by an exchange. -/
theorem schedules_created (h : History settings exchanges db) :
    ∀ row ∈ db.schedules, ∃ before e after, exchanges = before ++ e :: after ∧
      e.request.Asks .createSchedule ∧ IsLater e.met.database .schedules row.id ∧
      ∃ made ∈ e.left.database.schedules, made.id = row.id ∧ made.definition = row.definition := by
  refine h.origin (t := .schedules) rfl fun e hsound row hrow => ?_
  rcases e.steps.schedule_definition hsound row hrow with
    ⟨old, hold, hid, hdefinition⟩ | ⟨hlater, asked⟩
  · refine .inl ⟨old, hold, fun first hmade => ?_⟩
    rw [hid, hdefinition]
    exact hmade
  · exact .inr ⟨asked, hlater, row, hrow, rfl, rfl⟩

/-- What the rows of a trend have under a name, as a body tells it. -/
def trendTexts (name : String) (body : Value) : List (Option String) :=
  (Form.itemsOf body).flatMap fun point =>
    (Form.itemsOf ((Form.entriesOf point).field "data")).map fun row =>
      ((Form.entriesOf row).field name).spelled?

/-- Someone without a role is shown the rows of a run that an administrator made of a definition for
administrators, and has it run anew through a schedule. -/
theorem rows_shown_without_role :
    let definition := TableName.rowId .definitions 1
    ∃ exchanges trend schedule batch db,
      History (.ofMigrations "migrations") (exchanges ++ [trend] ++ [schedule] ++ [batch]) db ∧
      (trend.request.role = none ∧ schedule.request.role = none ∧ batch.request.role = none) ∧
      trend.answer.toOption.map (fun answer =>
        (answer.status, trendTexts "status" answer.body)) = some (200, [some "paid"]) ∧
      batch.met.database.executions.map (·.source) = [.definition definition] ∧
      db.executions.map (·.source) = [.definition definition, .definition definition] ∧
      db.definitions.map (fun d => (d.id, d.rolePermissions)) = [(definition, ["admin"])] := by
  intro definition
  let tenant := TableName.rowId .tenants 1
  let requests := [.toProvision "North", .toRestrict tenant "SELECT 1",
    ApiRequest.byRole (.toRun tenant definition) "admin"]
  let start : Platform :=
    { Platform.new (.ofMigrations "migrations") ⟨⟨2024, 5, 1⟩, ⟨9, 0, 0, 0⟩, .offset 0⟩ with
      replies := [.result ["status"] [[(.text "status", .text "paid")]]] }
  obtain ⟨p, hp, hpast, hsettings⟩ :=
    exists_afterAll (.ofMigrations "migrations") start rfl rfl requests
  obtain ⟨q, hq⟩ : ∃ q, q =
      (p.afterAll [.toTrend tenant definition, .toSchedule tenant definition]).atTime
        ⟨⟨2024, 5, 2⟩, ⟨10, 0, 0, 0⟩, .offset 0⟩ := ⟨_, rfl⟩
  let trend : Exchange := ⟨.toTrend tenant definition, p⟩
  let schedule : Exchange := ⟨.toSchedule tenant definition, trend.left⟩
  let batch : Exchange := ⟨.toProcess, q⟩
  have hscheduled := hpast.inTurn hsettings
    [.toTrend tenant definition, .toSchedule tenant definition]
  have hdatabase : q.database = (p.afterAll
      [.toTrend tenant definition, .toSchedule tenant definition]).database := by
    rw [hq, Platform.database_atTime]
  have hconfigured : q.settings = .ofMigrations "migrations" := by
    rw [hq, Platform.settings_atTime, Platform.afterAll_settings hpast.sound, hsettings]
  have h := hscheduled.next batch hdatabase hconfigured
  have hshown : trend.answer.toOption.map (fun answer =>
      (answer.status, trendTexts "status" answer.body)) = some (200, [some "paid"]) := by
    unfold trend
    rw [hp]
    decide +kernel
  have hrun : q.database.executions.map (·.source) = [.definition definition] ∧
      batch.left.database.executions.map (·.source) =
        [.definition definition, .definition definition] ∧
      batch.left.database.definitions.map (fun d => (d.id, d.rolePermissions)) =
        [(definition, ["admin"])] := by
    unfold batch
    rw [hq, hp]
    decide +kernel
  have hexchanges : Exchange.inTurn start requests ++
      Exchange.inTurn p [.toTrend tenant definition, .toSchedule tenant definition] ++ [batch] =
      Exchange.inTurn start requests ++ [trend] ++ [schedule] ++ [batch] := by
    simp only [Exchange.inTurn, List.append_assoc, List.cons_append, List.nil_append]
    rfl
  rw [hexchanges] at h
  have hroles : (ApiRequest.toTrend tenant definition).role = none ∧
      (ApiRequest.toSchedule tenant definition).role = none ∧ ApiRequest.toProcess.role = none := by
    decide +kernel
  exact ⟨_, trend, schedule, batch, _, h, hroles, hshown, hrun⟩

/-- A definition that lists roles is run for a request that names one of them, or in a batch through
a schedule that some request created; and a request that names none of them, and asks for no trend,
is answered without rows of its runs. -/
theorem runs_restricted (h : History settings exchanges db) (hd : d ∈ db.definitions) :
    (∀ row ∈ db.executions, row.source = .definition d.id → ∃ before e after,
      exchanges = before ++ e :: after ∧ IsLater e.met.database .executions row.id ∧
      row.id ∈ e.left.database.executions.map (·.id) ∧
      (d.Admits e.request.role ∨ e.request.Asks .processSchedules ∧
        ∃ schedule ∈ e.met.database.schedules, schedule.definition = d.id ∧
          ∃ first ∈ before, first.request.Asks .createSchedule ∧
            IsLater first.met.database .schedules schedule.id ∧
            ∃ made ∈ first.left.database.schedules,
              made.id = schedule.id ∧ made.definition = d.id)) ∧
    ∀ e ∈ exchanges, ¬ e.request.Asks .showTrend → ¬ d.Admits e.request.role →
      ∀ answer, e.answer = .ok answer → Api.IsRefusal e.request answer ∨
        ∃ v, Withholds e.left.database d.id v ∧ answer.body = Answer.bodyOf v := by
  refine ⟨fun row hrow hsource => ?_, fun e hmem hnotTrend hclosed answer hanswer => ?_⟩
  · obtain ⟨before, e, after, hsplit, hcaused⟩ := h.executions_caused row hrow
    obtain ⟨hlater, hleft, hcause⟩ := hcaused d.id (congrArg ReportSource.definition? hsource)
    refine ⟨before, e, after, hsplit, hlater, hleft, ?_⟩
    generalize hdefinition : ReportSource.definition d.id = source at hcause
    cases hcause with
    | own mayRun =>
        rw [← hdefinition] at mayRun
        exact .inl (h.admits_of_mayRun hsplit hd mayRun)
    | @schedule schedule asked stored =>
        have hsame := ReportSource.definition.inj hdefinition
        obtain ⟨earlier, first, later, rfl, hcreates, hnew, hmade⟩ :=
          (h.split hsplit).1.schedules_created schedule stored
        have hfirst : first ∈ earlier ++ first :: later :=
          List.mem_append_right _ List.mem_cons_self
        rw [← hsame] at hmade
        exact .inr ⟨asked, schedule, stored, hsame.symm, first, hfirst, hcreates, hnew, hmade⟩
  · obtain ⟨before, after, hsplit⟩ := List.append_of_mem hmem
    have hmayNot : ¬ e.request.MayRun e.met.database (.definition d.id) :=
      fun mayRun => hclosed (h.admits_of_mayRun hsplit hd mayRun)
    refine (Api.serve_answers hanswer).imp_right ?_
    rintro ⟨v, hplain | ⟨tenant, -, hserved⟩, hbody⟩
    · exact ⟨v, .plain hplain, hbody⟩
    · exact ⟨v, hserved.withholds hnotTrend hmayNot, hbody⟩

/-- An administrator runs a definition for administrators, and someone without a role is refused its
run: the definition has the one execution, and the refused request has no rows of it. -/
theorem runs_restricted_of_refusal :
    ∃ exchanges refused db, ∃ d ∈ db.definitions,
      History (.ofMigrations "migrations") (exchanges ++ [refused]) db ∧
      d.rolePermissions = ["admin"] ∧
      db.executions.map (·.source) = [.definition d.id] ∧
      refused.answer.toOption.map (·.status) = some 403 ∧
      (∀ row ∈ db.executions, row.source = .definition d.id →
        ∃ e ∈ exchanges ++ [refused], IsLater e.met.database .executions row.id ∧
          (d.Admits e.request.role ∨ e.request.Asks .processSchedules)) ∧
      ∀ answer, refused.answer = .ok answer → Api.IsRefusal refused.request answer ∨
        ∃ v, Withholds refused.left.database d.id v ∧ answer.body = Answer.bodyOf v := by
  let definition := TableName.rowId .definitions 1
  let tenant := TableName.rowId .tenants 1
  let requests := [.toProvision "North", .toRestrict tenant "SELECT 1",
    ApiRequest.byRole (.toRun tenant definition) "admin"]
  let start : Platform :=
    { Platform.new (.ofMigrations "migrations") ⟨⟨2024, 5, 1⟩, ⟨9, 0, 0, 0⟩, .offset 0⟩ with
      replies := [.result ["status"] [[(.text "status", .text "paid")]]] }
  obtain ⟨p, hp, hpast, hsettings⟩ :=
    exists_afterAll (.ofMigrations "migrations") start rfl rfl requests
  let refused : Exchange := ⟨.toRun tenant definition, p⟩
  have hstored : refused.left.database.definitions.map (fun d => (d.id, d.rolePermissions)) =
        [(definition, ["admin"])] ∧
      refused.left.database.executions.map (·.source) = [.definition definition] ∧
      refused.answer.toOption.map (·.status) = some 403 := by
    unfold refused
    rw [hp]
    decide +kernel
  obtain ⟨hdefinitions, hexecutions, hstatus⟩ := hstored
  obtain ⟨d, hd, hrow⟩ := List.mem_map.mp (hdefinitions ▸ List.mem_singleton_self _)
  obtain ⟨hid, hroles⟩ := Prod.mk.inj hrow
  have h := hpast.next refused rfl hsettings
  refine ⟨_, refused, _, d, hd, h, hroles, hid ▸ hexecutions, hstatus, ?_, ?_⟩
  · intro row hrow hsource
    obtain ⟨before, e, after, hsplit, hlater, -, hcause⟩ :=
      (runs_restricted h hd).1 row hrow hsource
    refine ⟨e, ?_, hlater, hcause.imp_right And.left⟩
    rw [hsplit]
    exact List.mem_append_right _ List.mem_cons_self
  · have hasks : (ApiRequest.toRun tenant definition).Asks .runDefinition :=
      ⟨definition.toText, by decide +kernel⟩
    have hrole : (ApiRequest.toRun tenant definition).role = none := by decide +kernel
    refine (runs_restricted h hd).2 refused (by simp) (fun htrend => nomatch hasks.eq htrend) ?_
    unfold Definition.Admits
    rw [hrole, hroles]
    rintro (hnone | ⟨name, -, hname⟩)
    · cases hnone
    · cases hname

end History

end TenantReports
