import TenantReports.Proofs.Schedule.Documents
import TenantReports.Proofs.Schedule.InStep
import TenantReports.Proofs.Tenant.Schemas

/-!
How requests end that change or list schedules. They are answered, unless null was given for a field
that must not be null, or the calendar ends.
-/

namespace TenantReports

/-! Updates -/

namespace Schedule

/-- The columns of a schedule that must not be null. -/
def filledNames : List String := ["name", "export_format", "is_active"]

variable {given changes : Entries} {schedule : Schedule}

theorem asked_of_change?_eq_none (hsets : SchedulePatch.SetsFields given changes)
    (h : schedule.change? changes = none) :
    ∃ name ∈ filledNames, given.field? name = some .null := by
  unfold change? at h
  cases hname : Change.textColumn changes "name" schedule.name with
  | none => exact ⟨"name", by decide, Change.asked_of_textColumn hsets.name hname⟩
  | some name =>
      cases hformat : Change.textColumn changes "export_format" schedule.exportFormat with
      | none =>
          exact ⟨"export_format", by decide, Change.asked_of_textColumn hsets.exportFormat hformat⟩
      | some exportFormat =>
          cases hactive : Change.flagColumn changes "is_active" schedule.isActive with
          | none =>
              exact ⟨"is_active", by decide, Change.asked_of_flagColumn hsets.isActive hactive⟩
          | some isActive =>
              rw [hname, hformat, hactive] at h
              cases h

end Schedule

namespace Schedules

variable {id : Uuid} {given changes : Entries} {p : Platform} {fault : Fault}

/-- What an update fails with, and why. -/
inductive UpdateFails (id : Uuid) (given : Entries) (now : DateTime) : Fault → Prop
  | missing : UpdateFails id given now (.notFound .schedule id)
  | input {fault : Fault} (isInput : fault.isInput = true) : UpdateFails id given now fault
  | null {name : String} (filled : name ∈ Schedule.filledNames)
      (asked : given.field? name = some .null) : UpdateFails id given now .integrity
  | late {reason : CalendarFault} (ends : ¬ now.IsWellWithin) :
      UpdateFails id given now (.calendar reason)

theorem updateFails_of_nextRun {schedule : Schedule} (htimed : schedule.IsTimed p.settings)
    (hdocuments : schedule.HasDocuments) (hsets : SchedulePatch.SetsFields given changes)
    (h : (nextRunAfterChanges schedule changes).run p = (.error fault, p)) :
    UpdateFails id given p.now fault := by
  unfold nextRunAfterChanges at h
  split at h
  · have hconfig := (Change.documentColumn_keeps hsets.config hdocuments.config
      Schedule.not_isStored_null).1
    let changed := { schedule with
      type := typeAfter schedule changes
      config := Change.documentColumn changes configName schedule.config }
    rw [Action.run_bind, run_nextRunFromNow] at h
    cases hfound : nextRunBy p.settings p.now changed.type changed.config with
    | ok next =>
        rw [hfound] at h
        cases h
    | error blamed =>
        rw [hfound] at h
        cases h
        rcases nextRunBy_eq_error htimed.region hconfig hfound with
          hinput | ⟨⟨reason, rfl⟩, hlate⟩
        · exact .input hinput
        · exact .late hlate
  · cases h

theorem UpdateStops.fails (h : UpdateStops id changes p fault)
    (htimed : ∀ row ∈ p.database.schedules, row.IsTimed p.settings)
    (hdocuments : ∀ row ∈ p.database.schedules, row.HasDocuments)
    (hsets : SchedulePatch.SetsFields given changes) : UpdateFails id given p.now fault := by
  cases h with
  | missing => exact .missing
  | untimed stored timed =>
      have hmem := List.mem_of_find?_eq_some stored
      exact updateFails_of_nextRun (htimed _ hmem) (hdocuments _ hmem) hsets timed
  | unmade stored made =>
      obtain ⟨name, hname, hnull⟩ := Schedule.asked_of_change?_eq_none hsets made
      exact .null hname hnull

end Schedules

/-! Refusals -/

/-- The schema of a tenant is found, or the tenant is not ready. -/
theorem Directory.resolveSchema_cases {id : Uuid} {p : Platform}
    (hnames : ∀ row ∈ p.database.tenants, Sql.isIdentifier row.schemaName = true) :
    (∃ schemaName, (resolveSchema id).run p = (.ok schemaName, p)) ∨
    (∀ schemaName, ¬ p.database.HasReady id schemaName) ∧
      ((resolveSchema id).run p = (.error (.notFound .tenant id), p) ∨
        ∃ status, (resolveSchema id).run p = (.error (.tenantNotReady id status), p)) := by
  have hfind : (find? id).run p = (.ok (p.database.tenant? id), p) := rfl
  have hrequire := Work.run_require (.notFound .tenant id) (p.database.tenant? id) p
  unfold resolveSchema
  rw [Action.run_bind_of_ok hfind]
  cases hstored : p.database.tenant? id with
  | none =>
      rw [hstored] at hrequire
      rw [Action.run_bind_of_error hrequire]
      refine .inr ⟨fun schemaName hready => ?_, .inl rfl⟩
      obtain ⟨t, hfound, -⟩ := hready
      cases hstored.symm.trans hfound
  | some t =>
      rw [hstored] at hrequire
      rw [Action.run_bind_of_ok hrequire]
      have hnone : t.status ≠ .ready → ∀ schemaName, ¬ p.database.HasReady id schemaName := by
        intro hstatus schemaName hready
        obtain ⟨t', hfound, hready, -⟩ := hready
        cases hstored.symm.trans hfound
        exact hstatus hready
      split
      · have hname := Sql.requireIdentifier_eq_ok.mpr (hnames t (List.mem_of_find?_eq_some hstored))
        refine .inl ⟨t.schemaName, ?_⟩
        rw [Action.run_bind, Action.run_ofResult, hname]
        rfl
      · next hstatus => exact .inr ⟨hnone hstatus, .inr ⟨_, rfl⟩⟩

namespace Guard

variable {request : ApiRequest} {p : Platform} {fault : Fault}

/-- A request for a tenant finds the tenant ready, or it is refused. -/
theorem tenantOf_cases {tenant : Uuid} (hnamed : request.tenant = .valid tenant)
    (hnames : ∀ row ∈ p.database.tenants, Sql.isIdentifier row.schemaName = true) :
    (∃ schemaName, ActsFor request p ⟨tenant, schemaName⟩) ∨
    (∀ schemaName, ¬ p.database.HasReady tenant schemaName) ∧
      ∃ refusal, (tenantOf request).run p = (.error (.refused refusal), p) ∧
        refusal.status ∈ [404, 409] := by
  unfold tenantOf
  rw [hnamed]
  rcases Directory.resolveSchema_cases hnames with
    ⟨schemaName, hrun⟩ | ⟨hnone, hrun | ⟨status, hrun⟩⟩
  · exact .inl ⟨schemaName, hnamed, hrun⟩
  · refine .inr ⟨hnone, .missing .tenant, ?_, List.mem_cons_self⟩
    exact Action.run_bind_of_error (run_refusing_of_error hrun)
  · let refusal := Refusal.notReady (Fault.tenantNotReady tenant status).message
    refine .inr ⟨hnone, refusal, ?_, List.mem_cons_of_mem _ List.mem_cons_self⟩
    exact Action.run_bind_of_error (run_refusing_of_error hrun)

theorem refused_of_isInput (h : fault.isInput = true) :
    ∃ refusal, firstOf [missingRefusal?, inputRefusal?] fault = some refusal ∧
      refusal.status ∈ [200, 400, 404] := by
  cases hmissing : missingRefusal? fault with
  | some refusal =>
      unfold missingRefusal? at hmissing
      split at hmissing
      · cases h
      · cases hmissing
  | none =>
      refine ⟨.badInput fault.message, ?_, List.mem_cons_of_mem _ List.mem_cons_self⟩
      simp [firstOf, hmissing, inputRefusal?, h]

end Guard

/-! Answers -/

namespace Exchange

variable {e : Exchange} {statuses : List Nat}

/-- Whether an exchange ends with an answer of one of some statuses. -/
def AnswersIn (e : Exchange) (statuses : List Nat) : Prop :=
  ∃ answer, e.answer = .ok answer ∧ answer.status ∈ statuses

theorem answersIn_of_ok {answer : Answer} (h : e.answer = Api.answered e.request (.ok answer))
    (hstatus : answer.status ∈ statuses) : e.AnswersIn statuses := by
  refine ⟨_, h, ?_⟩
  rw [Api.status_sentTo]
  exact hstatus

theorem answersIn_of_refused {refusal : Refusal}
    (h : e.answer = Api.answered e.request (.error (.refused refusal)))
    (hstatus : refusal.status ∈ statuses) : e.AnswersIn statuses := by
  refine ⟨_, h, ?_⟩
  rw [Api.status_sentTo]
  exact hstatus

end Exchange

/-- How a patch of a schedule for a tenant ends, after the exchanges before it. -/
inductive Exchange.PatchEnds (e : Exchange) (before : List Exchange) (tenant id : Uuid) : Prop
  | answered (h : e.AnswersIn [200, 400, 404])
  | notReady (h : e.AnswersIn [404, 409])
      (none : ∀ schemaName, ¬ e.met.database.HasReady tenant schemaName)
  /-- The request gave null for a column that must not be null. -/
  | refused (h : e.answer = .error .integrity) {name : String}
      (filled : name ∈ Schedule.filledNames) (null : e.request.SetsNull id name)
  /-- A document of the schedule is null, for which a request gave null. -/
  | unshown (h : e.answer = .error .response) {row : Schedule}
      (stored : row ∈ e.left.database.schedules) (same : row.id = id) {name : String}
      (document : (name, .null) ∈ row.documents) {cause : Exchange} (mem : cause ∈ before ++ [e])
      (null : cause.request.SetsNull id name)
  | late {reason : CalendarFault} (h : e.answer = .error (.calendar reason))
      (ends : ¬ e.met.now.IsWellWithin)

/-- How a patch ends whose update failed. -/
theorem ApiRequest.Patches.ends {e : Exchange} {before : List Exchange} {tenant id : Uuid}
    {patch : SchedulePatch} {fault : Fault} (h : e.request.Patches id patch)
    (hfails : Schedules.UpdateFails id (Form.entriesOf (e.request.body.getD .null)) e.met.now fault)
    (hanswer : e.answer = Api.answered e.request (.error ((Guard.firstOf
      [Guard.missingRefusal?, Guard.inputRefusal?] fault).elim fault .refused))) :
    e.PatchEnds before tenant id := by
  cases hfails with
  | missing => exact .answered (Exchange.answersIn_of_refused hanswer (by decide))
  | input isInput =>
      obtain ⟨refusal, hrefusal, hstatus⟩ := Guard.refused_of_isInput isInput
      rw [hrefusal] at hanswer
      exact .answered (Exchange.answersIn_of_refused hanswer hstatus)
  | null filled asked => exact .refused hanswer filled ⟨⟨patch, h⟩, asked⟩
  | @late reason ends =>
      cases reason with
      | year n =>
          refine .answered (Exchange.answersIn_of_refused hanswer ?_)
          exact List.mem_cons_of_mem _ List.mem_cons_self
      | outsideCalendar => exact .late hanswer ends
      | span days => exact .late hanswer ends

/-- How a list of a tenant's schedules ends, after the exchanges before it. -/
inductive Exchange.ListEnds (e : Exchange) (before : List Exchange) (tenant : Uuid) : Prop
  | answered (h : e.AnswersIn [200])
  | notReady (h : e.AnswersIn [404, 409])
      (none : ∀ schemaName, ¬ e.met.database.HasReady tenant schemaName)
  /-- A document of a schedule is null, for which a request gave null. -/
  | unshown (h : e.answer = .error .response) {row : Schedule}
      (stored : row ∈ e.met.database.schedules) (own : row.tenant = tenant) {name : String}
      (document : (name, .null) ∈ row.documents) {cause : Exchange} (mem : cause ∈ before)
      (null : cause.request.SetsNull row.id name)

namespace Api

theorem shownSchedule_cases (row : Schedule) (p : Platform) :
    (∃ v, (shownSchedule row).run p = (.ok v, p)) ∨
    ¬ isShowable row = true ∧ (shownSchedule row).run p = (.error .response, p) := by
  unfold shownSchedule
  split
  · exact .inl ⟨_, rfl⟩
  · next hunshowable => exact .inr ⟨hunshowable, rfl⟩

theorem shownSchedules_cases (rows : List Schedule) (p : Platform) :
    (∃ values, (rows.mapM shownSchedule).run p = (.ok values, p)) ∨
    (∃ row ∈ rows, ¬ isShowable row = true) ∧
      (rows.mapM shownSchedule).run p = (.error .response, p) := by
  induction rows with
  | nil => exact .inl ⟨[], rfl⟩
  | cons row rows ih =>
      rw [List.mapM_cons]
      rcases shownSchedule_cases row p with ⟨v, hrow⟩ | ⟨hunshowable, hrow⟩
      · rw [Action.run_bind_of_ok hrow]
        rcases ih with ⟨values, hrun⟩ | ⟨⟨other, hmem, hother⟩, hrun⟩
        · rw [Action.run_bind_of_ok hrun]
          exact .inl ⟨v :: values, rfl⟩
        · rw [Action.run_bind_of_error hrun]
          exact .inr ⟨⟨other, List.mem_cons_of_mem _ hmem, hother⟩, rfl⟩
      · rw [Action.run_bind_of_error hrow]
        exact .inr ⟨⟨row, List.mem_cons_self, hunshowable⟩, rfl⟩

end Api

namespace History

variable {settings : Settings} {exchanges before : List Exchange} {db : Database} {e : Exchange}
  {tenant id : Uuid} {patch : SchedulePatch}

theorem nulled_of_not_isShowable (h : History settings exchanges db) {row : Schedule}
    (hrow : row ∈ db.schedules) (hunshowable : ¬ Api.isShowable row = true) :
    ∃ name, (name, .null) ∈ row.documents ∧ ∃ cause ∈ exchanges,
      cause.request.SetsNull row.id name := by
  obtain ⟨hdocuments, hnull⟩ := h.documents row hrow
  rw [hdocuments.isShowable_iff] at hunshowable
  push Not at hunshowable
  obtain ⟨name, hname⟩ := hunshowable
  exact ⟨name, hname, hnull name hname⟩

theorem patchEnds (h : History settings before e.met.database)
    (configured : e.met.settings = settings) (hnamed : e.request.tenant = .valid tenant)
    (hpatches : e.request.Patches id patch) : e.PatchEnds before tenant id := by
  obtain ⟨argument, htarget, hid⟩ := hpatches.target
  have hanswer : e.answer =
      Api.answered e.request ((Api.updateSchedule e.request argument).run e.met).1 :=
    Exchange.answer_of_target htarget
  rcases Guard.tenantOf_cases hnamed h.schemasApart.identifiers with
    ⟨schemaName, hacts⟩ | ⟨hnone, refusal, hrun, hstatus⟩
  · rw [Api.run_updateSchedule hacts hid hpatches.written] at hanswer
    rcases Schedules.update_cases tenant id patch (e.request.body.getD .null) e.met with
      ⟨fault, hstops, hrun⟩ | ⟨schedule, changed, nextRunAt, hstored, -, hmade, row, heq, hrun⟩
    · have htimed := h.timed
      rw [← configured] at htimed
      have hfails := hstops.fails htimed (fun row hrow => (h.documents row hrow).1)
        hpatches.setsFields
      rw [Action.run_bind_of_error (Guard.run_refusing_of_error hrun)] at hanswer
      exact hpatches.ends hfails hanswer
    · have hfound : schedule.id = id := eq_of_beq (List.find?_some hstored :)
      have hsame : row.id = id := by
        rw [heq]
        exact (Schedule.change?_keeps hmade).1.trans hfound
      have hrow : row ∈ e.left.database.schedules := by
        rw [Exchange.left_of_update htarget hacts hid hpatches.written, hrun]
        exact List.mem_map.mpr ⟨schedule, List.mem_of_find?_eq_some hstored, if_pos hfound⟩
      rw [Action.run_bind_of_ok (Guard.run_refusing_of_ok hrun)] at hanswer
      rcases Api.shownSchedule_cases row _ with ⟨v, hshown⟩ | ⟨hunshowable, hshown⟩
      · rw [Action.run_bind_of_ok hshown] at hanswer
        exact .answered (Exchange.answersIn_of_ok hanswer List.mem_cons_self)
      · rw [Action.run_bind_of_error hshown] at hanswer
        obtain ⟨name, hname, cause, hcause, hnull⟩ :=
          (h.next e rfl configured).nulled_of_not_isShowable hrow hunshowable
        rw [hsame] at hnull
        exact .unshown hanswer hrow hsame hname hcause hnull
  · unfold Api.updateSchedule Guard.serveTenant at hanswer
    rw [Action.run_bind_of_error hrun] at hanswer
    exact .notReady (Exchange.answersIn_of_refused hanswer hstatus) hnone

theorem listEnds (h : History settings before e.met.database)
    (hnamed : e.request.tenant = .valid tenant) (hasks : e.request.Asks .listSchedules) :
    e.ListEnds before tenant := by
  obtain ⟨argument, htarget⟩ := hasks
  have hanswer : e.answer =
      Api.answered e.request ((Api.listSchedules e.request).run e.met).1 :=
    Exchange.answer_of_target htarget
  unfold Api.listSchedules at hanswer
  rcases Guard.tenantOf_cases hnamed h.schemasApart.identifiers with
    ⟨schemaName, hacts⟩ | ⟨hnone, refusal, hrun, hstatus⟩
  · have hpassed : Guard.noGuard.run e.met = (.ok (), e.met) := rfl
    have hlist : (Schedules.list tenant).run e.met =
        (.ok (Schedules.inOrder (e.met.database.schedules.filter (·.tenant == tenant))), e.met) :=
      rfl
    rw [Guard.run_serveTenant hacts hpassed rfl] at hanswer
    dsimp only at hanswer
    rw [Action.run_bind_of_ok hlist] at hanswer
    rcases Api.shownSchedules_cases (Schedules.inOrder
        (e.met.database.schedules.filter (·.tenant == tenant))) e.met with
      ⟨values, hshown⟩ | ⟨⟨row, hrow, hunshowable⟩, hshown⟩
    · rw [Action.run_bind_of_ok hshown] at hanswer
      exact .answered (Exchange.answersIn_of_ok hanswer List.mem_cons_self)
    · rw [Action.run_bind_of_error hshown] at hanswer
      obtain ⟨hstored, hown⟩ := List.mem_filter.mp (List.mem_mergeSort.mp hrow)
      obtain ⟨name, hname, cause, hcause, hnull⟩ :=
        h.nulled_of_not_isShowable hstored hunshowable
      exact .unshown hanswer hstored (eq_of_beq hown) hname hcause hnull
  · unfold Guard.serveTenant at hanswer
    rw [Action.run_bind_of_error hrun] at hanswer
    exact .notReady (Exchange.answersIn_of_refused hanswer hstatus) hnone

/-- Stored schedules can be shown, and patches and lists of a tenant's schedules end in answers, but
for nulls that were given for fields which must not be null, and for the end of the calendar. -/
theorem schedules_readable (h : History settings exchanges db) :
    (∀ row ∈ db.schedules,
      (Api.isShowable row = true ↔ ∀ name, (name, .null) ∉ row.documents) ∧
      ∀ name, (name, .null) ∈ row.documents →
        ∃ cause ∈ exchanges, cause.request.SetsNull row.id name) ∧
    ∀ before e after tenant, exchanges = before ++ e :: after → e.request.tenant = .valid tenant →
      (∀ id patch, e.request.Patches id patch → e.PatchEnds before tenant id) ∧
      (e.request.Asks .listSchedules → e.ListEnds before tenant) := by
  refine ⟨fun row hrow => ?_, ?_⟩
  · obtain ⟨hdocuments, hnull⟩ := h.documents row hrow
    exact ⟨hdocuments.isShowable_iff, hnull⟩
  intro before e after tenant hsplit hnamed
  obtain ⟨hbefore, hconfigured⟩ := h.split hsplit
  refine ⟨fun id patch hpatches => ?_, fun hasks => hbefore.listEnds hnamed hasks⟩
  exact hbefore.patchEnds hconfigured hnamed hpatches

theorem patches_first {tenant : Uuid} {changes : List (String × Value)}
    (hread : SchedulePatch.read (.record changes) = .valid patch) :
    (ApiRequest.toPatch tenant (TableName.rowId .schedules 1) changes).Patches
      (TableName.rowId .schedules 1) patch := by
  refine ⟨⟨(TableName.rowId .schedules 1).toText, ?_, rfl⟩, ?_⟩
  · dsimp only [ApiRequest.toPatch]
    decide +kernel
  · unfold ApiRequest.readBody ApiRequest.toPatch
    dsimp only
    rw [hread]

theorem tenant_toPatch (schedule : Uuid) (changes : List (String × Value)) :
    (ApiRequest.toPatch (TableName.rowId .tenants 1) schedule changes).tenant =
      .valid (TableName.rowId .tenants 1) := by rfl

theorem tenant_toListSchedules :
    (ApiRequest.toListSchedules (TableName.rowId .tenants 1)).tenant =
      .valid (TableName.rowId .tenants 1) := by rfl

/-- A schedule is renamed and stopped, and listed. -/
theorem schedules_readable_of_rename :
    let tenant := TableName.rowId .tenants 1
    let schedule := TableName.rowId .schedules 1
    let requests := [.toProvision "North", .toDefine "SELECT 1",
      ApiRequest.toSchedule tenant (TableName.rowId .definitions 1)]
    let start := Platform.new (.ofMigrations "migrations") ⟨⟨2024, 5, 1⟩, ⟨9, 0, 0, 0⟩, .offset 0⟩
    let rename : Exchange :=
      ⟨.toPatch tenant schedule [("name", .text "Fees"), ("is_active", .bool false)],
        start.afterAll requests⟩
    let list : Exchange := ⟨.toListSchedules tenant, rename.left⟩
    let past := Exchange.inTurn start requests
    (rename.answer.toOption.map (·.status) = some 200 ∧ rename.PatchEnds past tenant schedule) ∧
      (list.answer.toOption.map (·.status) = some 200 ∧ list.ListEnds (past ++ [rename]) tenant) ∧
      (list.left.database.schedules.map fun row => (row.name, row.isActive)) =
        [("Fees", false)] := by
  intro tenant schedule requests start rename list past
  have hpast : History start.settings past rename.met.database := .ofRequests start rfl rfl requests
  have hsettings : rename.met.settings = start.settings :=
    Platform.afterAll_settings sound_empty requests
  have hnext := hpast.next rename rfl hsettings
  have h : History start.settings (past ++ [rename] ++ [list]) list.left.database :=
    hnext.next list rfl ((rename.steps.follows hpast.sound).settings.trans hsettings)
  obtain ⟨patch, hread⟩ : ∃ patch, SchedulePatch.read
      (.record [("name", .text "Fees"), ("is_active", .bool false)]) = .valid patch := ⟨_, rfl⟩
  obtain ⟨hrenamed, hlisted, hrows⟩ : rename.answer.toOption.map (·.status) = some 200 ∧
      list.answer.toOption.map (·.status) = some 200 ∧
      (list.left.database.schedules.map fun row => (row.name, row.isActive)) =
        [("Fees", false)] := by decide +kernel
  have hends := (schedules_readable h).2
  have hrename := (hends past rename [list] tenant (List.append_assoc ..) (tenant_toPatch _ _)).1
  have hlist := (hends (past ++ [rename]) list [] tenant rfl tenant_toListSchedules).2
  exact ⟨⟨hrenamed, hrename schedule patch (patches_first hread)⟩,
    ⟨hlisted, hlist ⟨"", by decide +kernel⟩⟩, hrows⟩

def breaksTable : Except Fault Answer → Bool
  | .error .integrity => true
  | _ => false

theorem eq_error_of_breaksTable {result : Except Fault Answer} (h : breaksTable result = true) :
    result = .error .integrity := by
  unfold breaksTable at h
  split at h
  · rfl
  · cases h

def breaksAnswer : Except Fault Answer → Bool
  | .error .response => true
  | _ => false

theorem eq_error_of_breaksAnswer {result : Except Fault Answer} (h : breaksAnswer result = true) :
    result = .error .response := by
  unfold breaksAnswer at h
  split at h
  · rfl
  · cases h

/-- Null for the name of a schedule is refused by no answer, and null for its parameters is stored:
after that the schedules of its tenant are not listed any more. -/
theorem schedules_unreadable_of_null :
    let tenant := TableName.rowId .tenants 1
    let schedule := TableName.rowId .schedules 1
    let requests := [.toProvision "North", .toDefine "SELECT 1",
      ApiRequest.toSchedule tenant (TableName.rowId .definitions 1)]
    let start := Platform.new (.ofMigrations "migrations") ⟨⟨2024, 5, 1⟩, ⟨9, 0, 0, 0⟩, .offset 0⟩
    let unname : Exchange := ⟨.toPatch tenant schedule [("name", .null)], start.afterAll requests⟩
    let clear : Exchange := ⟨.toPatch tenant schedule [("parameters", .null)], unname.left⟩
    let list : Exchange := ⟨.toListSchedules tenant, clear.left⟩
    History start.settings (Exchange.inTurn start requests ++ [unname] ++ [clear])
        list.met.database ∧
      ((∃ patch, unname.request.Patches schedule patch) ∧ unname.answer = .error .integrity) ∧
      ((∃ patch, clear.request.Patches schedule patch) ∧ clear.answer = .error .response) ∧
      list.request.Asks .listSchedules ∧ list.answer = .error .response := by
  intro tenant schedule requests start unname clear list
  have hpast : History start.settings (Exchange.inTurn start requests) unname.met.database :=
    .ofRequests start rfl rfl requests
  have hsettings : unname.met.settings = start.settings :=
    Platform.afterAll_settings sound_empty requests
  have h := (hpast.next unname rfl hsettings).next clear rfl
    ((unname.steps.follows hpast.sound).settings.trans hsettings)
  obtain ⟨hrefused, hunshown, hunlisted⟩ : breaksTable unname.answer = true ∧
      breaksAnswer clear.answer = true ∧ breaksAnswer list.answer = true := by decide +kernel
  exact ⟨h, ⟨⟨_, patches_first rfl⟩, eq_error_of_breaksTable hrefused⟩,
    ⟨⟨_, patches_first rfl⟩, eq_error_of_breaksAnswer hunshown⟩,
    ⟨"", by decide +kernel⟩, eq_error_of_breaksAnswer hunlisted⟩

end History

end TenantReports
