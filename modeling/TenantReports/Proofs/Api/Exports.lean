import TenantReports.Proofs.Report.Exporting
import TenantReports.Proofs.Schedule.Batch

/-!
The exports that requests make: that of a run which is requested with a format, and those of the
schedules in a batch. Before, between and after them nothing is exported.
-/

namespace TenantReports

open Action (Meets Reads tenantPath)
open Platform (KeepsExports)
open Relation (ReflTransGen)
open Runs (Exporting Recorded)

namespace Action

variable {σ α β : Type} {s s' s'' : σ}

theorem left_attemptUncancelled (action : Action σ α) (s : σ) :
    ((attemptUncancelled action).run s).2 = (action.run s).2 := by
  unfold attemptUncancelled
  refine (left_bind (fun outcome => ?_) s).trans rfl
  split
  · exact .fail _
  · exact .answer _

section Lists

variable {f : β → Action σ α} {items : List β} {item : β} {answers : List α}

theorem left_mapM_append (h : (items.mapM f).run s = (.ok answers, s')) (rest : List β) :
    (((items ++ rest).mapM f).run s).2 = ((rest.mapM f).run s').2 := by
  rw [List.mapM_append, run_bind_of_ok h]
  exact left_bind (fun _ => .answer _) s'

theorem run_mapM_concat {a : α} (h : (items.mapM f).run s = (.ok answers, s'))
    (hlast : (f item).run s' = (.ok a, s'')) :
    ((items ++ [item]).mapM f).run s = (.ok (answers ++ [a]), s'') := by
  rw [List.mapM_append, run_bind_of_ok h, List.mapM_cons, bind_assoc, run_bind_of_ok hlast]
  rfl

/-- The items after the first begin where it ends, unless it fails. -/
theorem left_mapM_cons (f : β → Action σ α) (item : β) (rest : List β) (s : σ) :
    (∃ fault, ((f item).run s).1 = .error fault ∧
      (((item :: rest).mapM f).run s).2 = ((f item).run s).2) ∨
    ∃ a, (f item).run s = (.ok a, ((f item).run s).2) ∧
      (((item :: rest).mapM f).run s).2 = ((rest.mapM f).run ((f item).run s).2).2 := by
  rw [List.mapM_cons]
  rcases hrun : (f item).run s with ⟨outcome, s'⟩
  cases outcome with
  | error fault =>
      rw [run_bind_of_error hrun]
      exact .inl ⟨fault, rfl, rfl⟩
  | ok a =>
      rw [run_bind_of_ok hrun]
      exact .inr ⟨a, rfl, left_bind (fun _ => .answer _) s'⟩

end Lists

end Action

/-- Whether the run of an export was recorded since `p`, with no export before this one. -/
abbrev Runs.Exporting.Follows (x : Exporting) (p : Platform) : Prop :=
  Recorded p x.tenant x.result.execution x.before

/-- From one platform to another nothing is exported, or a run is recorded and exported. -/
inductive ExportStep (Makes : Exporting → Prop) : Platform → Platform → Prop
  | keeps {p q : Platform} (h : p.KeepsExports q) : ExportStep Makes p q
  | exports {p : Platform} {x : Exporting} (made : Makes x) (follows : x.Follows p) :
      ExportStep Makes p x.left

theorem ExportStep.mono {Makes Makes' : Exporting → Prop} {p q : Platform}
    (h : ExportStep Makes p q) (hmakes : ∀ x, Makes x → Makes' x) : ExportStep Makes' p q := by
  cases h with
  | keeps hkept => exact .keeps hkept
  | exports made follows => exact .exports (hmakes _ made) follows

/-! Batches -/

namespace Batch

variable {schedule : Schedule} {p q : Platform} {x : Exporting}

/-- The export of a schedule that has its turn at `p`: the definition gave a result in the schema
of the tenant. -/
inductive TurnMakes (schedule : Schedule) (p : Platform) : Exporting → Prop
  | ran {schemaName : String} {definition : Definition} {result : ReportResult} {before : Platform}
      (resolved : (Directory.resolveSchema schedule.tenant).run p = (.ok schemaName, p))
      (found : (Definitions.get schedule.definition (some schedule.tenant)).run p =
        (.ok definition, p))
      (entered : ¬ p.connection.borrow.PathFails (tenantPath schemaName))
      (gave : (Runs.runDefinition schemaName definition (Form.entriesOf schedule.parameters)
        (some schedule.tenant) schedule.createdBy).run (Action.entered schemaName p) =
        (.ok result, before)) :
      TurnMakes schedule p ⟨result, schedule.exportFormat, schedule.tenant, before⟩

theorem run_runSchedule {schemaName : String} {definition : Definition}
    (resolved : (Directory.resolveSchema schedule.tenant).run p = (.ok schemaName, p))
    (found : (Definitions.get schedule.definition (some schedule.tenant)).run p =
      (.ok definition, p)) :
    (runSchedule schedule).run p =
      (Action.inSession (.text schemaName) (report schedule schemaName definition)).run p := by
  unfold runSchedule
  rw [Action.run_bind_of_ok resolved, Action.run_bind_of_ok found]

theorem isIdentifier_of_resolved {tenant : Uuid} {schemaName : String}
    (resolved : (Directory.resolveSchema tenant).run p = (.ok schemaName, p)) :
    Sql.isIdentifier schemaName = true :=
  ((Directory.resolveSchema_meets (S := fun _ _ => True) tenant).answers schemaName
    (congrArg Prod.fst resolved)).2.2

theorem TurnMakes.follows (h : TurnMakes schedule p x) : x.Follows p := by
  cases h with
  | @ran schemaName definition result before resolved found entered gave =>
      have hrecorded := (Runs.runDefinition_records schemaName definition
        (Form.entriesOf schedule.parameters) schedule.tenant schedule.createdBy
        (Action.entered schemaName p)).answers result (congrArg Prod.fst gave)
      rw [gave] at hrecorded
      exact hrecorded.of_sameTables (Action.sameTables_entered schemaName p)

/-- The run of the schedule ends with its export. -/
theorem TurnMakes.left (h : TurnMakes schedule p x) :
    x.left.SameTables ((runSchedule schedule).run p).2 := by
  cases h with
  | @ran schemaName definition result before resolved found entered gave =>
      obtain ⟨q, hrun, hsame, -⟩ := Action.run_inSession_of_not_fails
        (isIdentifier_of_resolved resolved) entered (report schedule schemaName definition)
      have hleft : ((report schedule schemaName definition).run (Action.entered schemaName p)).2 =
          (Exporting.mk result schedule.exportFormat schedule.tenant before).left := by
        unfold report
        rw [Action.run_bind_of_ok gave]
        exact Action.left_bind (fun _ => .answer _) before
      rw [run_runSchedule resolved found, hrun, ← hleft]
      exact hsame

theorem keepsExports_or_makes (schedule : Schedule) (p : Platform) :
    p.KeepsExports ((runSchedule schedule).run p).2 ∨ ∃ x, TurnMakes schedule p x := by
  rcases (Directory.reads_resolveSchema schedule.tenant).cases p with
    ⟨fault, hresolved⟩ | ⟨schemaName, hresolved⟩
  · unfold runSchedule
    rw [Action.run_bind_of_error hresolved]
    exact .inl (.refl p)
  rcases (Definitions.reads_get schedule.definition (some schedule.tenant)).cases p with
    ⟨fault, hfound⟩ | ⟨definition, hfound⟩
  · unfold runSchedule
    rw [Action.run_bind_of_ok hresolved, Action.run_bind_of_error hfound]
    exact .inl (.refl p)
  have hname := isIdentifier_of_resolved hresolved
  by_cases hfails : p.connection.borrow.PathFails (tenantPath schemaName)
  · obtain ⟨q, hrun, hsame, -⟩ := Action.run_inSession_of_fails hname hfails
      (report schedule schemaName definition)
    rw [run_runSchedule hresolved hfound, hrun]
    exact .inl (.of_sameTables hsame)
  rcases hgave : (Runs.runDefinition schemaName definition (Form.entriesOf schedule.parameters)
    (some schedule.tenant) schedule.createdBy).run (Action.entered schemaName p) with ⟨outcome, r⟩
  cases outcome with
  | ok result => exact .inr ⟨_, .ran hresolved hfound hfails hgave⟩
  | error fault =>
      obtain ⟨q, hrun, hsame, -⟩ := Action.run_inSession_of_not_fails hname hfails
        (report schedule schemaName definition)
      have hkept := KeepsExports.of_steps (Runs.runDefinition_records schemaName definition
        (Form.entriesOf schedule.parameters) schedule.tenant schedule.createdBy
        (Action.entered schemaName p)).steps
      unfold report at hsame
      rw [Action.run_bind_of_error hgave] at hsame
      rw [hgave] at hkept
      rw [run_runSchedule hresolved hfound, hrun]
      exact .inl (((KeepsExports.of_sameTables (Action.sameTables_entered schemaName p)).trans
        hkept).trans (.of_sameTables hsame))

theorem advance_keepsExports (id : Uuid) (p : Platform) :
    Meets KeepsExports (Schedules.advance id none) p fun _ _ => True := by
  unfold Schedules.advance
  refine ((Schedules.reads_get id none).meets p).bind fun schedule q _ _ => ?_
  refine ((Schedules.reads_nextRunFromNow _ _).meets q).bind fun next r _ _ => ?_
  refine .read (a := r.now) rfl ((Work.require_meets _ _).bind fun last s _ _ => ?_)
  have hstep : Meets KeepsExports (Work.updateDatabase (·.updateSchedule id fun _ =>
      { schedule with lastRunAt := some last, nextRunAt := some next })) s fun _ _ => True :=
    .step (.of_rows rfl (le_refl _) rfl) trivial
  exact hstep.bind fun _ _ _ _ => .answer trivial

section Turns

variable {turn : Schedule}

/-- What follows the run of a schedule in its turn exports nothing. -/
theorem keepsExports_processOne
    (found : (Schedules.get turn.id none).run p = (.ok schedule, p)) :
    ((runSchedule schedule).run p).2.KeepsExports ((processOne turn.id).run p).2 := by
  have hleft := Action.left_attemptUncancelled (runSchedule schedule) p
  unfold processOne
  rw [Action.run_bind_of_ok found, ← hleft]
  rcases hrun : (Action.attemptUncancelled (runSchedule schedule)).run p with ⟨outcome, q⟩
  cases outcome with
  | error fault =>
      rw [Action.run_bind_of_error hrun]
      exact .refl q
  | ok outcome =>
      rw [Action.run_bind_of_ok hrun, Action.left_bind (fun _ => .answer _)]
      exact .of_steps (advance_keepsExports turn.id q).steps

theorem exportSteps_processOne {Makes : Exporting → Prop} (turn : Schedule) (p : Platform)
    (h : ∀ schedule x, (Schedules.get turn.id none).run p = (.ok schedule, p) →
      TurnMakes schedule p x → Makes x) :
    ReflTransGen (ExportStep Makes) p ((processOne turn.id).run p).2 := by
  rcases (Schedules.reads_get turn.id none).cases p with ⟨fault, hget⟩ | ⟨schedule, hget⟩
  · unfold processOne
    rw [Action.run_bind_of_error hget]
  have hrest := keepsExports_processOne hget
  rcases keepsExports_or_makes schedule p with hkeeps | ⟨x, hx⟩
  · exact .single (.keeps (hkeeps.trans hrest))
  · exact .tail (.single (.exports (h schedule x hget hx) hx.follows))
      (.keeps ((KeepsExports.of_sameTables hx.left).trans hrest))

/-- The exports of a batch, each made when its schedule has its turn. -/
inductive Makes (due : List Schedule) (p : Platform) : Exporting → Prop
  | turn {earlier later : List Schedule} {turn schedule : Schedule} {outcomes : List RunOutcome}
      {q : Platform} {x : Exporting} (split : due = earlier ++ turn :: later)
      (ran : (earlier.mapM fun schedule => processOne schedule.id).run p = (.ok outcomes, q))
      (found : (Schedules.get turn.id none).run q = (.ok schedule, q))
      (made : TurnMakes schedule q x) : Makes due p x

variable {due earlier later : List Schedule} {outcomes : List RunOutcome}

/-- The turns of a batch, from the first that was not had. The induction is on the turns that
follow: what was had before them grows by one with each. -/
theorem exportSteps_turns (middle : List Schedule)
    (ran : (earlier.mapM fun schedule => processOne schedule.id).run p = (.ok outcomes, q))
    (split : due = earlier ++ (middle ++ later)) :
    ReflTransGen (ExportStep (Makes due p)) q
      ((middle.mapM fun schedule => processOne schedule.id).run q).2 := by
  induction middle generalizing earlier outcomes q with
  | nil => exact .refl
  | cons turn middle ih =>
      have hone : ReflTransGen (ExportStep (Makes due p)) q ((processOne turn.id).run q).2 :=
        exportSteps_processOne turn q fun schedule x hfound hmade => .turn split ran hfound hmade
      rcases Action.left_mapM_cons (fun schedule => processOne schedule.id) turn middle q with
        ⟨fault, -, hleft⟩ | ⟨outcome, hrun, hleft⟩
      · rw [hleft]
        exact hone
      · rw [hleft]
        exact hone.trans (ih (Action.run_mapM_concat ran hrun) (by rw [split]; simp))

/-- An export of a batch is one of its steps. -/
theorem Makes.between (h : Makes due p x) :
    ∃ q, ReflTransGen (ExportStep (Makes due p)) p q ∧ x.Follows q ∧
      ReflTransGen (ExportStep (Makes due p)) x.left
        ((due.mapM fun schedule => processOne schedule.id).run p).2 := by
  cases h with
  | @turn earlier later turn schedule outcomes q _ split ran found made =>
      have hbefore : ReflTransGen (ExportStep (Makes due p)) p
          ((earlier.mapM fun schedule => processOne schedule.id).run p).2 :=
        exportSteps_turns earlier
          (show (([] : List Schedule).mapM fun schedule => processOne schedule.id).run p =
            (.ok [], p) from rfl) split
      have hrest : x.left.KeepsExports ((processOne turn.id).run q).2 :=
        (KeepsExports.of_sameTables made.left).trans (keepsExports_processOne found)
      rw [ran] at hbefore
      refine ⟨q, hbefore, made.follows, .head (.keeps hrest) ?_⟩
      subst split
      rw [Action.left_mapM_append ran]
      rcases Action.left_mapM_cons (fun schedule => processOne schedule.id) turn later q with
        ⟨fault, -, hleft⟩ | ⟨outcome, hrun, hleft⟩
      · rw [hleft]
      · rw [hleft]
        have hsplit : earlier ++ turn :: later = (earlier ++ [turn]) ++ (later ++ []) := by simp
        exact exportSteps_turns later (Action.run_mapM_concat ran hrun) hsplit

end Turns

end Batch

/-! Requests -/

namespace Api

/-- What a request for a run gives: who asks, the definition, and the options of the run. -/
def runGiven (request : ApiRequest) (argument : String) :
    Validated (Option Uuid × Uuid × RunRequest) :=
  (fun user id run => (user, id, run)) <$> request.user <*> definitionId argument
    <*> request.readBody RunRequest.read

/-- The limit that a request for a batch gives. -/
def batchLimit (request : ApiRequest) : Validated (Option Int) :=
  request.optionalParameter "limit" (Read.wholeIn (some 1) (some largestBatch))

/-- What is done for a request for a run that is let into the schema of its tenant. -/
def runGranted (role : Option String) (context : TenantContext)
    (given : Option Uuid × Uuid × RunRequest) : Work Answer := do
  let result ← runFor context given.2.1 given.2.2.parameters given.1 role
  return .ok (shownResult (← exported context given.2.2.exportFormat result))

theorem left_exported (context : TenantContext) (result : ReportResult) (format : String)
    (p : Platform) : ((exported context (some format) result).run p).2 =
      (Exporting.mk result format context.tenant p).left :=
  (Action.left_bind (fun _ => .answer _) p).trans (Guard.left_refusing _ _ p)

end Api

namespace Exchange

variable {e : Exchange} {x : Exporting} {context : TenantContext}
  {given : Option Uuid × Uuid × RunRequest} {due : List Schedule}

/-- Whether the request of an exchange is let into the schema of its tenant for a run. -/
structure EntersToRun (e : Exchange) (context : TenantContext)
    (given : Option Uuid × Uuid × RunRequest) : Prop where
  asked : ∃ argument, Route.targetOf e.request.method e.request.path =
    .endpoint .runDefinition argument ∧ Api.runGiven e.request argument = .valid given
  stored : e.met.store.isSome = true
  entered : Guard.Enters e.request e.met context

/-- Whether the request of an exchange is one for a batch of these schedules. -/
structure StartsBatch (e : Exchange) (due : List Schedule) : Prop where
  asked : e.request.Asks .processSchedules
  stored : e.met.store.isSome = true
  selected : ∃ limit, Api.batchLimit e.request = .valid limit ∧
    (Schedules.due (Batch.limitOf e.met.settings limit) e.met.now).run e.met = (.ok due, e.met)

/-- The exports that an exchange makes: of the result of a run, in the format that is asked for
with it, and of the results of a batch, each in the format of its schedule. -/
inductive Makes (e : Exchange) : Exporting → Prop
  | requested {context : TenantContext} {user : Option Uuid} {id : Uuid} {options : RunRequest}
      {format : String} {result : ReportResult} {before : Platform}
      (runs : e.EntersToRun context (user, id, options)) (wanted : options.exportFormat = some format)
      (gave : (Api.runFor context id options.parameters user e.request.role).run
        (Action.entered context.schemaName e.met) = (.ok result, before)) :
      Makes e ⟨result, format, context.tenant, before⟩
  | scheduled {due : List Schedule} {x : Exporting} (runs : e.StartsBatch due)
      (made : Batch.Makes due e.met x) : Makes e x

/-- What a request for a run leaves: the tables that its work leaves. -/
theorem EntersToRun.sameTables (h : e.EntersToRun context given) :
    ((Api.runGranted e.request.role context given).run
      (Action.entered context.schemaName e.met)).2.SameTables e.left := by
  obtain ⟨argument, htarget, hread⟩ := h.asked
  have hpassed : Guard.requireStore.run (Action.entered context.schemaName e.met) =
      (.ok (), Action.entered context.schemaName e.met) := by
    rw [Guard.run_requireStore, (Action.sameTables_entered context.schemaName e.met).store]
    exact h.stored
  rw [left_of_target htarget]
  exact h.entered.sameTables hpassed hread

theorem sameTables_or_entersToRun (asked : e.request.Asks .runDefinition) :
    e.met.SameTables e.left ∨ ∃ context given, e.EntersToRun context given := by
  obtain ⟨argument, htarget⟩ := asked
  have hcases : e.met.SameTables ((Api.runDefinition e.request argument).run e.met).2 ∨ _ :=
    Guard.serveInSchema_cases Guard.reads_requireStore (Api.runGranted e.request.role)
  rw [left_of_target htarget]
  refine hcases.imp_right ?_
  rintro ⟨context, given, hentered, hpassed, hread⟩
  refine ⟨context, given, ⟨argument, htarget, hread⟩, ?_, hentered⟩
  rw [Guard.run_requireStore, (Action.sameTables_entered context.schemaName e.met).store] at hpassed
  exact hpassed

/-- What a request for a batch leaves: what the turns of its schedules leave. -/
theorem StartsBatch.left (h : e.StartsBatch due) :
    e.left = ((due.mapM fun schedule => Batch.processOne schedule.id).run e.met).2 := by
  obtain ⟨argument, htarget⟩ := h.asked
  obtain ⟨limit, hread, hdue⟩ := h.selected
  have hserved : (Api.processSchedules e.request).run e.met = (do
      let outcomes ← Batch.processDue limit
      return .ok (.record ((Batch.summary outcomes).fields ++
        [("results", .list (outcomes.map Api.shownOutcome))])) : Work Answer).run e.met :=
    Guard.run_serve (Guard.run_requireStore.mpr h.stored) hread
  rw [left_of_target htarget, ← Batch.run_processDue hdue]
  exact (congrArg Prod.snd hserved).trans (Action.left_bind (fun _ => .answer _) e.met)

theorem left_eq_or_startsBatch (asked : e.request.Asks .processSchedules) :
    e.left = e.met ∨ ∃ due, e.StartsBatch due := by
  obtain ⟨argument, htarget⟩ := asked
  have hcases : ((Api.processSchedules e.request).run e.met).2 = e.met ∨
      ∃ limit, Guard.requireStore.run e.met = (.ok (), e.met) ∧
        Api.batchLimit e.request = .valid limit :=
    Guard.serve_cases Guard.reads_requireStore _
  rw [left_of_target htarget]
  refine hcases.imp_right ?_
  rintro ⟨limit, hpassed, hread⟩
  obtain ⟨due, hdue, -⟩ := Batch.run_due (Batch.limitOf e.met.settings limit) e.met
  exact ⟨due, ⟨argument, htarget⟩, Guard.run_requireStore.mp hpassed, limit, hread, hdue⟩

section Granted

variable {user : Option Uuid} {id : Uuid} {options : RunRequest} {result : ReportResult}
  {before : Platform}

/-- The run of a request that is let in, once it gave a result. -/
theorem EntersToRun.exported (h : e.EntersToRun context (user, id, options))
    (gave : (Api.runFor context id options.parameters user e.request.role).run
      (Action.entered context.schemaName e.met) = (.ok result, before)) :
    Recorded e.met context.tenant result.execution before ∧
      ((Api.exported context options.exportFormat result).run before).2.SameTables e.left := by
  have hrecorded := (Api.runFor_records context id options.parameters user e.request.role
    (Action.entered context.schemaName e.met)).answers result (congrArg Prod.fst gave)
  have hsame := h.sameTables
  unfold Api.runGranted at hsame
  rw [gave] at hrecorded
  rw [Action.run_bind_of_ok gave, Action.left_bind fun _ => .answer _] at hsame
  exact ⟨hrecorded.of_sameTables (Action.sameTables_entered context.schemaName e.met), hsame⟩

theorem EntersToRun.exportSteps (h : e.EntersToRun context (user, id, options)) :
    ReflTransGen (ExportStep e.Makes) e.met e.left := by
  rcases hgave : (Api.runFor context id options.parameters user e.request.role).run
    (Action.entered context.schemaName e.met) with ⟨outcome, before⟩
  cases outcome with
  | error fault =>
      have hkept := KeepsExports.of_steps (Api.runFor_records context id options.parameters user
        e.request.role (Action.entered context.schemaName e.met)).steps
      have hsame := h.sameTables
      unfold Api.runGranted at hsame
      rw [Action.run_bind_of_error hgave] at hsame
      rw [hgave] at hkept
      have hinto := KeepsExports.of_sameTables (Action.sameTables_entered context.schemaName e.met)
      exact .single (.keeps ((hinto.trans hkept).trans (.of_sameTables hsame)))
  | ok result =>
      obtain ⟨hrecorded, hsame⟩ := h.exported hgave
      cases hwanted : options.exportFormat with
      | none =>
          rw [hwanted] at hsame
          exact .single (.keeps (hrecorded.kept.trans (.of_sameTables hsame)))
      | some format =>
          rw [hwanted, Api.left_exported] at hsame
          exact .tail (.single (.exports (.requested h hwanted hgave) hrecorded))
            (.keeps (.of_sameTables hsame))

end Granted

theorem StartsBatch.makes (h : e.StartsBatch due) (p q : Platform)
    (hstep : ExportStep (Batch.Makes due e.met) p q) : ExportStep e.Makes p q :=
  hstep.mono fun _ made => .scheduled h made

/-- An export that an exchange makes is one of its steps. -/
theorem Makes.between (h : e.Makes x) :
    ∃ p, ReflTransGen (ExportStep e.Makes) e.met p ∧ x.Follows p ∧
      ReflTransGen (ExportStep e.Makes) x.left e.left := by
  cases h with
  | requested runs wanted gave =>
      obtain ⟨hrecorded, hsame⟩ := runs.exported gave
      rw [wanted, Api.left_exported] at hsame
      exact ⟨e.met, .refl, hrecorded, .single (.keeps (.of_sameTables hsame))⟩
  | scheduled runs made =>
      obtain ⟨p, hbefore, hfollows, hafter⟩ := made.between
      rw [runs.left]
      exact ⟨p, ReflTransGen.mono runs.makes _ _ hbefore, hfollows,
        ReflTransGen.mono runs.makes _ _ hafter⟩

/-- An exchange goes by steps that export nothing but what it makes. -/
theorem exportSteps (e : Exchange) : ReflTransGen (ExportStep e.Makes) e.met e.left := by
  by_cases hrun : e.request.Asks .runDefinition
  · rcases sameTables_or_entersToRun hrun with hsame | ⟨context, ⟨user, id, options⟩, hruns⟩
    · exact .single (.keeps (.of_sameTables hsame))
    · exact hruns.exportSteps
  by_cases hbatch : e.request.Asks .processSchedules
  · rcases left_eq_or_startsBatch hbatch with hleft | ⟨due, hruns⟩
    · rw [hleft]
    · have hnone : (([] : List Schedule).mapM fun schedule => Batch.processOne schedule.id).run
          e.met = (.ok [], e.met) := rfl
      have hsteps := Batch.exportSteps_turns due hnone (List.append_nil due).symm
      rw [hruns.left]
      exact ReflTransGen.mono hruns.makes _ _ hsteps
  · have hother : ¬ e.request.MayExport := fun h => h.elim hrun hbatch
    exact .single (.keeps (Api.keepsExports_serve hother e.met))

end Exchange

end TenantReports
