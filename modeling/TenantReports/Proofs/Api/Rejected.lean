import TenantReports.Proofs.Api.Acting
import TenantReports.Proofs.Report.Checked

/-!
Rejected changes leave no trace: what a service does before it fails keeps all rows, and what
follows a service that succeeded is no rejection.
-/

namespace TenantReports

open Action (IsAside Reads)

/-! Actions that fail -/

/-- The tables hold the same rows. How many inserts were attempted is no part of a row. -/
structure Database.SameRows (db db' : Database) : Prop where
  tenants : db'.tenants = db.tenants
  definitions : db'.definitions = db.definitions
  executions : db'.executions = db.executions
  snapshots : db'.snapshots = db.snapshots
  customReports : db'.customReports = db.customReports
  schedules : db'.schedules = db.schedules

namespace Database.SameRows

variable {db db' db'' : Database}

theorem refl (db : Database) : db.SameRows db := ⟨rfl, rfl, rfl, rfl, rfl, rfl⟩

theorem trans (h : db.SameRows db') (h' : db'.SameRows db'') : db.SameRows db'' :=
  ⟨h'.tenants.trans h.tenants, h'.definitions.trans h.definitions,
    h'.executions.trans h.executions, h'.snapshots.trans h.snapshots,
    h'.customReports.trans h.customReports, h'.schedules.trans h.schedules⟩

theorem of_eq (h : db' = db) : db.SameRows db' := h ▸ refl db

theorem attempt (db : Database) (table : TableName) : db.SameRows (db.attempt table) :=
  ⟨rfl, rfl, rfl, rfl, rfl, rfl⟩

end Database.SameRows

namespace Action

variable {α β : Type}

theorem Reads.isAside {action : Work α} (h : Reads action) : IsAside action := fun p => by
  rw [h p]
  exact .refl p

/-- Whether the rows are those that an action met, if it fails. -/
def FailsCleanly (action : Work α) : Prop :=
  ∀ p fault, (action.run p).1 = .error fault → p.database.SameRows (action.run p).2.database

namespace FailsCleanly

theorem of_aside {action : Work α} (h : IsAside action) : FailsCleanly action := fun p _ _ =>
  .of_eq (h p).database

/-- A change that nothing is checked for cannot fail, and neither can the answer after it. -/
theorem change (f : Database → Database) : FailsCleanly (Work.updateDatabase f) :=
  fun _ _ h => nomatch h

theorem changeAndAnswer (f : Database → Database) (a : α) :
    FailsCleanly (do Work.updateDatabase f; return a) := fun _ _ h => nomatch h

theorem after {action : Work α} {next : α → Work β} (h : IsAside action)
    (hnext : ∀ a, FailsCleanly (next a)) : FailsCleanly (action >>= next) := by
  intro p fault hfails
  obtain ⟨q, hsame, ⟨fault', hrun⟩ | ⟨a, hrun⟩⟩ := h.cases p
  · rw [run_bind_of_error hrun]
    exact .of_eq hsame.database
  · rw [run_bind_of_ok hrun] at hfails ⊢
    rw [← hsame.database]
    exact hnext a q fault hfails

theorem insert {table : TableName} {accepts : Database → α → Bool}
    {add : Database → α → Database} {make : Uuid → α} :
    FailsCleanly (Work.insert table accepts add make) := by
  intro p fault hfails
  have hrun := Work.run_insert table accepts add make p
  split at hrun
  · rw [hrun] at hfails
    cases hfails
  · rw [hrun]
    exact .attempt p.database table

theorem refusing {action : Work α} (h : FailsCleanly action)
    (refusal? : Fault → Option Refusal) : FailsCleanly (Guard.refusing refusal? action) := by
  intro p fault hfails
  rw [Guard.left_refusing]
  rcases hrun : action.run p with ⟨outcome, q⟩
  cases outcome with
  | error fault' =>
      have hkept := h p fault' (congrArg Prod.fst hrun)
      rwa [hrun] at hkept
  | ok a =>
      rw [Guard.run_refusing_of_ok hrun] at hfails
      cases hfails

end FailsCleanly

end Action

open Action (FailsCleanly)

/-! Services that fail -/

namespace Definitions

theorem failsCleanly_create (draft : DefinitionDraft) (user : Option Uuid) :
    FailsCleanly (create draft user) :=
  .after (.ofResult _) fun _ => .after (Reads.isAside fun _ => rfl) fun _ => .insert

theorem failsCleanly_deactivate (id : Uuid) (tenant : Option Uuid) :
    FailsCleanly (deactivate id tenant) :=
  .after (reads_get id tenant).isAside fun _ => .changeAndAnswer _ _

end Definitions

namespace CustomReports

theorem isAside_validateChange (schemaName : String) (report : CustomReport) (changes : Entries) :
    IsAside (validateChange schemaName report changes) := by
  refine (IsAside.ofResult _).bind fun old => (IsAside.ofResult _).bind fun spec => ?_
  exact (isAside_validate schemaName spec).bind fun _ => .answer ()

theorem failsCleanly_create (schemaName : String) (tenant : Uuid) (draft : CustomReportDraft)
    (user : Option Uuid) (role : Option String) :
    FailsCleanly (create schemaName tenant draft user role) := by
  refine .after (reads_authorize _ _).isAside fun spec => ?_
  refine .after (isAside_validate _ _) fun sql => ?_
  exact .after (Reads.isAside fun _ => rfl) fun now => .insert

theorem failsCleanly_preview (schemaName : String) (spec : ReportSpec) (role : Option String) :
    FailsCleanly (preview schemaName spec role) :=
  .of_aside ((reads_authorize _ _).isAside.bind fun _ => isAside_validate _ _)

/-- An update changes the report only once nothing stands against the change any more. -/
theorem failsCleanly_update (schemaName : String) (tenant id : Uuid) (patch : CustomReportPatch)
    (given : Value) (user : Option Uuid) :
    FailsCleanly (update schemaName tenant id patch given user) := by
  refine .after (reads_getOwned _ _ _).isAside fun report => ?_
  have hchange : FailsCleanly (do
      let changed ← Work.require .integrity (report.change? (changesOf patch given))
      Work.updateDatabase (·.updateCustomReport id fun _ => changed)
      return changed) := .after (Work.reads_require _ _).isAside fun _ => .changeAndAnswer _ _
  dsimp only
  split
  · exact .after (isAside_validateChange _ _ _) fun _ => hchange
  · exact hchange

theorem failsCleanly_delete (tenant id : Uuid) (user : Option Uuid) :
    FailsCleanly (delete tenant id user) :=
  .after (reads_getOwned _ _ _).isAside fun _ => .change _

end CustomReports

namespace Schedules

theorem failsCleanly_create (tenant : Uuid) (draft : ScheduleDraft) (user : Option Uuid) :
    FailsCleanly (create tenant draft user) := by
  refine .after (Definitions.reads_get _ _).isAside fun definition => ?_
  refine .after (reads_nextRunFromNow _ _).isAside fun next => ?_
  exact .after (Reads.isAside fun _ => rfl) fun now => .insert

theorem failsCleanly_update (tenant id : Uuid) (patch : SchedulePatch) (given : Value) :
    FailsCleanly (update tenant id patch given) := by
  refine .after (reads_get _ _).isAside fun schedule => ?_
  refine .after (reads_nextRunAfterChanges _ _).isAside fun nextRunAt => ?_
  exact .after (Work.reads_require _ _).isAside fun changed => .changeAndAnswer _ _

theorem failsCleanly_delete (tenant id : Uuid) : FailsCleanly (delete tenant id) :=
  .after (reads_get _ _).isAside fun _ => .change _

end Schedules

/-! Requests that are rejected -/

/-- The statuses by which a request for a change is rejected. -/
def rejectedStatuses : List Nat := [400, 403, 404, 409, 422]

/-- Whether work ends in a rejection. -/
def Rejects : Except Fault Answer → Prop
  | .ok answer => answer.status ∈ rejectedStatuses
  | .error (.refused refusal) => refusal.status ∈ rejectedStatuses
  | .error _ => False

/-- Whether the rows are those that the work met, if it ends in a rejection. -/
def LeavesNoTrace (work : Work Answer) : Prop :=
  ∀ p, Rejects (work.run p).1 → p.database.SameRows (work.run p).2.database

namespace LeavesNoTrace

variable {α : Type} {request : ApiRequest} {guard : Work Unit} {given : Validated α}

theorem after {action : Work α} {next : α → Work Answer} (h : IsAside action)
    (hnext : ∀ a, LeavesNoTrace (next a)) : LeavesNoTrace (action >>= next) := by
  intro p hrejects
  obtain ⟨q, hsame, ⟨fault, hrun⟩ | ⟨a, hrun⟩⟩ := h.cases p
  · rw [Action.run_bind_of_error hrun]
    exact .of_eq hsame.database
  · rw [Action.run_bind_of_ok hrun] at hrejects ⊢
    rw [← hsame.database]
    exact hnext a q hrejects

/-- A rejection after which nothing is rejected comes from a service that failed. -/
theorem of_service {action : Work α} {next : α → Work Answer} (h : FailsCleanly action)
    (hnext : ∀ a p, ¬ Rejects ((next a).run p).1) : LeavesNoTrace (action >>= next) := by
  intro p hrejects
  rcases hrun : action.run p with ⟨outcome, q⟩
  cases outcome with
  | error fault =>
      have hkept := h p fault (congrArg Prod.fst hrun)
      rw [hrun] at hkept
      rw [Action.run_bind_of_error hrun]
      exact hkept
  | ok a =>
      rw [Action.run_bind_of_ok hrun] at hrejects
      exact absurd hrejects (hnext a q)

theorem serve (hguard : Reads guard) {act : α → Work Answer} (h : ∀ a, LeavesNoTrace (act a)) :
    LeavesNoTrace (Guard.serve guard given act) := by
  refine after hguard.isAside fun _ => after ?_ h
  cases given with
  | valid a => exact .answer a
  | invalid issues => exact .fail _

theorem serveTenant (hguard : Reads guard) {act : TenantContext → α → Work Answer}
    (h : ∀ context a, LeavesNoTrace (act context a)) :
    LeavesNoTrace (Guard.serveTenant request guard given act) := by
  refine after (Guard.reads_tenantOf request).isAside fun tenant => ?_
  have hact : ∀ parts : TenantContext × α, LeavesNoTrace (act parts.1 parts.2) := fun parts =>
    h parts.1 parts.2
  exact serve hguard hact

/-- A session that rejects is one whose work rejects: a connection that fails is no rejection. -/
theorem rejects_of_told {context : TenantContext} {c : Connection} {outcome : Except Fault Answer}
    (h : Rejects (Guard.sessionTold (Action.told context.schemaName c outcome))) :
    Rejects outcome := by
  cases outcome with
  | ok answer =>
      by_cases hreset : c.ResetFails
      · rw [Action.told_of_resetFails _ hreset] at h
        cases h
      · rwa [Action.told_of_not_resetFails _ hreset] at h
  | error fault =>
      cases fault with
      | searchPath change schemaName =>
          cases change with
          | set => exact absurd h (by decide : 503 ∉ rejectedStatuses)
          | reset => cases h
      | _ => exact h

theorem serveInSchema (hguard : Reads guard) {act : TenantContext → α → Work Answer}
    (h : ∀ context a, LeavesNoTrace (act context a)) :
    LeavesNoTrace (Guard.serveInSchema request guard given act) := by
  intro p hrejects
  rcases Guard.serveInSchema_cases hguard act with hsame | ⟨context, a, henters, hpassed, hgiven⟩
  · exact .of_eq hsame.database
  rw [Guard.run_serveInSchema henters.toActsFor, henters.outcome_inSchema,
    Guard.run_serve hpassed hgiven] at hrejects
  have hwork := h context a _ (rejects_of_told hrejects)
  rw [(Action.sameTables_entered context.schemaName p).database] at hwork
  exact hwork.trans (.of_eq (henters.sameTables hpassed hgiven).database)

end LeavesNoTrace

namespace Api

variable (request : ApiRequest) (argument : String)

/-- What shows a row fails with a fault that refuses nothing. -/
theorem shownCustomReport_accepted (answer : Value → Answer)
    (haccepted : ∀ v, (answer v).status ∉ rejectedStatuses) (row : CustomReport) (p : Platform) :
    ¬ Rejects ((do return answer (← shownCustomReport row) : Work Answer).run p).1 := by
  unfold shownCustomReport
  split
  · exact fun h => h
  · exact haccepted _

theorem shownSchedule_accepted (answer : Value → Answer)
    (haccepted : ∀ v, (answer v).status ∉ rejectedStatuses) (row : Schedule) (p : Platform) :
    ¬ Rejects ((do return answer (← shownSchedule row) : Work Answer).run p).1 := by
  unfold shownSchedule
  split
  · exact haccepted _
  · exact fun h => h

theorem ok_accepted (v : Value) : (Answer.ok v).status ∉ rejectedStatuses :=
  (by decide : 200 ∉ rejectedStatuses)

theorem created_accepted (v : Value) : (Answer.created v).status ∉ rejectedStatuses :=
  (by decide : 201 ∉ rejectedStatuses)

theorem noContent_accepted : Answer.noContent.status ∉ rejectedStatuses :=
  (by decide : 204 ∉ rejectedStatuses)

theorem leavesNoTrace_createDefinition : LeavesNoTrace (createDefinition request) :=
  .serve Guard.reads_requireManager fun _ =>
    .of_service ((Definitions.failsCleanly_create _ _).refusing _) fun _ _ => created_accepted _

theorem leavesNoTrace_deactivateDefinition :
    LeavesNoTrace (deactivateDefinition request argument) :=
  .serveTenant Guard.reads_requireManager fun _ _ =>
    .of_service ((Definitions.failsCleanly_deactivate _ _).refusing _) fun _ _ => noContent_accepted

theorem leavesNoTrace_createCustomReport : LeavesNoTrace (createCustomReport request) :=
  .serveInSchema Guard.reads_noGuard fun _ _ =>
    .of_service ((CustomReports.failsCleanly_create _ _ _ _ _).refusing _)
      (shownCustomReport_accepted .created created_accepted)

theorem leavesNoTrace_previewCustomReport : LeavesNoTrace (previewCustomReport request) :=
  .serveInSchema Guard.reads_noGuard fun _ _ =>
    .of_service ((CustomReports.failsCleanly_preview _ _ _).refusing _) fun _ _ => ok_accepted _

theorem leavesNoTrace_updateCustomReport : LeavesNoTrace (updateCustomReport request argument) :=
  .serveInSchema Guard.reads_noGuard fun _ _ =>
    .of_service ((CustomReports.failsCleanly_update _ _ _ _ _ _).refusing _)
      (shownCustomReport_accepted .ok ok_accepted)

theorem leavesNoTrace_deleteCustomReport : LeavesNoTrace (deleteCustomReport request argument) :=
  .serveInSchema Guard.reads_noGuard fun _ _ =>
    .of_service ((CustomReports.failsCleanly_delete _ _ _).refusing _) fun _ _ => noContent_accepted

theorem leavesNoTrace_createSchedule : LeavesNoTrace (createSchedule request) :=
  .serveTenant Guard.reads_noGuard fun _ _ =>
    .of_service ((Schedules.failsCleanly_create _ _ _).refusing _)
      (shownSchedule_accepted .created created_accepted)

theorem leavesNoTrace_updateSchedule : LeavesNoTrace (updateSchedule request argument) :=
  .serveTenant Guard.reads_noGuard fun _ _ =>
    .of_service ((Schedules.failsCleanly_update _ _ _ _).refusing _)
      (shownSchedule_accepted .ok ok_accepted)

theorem leavesNoTrace_deleteSchedule : LeavesNoTrace (deleteSchedule request argument) :=
  .serveTenant Guard.reads_noGuard fun _ _ =>
    .of_service ((Schedules.failsCleanly_delete _ _).refusing _) fun _ _ => noContent_accepted

end Api

/-- Whether an endpoint is there to change custom reports, schedules or definitions, or to preview
such a change. -/
def Endpoint.isForChanges : Endpoint → Bool
  | createDefinition | deactivateDefinition
  | createCustomReport | previewCustomReport | updateCustomReport | deleteCustomReport
  | createSchedule | updateSchedule | deleteSchedule => true
  | _ => false

theorem Api.leavesNoTrace_act {endpoint : Endpoint} (hfor : endpoint.isForChanges = true)
    (request : ApiRequest) (argument : String) :
    LeavesNoTrace (Api.act request argument endpoint) := by
  cases endpoint with
  | createDefinition => exact leavesNoTrace_createDefinition request
  | deactivateDefinition => exact leavesNoTrace_deactivateDefinition request argument
  | createCustomReport => exact leavesNoTrace_createCustomReport request
  | previewCustomReport => exact leavesNoTrace_previewCustomReport request
  | updateCustomReport => exact leavesNoTrace_updateCustomReport request argument
  | deleteCustomReport => exact leavesNoTrace_deleteCustomReport request argument
  | createSchedule => exact leavesNoTrace_createSchedule request
  | updateSchedule => exact leavesNoTrace_updateSchedule request argument
  | deleteSchedule => exact leavesNoTrace_deleteSchedule request argument
  | _ => cases hfor

/-- A request is answered with the status of a rejection if its work ends in one. -/
theorem Api.rejects_of_answered {request : ApiRequest} {outcome : Except Fault Answer}
    {answer : Answer} (h : Api.answered request outcome = .ok answer)
    (rejected : answer.status ∈ rejectedStatuses) : Rejects outcome := by
  cases outcome with
  | ok given =>
      cases h
      rwa [Api.status_sentTo] at rejected
  | error fault =>
      cases fault with
      | refused refusal =>
          cases h
          rwa [Api.status_sentTo] at rejected
      | _ => cases h

namespace Exchange

/-- A request for a change that is rejected leaves every row of every table as it met it, whatever
the platform was that it met. -/
theorem sameRows_of_rejected (e : Exchange) {endpoint : Endpoint} (asks : e.request.Asks endpoint)
    (change : endpoint.isForChanges = true) {answer : Answer} (answered : e.answer = .ok answer)
    (rejected : answer.status ∈ rejectedStatuses) :
    e.met.database.SameRows e.left.database := by
  obtain ⟨argument, htarget⟩ := asks
  rw [answer_of_target htarget] at answered
  rw [left_of_target htarget]
  exact Api.leavesNoTrace_act change e.request argument e.met
    (Api.rejects_of_answered answered rejected)

/-- A patch gives a report a name, and a filter that no query can have: the report keeps its name,
too. -/
theorem sameRows_of_rejected_filter :
    let tenant := TableName.rowId .tenants 1
    let report := TableName.rowId .customReports 1
    let requests := [.toProvision "North", ApiRequest.toCompose tenant "invoices" "amount"]
    let filter := Value.record
      [("column", .text "amount"), ("operator", .text "IN"), ("value", .list [])]
    let patch : Exchange := ⟨.toRevise tenant report
      [("name", .text "Fees"), ("filters", .list [filter])],
      Platform.invoicesOnly.afterAll requests⟩
    (patch.request.Asks .updateCustomReport ∧
      patch.answer.toOption.map (·.status) = some 400) ∧
      patch.met.database.SameRows patch.left.database ∧
      patch.left.database.customReports.map (·.name) = ["Report"] := by
  intro tenant report requests filter patch
  have hasks : patch.request.Asks .updateCustomReport := ⟨report.toText, by decide +kernel⟩
  obtain ⟨hstatus, hnames⟩ : patch.answer.toOption.map (·.status) = some 400 ∧
      patch.left.database.customReports.map (·.name) = ["Report"] := by decide +kernel
  obtain ⟨answer, hanswer, hrejected⟩ := Option.map_eq_some_iff.mp hstatus
  refine ⟨⟨hasks, hstatus⟩, ?_, hnames⟩
  refine sameRows_of_rejected patch hasks rfl (eq_ok_of_toOption hanswer) ?_
  rw [hrejected]
  exact List.mem_cons_self

end Exchange

end TenantReports
