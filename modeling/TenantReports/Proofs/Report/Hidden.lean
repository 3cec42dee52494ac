import TenantReports.Proofs.Api.Guard
import TenantReports.Proofs.Tenant.Lookups

/-!
Work that cannot tell whether a custom report is stored which its user may not see.
-/

namespace TenantReports

/-- A user who acts for a tenant. -/
structure Viewer where
  tenant : Uuid
  user : Uuid

namespace CustomReport

/-- Whether a report of the viewer's tenant is another user's, or nobody's, and not shared. -/
structure IsHiddenFrom (report : CustomReport) (viewer : Viewer) : Prop where
  tenant : report.tenant = viewer.tenant
  unshared : report.isShared = false
  unowned : report.createdBy ≠ some viewer.user

variable {report : CustomReport} {viewer : Viewer}

theorem isOwnedBy_eq_false (h : report.createdBy ≠ some viewer.user) :
    report.isOwnedBy (some viewer.user) = false := by
  simpa [isOwnedBy] using h

theorem IsHiddenFrom.isVisibleTo (h : report.IsHiddenFrom viewer) :
    report.isVisibleTo (some viewer.user) = false := by
  simpa [CustomReport.isVisibleTo, h.unshared] using h.unowned

end CustomReport

namespace ReportSource

theorem forget_self (id : Uuid) : (custom (some id)).forget id = custom none := by simp [forget]

theorem forget_comm (source : ReportSource) (a b : Uuid) :
    (source.forget a).forget b = (source.forget b).forget a := by
  by_cases ha : source = .custom (some a)
  · by_cases hb : source = .custom (some b)
    · cases ha.symm.trans hb
      rfl
    · rw [forget_of_ne hb, ha, forget_self]
      rfl
  · by_cases hb : source = .custom (some b)
    · rw [forget_of_ne ha, hb, forget_self]
      rfl
    · rw [forget_of_ne ha, forget_of_ne hb, forget_of_ne ha]

end ReportSource

namespace Database

variable {db db' db'' : Database} {viewer : Viewer} {id other : Uuid}

/-- Whether the viewer may see no report with an identifier. -/
def Hides (db : Database) (viewer : Viewer) (id : Uuid) : Prop :=
  ∀ report ∈ db.customReports, report.id = id → report.IsHiddenFrom viewer

/-- The recorded runs of a custom report. -/
def runsOf (db : Database) (id : Uuid) : List Uuid :=
  (db.executions.filter (·.source = .custom (some id))).map (·.id)

/-- A custom report is neither changed nor removed, and it is not run. -/
structure SparesReport (id : Uuid) (db db' : Database) : Prop where
  reports : db'.customReports.filter (·.id == id) = db.customReports.filter (·.id == id)
  runs : db'.runsOf id = db.runsOf id

theorem SparesReport.refl (id : Uuid) (db : Database) : SparesReport id db db := ⟨rfl, rfl⟩

theorem SparesReport.trans (h : SparesReport id db db') (h' : SparesReport id db' db'') :
    SparesReport id db db'' :=
  ⟨h'.reports.trans h.reports, h'.runs.trans h.runs⟩

theorem SparesReport.hides (h : SparesReport id db db') (hhides : db.Hides viewer id) :
    db'.Hides viewer id := by
  intro report hreport hid
  have hmem : report ∈ db'.customReports.filter (·.id == id) :=
    List.mem_filter.mpr ⟨hreport, beq_iff_eq.mpr hid⟩
  rw [h.reports] at hmem
  exact hhides report (List.mem_filter.mp hmem).1 hid

/-! What is found without a report -/

theorem customReport?_removeCustomReport (h : other ≠ id) :
    (db.removeCustomReport id).customReport? other = db.customReport? other := by
  unfold customReport? removeCustomReport
  rw [List.find?_filter]
  refine congrArg (List.find? · db.customReports) (funext fun report => ?_)
  by_cases hid : report.id = other
  · simp [hid, h]
  · simp [hid]

theorem customReport?_removeCustomReport_self :
    (db.removeCustomReport id).customReport? id = none := by
  unfold customReport? removeCustomReport
  rw [List.find?_filter]
  simp

section Conditions

variable {f : CustomReport → Bool}

theorem filter_customReport?_eq_none
    (h : ∀ report ∈ db.customReports, report.id = id → f report = false) :
    (db.customReport? id).filter f = none := by
  rw [Option.filter_eq_none_iff]
  intro report hfound hmeant
  have hid : report.id = id := eq_of_beq (List.find?_some hfound :)
  cases (h report (List.mem_of_find?_eq_some hfound) hid).symm.trans hmeant

/-- A search for reports of which no hidden one is meant does not miss it. -/
theorem filter_customReport?_removeCustomReport (h : db.Hides viewer id)
    (hf : ∀ report, report.IsHiddenFrom viewer → f report = false) (other : Uuid) :
    ((db.removeCustomReport id).customReport? other).filter f =
      (db.customReport? other).filter f := by
  by_cases hid : other = id
  · rw [hid, customReport?_removeCustomReport_self,
      filter_customReport?_eq_none fun report hreport hid => hf report (h report hreport hid)]
    rfl
  · rw [customReport?_removeCustomReport hid]

theorem filter_customReports_removeCustomReport (h : db.Hides viewer id)
    (hf : ∀ report, report.IsHiddenFrom viewer → f report = false) :
    (db.removeCustomReport id).customReports.filter f = db.customReports.filter f := by
  unfold removeCustomReport
  rw [List.filter_filter]
  refine List.filter_congr fun report hreport => ?_
  by_cases hid : report.id = id
  · simp [hf report (h report hreport hid)]
  · simp [hid]

end Conditions

theorem acceptsExecution_removeCustomReport {execution : Execution}
    (h : execution.source ≠ .custom (some id)) :
    (db.removeCustomReport id).acceptsExecution execution = db.acceptsExecution execution := by
  have hsource : (db.removeCustomReport id).hasSource execution.source =
      db.hasSource execution.source := by
    cases hcase : execution.source with
    | definition definition => rfl
    | custom report =>
        cases report with
        | none => rfl
        | some report =>
            rw [hcase] at h
            have hne : report ≠ id := fun heq => h (heq ▸ rfl)
            simp only [hasSource, hasCustomReport, Option.all_some,
              customReport?_removeCustomReport hne]
  unfold acceptsExecution
  rw [hsource]
  rfl

/-! Changes with and without a report -/

theorem removeCustomReport_comm (db : Database) (a b : Uuid) :
    (db.removeCustomReport a).removeCustomReport b =
      (db.removeCustomReport b).removeCustomReport a := by
  simp [removeCustomReport, List.filter_filter, Bool.and_comm, ReportSource.forget_comm _ a b]

theorem addExecution_removeCustomReport {execution : Execution}
    (h : execution.source ≠ .custom (some id)) :
    (db.removeCustomReport id).addExecution execution =
      (db.addExecution execution).removeCustomReport id := by
  simp [removeCustomReport, addExecution, ReportSource.forget_of_ne h]

theorem updateExecution_removeCustomReport (db : Database) (id execution : Uuid)
    (state : ExecutionState) :
    ((db.removeCustomReport id).updateExecution execution fun row => { row with state }) =
      (db.updateExecution execution fun row => { row with state }).removeCustomReport id := by
  simp only [removeCustomReport, updateExecution, List.map_map, Database.mk.injEq, true_and,
    and_true]
  refine List.map_congr_left fun row _ => ?_
  dsimp only [Function.comp_apply]
  split
  · rfl
  · rfl

theorem updateCustomReport_removeCustomReport {changed : CustomReport}
    (hchanged : changed.id = other) :
    ((db.removeCustomReport id).updateCustomReport other fun _ => changed) =
      (db.updateCustomReport other fun _ => changed).removeCustomReport id := by
  have hstays : ∀ row ∈ db.customReports, (row.id != id) =
      ((if row.id = other then changed else row).id != id) := by
    intro row _
    split
    · next hrow => rw [hchanged, hrow]
    · rfl
  have hrows := List.filter_congr hstays
  simp only [removeCustomReport, updateCustomReport, List.filter_map, Database.mk.injEq, true_and,
    and_true]
  exact congrArg (List.map _) hrows

theorem sparesReport_addExecution {execution : Execution}
    (h : execution.source ≠ .custom (some id)) : SparesReport id db (db.addExecution execution) :=
  ⟨rfl, by simp [runsOf, addExecution, h]⟩

theorem sparesReport_updateExecution (db : Database) (id execution : Uuid)
    (state : ExecutionState) :
    SparesReport id db (db.updateExecution execution fun row => { row with state }) := by
  refine ⟨rfl, ?_⟩
  let f (row : Execution) : Execution := if row.id = execution then { row with state } else row
  have hid : (fun row => (f row).id) = Execution.id := by
    funext row
    dsimp only [f]
    split
    · rfl
    · rfl
  have hsource : (fun row => (f row).source) = Execution.source := by
    funext row
    dsimp only [f]
    split
    · rfl
    · rfl
  have hfilter (rows : List Execution) :
      (rows.filter fun row => decide ((f row).source = .custom (some id))) =
        rows.filter (·.source = .custom (some id)) := by
    refine List.filter_congr fun row _ => ?_
    rw [congrFun hsource row]
  unfold runsOf updateExecution
  change (((db.executions.map f).filter _).map _) = _
  rw [List.filter_map, List.map_map]
  change ((db.executions.filter fun row => decide ((f row).source = .custom (some id))).map
    fun row => (f row).id) = _
  rw [hfilter, hid]

theorem sparesReport_updateCustomReport {changed : CustomReport} (h : other ≠ id)
    (hchanged : changed.id = other) :
    SparesReport id db (db.updateCustomReport other fun _ => changed) := by
  refine ⟨?_, rfl⟩
  let f (row : CustomReport) : CustomReport := if row.id = other then changed else row
  have hkept : ∀ row ∈ db.customReports, ((f row).id == id) = (row.id == id) := by
    intro row _
    dsimp only [f]
    split
    · next hrow => rw [hchanged, hrow]
    · rfl
  have hsame : ∀ row ∈ db.customReports.filter (·.id == id), f row = row := by
    intro row hrow
    have hid : row.id = id := eq_of_beq (List.mem_filter.mp hrow).2
    exact if_neg fun heq => h (heq.symm.trans hid)
  change (db.customReports.map f).filter _ = _
  rw [List.filter_map]
  change ((db.customReports.filter fun row => (f row).id == id).map f) = _
  rw [List.filter_congr hkept, List.map_congr_left hsame, List.map_id']

theorem sparesReport_removeCustomReport (h : other ≠ id) :
    SparesReport id db (db.removeCustomReport other) := by
  refine ⟨?_, ?_⟩
  · unfold removeCustomReport
    rw [List.filter_filter]
    refine List.filter_congr fun row _ => ?_
    by_cases hid : row.id = id
    · simp [hid, h.symm]
    · simp [hid]
  · have hsource (source : ReportSource) :
        source.forget other = .custom (some id) ↔ source = .custom (some id) := by
      refine ⟨fun hforgot => ?_, fun heq => ?_⟩
      · rcases ReportSource.forget_cases source other with hsame | ⟨-, hnone⟩
        · exact hsame.symm.trans hforgot
        · cases hnone.symm.trans hforgot
      · rw [heq]
        exact ReportSource.forget_of_ne fun hsame => h (by cases hsame; rfl)
    simp only [runsOf, removeCustomReport, List.filter_map, List.map_map, Function.comp_def,
      hsource]

end Database

/-- The platform as it is once a custom report was removed. -/
def Platform.without (p : Platform) (id : Uuid) : Platform :=
  p.onDatabase (·.removeCustomReport id)

namespace Action

variable {α β : Type} {viewer : Viewer} {id : Uuid}

/-- Whether work of a viewer ends alike with and without a report that is hidden from the viewer,
and spares the report. -/
def IsUnaware (viewer : Viewer) (id : Uuid) (action : Work α) : Prop :=
  ∀ p : Platform, p.database.Hides viewer id →
    action.run (p.without id) = ((action.run p).1, (action.run p).2.without id) ∧
      p.database.SparesReport id (action.run p).2.database

namespace IsUnaware

theorem answer (a : α) : IsUnaware viewer id (pure a : Work α) := fun _ _ => ⟨rfl, .refl _ _⟩

theorem fail (fault : Fault) : IsUnaware viewer id (throw fault : Work α) :=
  fun _ _ => ⟨rfl, .refl _ _⟩

theorem ofResult (result : Result α) : IsUnaware viewer id (ofResult result) := by
  cases result with
  | ok a => exact answer a
  | error fault => exact fail fault

theorem attempt {action : Work α} (h : IsUnaware viewer id action) :
    IsUnaware viewer id (attempt action) := by
  intro p hp
  obtain ⟨hrun, hspares⟩ := h p hp
  rw [run_attempt, run_attempt, hrun]
  exact ⟨rfl, hspares⟩

/-- Where what follows an answer is unaware if the answer can be given to the viewer. -/
theorem bind_of {action : Work α} {next : α → Work β} (h : IsUnaware viewer id action)
    (hnext : ∀ p a q, p.database.Hides viewer id → action.run p = (.ok a, q) →
      IsUnaware viewer id (next a)) : IsUnaware viewer id (action >>= next) := by
  intro p hp
  obtain ⟨hrun, hspares⟩ := h p hp
  rw [run_bind, run_bind, hrun]
  rcases haction : action.run p with ⟨outcome, q⟩
  rw [haction] at hspares
  cases outcome with
  | error fault => exact ⟨rfl, hspares⟩
  | ok a =>
      obtain ⟨hrest, hspares'⟩ := hnext p a q hp haction q (hspares.hides hp)
      exact ⟨hrest, hspares.trans hspares'⟩

theorem bind {action : Work α} {next : α → Work β} (h : IsUnaware viewer id action)
    (hnext : ∀ a, IsUnaware viewer id (next a)) : IsUnaware viewer id (action >>= next) :=
  h.bind_of fun _ a _ _ _ => hnext a

/-- Reading what is the same with and without the report. -/
theorem read {action : Work α} {f : Platform → α} (hrun : ∀ p, action.run p = (.ok (f p), p))
    (hsame : ∀ p : Platform, p.database.Hides viewer id → f (p.without id) = f p) :
    IsUnaware viewer id action := by
  intro p hp
  rw [hrun, hrun, hsame p hp]
  exact ⟨rfl, .refl _ _⟩

theorem get {next : Platform → Work β} (h : ∀ p, IsUnaware viewer id (next p))
    (hsame : ∀ p : Platform, next (p.without id) = next p) :
    IsUnaware viewer id (MonadState.get >>= next) := by
  intro p hp
  have hrun (q : Platform) : (MonadState.get >>= next : Work β).run q = (next q).run q := rfl
  rw [hrun, hrun, hsame]
  exact h p p hp

theorem updateDatabase {f : Database → Database}
    (hcomm : ∀ db, f (db.removeCustomReport id) = (f db).removeCustomReport id)
    (hspares : ∀ db : Database, db.SparesReport id (f db)) :
    IsUnaware viewer id (Work.updateDatabase f) := by
  intro p _
  have hrun (q : Platform) : (Work.updateDatabase f).run q = (.ok (), q.onDatabase f) := rfl
  rw [hrun, hrun]
  refine ⟨congrArg (Prod.mk _) ?_, hspares p.database⟩
  unfold Platform.without Platform.onDatabase
  dsimp only
  rw [hcomm]

theorem connection : IsUnaware viewer id connection := fun _ _ => ⟨rfl, .refl _ _⟩

theorem updateConnection (f : Connection → Connection) :
    IsUnaware viewer id (updateConnection f) := fun _ _ => ⟨rfl, .refl _ _⟩

theorem onConnection (f : Connection → Except Fault Unit × Connection) :
    IsUnaware viewer id (onConnection f) := by
  intro p _
  rw [run_onConnection, run_onConnection]
  exact ⟨rfl, .refl _ _⟩

theorem execute (sql : String) : IsUnaware viewer id (execute sql) := onConnection _

theorem commit : IsUnaware viewer id commit :=
  connection.bind fun _ => (onConnection _).bind fun _ _ _ => ⟨rfl, .refl _ _⟩

theorem rollbackIfActive : IsUnaware viewer id rollbackIfActive := by
  refine connection.bind fun c => ?_
  split
  · exact updateConnection _
  · exact answer ()

theorem commitIfActive : IsUnaware viewer id commitIfActive := by
  refine connection.bind fun c => ?_
  split
  · exact commit
  · exact answer ()

theorem setPath (schemaName : String) : IsUnaware viewer id (setPath schemaName) := by
  refine ((execute _).bind fun _ => commit).attempt.bind fun outcome => ?_
  cases outcome with
  | ok => exact answer ()
  | error fault => exact fail _

theorem restore : IsUnaware viewer id restore := by
  have hreset : IsUnaware viewer id resetPath :=
    rollbackIfActive.bind fun _ => (execute _).bind fun _ => commit
  refine hreset.attempt.bind fun outcome => ?_
  cases outcome with
  | ok => exact answer true
  | error fault => exact (updateConnection _).bind fun _ => answer false

theorem scopedTo {action : Work α} (h : IsUnaware viewer id action) (schema : Value) :
    IsUnaware viewer id (scopedTo schema action) := by
  refine (ofResult _).bind fun name => (updateConnection _).bind fun _ => ?_
  have hwork : IsUnaware viewer id (work name action) :=
    (setPath name).bind fun _ => h.bind fun a => commitIfActive.bind fun _ => answer a
  refine hwork.attempt.bind fun outcome => restore.bind fun isReset => ?_
  refine (updateConnection _).bind fun _ => ?_
  cases outcome with
  | error fault => exact fail fault
  | ok a =>
      cases isReset with
      | true => exact answer a
      | false => exact fail _

theorem inSession {action : Work α} (h : IsUnaware viewer id action) (schema : Value) :
    IsUnaware viewer id (inSession schema action) :=
  scopedTo (h.attempt.bind fun outcome => rollbackIfActive.bind fun _ => ofResult outcome) schema

theorem forM {f : β → Work Unit} (h : ∀ b, IsUnaware viewer id (f b)) (items : List β) :
    IsUnaware viewer id (items.forM f) := by
  induction items with
  | nil => exact answer ()
  | cons item items ih => exact (h item).bind fun _ => ih

theorem mapM {f : β → Work α} (h : ∀ b, IsUnaware viewer id (f b)) (items : List β) :
    IsUnaware viewer id (items.mapM f) := by
  induction items with
  | nil => exact answer []
  | cons item items ih =>
      rw [List.mapM_cons]
      exact (h item).bind fun a => ih.bind fun rest => answer (a :: rest)

end IsUnaware

end Action

namespace Work

open Action (IsUnaware)

variable {α : Type} {viewer : Viewer} {id : Uuid}

theorem isUnaware_require (fault : Fault) (found : Option α) :
    IsUnaware viewer id (require fault found) := by
  cases found with
  | none => exact .fail fault
  | some a => exact .answer a

theorem isUnaware_now : IsUnaware viewer id now := fun _ _ => ⟨rfl, .refl _ _⟩

theorem isUnaware_query (sql : String) : IsUnaware viewer id (query sql) := by
  have hnext : IsUnaware viewer id nextReply := by
    intro p _
    rw [run_nextReply, run_nextReply]
    exact ⟨rfl, .refl _ _⟩
  refine IsUnaware.bind (IsUnaware.onConnection _) fun _ => hnext.bind fun reply => ?_
  cases reply with
  | result keys rows => exact .answer _
  | rejected text => exact .fail _
  | crashed text => exact .fail _
  | cancelled => exact .fail _

theorem isUnaware_insertExecution {make : Uuid → Execution}
    (h : ∀ row, (make row).source ≠ .custom (some id)) :
    IsUnaware viewer id (insertExecution make) := by
  intro p _
  have hattempt (db : Database) : (db.removeCustomReport id).attempt .executions =
      (db.attempt .executions).removeCustomReport id := rfl
  have hnext (db : Database) : (db.removeCustomReport id).nextId .executions =
      db.nextId .executions := rfl
  have hspares : p.database.SparesReport id (p.database.attempt .executions) := ⟨rfl, rfl⟩
  unfold insertExecution
  rw [run_insert, run_insert]
  unfold Platform.without Platform.onDatabase
  dsimp only
  rw [hattempt, hnext, Database.acceptsExecution_removeCustomReport (h _)]
  split
  · rw [Database.addExecution_removeCustomReport (h _)]
    exact ⟨rfl, hspares.trans (Database.sparesReport_addExecution (h _))⟩
  · exact ⟨rfl, hspares⟩

end Work

namespace Directory

open Action (IsUnaware)

variable {viewer : Viewer} {id : Uuid}

theorem isUnaware_remember (key : String) (answer : Bool) :
    IsUnaware viewer id (remember key answer) := by
  intro p _
  have hexpiry : TimedAnswer.expiryAfter (p.without id).settings.cache.ttl (p.without id).now =
      TimedAnswer.expiryAfter p.settings.cache.ttl p.now := rfl
  rw [run_remember, run_remember, hexpiry]
  cases TimedAnswer.expiryAfter p.settings.cache.ttl p.now with
  | error fault => exact ⟨rfl, .refl _ _⟩
  | ok expiry => exact ⟨rfl, .refl _ _⟩

theorem isUnaware_tableExists (schema table : Value) (usesCache : Bool) :
    IsUnaware viewer id (tableExists schema table usesCache) := by
  have hlook (table : TenantTable) : IsUnaware viewer id (lookUp table) :=
    fun _ _ => ⟨rfl, .refl _ _⟩
  have hcached (key : String) : IsUnaware viewer id (cached? key) := fun _ _ => ⟨rfl, .refl _ _⟩
  refine (IsUnaware.ofResult _).bind fun schemaName => (IsUnaware.ofResult _).bind fun name => ?_
  refine IsUnaware.get (fun p => ?_) fun _ => rfl
  split
  · refine (hcached _).bind fun answer => ?_
    cases answer with
    | some answer => exact .answer _
    | none =>
        exact (hlook _).bind fun answer => (isUnaware_remember _ answer).bind fun _ => .answer _
  · exact hlook _

theorem isUnaware_resolveSchema (tenant : Uuid) : IsUnaware viewer id (resolveSchema tenant) := by
  refine IsUnaware.bind (.read (f := fun p => p.database.tenant? tenant) (fun _ => rfl)
    fun _ _ => rfl) fun found => (Work.isUnaware_require _ _).bind fun t => ?_
  split
  · exact (IsUnaware.ofResult _).bind fun _ => .answer _
  · exact .fail _

end Directory

end TenantReports
