import TenantReports.Api.Serve
import TenantReports.Proofs.Database.Table
import TenantReports.Proofs.Platform.Aside

/-!
What requests do to the shared tables, step by step. Every request is a chain of these steps, and
what holds of a history of requests is found by what each step keeps.
-/

namespace TenantReports

open Relation (ReflTransGen)
open Table (IsLater)

namespace Runs

/-- How a run stands whose query ended with an outcome. -/
def endState (time : DateTime) : Except Fault (List String × List Entries) → ExecutionState
  | .ok (_, rows) => .completed rows.length time
  | .error fault => .failed (failureText fault) time

/-- A query that is sent for an order. -/
structure Sending where
  order : Order
  parameters : Entries
  sql : String
  /-- The platform before the run is recorded. -/
  before : Platform

namespace Sending

/-- The row of the run while it is running. -/
def row (sending : Sending) : Execution :=
  { id := sending.before.database.nextId .executions
    source := sending.order.source
    tenant := sending.order.tenant
    executedBy := sending.order.user
    parameters := sending.parameters
    state := .running
    exportUrl := none
    startedAt := sending.before.now }

/-- The platform that the query is sent from. -/
def begun (sending : Sending) : Platform :=
  sending.before.onDatabase fun db => (db.attempt .executions).addExecution sending.row

/-- How the query ends. -/
def outcome (sending : Sending) : Except Fault (List String × List Entries) :=
  ((Work.query sending.sql).run sending.begun).1

/-- The platform once the query has ended. -/
def after (sending : Sending) : Platform := ((Work.query sending.sql).run sending.begun).2

def state (sending : Sending) : ExecutionState := endState sending.after.now sending.outcome

/-- The platform once the run is ended. -/
def left (sending : Sending) : Platform :=
  sending.after.onDatabase (·.updateExecution sending.row.id fun execution =>
    { execution with state := sending.state })

/-- The row of the run once it is ended. -/
def ended (sending : Sending) : Execution := { sending.row with state := sending.state }

end Sending

end Runs

namespace Database

def HasReady (db : Database) (tenant : Uuid) (schemaName : String) : Prop :=
  ∃ t, db.tenant? tenant = some t ∧ t.status = .ready ∧ t.schemaName = schemaName

/-- The tables that reports are made from are the same, and nothing was taken back. -/
structure Continues (db db' : Database) : Prop where
  tenants : db'.tenants = db.tenants
  definitions : db'.definitions = db.definitions
  customReports : db'.customReports = db.customReports
  attempts : ∀ table, db.attempts.count table ≤ db'.attempts.count table

theorem Continues.refl (db : Database) : Continues db db := ⟨rfl, rfl, rfl, fun _ => Nat.le_refl _⟩

theorem Continues.trans {db₁ db₂ db₃ : Database} (h : Continues db₁ db₂)
    (h' : Continues db₂ db₃) : Continues db₁ db₃ :=
  ⟨h'.tenants.trans h.tenants, h'.definitions.trans h.definitions,
    h'.customReports.trans h.customReports,
    fun table => Nat.le_trans (h.attempts table) (h'.attempts table)⟩

theorem Continues.of_eq {db db' : Database} (h : db' = db) : Continues db db' := h ▸ .refl db

/-- Only the snapshots are changed by one that is put among them. -/
theorem putSnapshot_frame (db : Database) (snapshot : Snapshot) :
    ∃ snapshots, db.putSnapshot snapshot = { db with snapshots } := by
  unfold putSnapshot
  split
  · exact ⟨_, rfl⟩
  · exact ⟨_, rfl⟩

@[simp] theorem executions_putSnapshot (db : Database) (snapshot : Snapshot) :
    (db.putSnapshot snapshot).executions = db.executions := by
  obtain ⟨snapshots, heq⟩ := db.putSnapshot_frame snapshot
  rw [heq]

@[simp] theorem schedules_putSnapshot (db : Database) (snapshot : Snapshot) :
    (db.putSnapshot snapshot).schedules = db.schedules := by
  obtain ⟨snapshots, heq⟩ := db.putSnapshot_frame snapshot
  rw [heq]

@[simp] theorem attempts_putSnapshot (db : Database) (snapshot : Snapshot) :
    (db.putSnapshot snapshot).attempts = db.attempts := by
  obtain ⟨snapshots, heq⟩ := db.putSnapshot_frame snapshot
  rw [heq]

theorem continues_putSnapshot (db : Database) (snapshot : Snapshot) :
    db.Continues (db.putSnapshot snapshot) := by
  obtain ⟨snapshots, heq⟩ := db.putSnapshot_frame snapshot
  rw [heq]
  exact ⟨rfl, rfl, rfl, fun _ => Nat.le_refl _⟩

theorem continues_attempt (db : Database) (table : TableName) : db.Continues (db.attempt table) :=
  ⟨rfl, rfl, rfl, fun _ => List.count_le_count_cons⟩

end Database

/-- Whether a request goes to an endpoint. -/
def ApiRequest.Asks (request : ApiRequest) (endpoint : Endpoint) : Prop :=
  ∃ argument, Route.targetOf request.method request.path = .endpoint endpoint argument

theorem ApiRequest.Asks.eq {request : ApiRequest} {endpoint other : Endpoint}
    (h : request.Asks endpoint) (h' : request.Asks other) : endpoint = other := by
  obtain ⟨argument, htarget⟩ := h
  obtain ⟨argument', htarget'⟩ := h'
  exact (Route.Target.endpoint.inj (htarget.symm.trans htarget')).1

/-- Whether a request patches a schedule. -/
structure ApiRequest.Patches (request : ApiRequest) (id : Uuid) (patch : SchedulePatch) : Prop where
  target : ∃ argument, Route.targetOf request.method request.path =
    .endpoint .updateSchedule argument ∧ Api.scheduleId argument = .valid id
  written : request.readBody SchedulePatch.read = .valid patch

theorem ApiRequest.Patches.asks {request : ApiRequest} {id : Uuid} {patch : SchedulePatch}
    (h : request.Patches id patch) : request.Asks .updateSchedule :=
  h.target.imp fun _ htarget => htarget.1

/-- Whether a request goes to an endpoint that exports results. -/
def ApiRequest.MayExport (request : ApiRequest) : Prop :=
  request.Asks .runDefinition ∨ request.Asks .processSchedules

/-- Whether the roles that a definition lists, if it lists any, are open to a role. -/
def Definition.IsOpenTo (definition : Definition) (role : Option String) : Prop :=
  requirePermitted (.texts definition.rolePermissions) (.orNull .text role) definition.id.toText =
    .ok ()

/-- Whether a request may run something by itself: a definition that is open to the role which the
request names, or any custom report, as those are open to every role. -/
inductive ApiRequest.MayRun (request : ApiRequest) (db : Database) : ReportSource → Prop
  | definition {definition : Definition} (stored : db.definition? definition.id = some definition)
      (isOpen : definition.IsOpenTo request.role) : MayRun request db (.definition definition.id)
  | custom (report : Option Uuid) : MayRun request db (.custom report)

namespace Api

/-- What the query of a run for a tenant is made from: the template of a definition that is
offered to the tenant, or a custom report of the tenant. -/
inductive Sources (tenant : Uuid) (db : Database) : ReportSource → String → Prop
  | template {definition : Definition} {parameters : Entries} {schemaName sql : String}
      (stored : db.definition? definition.id = some definition)
      (offered : Definitions.isOffered (some tenant) definition = true)
      (ready : db.HasReady tenant schemaName)
      (rendered : Template.render (.trusted definition.queryTemplate) parameters
        (.text schemaName) = .ok sql) :
      Sources tenant db (.definition definition.id) sql
  | spec {report : CustomReport} {spec : ReportSpec} {schemaName sql : String}
      (stored : db.customReport? report.id = some report) (owned : report.tenant = tenant)
      (ready : db.HasReady tenant schemaName) (read : report.spec.toSpec = .ok spec)
      (compiled : compile schemaName spec = .ok sql) :
      Sources tenant db (.custom (some report.id)) sql

/-- What lets a request run something: that it may run it by itself, or that it is a batch with a
schedule of the definition. -/
inductive Cause (request : ApiRequest) (past : Database) (schedules : List Schedule) :
    ReportSource → Prop
  | own {source : ReportSource} (mayRun : request.MayRun past source) :
      Cause request past schedules source
  | schedule {schedule : Schedule} (asked : request.Asks .processSchedules)
      (stored : schedule ∈ schedules) :
      Cause request past schedules (.definition schedule.definition)

/-- A step of a request that met the tables `past`, in work for a tenant or for none. -/
inductive Step (request : ApiRequest) (past : Database) :
    Option Uuid → Platform → Platform → Prop
  | aside {owner : Option Uuid} {p q : Platform} (h : p.SameTables q) : Step request past owner p q
  /-- An insert that the rules of the tables refuse. -/
  | refused {owner : Option Uuid} {p : Platform} (table : TableName) :
      Step request past owner p (p.onDatabase (·.attempt table))
  | enter {p : Platform} {tenant : Tenant} {draft : TenantDraft}
      (asked : request.Asks .provisionTenant)
      (written : request.readBody TenantDraft.read = .valid draft)
      (named : tenant.schemaName = Directory.schemaNameFor draft.name draft.schemaName)
      (valid : Sql.isIdentifier tenant.schemaName = true)
      (id : tenant.id = p.database.nextId .tenants)
      (accepted : (p.database.attempt .tenants).acceptsTenant tenant = true) :
      Step request past none p (p.onDatabase fun db => (db.attempt .tenants).addTenant tenant)
  | settle {p : Platform} (id : Uuid) (status : TenantStatus) (error : Option String) :
      Step request past none p
        (p.onDatabase (·.updateTenant id fun t => { t with status, preparationError := error }))
  | define {p : Platform} {draft : DefinitionDraft} {user : Option Uuid}
      (manager : p.settings.reports.isManager request.role = true)
      (written : request.readBody DefinitionDraft.read = .valid draft) :
      Step request past none p
        (p.onDatabase fun db => (db.attempt .definitions).addDefinition
          (.ofDraft draft user p.now (db.nextId .definitions)))
  | deactivate {p : Platform} {tenant : Uuid} {definition : Definition}
      (stored : p.database.definition? definition.id = some definition)
      (offered : Definitions.isOffered (some tenant) definition = true) :
      Step request past (some tenant) p
        (p.onDatabase (·.updateDefinition definition.id fun d => { d with isActive := false }))
  /-- The row of a run is stored as running, the query is sent, and the row is ended. -/
  | run {tenant : Uuid} {sending : Runs.Sending}
      (kept : past.Continues sending.before.database)
      (own : sending.order.tenant = some tenant)
      (source : Sources tenant past sending.order.source sending.sql)
      (cause : Cause request past sending.before.database.schedules sending.order.source) :
      Step request past (some tenant) sending.before sending.left
  | keep {p : Platform} {tenant : Uuid} {snapshot : Snapshot} (own : snapshot.tenant = tenant)
      (id : snapshot.id = p.database.nextId .snapshots) :
      Step request past (some tenant) p
        (p.onDatabase fun db => (db.attempt .snapshots).putSnapshot snapshot)
  | file {p : Platform} {tenant execution : Uuid} {store : LocalStore} (asked : request.MayExport)
      (later : IsLater past .executions execution) (extension content : String) :
      Step request past (some tenant) p
        { p with
          store := some (store.put (Runs.exportKey tenant execution extension) content).2 }
  | export {p : Platform} {tenant : Uuid} {execution : Execution} (asked : request.MayExport)
      (stored : execution ∈ p.database.executions) (own : execution.tenant = some tenant)
      (later : IsLater past .executions execution.id) (url : String) :
      Step request past (some tenant) p
        (p.onDatabase (·.updateExecution execution.id fun execution =>
          { execution with exportUrl := some url }))
  | create {p : Platform} {tenant : Uuid} {draft : CustomReportDraft} {user : Option Uuid}
      (asked : request.Asks .createCustomReport)
      (authored : draft.spec.joins = [] ∨ p.settings.reports.isManager request.role = true)
      (written : request.readBody CustomReportDraft.read = .valid draft) :
      Step request past (some tenant) p
        (p.onDatabase fun db => (db.attempt .customReports).addCustomReport
          (.ofDraft draft tenant user p.now (db.nextId .customReports)))
  | change {p : Platform} {tenant : Uuid} {report changed : CustomReport} {changes : Entries}
      (asked : request.Asks .updateCustomReport)
      (stored : p.database.customReport? report.id = some report) (own : report.tenant = tenant)
      (made : report.change? changes = some changed) :
      Step request past (some tenant) p
        (p.onDatabase (·.updateCustomReport report.id fun _ => changed))
  /-- A custom report is removed before anything else is done. -/
  | remove {p : Platform} {tenant : Uuid} {report : CustomReport}
      (asked : request.Asks .deleteCustomReport) (first : p.database = past)
      (stored : p.database.customReport? report.id = some report) (own : report.tenant = tenant) :
      Step request past (some tenant) p (p.onDatabase (·.removeCustomReport report.id))
  | schedule {p : Platform} {tenant : Uuid} {draft : ScheduleDraft} {user : Option Uuid}
      {next : DateTime} (asked : request.Asks .createSchedule)
      (written : request.readBody ScheduleDraft.read = .valid draft)
      (timed : (Schedules.nextRunFromNow draft.type draft.config.form.withoutNulls).run p =
        (.ok next, p)) :
      Step request past (some tenant) p
        (p.onDatabase fun db => (db.attempt .schedules).addSchedule
          (.ofDraft draft tenant user next p.now (db.nextId .schedules)))
  | reschedule {p : Platform} {tenant : Uuid} {schedule changed : Schedule}
      {patch : SchedulePatch} {changes : Entries} {nextRunAt : Option DateTime}
      (patched : request.Patches schedule.id patch)
      (given : changes = Schedules.changesOf patch (request.body.getD .null))
      (stored : p.database.schedule? schedule.id = some schedule) (own : schedule.tenant = tenant)
      (timed : (Schedules.nextRunAfterChanges schedule changes).run p = (.ok nextRunAt, p))
      (made : schedule.change? changes = some changed) :
      Step request past (some tenant) p
        (p.onDatabase (·.updateSchedule schedule.id fun _ =>
          { changed with type := Schedules.typeAfter schedule changes, nextRunAt := nextRunAt }))
  | unschedule {p : Platform} {tenant : Uuid} {schedule : Schedule}
      (asked : request.Asks .deleteSchedule)
      (stored : p.database.schedule? schedule.id = some schedule)
      (own : schedule.tenant = tenant) :
      Step request past (some tenant) p (p.onDatabase (·.removeSchedule schedule.id))
  | advance {p : Platform} {tenant : Uuid} {schedule : Schedule} {last next : DateTime}
      (asked : request.Asks .processSchedules)
      (stored : p.database.schedule? schedule.id = some schedule) (own : schedule.tenant = tenant)
      (timed : (Schedules.nextRunFromNow schedule.type schedule.config).run p = (.ok next, p))
      (ended : p.now.inUniversal? = some last) :
      Step request past (some tenant) p
        (p.onDatabase (·.updateSchedule schedule.id fun _ =>
          { schedule with lastRunAt := some last, nextRunAt := some next }))

/-- A step for a tenant or for none. -/
def AnyStep (request : ApiRequest) (past : Database) (p q : Platform) : Prop :=
  ∃ owner, Step request past owner p q

abbrev Steps (request : ApiRequest) (past : Database) : Platform → Platform → Prop :=
  ReflTransGen (AnyStep request past)

end Api

end TenantReports
