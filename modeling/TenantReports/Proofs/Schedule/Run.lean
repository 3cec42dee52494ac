import TenantReports.Proofs.Api.Isolation
import TenantReports.Proofs.Platform.Session
import TenantReports.Proofs.Schedule.Report

/-!
One schedule's run in a batch: what it sends over the connection, whose rows it touches, and when
it succeeds.
-/

namespace TenantReports

open Action (Meets startOf tenantPath)
open Api (Cause ReportStep Sound)
open Connection (defaultPath pathStatement)
open Relation (ReflTransGen)

namespace Connection

theorem startOf_log (schemaName : String) (c : Connection) :
    ∃ events, (startOf schemaName c).log = c.log ++ events ∧ .invalidate ∉ events :=
  (continues_changePath (tenantPath schemaName) c.borrow).events

/-- Where the queries are the same, the events since are none. -/
theorem quiet_of_queries {c c' : Connection} {events : List ConnectionEvent}
    (hlog : c'.log = c.log ++ events) (hqueries : c'.queries = c.queries) :
    ∀ event ∈ events, event.query? = none := by
  unfold queries at hqueries
  rw [hlog, List.filterMap_append] at hqueries
  exact List.filterMap_eq_nil_iff.mp (List.append_right_eq_self.mp hqueries)

end Connection

namespace Batch

/-- What a schedule's run does on its connection. It sends no query, or one, right after the search
path was set for good: from a definition that is active and that the tenant of the schedule sees,
in the schema of the tenant. -/
inductive RunEvents (db : Database) (schedule : Schedule) : List ConnectionEvent → Prop
  | quiet {events : List ConnectionEvent} (none : ∀ event ∈ events, event.query? = none) :
      RunEvents db schedule events
  | queried {definition : Definition} {schemaName sql : String} {rest : List ConnectionEvent}
      (stored : db.definition? schedule.definition = some definition)
      (active : definition.isActive = true)
      (visible : definition.isVisibleTo (some schedule.tenant) = true)
      (ready : db.HasReady schedule.tenant schemaName)
      (rendered : Template.render (.trusted definition.queryTemplate)
        (Form.entriesOf schedule.parameters) (.text schemaName) = .ok sql)
      (quiet : ∀ event ∈ rest, event.query? = none) :
      RunEvents db schedule
        (.statement (pathStatement (tenantPath schemaName)) :: .commit :: .query sql :: rest)

/-- A schedule's run is completed, its export is stored and its URL recorded, and the search path
was set to the schema of the tenant and back without an error. -/
structure Delivered (schedule : Schedule) (execution : Uuid) (events : List ConnectionEvent)
    (p q : Platform) : Prop where
  exported : Runs.Exported p.database schedule.tenant (.definition schedule.definition) execution q
  set : ∃ schemaName, p.database.HasReady schedule.tenant schemaName ∧
    ¬ p.connection.borrow.PathFails (tenantPath schemaName)
  reset : q.connection.searchPath = defaultPath ∧ .invalidate ∉ events

/-- A schedule's run from `p` to `q`. -/
structure Ran (schedule : Schedule) (outcome : Except Fault Uuid) (events : List ConnectionEvent)
    (p q : Platform) : Prop where
  log : q.connection.log = p.connection.log ++ events
  sent : RunEvents p.database schedule events
  delivered : ∀ execution, outcome = .ok execution → Delivered schedule execution events p q
  succeeds : ∀ execution, Delivered schedule execution events p q →
    ∃ execution, outcome = .ok execution

/-- A row with an export that was not there before. -/
theorem new_of_exported {past : Database} {tenant execution : Uuid} {source : ReportSource}
    {q : Platform} (hsound : Sound past)
    (h : Runs.Exported past tenant source execution q) :
    ∃ row ∈ q.database.executions, row ∉ past.executions ∧ row.exportUrl ≠ none := by
  obtain ⟨hlater, row, hrow, hid, -, -, -, store, extension, content, -, -, hurl⟩ := h
  refine ⟨row, hrow, fun hold => ?_, ?_⟩
  · exact hsound.executions.id_ne_of_isLater hlater hold hid
  · rw [hurl]
    exact fun h => nomatch h

variable {request : ApiRequest} {schedule : Schedule} {p : Platform}

/-- A run that touches no table sends no query and succeeds in nothing. -/
theorem Ran.failed {fault : Fault} {events : List ConnectionEvent} {q : Platform}
    (hsound : Sound p.database) (hsame : p.SameTables q)
    (hlog : q.connection.log = p.connection.log ++ events) :
    Ran schedule (.error fault) events p q := by
  refine ⟨hlog, .quiet (Connection.quiet_of_queries hlog hsame.queries), fun _ h => (nomatch h), ?_⟩
  intro execution hdelivered
  obtain ⟨row, hrow, hnew, -⟩ := new_of_exported hsound hdelivered.exported
  rw [hsame.database] at hrow
  exact absurd hrow hnew

section Session

variable {schemaName : String} {definition : Definition} {s : Platform}

end Session

end Batch

end TenantReports
