import TenantReports.Tenant.Record

/-!
Executions: the record of every run of a report.
-/

namespace TenantReports

/-- How a run stands. A run that failed has a message; one that is over has a time of its end. -/
inductive ExecutionState
  | running
  | completed (rowCount : Nat) (time : DateTime)
  | failed (message : String) (time : DateTime)
deriving DecidableEq, Repr

/-- The report that was run. -/
inductive ReportSource
  | definition (id : Uuid)
  /-- None once the report was deleted. -/
  | custom (id : Option Uuid)
deriving DecidableEq, Repr

structure Execution where
  id : Uuid
  source : ReportSource
  tenant : Option Uuid
  executedBy : Option Uuid
  parameters : Entries
  state : ExecutionState
  exportUrl : Option String
  startedAt : DateTime

namespace ExecutionState

def name : ExecutionState → String
  | running => "running"
  | completed _ _ => "completed"
  | failed _ _ => "failed"

def rowCount? : ExecutionState → Option Nat
  | completed rowCount _ => some rowCount
  | _ => none

def message? : ExecutionState → Option String
  | failed message _ => some message
  | _ => none

def endedAt? : ExecutionState → Option DateTime
  | running => none
  | completed _ time | failed _ time => some time

end ExecutionState

namespace ReportSource

def definition? : ReportSource → Option Uuid
  | definition id => some id
  | custom _ => none

def custom? : ReportSource → Option Uuid
  | custom id => id
  | definition _ => none

/-- The source once a custom report was deleted. -/
def forget (report : Uuid) : ReportSource → ReportSource
  | custom (some id) => custom (if id = report then none else some id)
  | other => other

end ReportSource

namespace Execution

/-- Runs take no time that shows. -/
def elapsed (execution : Execution) : Option Int := execution.state.endedAt?.map fun _ => 0

def fields (style : ClockStyle) (execution : Execution) : List (String × Value) :=
  [("id", .ofId execution.id),
   ("report_definition_id", .orNull .ofId execution.source.definition?),
   ("custom_report_id", .orNull .ofId execution.source.custom?),
   ("tenant_id", .orNull .ofId execution.tenant),
   ("executed_by", .orNull .ofId execution.executedBy),
   ("parameters", .mapping execution.parameters), ("status", .text execution.state.name),
   ("row_count", .orNull (fun n => .int (Int.ofNat n)) execution.state.rowCount?),
   ("execution_time_ms", .orNull .int execution.elapsed),
   ("error_message", .orNull .text execution.state.message?),
   ("export_url", .orNull .text execution.exportUrl),
   ("started_at", .text (style execution.startedAt)),
   ("completed_at", .orNull (fun t => .text (style t)) execution.state.endedAt?)]

end Execution

end TenantReports
