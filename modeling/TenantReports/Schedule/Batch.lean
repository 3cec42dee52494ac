import TenantReports.Report.Runs
import TenantReports.Schedule.Schedules

/-!
Running the schedules that are due. A run that fails is told in its outcome and does not stop the
batch; its schedule goes on to the next run like any other.
-/

namespace TenantReports.Batch

/-- Runs a definition for a schedule and exports the result; answers the execution. -/
def report (schedule : Schedule) (schemaName : String) (definition : Definition) :
    Work Uuid := do
  let result ← Runs.runDefinition schemaName definition (Form.entriesOf schedule.parameters)
    (some schedule.tenant) schedule.createdBy
  let _ ← Runs.exportResult result schedule.exportFormat schedule.tenant
  return result.execution

/-- Runs a schedule's report in its tenant's schema. -/
def runSchedule (schedule : Schedule) : Work Uuid := do
  let schemaName ← Directory.resolveSchema schedule.tenant
  let definition ← Definitions.get schedule.definition (some schedule.tenant)
  Action.inSession (.text schemaName) (report schedule schemaName definition)

/-- The execution of a run that failed, where the fault tells it. -/
def executionOf : Fault → Option Uuid
  | .queryRejected _ execution => some execution
  | _ => none

def outcomeOf (id : Uuid) : Except Fault Uuid → RunOutcome
  | .ok execution => ⟨id, "success", some execution, none⟩
  | .error fault => ⟨id, "failed", executionOf fault, some fault.message⟩

/-- Runs one schedule and finds its next run. -/
def processOne (id : Uuid) : Work RunOutcome := do
  let schedule ← Schedules.get id none
  let outcome ← Action.attemptUncancelled (runSchedule schedule)
  let _ ← Schedules.advance id none
  return outcomeOf id outcome

/-- The limit of a batch: the one that is given, or that of the settings. -/
def limitOf (settings : Settings) (limit : Option Int) : Int :=
  (limit.filter (· ≠ 0)).getD settings.reports.batchLimit

/-- Runs every schedule that is due, up to the limit. -/
def processDue (limit : Option Int) : Work (List RunOutcome) := do
  let limit := limitOf (← get).settings limit
  let due ← Schedules.due limit (← Work.now)
  due.mapM fun schedule => processOne schedule.id

def summary (outcomes : List RunOutcome) : BatchSummary :=
  .ofStatuses (outcomes.map (·.status))

end TenantReports.Batch
