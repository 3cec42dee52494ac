import TenantReports.Api.Guard
import TenantReports.Metrics.Request
import TenantReports.Report.Runs

/-!
Endpoints for report definitions: managing them, running them, and reading what their runs left
behind.
-/

namespace TenantReports.Api

open Guard

def shownDefinition (definition : Definition) : Value := .record definition.fields

def shownExecution (execution : Execution) : Value := .record (execution.fields .short)

def shownSnapshot (snapshot : Snapshot) : Value := .record snapshot.trendFields

/-- The result of a run with its identifier as text. -/
def shownResult (result : ReportResult) : Value :=
  .record
    [("execution_id", .ofId result.execution),
     ("data", .list (result.rows.map .mapping)), ("row_count", .int result.rowCount),
     ("execution_time_ms", .int result.elapsed),
     ("columns", .list (result.columns.map ReportColumn.toValue)),
     ("export_url", .orNull .text result.exportUrl)]

def definitionId (argument : String) : Validated Uuid := ApiRequest.idInPath "report_id" argument

/-! Definitions -/

def createDefinition (request : ApiRequest) : Work Answer :=
  let given := Prod.mk <$> request.user <*> request.readBody DefinitionDraft.read
  serve (requireManager request) given fun (user, draft) => do
    return .created (shownDefinition (← refusing inputRefusal? (Definitions.create draft user)))

def listDefinitions (request : ApiRequest) : Work Answer :=
  serveTenant request noGuard (request.optionalParameter "report_type" Read.text)
    fun tenant type => do
      return .ok (.list ((← Definitions.list (some tenant.tenant) type).map shownDefinition))

def getDefinition (request : ApiRequest) (argument : String) : Work Answer :=
  serveTenant request noGuard (definitionId argument) fun tenant id => do
    let definition ← refusing missingRefusal? (Definitions.get id (some tenant.tenant))
    return .ok (shownDefinition definition)

def deactivateDefinition (request : ApiRequest) (argument : String) : Work Answer :=
  serveTenant request (requireManager request) (definitionId argument) fun tenant id => do
    let _ ← refusing missingRefusal? (Definitions.deactivate id (some tenant.tenant))
    return .noContent

/-! Runs -/

/-- Runs a definition that is open to the role of the request. -/
def runPermitted (tenant : TenantContext) (definition : Definition) (parameters : Entries)
    (user : Option Uuid) (role : Option String) : Work ReportResult := do
  Action.ofResult
    (requirePermitted (.texts definition.rolePermissions) (.orNull .text role) definition.id.toText)
  Runs.runDefinition tenant.schemaName definition parameters (some tenant.tenant) user

def runFor (tenant : TenantContext) (id : Uuid) (parameters : Entries) (user : Option Uuid)
    (role : Option String) : Work ReportResult := do
  let definition ← refusing missingRefusal? (Definitions.get id (some tenant.tenant))
  refusing (firstOf [roleRefusal?, queryRefusal?, inputRefusal?])
    (runPermitted tenant definition parameters user role)

def formatRefusal? : Fault → Option Refusal
  | .exportFormat name => some (.badInput (Fault.exportFormat name).message)
  | _ => none

/-- A result with the URL of its export, where one is asked for. -/
def exported (tenant : TenantContext) (format : Option String) (result : ReportResult) :
    Work ReportResult := do
  match format with
  | none => return result
  | some format =>
      let url ← refusing formatRefusal? (Runs.exportResult result format tenant.tenant)
      return { result with exportUrl := some url }

def runDefinition (request : ApiRequest) (argument : String) : Work Answer :=
  let given := (fun user id run => (user, id, run)) <$> request.user <*> definitionId argument
    <*> request.readBody RunRequest.read
  serveInSchema request requireStore given fun tenant (user, id, options) => do
    let result ← runFor tenant id options.parameters user request.role
    return .ok (shownResult (← exported tenant options.exportFormat result))

def compareWithHistory (request : ApiRequest) (argument : String) : Work Answer :=
  let given := (fun user id run => (user, id, run)) <$> request.user <*> definitionId argument
    <*> request.readBody CompareRequest.read
  serveInSchema request noGuard given fun tenant (user, id, options) => do
    let result ← runFor tenant id options.parameters user request.role
    let comparison ← Snapshots.compare tenant.tenant id result.rows options.days none
    return .ok (.record [("current", shownResult result), ("comparison", comparison.toValue)])

def longestTrend : Int := 365

def showTrend (request : ApiRequest) (argument : String) : Work Answer := do
  let days := request.wholeParameter "days" (some 1) (some longestTrend)
    (← Work.settings).reports.trendDays
  let arguments := Prod.mk <$> definitionId argument <*> days
  serveTenant request noGuard arguments fun tenant (id, days) => do
    let snapshots ← Snapshots.trend tenant.tenant id days none
    return .ok (.list (snapshots.map shownSnapshot))

/-! Executions -/

def listExecutions (request : ApiRequest) : Work Answer :=
  let given := (fun id skip limit => (id, skip, limit))
    <$> request.optionalParameter "report_definition_id" Read.uuid
    <*> request.wholeParameter "skip" (some 0) none 0
    <*> request.wholeParameter "limit" (some 1) (some 500) 100
  serveTenant request noGuard given fun tenant (id, skip, limit) => do
    let executions ← Runs.listExecutions tenant.tenant id skip limit
    return .ok (.list (executions.map shownExecution))

def getExecution (request : ApiRequest) (argument : String) : Work Answer :=
  serveTenant request noGuard (ApiRequest.idInPath "execution_id" argument) fun tenant id => do
    let execution ← refusing missingRefusal? (Runs.getExecution id (some tenant.tenant))
    return .ok (shownExecution execution)

end TenantReports.Api
