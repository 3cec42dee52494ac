import TenantReports.Export.Render
import TenantReports.Metrics.Snapshots
import TenantReports.Report.CustomReports
import TenantReports.Report.Definitions
import TenantReports.Report.Template

/-!
Running reports. Every run is recorded: its execution is stored as running before the query is
sent and is ended once, whatever becomes of the query.
-/

namespace TenantReports.Runs

/-- The result of a recorded query. -/
structure Output where
  execution : Uuid
  keys : List String
  rows : List Entries

/-- What is run, for whom, and with which parameters. -/
structure Order where
  source : ReportSource
  tenant : Option Uuid
  user : Option Uuid
  parameters : Entries

/-- Stores an execution that is running. -/
def start (order : Order) : Work Execution := do
  let parameters ← Action.ofResult (Value.entriesToPlain order.parameters)
  let startedAt ← Work.now
  Work.insertExecution fun id =>
    { id
      source := order.source
      tenant := order.tenant
      executedBy := order.user
      parameters := Entries.ofPairs parameters
      state := .running
      exportUrl := none
      startedAt }

/-- Ends an execution. -/
def finish (id : Uuid) (state : ExecutionState) : Work Unit :=
  Work.updateDatabase (·.updateExecution id fun execution => { execution with state })

/-- What an execution that failed says of its fault. -/
def failureText : Fault → String
  | .cancelled => "cancelled"
  | fault => fault.message

/-- What the caller is told of a fault: that the database rejects a query is told with the
execution. -/
def toldAs (execution : Uuid) : Fault → Fault
  | .outside .database text => .queryRejected text execution
  | fault => fault

/-- Sends a query and records the run. -/
def record (order : Order) (sql : String) : Work Output := do
  let execution ← start order
  match ← Action.attempt (Work.query sql) with
  | .ok (keys, rows) =>
      finish execution.id (.completed rows.length (← Work.now))
      return ⟨execution.id, keys, rows⟩
  | .error fault =>
      finish execution.id (.failed (failureText fault) (← Work.now))
      throw (toldAs execution.id fault)

def Output.toResult (output : Output) (columns : List ReportColumn) : Result ReportResult := do
  return {
    execution := output.execution
    rows := ← rowsToPlain output.rows
    rowCount := output.rows.length
    elapsed := 0
    columns
    exportUrl := none }

def Output.derivedColumns (output : Output) : List ReportColumn :=
  ReportColumn.derive output.keys output.rows

/-- The columns that a definition declares, or those of the result. -/
def columnsFor (definition : Definition) (output : Output) : List ReportColumn :=
  if definition.columns.isEmpty then output.derivedColumns else definition.columns

/-- Keeps the result of a definition that belongs to a tenant as the day's snapshot. -/
def keepSnapshot (definition : Definition) (output : Output) : Work Unit := do
  match definition.keepsSnapshots, definition.tenant with
  | true, some tenant =>
      let _ ← Snapshots.keep tenant definition.id (some output.execution) output.rows none
  | _, _ => return ()

/-- Runs a definition in a schema. The run counts for the tenant that is given, or else for the
definition's own. -/
def runDefinition (schemaName : String) (definition : Definition) (parameters : Entries)
    (tenant user : Option Uuid) : Work ReportResult := do
  let template : Sql.Fragment := .trusted definition.queryTemplate
  let sql ← Action.ofResult (Template.render template parameters (.text schemaName))
  let tenant := tenant.or definition.tenant
  let output ← record ⟨.definition definition.id, tenant, user, parameters⟩ sql
  keepSnapshot definition output
  Action.ofResult (output.toResult (columnsFor definition output))

/-- Runs a custom report that a user may see in a schema. -/
def runCustom (schemaName : String) (tenant id : Uuid) (user : Option Uuid) :
    Work ReportResult := do
  let report ← CustomReports.get id tenant user
  let spec ← Action.ofResult report.spec.toSpec
  let sql ← Action.ofResult (compile schemaName spec)
  let output ← record ⟨.custom (some report.id), some tenant, user, []⟩ sql
  Action.ofResult (output.toResult output.derivedColumns)

/-! Exports -/

/-- The key of an export file. -/
def exportKey (tenant execution : Uuid) (extension : String) : String :=
  "reports/" ++ tenant.toText ++ "/" ++ execution.toText ++ "." ++ extension

/-- Stores a file; answers its URL. -/
def storeFile (key content : String) : Work String := do
  let p ← get
  let store ← Work.require .noStore p.store
  let (outcome, store) := store.put key content
  set { p with store := some store }
  Action.ofResult outcome

/-- Stores a result as a file and records its URL. -/
def exportResult (result : ReportResult) (format : String) (tenant : Uuid) : Work String := do
  let columns := result.columns.map ReportColumn.toEntries
  let file ← Action.ofResult (ExportFile.render result.rows columns format)
  let url ← storeFile (exportKey tenant result.execution file.extension) file.content
  Work.updateDatabase (·.updateExecution result.execution fun execution =>
    { execution with exportUrl := some url })
  return url

/-! Executions -/

def getExecution (id : Uuid) (tenant : Option Uuid) : Work Execution := do
  let found := ((← Work.database).execution? id).filter fun execution =>
    tenant.all fun tenant => execution.tenant == some tenant
  Work.require (.notFound .execution id) found

/-- At most `limit` items behind the first `skip`; a negative limit is none. -/
def page {α : Type} (skip limit : Int) (items : List α) : List α :=
  let rest := items.drop skip.toNat
  if limit < 0 then rest else rest.take limit.toNat

/-- The executions for a tenant, of one definition or of all, the latest first. -/
def listExecutions (tenant : Uuid) (definition : Option Uuid) (skip limit : Int) :
    Work (List Execution) := do
  let found := (← Work.database).executions.filter fun execution =>
    execution.tenant == some tenant &&
      definition.all fun definition => execution.source.definition? == some definition
  return page skip limit
    (found.mergeSort fun a b => b.startedAt.instant ≤ a.startedAt.instant)

end TenantReports.Runs
