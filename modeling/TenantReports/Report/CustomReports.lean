import TenantReports.Report.Compile
import TenantReports.Report.Permission
import TenantReports.Tenant.Directory

/-!
The collection of custom reports. A report is compiled, and its tables are looked up, before it is
stored or changed, so that what is stored can be run.
-/

namespace TenantReports.CustomReports

/-- Fails for a table that the schema does not have. -/
def requireTable (schemaName : String) (usesCache : Bool) (table : String) : Work Unit := do
  unless ← Directory.tableExists (.text schemaName) (.text table) usesCache do
    throw (.spec (.unknownTable table))

/-- The SQL text of a specification whose tables are all there. -/
def validate (schemaName : String) (spec : ReportSpec) : Work String := do
  let sql ← Action.ofResult (compile schemaName spec)
  spec.tables.forM (requireTable schemaName true)
  return sql

/-- A specification with trusted joins, if the role may author them. -/
def authorize (spec : ReportSpec) (role : Option String) : Work ReportSpec := do
  Action.ofResult (spec.authorizeJoins (← get).settings.reports.managerRoles (.orNull .text role))

def create (schemaName : String) (tenant : Uuid) (draft : CustomReportDraft) (user : Option Uuid)
    (role : Option String) : Work CustomReport := do
  let _ ← validate schemaName (← authorize draft.spec role)
  Work.insertCustomReport (CustomReport.ofDraft draft tenant user (← Work.now))

/-- The SQL text of a specification that is neither stored nor run. -/
def preview (schemaName : String) (spec : ReportSpec) (role : Option String) : Work String := do
  validate schemaName (← authorize spec role)

/-- A report of a tenant that a user may see. -/
def find? (id tenant : Uuid) (user : Option Uuid) : Work (Option CustomReport) := do
  return ((← Work.database).customReport? id).filter fun report =>
    report.tenant == tenant && report.isVisibleTo user

def get (id tenant : Uuid) (user : Option Uuid) : Work CustomReport := do
  Work.require (.notFound .customReport id) (← find? id tenant user)

/-- A report of a tenant that a user may change. -/
def getOwned (id tenant : Uuid) (user : Option Uuid) : Work CustomReport := do
  let owned := ((← Work.database).customReport? id).filter fun report =>
    report.tenant == tenant && report.isOwnedBy user
  Work.require (.notFound .customReport id) owned

/-- The reports that a user may see, the latest first. -/
def list (tenant : Uuid) (user : Option Uuid) : Work (List CustomReport) := do
  let visible := (← Work.database).customReports.filter fun report =>
    report.tenant == tenant && report.isVisibleTo user
  return visible.mergeSort fun a b => b.createdAt.instant ≤ a.createdAt.instant

/-- The changes that a patch makes: the fields that were given for it. -/
def changesOf (patch : CustomReportPatch) (given : Value) : Entries :=
  Form.entriesOf (patch.form.givenIn given)

/-- Tests the specification that a report has after changes. -/
def validateChange (schemaName : String) (report : CustomReport) (changes : Entries) :
    Work Unit := do
  let old ← Action.ofResult report.spec.toSpec
  let spec ← Action.ofResult ((SpecDocument.ofSpec old).change changes).toSpec
  let _ ← validate schemaName spec

def update (schemaName : String) (tenant id : Uuid) (patch : CustomReportPatch) (given : Value)
    (user : Option Uuid) : Work CustomReport := do
  let report ← getOwned id tenant user
  let changes := changesOf patch given
  if SpecDocument.isChangedBy changes then validateChange schemaName report changes
  let changed ← Work.require .integrity (report.change? changes)
  Work.updateDatabase (·.updateCustomReport id fun _ => changed)
  return changed

def delete (tenant id : Uuid) (user : Option Uuid) : Work Unit := do
  let report ← getOwned id tenant user
  Work.updateDatabase (·.removeCustomReport report.id)

end TenantReports.CustomReports
