import TenantReports.Report.Request
import TenantReports.Validation.Moment

/-!
What answers show of report definitions, custom reports and executions, with types and statuses as
they stand.
-/

namespace TenantReports

structure DefinitionView where
  id : Uuid
  tenant : Option Uuid
  name : String
  description : Option String
  reportType : String
  dataSource : String
  queryTemplate : String
  parameters : Entries
  columns : List ReportColumn
  filters : Entries
  rolePermissions : List String
  isActive : Bool

namespace DefinitionView

def read : Reader DefinitionView :=
  Read.object fun given =>
    mk <$> Read.required "id" Read.uuid given
      <*> Read.orNull "tenant_id" Read.uuid given
      <*> Read.required "name" Read.text given
      <*> Read.orNull "description" Read.text given
      <*> Read.required "report_type" Read.text given
      <*> Read.required "data_source" Read.text given
      <*> Read.required "query_template" Read.text given
      <*> Read.required "parameters" Read.anyMapping given
      <*> Read.required "columns" (Read.list ReportColumn.read) given
      <*> Read.required "filters" Read.anyMapping given
      <*> Read.required "role_permissions" (Read.list Read.text) given
      <*> Read.required "is_active" Read.flag given

def form (view : DefinitionView) : Form :=
  .record
    [("id", .value (.uuid view.id)),
     ("tenant_id", .orNull (fun id => .value (.uuid id)) view.tenant),
     ("name", .text view.name), ("description", .orNull .text view.description),
     ("report_type", .text view.reportType), ("data_source", .text view.dataSource),
     ("query_template", .text view.queryTemplate),
     ("parameters", .value (.mapping view.parameters)),
     ("columns", .list (view.columns.map ReportColumn.form)),
     ("filters", .value (.mapping view.filters)),
     ("role_permissions", .texts view.rolePermissions),
     ("is_active", .value (.bool view.isActive))]

end DefinitionView

structure CustomReportView where
  spec : ReportSpec
  id : Uuid
  tenant : Uuid
  name : String
  description : Option String
  visualization : String
  rolePermissions : List String
  isShared : Bool
  createdBy : Option Uuid
  createdAt : Option DateTime

namespace CustomReportView

def read : Reader CustomReportView :=
  Read.object fun given =>
    mk <$> ReportSpec.readFields given
      <*> Read.required "id" Read.uuid given
      <*> Read.required "tenant_id" Read.uuid given
      <*> Read.required "name" Read.text given
      <*> Read.orNull "description" Read.text given
      <*> Read.required "visualization_type" Read.text given
      <*> Read.optional "role_permissions" (Read.list Read.text) [] given
      <*> Read.required "is_shared" Read.flag given
      <*> Read.orNull "created_by" Read.uuid given
      <*> Read.orNull "created_at" Read.dateTime given

def form (view : CustomReportView) : Form :=
  .record (view.spec.fields ++
    [("id", .value (.uuid view.id)), ("tenant_id", .value (.uuid view.tenant)),
     ("name", .text view.name), ("description", .orNull .text view.description),
     ("visualization_type", .text view.visualization),
     ("role_permissions", .texts view.rolePermissions),
     ("is_shared", .value (.bool view.isShared)),
     ("created_by", .orNull (fun id => .value (.uuid id)) view.createdBy),
     ("created_at", .orNull (fun t => .value (.dateTime t)) view.createdAt)])

end CustomReportView

structure ExecutionView where
  id : Uuid
  definition : Option Uuid
  customReport : Option Uuid
  tenant : Option Uuid
  executedBy : Option Uuid
  parameters : Entries
  status : String
  rowCount : Option Int
  elapsed : Option Int
  errorMessage : Option String
  exportUrl : Option String
  startedAt : Option DateTime
  completedAt : Option DateTime

namespace ExecutionView

def read : Reader ExecutionView :=
  Read.object fun given =>
    mk <$> Read.required "id" Read.uuid given
      <*> Read.orNull "report_definition_id" Read.uuid given
      <*> Read.orNull "custom_report_id" Read.uuid given
      <*> Read.orNull "tenant_id" Read.uuid given
      <*> Read.orNull "executed_by" Read.uuid given
      <*> Read.required "parameters" Read.anyMapping given
      <*> Read.required "status" Read.text given
      <*> Read.orNull "row_count" Read.whole given
      <*> Read.orNull "execution_time_ms" Read.whole given
      <*> Read.orNull "error_message" Read.text given
      <*> Read.orNull "export_url" Read.text given
      <*> Read.orNull "started_at" Read.dateTime given
      <*> Read.orNull "completed_at" Read.dateTime given

def form (view : ExecutionView) : Form :=
  .record
    [("id", .value (.uuid view.id)),
     ("report_definition_id", .orNull (fun id => .value (.uuid id)) view.definition),
     ("custom_report_id", .orNull (fun id => .value (.uuid id)) view.customReport),
     ("tenant_id", .orNull (fun id => .value (.uuid id)) view.tenant),
     ("executed_by", .orNull (fun id => .value (.uuid id)) view.executedBy),
     ("parameters", .value (.mapping view.parameters)), ("status", .text view.status),
     ("row_count", .orNull (fun n => .value (.int n)) view.rowCount),
     ("execution_time_ms", .orNull (fun n => .value (.int n)) view.elapsed),
     ("error_message", .orNull .text view.errorMessage),
     ("export_url", .orNull .text view.exportUrl),
     ("started_at", .orNull (fun t => .value (.dateTime t)) view.startedAt),
     ("completed_at", .orNull (fun t => .value (.dateTime t)) view.completedAt)]

end ExecutionView

end TenantReports
