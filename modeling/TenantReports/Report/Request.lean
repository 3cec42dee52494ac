import TenantReports.Report.Spec
import TenantReports.Validation.Form
import TenantReports.Validation.Reader
import TenantReports.Value.Mapping

/-!
Columns of a report's result, and what requests about reports carry: specifications, custom reports
and changes to them, report definitions, and the options of a run.
-/

namespace TenantReports

/-! Columns of results -/

/-- An output column: its name in the rows, its type, and its heading. -/
structure ReportColumn where
  name : String
  type : String
  label : String
deriving DecidableEq, Repr

namespace ReportColumn

def toEntries (column : ReportColumn) : Entries :=
  [(.text "name", .text column.name), (.text "type", .text column.type),
   (.text "label", .text column.label)]

def toValue (column : ReportColumn) : Value := .mapping column.toEntries

/-- The type of a column, told from a value in it. -/
def typeOf : Value → String
  | .null => "unknown"
  | v => v.typeName

/-- The columns that a query's result has under `keys`, with the types of the first row. -/
def derive (keys : List String) (rows : List Entries) : List ReportColumn :=
  let first := rows.headD []
  keys.map fun key => ⟨key, typeOf (first.field key), key⟩

end ReportColumn

/-! Requests -/

open Validated (issue)

def visualizations : List String := ["table", "bar", "line", "pie", "area"]

def reportTypes : List String := ["attendance", "grades", "fees", "users", "analytics", "custom"]

def exportFormats : List String := ["csv", "pdf", "excel", "json"]

/-- The name of a new record: any text but the empty one. -/
def recordName : Reader String := Read.ruledText { minLength := 1 }

namespace ReportColumn

def read : Reader ReportColumn :=
  Read.record fun given =>
    mk <$> Read.required "name" Read.text given
      <*> Read.required "type" Read.text given
      <*> Read.required "label" Read.text given

def form (column : ReportColumn) : Form := .value column.toValue

end ReportColumn

/-- A name of a closed set, as a member of that set. -/
def readName {α : Type} (ofName : String → α) (names : List String) : Reader α := fun v =>
  (Read.choice names v).map ofName

namespace SelectedColumn

def aggregateNames : List String := ["sum", "avg", "count", "min", "max"]

def read : Reader SelectedColumn :=
  Read.record fun given =>
    mk <$> Read.required "table" Read.text given
      <*> Read.required "column" Read.text given
      <*> Read.orNull "alias" Read.text given
      <*> Read.orNull "aggregate" (readName Aggregate.ofName aggregateNames) given

def form (selected : SelectedColumn) : Form :=
  .record
    [("table", .text selected.table), ("column", .text selected.column),
     ("alias", .orNull .text selected.outputAlias),
     ("aggregate", .orNull (fun aggregate => .text aggregate.name) selected.aggregate)]

end SelectedColumn

namespace JoinSpec

def typeNames : List String := ["inner", "left", "right", "full"]

/-- The predicate of a join that was just read is nobody's trusted work. -/
def read : Reader JoinSpec :=
  Read.record fun given =>
    mk <$> Read.required "type" (readName JoinType.ofName typeNames) given
      <*> Read.required "table" Read.text given
      <*> (Read.required "on" Read.text given).map fun text => .untrusted (.text text)

def form (join : JoinSpec) : Form :=
  .record
    [("type", .text join.type.name), ("table", .text join.table), ("on", .text join.on.text)]

end JoinSpec

namespace FilterSpec

def operatorNames : List String := ["=", "!=", ">", "<", ">=", "<=", "LIKE", "IN", "BETWEEN"]

def read : Reader FilterSpec :=
  Read.record fun given =>
    mk <$> Read.required "column" Read.text given
      <*> Read.required "operator" (readName FilterOperator.ofName operatorNames) given
      <*> Read.optional "value" Read.any .null given

def form (filter : FilterSpec) : Form :=
  .record
    [("column", .text filter.column), ("operator", .text filter.operator.name),
     ("value", .value filter.value)]

end FilterSpec

namespace OrderSpec

def directionNames : List String := ["ASC", "DESC"]

def read : Reader OrderSpec :=
  Read.record fun given =>
    mk <$> Read.required "column" Read.text given
      <*> Read.optional "direction" (readName SortDirection.ofName directionNames) .ascending given

def form (order : OrderSpec) : Form :=
  .record [("column", .text order.column), ("direction", .text order.direction.name)]

end OrderSpec

namespace ReportSpec

def readFields (given : Entries) : Validated ReportSpec :=
  mk <$> Read.required "data_sources" (Read.list Read.text) given
    <*> Read.optional "joins" (Read.list JoinSpec.read) [] given
    <*> Read.required "selected_columns" (Read.list SelectedColumn.read) given
    <*> Read.optional "filters" (Read.list FilterSpec.read) [] given
    <*> Read.optional "group_by" (Read.list Read.text) [] given
    <*> Read.optional "order_by" (Read.list OrderSpec.read) [] given

def read : Reader ReportSpec := Read.record readFields

def fields (spec : ReportSpec) : List (String × Form) :=
  [("data_sources", .texts spec.dataSources),
   ("joins", .list (spec.joins.map JoinSpec.form)),
   ("selected_columns", .list (spec.selectedColumns.map SelectedColumn.form)),
   ("filters", .list (spec.filters.map FilterSpec.form)),
   ("group_by", .texts spec.groupBy),
   ("order_by", .list (spec.orderBy.map OrderSpec.form))]

def form (spec : ReportSpec) : Form := .record spec.fields

end ReportSpec

/-- A custom report that is to be created. -/
structure CustomReportDraft where
  spec : ReportSpec
  name : String
  description : Option String
  visualization : String
  rolePermissions : List String
  isShared : Bool

namespace CustomReportDraft

def read : Reader CustomReportDraft :=
  Read.record fun given =>
    mk <$> ReportSpec.readFields given
      <*> Read.required "name" recordName given
      <*> Read.orNull "description" Read.text given
      <*> Read.optional "visualization_type" (Read.choice visualizations) "table" given
      <*> Read.optional "role_permissions" (Read.list Read.text) [] given
      <*> Read.optional "is_shared" Read.flag false given

def form (draft : CustomReportDraft) : Form :=
  .record (draft.spec.fields ++
    [("name", .text draft.name), ("description", .orNull .text draft.description),
     ("visualization_type", .text draft.visualization),
     ("role_permissions", .texts draft.rolePermissions),
     ("is_shared", .value (.bool draft.isShared))])

end CustomReportDraft

/-- Changes to a custom report. A field that is not null is a new value; whether a null field is
to be set to null is told by what was given. -/
structure CustomReportPatch where
  name : Option String
  description : Option String
  selectedColumns : Option (List SelectedColumn)
  filters : Option (List FilterSpec)
  groupBy : Option (List String)
  orderBy : Option (List OrderSpec)
  visualization : Option String
  isShared : Option Bool

namespace CustomReportPatch

def read : Reader CustomReportPatch :=
  Read.record fun given =>
    mk <$> Read.orNull "name" Read.text given
      <*> Read.orNull "description" Read.text given
      <*> Read.orNull "selected_columns" (Read.list SelectedColumn.read) given
      <*> Read.orNull "filters" (Read.list FilterSpec.read) given
      <*> Read.orNull "group_by" (Read.list Read.text) given
      <*> Read.orNull "order_by" (Read.list OrderSpec.read) given
      <*> Read.orNull "visualization_type" (Read.choice visualizations) given
      <*> Read.orNull "is_shared" Read.flag given

def form (patch : CustomReportPatch) : Form :=
  .record
    [("name", .orNull .text patch.name), ("description", .orNull .text patch.description),
     ("selected_columns",
       .orNull (fun cs => .list (cs.map SelectedColumn.form)) patch.selectedColumns),
     ("filters", .orNull (fun fs => .list (fs.map FilterSpec.form)) patch.filters),
     ("group_by", .orNull .texts patch.groupBy),
     ("order_by", .orNull (fun os => .list (os.map OrderSpec.form)) patch.orderBy),
     ("visualization_type", .orNull .text patch.visualization),
     ("is_shared", .orNull (fun b => .value (.bool b)) patch.isShared)]

end CustomReportPatch

/-- A report definition that is to be created. -/
structure DefinitionDraft where
  tenant : Option Uuid
  name : String
  description : Option String
  reportType : String
  dataSource : String
  queryTemplate : String
  parameters : Entries
  columns : List ReportColumn
  filters : Entries
  rolePermissions : List String

namespace DefinitionDraft

def read : Reader DefinitionDraft :=
  Read.record fun given =>
    mk <$> Read.orNull "tenant_id" Read.uuid given
      <*> Read.required "name" recordName given
      <*> Read.orNull "description" Read.text given
      <*> Read.required "report_type" (Read.choice reportTypes) given
      <*> Read.required "data_source" Read.text given
      <*> Read.required "query_template" Read.text given
      <*> Read.optional "parameters" Read.anyMapping [] given
      <*> Read.optional "columns" (Read.list ReportColumn.read) [] given
      <*> Read.optional "filters" Read.anyMapping [] given
      <*> Read.optional "role_permissions" (Read.list Read.text) [] given

def form (draft : DefinitionDraft) : Form :=
  .record
    [("tenant_id", .orNull (fun id => .value (.uuid id)) draft.tenant),
     ("name", .text draft.name), ("description", .orNull .text draft.description),
     ("report_type", .text draft.reportType), ("data_source", .text draft.dataSource),
     ("query_template", .text draft.queryTemplate),
     ("parameters", .value (.mapping draft.parameters)),
     ("columns", .list (draft.columns.map ReportColumn.form)),
     ("filters", .value (.mapping draft.filters)),
     ("role_permissions", .texts draft.rolePermissions)]

end DefinitionDraft

/-- The options of a run. -/
structure RunRequest where
  parameters : Entries
  exportFormat : Option String

namespace RunRequest

def read : Reader RunRequest :=
  Read.record fun given =>
    mk <$> Read.optional "parameters" Read.anyMapping [] given
      <*> Read.orNull "export_format" (Read.choice exportFormats) given

def form (request : RunRequest) : Form :=
  .record
    [("parameters", .value (.mapping request.parameters)),
     ("export_format", .orNull .text request.exportFormat)]

end RunRequest

/-- The options of a run that is compared with history. -/
structure CompareRequest where
  parameters : Entries
  days : Int

namespace CompareRequest

def read : Reader CompareRequest :=
  Read.record fun given =>
    mk <$> Read.optional "parameters" Read.anyMapping [] given
      <*> Read.optional "comparison_days" (Read.wholeIn (some 1) (some 365)) 7 given

def form (request : CompareRequest) : Form :=
  .record
    [("parameters", .value (.mapping request.parameters)),
     ("comparison_days", .value (.int request.days))]

end CompareRequest

/-- What a run answers. -/
structure ReportResult where
  execution : Uuid
  rows : List Entries
  rowCount : Int
  elapsed : Int
  columns : List ReportColumn
  exportUrl : Option String

namespace ReportResult

def read : Reader ReportResult :=
  Read.record fun given =>
    mk <$> Read.required "execution_id" Read.uuid given
      <*> Read.required "data" (Read.list Read.anyMapping) given
      <*> Read.required "row_count" Read.whole given
      <*> Read.required "execution_time_ms" Read.whole given
      <*> Read.required "columns" (Read.list ReportColumn.read) given
      <*> Read.orNull "export_url" Read.text given

def form (result : ReportResult) : Form :=
  .record
    [("execution_id", .value (.uuid result.execution)),
     ("data", .value (.list (result.rows.map .mapping))),
     ("row_count", .value (.int result.rowCount)),
     ("execution_time_ms", .value (.int result.elapsed)),
     ("columns", .list (result.columns.map ReportColumn.form)),
     ("export_url", .orNull .text result.exportUrl)]

end ReportResult

end TenantReports
