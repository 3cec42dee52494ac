import TenantReports.Report.Request
import TenantReports.Tenant.Record
import TenantReports.Value.Mapping

/-!
Custom reports as they are stored: the parts of a specification as documents, with the metadata
of the report.
-/

namespace TenantReports

/-- A specification as it is stored, part by part. -/
structure SpecDocument where
  dataSources : Value
  joins : Value
  selectedColumns : Value
  filters : Value
  groupBy : Value
  orderBy : Value

namespace SpecDocument

def entries (document : SpecDocument) : Entries :=
  [(.text "data_sources", document.dataSources), (.text "joins", document.joins),
   (.text "selected_columns", document.selectedColumns), (.text "filters", document.filters),
   (.text "group_by", document.groupBy), (.text "order_by", document.orderBy)]

def ofSpec (spec : ReportSpec) : SpecDocument :=
  { dataSources := (Form.texts spec.dataSources).toValue
    joins := (Form.list (spec.joins.map JoinSpec.form)).toValue
    selectedColumns := (Form.list (spec.selectedColumns.map SelectedColumn.form)).toValue
    filters := (Form.list (spec.filters.map FilterSpec.form)).toValue
    groupBy := (Form.texts spec.groupBy).toValue
    orderBy := (Form.list (spec.orderBy.map OrderSpec.form)).toValue }

/-- The specification that a document holds. Predicates of joins are only stored when a manager of
reports wrote them, so they come back as trusted work. -/
def toSpec (document : SpecDocument) : Result ReportSpec :=
  match ReportSpec.read (.mapping document.entries) with
  | .valid spec => .ok spec.trustJoins
  | .invalid issues => .error (.invalid issues)

/-- The parts that a change may touch. -/
def changeable : List String := ["selected_columns", "filters", "group_by", "order_by"]

def change (document : SpecDocument) (changes : Entries) : SpecDocument :=
  { document with
    selectedColumns := Change.documentColumn changes "selected_columns" document.selectedColumns
    filters := Change.documentColumn changes "filters" document.filters
    groupBy := Change.documentColumn changes "group_by" document.groupBy
    orderBy := Change.documentColumn changes "order_by" document.orderBy }

def isChangedBy (changes : Entries) : Bool :=
  changeable.any fun name => (changes.field? name).isSome

end SpecDocument

structure CustomReport where
  id : Uuid
  tenant : Uuid
  name : String
  description : Option String
  spec : SpecDocument
  visualization : String
  rolePermissions : List String
  isShared : Bool
  createdBy : Option Uuid
  createdAt : DateTime

namespace CustomReport

def ofDraft (draft : CustomReportDraft) (tenant : Uuid) (user : Option Uuid) (now : DateTime)
    (id : Uuid) : CustomReport :=
  { id
    tenant
    name := draft.name
    description := draft.description
    spec := .ofSpec draft.spec
    visualization := draft.visualization
    rolePermissions := draft.rolePermissions
    isShared := draft.isShared
    createdBy := user
    createdAt := now }

/-- Whether a user may see it; without a user, any report may be seen. -/
def isVisibleTo (report : CustomReport) (user : Option Uuid) : Bool :=
  user.all fun user => report.createdBy == some user || report.isShared

/-- Whether a user may change it; without a user, any report may be changed. -/
def isOwnedBy (report : CustomReport) (user : Option Uuid) : Bool :=
  user.all fun user => report.createdBy == some user

/-- The report after changes, unless they set to null what must not be. -/
def change? (report : CustomReport) (changes : Entries) : Option CustomReport := do
  let name ← Change.textColumn changes "name" report.name
  let visualization ← Change.textColumn changes "visualization_type" report.visualization
  let isShared ← Change.flagColumn changes "is_shared" report.isShared
  return { report with
    name
    visualization
    isShared
    description := Change.optionalTextColumn changes "description" report.description
    spec := report.spec.change changes }

/-- The fields around those of the specification. -/
def metaFields (style : ClockStyle) (report : CustomReport) : List (String × Value) :=
  [("id", .ofId report.id), ("tenant_id", .ofId report.tenant), ("name", .text report.name),
   ("description", .orNull .text report.description),
   ("visualization_type", .text report.visualization),
   ("role_permissions", .texts report.rolePermissions), ("is_shared", .bool report.isShared),
   ("created_by", .orNull .ofId report.createdBy),
   ("created_at", .text (style report.createdAt))]

/-- The report with the parts of its specification as they are stored. -/
def toValue (style : ClockStyle) (report : CustomReport) : Value :=
  match Value.record (report.metaFields style) with
  | .mapping fields => .mapping (fields ++ report.spec.entries)
  | other => other

end CustomReport

end TenantReports
