import TenantReports.Report.Request
import TenantReports.Tenant.Record

/-!
Report definitions as they are stored: query templates with their metadata, written by managers
of reports, for one tenant or for all.
-/

namespace TenantReports

structure Definition where
  id : Uuid
  /-- The tenant that it is for; none means all tenants. -/
  tenant : Option Uuid
  name : String
  description : Option String
  reportType : String
  dataSource : String
  queryTemplate : String
  parameters : Entries
  columns : List ReportColumn
  filters : Entries
  rolePermissions : List String
  isActive : Bool
  createdBy : Option Uuid
  createdAt : DateTime

namespace Definition

def ofDraft (draft : DefinitionDraft) (user : Option Uuid) (now : DateTime) (id : Uuid) :
    Definition :=
  { id
    tenant := draft.tenant
    name := draft.name
    description := draft.description
    reportType := draft.reportType
    dataSource := draft.dataSource
    queryTemplate := draft.queryTemplate
    parameters := draft.parameters
    columns := draft.columns
    filters := draft.filters
    rolePermissions := draft.rolePermissions
    isActive := true
    createdBy := user
    createdAt := now }

/-- Whether a tenant may use it; without a tenant, any definition may be used. -/
def isVisibleTo (definition : Definition) (tenant : Option Uuid) : Bool :=
  tenant.all fun tenant => definition.tenant.all (· == tenant)

/-- Whether its runs leave daily snapshots. -/
def keepsSnapshots (definition : Definition) : Bool := definition.reportType != "custom"

def fields (definition : Definition) : List (String × Value) :=
  [("id", .ofId definition.id), ("tenant_id", .orNull .ofId definition.tenant),
   ("name", .text definition.name), ("description", .orNull .text definition.description),
   ("report_type", .text definition.reportType), ("data_source", .text definition.dataSource),
   ("query_template", .text definition.queryTemplate),
   ("parameters", .mapping definition.parameters),
   ("columns", .list (definition.columns.map ReportColumn.toValue)),
   ("filters", .mapping definition.filters),
   ("role_permissions", .texts definition.rolePermissions),
   ("is_active", .bool definition.isActive)]

/-- The fields that only records show. -/
def originFields (style : ClockStyle) (definition : Definition) : List (String × Value) :=
  [("created_by", .orNull .ofId definition.createdBy),
   ("created_at", .text (style definition.createdAt))]

end Definition

end TenantReports
