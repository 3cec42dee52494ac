import TenantReports.Value.Mapping

/-!
Tenants as the directory holds them.
-/

namespace TenantReports

/-- How far a tenant's schema has been prepared. Only a tenant that is ready can be worked for. -/
inductive TenantStatus
  | pending
  | ready
  | failed
  | other (name : String)
deriving DecidableEq, Repr

namespace TenantStatus

def ofName : String → TenantStatus
  | "pending" => pending
  | "ready" => ready
  | "failed" => failed
  | name => other name

def name : TenantStatus → String
  | pending => "pending"
  | ready => "ready"
  | failed => "failed"
  | other name => name

end TenantStatus

structure Tenant where
  id : Uuid
  name : String
  domain : Option String
  schemaName : String
  status : TenantStatus
  /-- Why the schema could not be prepared. -/
  preparationError : Option String
  createdAt : DateTime
deriving DecidableEq, Repr

/-- How an answer writes points in time. -/
abbrev ClockStyle := DateTime → String

/-- Points in time with their offset. -/
def ClockStyle.full : ClockStyle := DateTime.toText

/-- Points in universal time with the letter that stands for it. -/
def ClockStyle.short : ClockStyle := fun t => t.wallText ++ "Z"

namespace Tenant

def fields (style : ClockStyle) (tenant : Tenant) : List (String × Value) :=
  [("id", .ofId tenant.id), ("name", .text tenant.name), ("domain", .orNull .text tenant.domain),
   ("schema_name", .text tenant.schemaName), ("status", .text tenant.status.name),
   ("preparation_error", .orNull .text tenant.preparationError),
   ("created_at", .text (style tenant.createdAt))]

end Tenant

end TenantReports
