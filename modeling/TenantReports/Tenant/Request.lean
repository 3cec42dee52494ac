import TenantReports.Sql.Basic
import TenantReports.Validation.Form
import TenantReports.Validation.Reader

/-!
What requests about tenants carry.
-/

namespace TenantReports

/-- A tenant that is to be provisioned. -/
structure TenantDraft where
  name : String
  domain : Option String
  schemaName : Option String

namespace TenantDraft

def schemaRule : Read.TextRule :=
  { maxLength := some 63, pattern := fun cs => !cs.isEmpty && cs.all Sql.isNameChar }

def read : Reader TenantDraft :=
  Read.record fun given =>
    mk <$> Read.required "name" (Read.ruledText { minLength := 1, maxLength := some 200 }) given
      <*> Read.orNull "domain" Read.text given
      <*> Read.orNull "schema_name" (Read.ruledText schemaRule) given

def form (draft : TenantDraft) : Form :=
  .record
    [("name", .text draft.name), ("domain", .orNull .text draft.domain),
     ("schema_name", .orNull .text draft.schemaName)]

end TenantDraft

/-- The tenant for which a request acts, and its schema. -/
structure TenantContext where
  tenant : Uuid
  schemaName : String
deriving DecidableEq, Repr

namespace TenantContext

def read : Reader TenantContext :=
  Read.record fun given =>
    mk <$> Read.required "tenant_id" Read.uuid given
      <*> Read.required "schema_name" Read.text given

def form (context : TenantContext) : Form :=
  .record
    [("tenant_id", .value (.uuid context.tenant)), ("schema_name", .text context.schemaName)]

end TenantContext

end TenantReports
