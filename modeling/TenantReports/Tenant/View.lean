import TenantReports.Validation.Form
import TenantReports.Validation.Moment

/-!
What answers show of a tenant, with every text as it stands.
-/

namespace TenantReports

structure TenantView where
  id : Uuid
  name : String
  domain : Option String
  schemaName : String
  status : String
  preparationError : Option String
  createdAt : Option DateTime

namespace TenantView

def read : Reader TenantView :=
  Read.object fun given =>
    mk <$> Read.required "id" Read.uuid given
      <*> Read.required "name" Read.text given
      <*> Read.orNull "domain" Read.text given
      <*> Read.required "schema_name" Read.text given
      <*> Read.required "status" Read.text given
      <*> Read.orNull "preparation_error" Read.text given
      <*> Read.orNull "created_at" Read.dateTime given

def form (view : TenantView) : Form :=
  .record
    [("id", .value (.uuid view.id)), ("name", .text view.name),
     ("domain", .orNull .text view.domain), ("schema_name", .text view.schemaName),
     ("status", .text view.status), ("preparation_error", .orNull .text view.preparationError),
     ("created_at", .orNull (fun t => .value (.dateTime t)) view.createdAt)]

end TenantView

end TenantReports
