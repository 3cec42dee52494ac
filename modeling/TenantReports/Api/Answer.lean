import TenantReports.Fault
import TenantReports.Value.Mapping

/-!
Answers of the API: a status and a body. Floating-point numbers that are not finite are null in a
body, as JSON has no such numbers.
-/

namespace TenantReports

structure Answer where
  status : Nat
  /-- The body, or null for none. -/
  body : Value

namespace Answer

mutual

/-- A value as a body shows it. -/
def bodyOf : Value → Value
  | .float x => if (Decimal.Binary.ofFloat? x).isSome then .float x else .null
  | .list items => .list (bodyItems items)
  | .mapping entries => .mapping (bodyEntries entries)
  | other => other

def bodyItems : List Value → List Value
  | [] => []
  | item :: items => bodyOf item :: bodyItems items

def bodyEntries : List (Value × Value) → List (Value × Value)
  | [] => []
  | (key, value) :: entries => (key, bodyOf value) :: bodyEntries entries

end

def ok (v : Value) : Answer := ⟨200, bodyOf v⟩

def created (v : Value) : Answer := ⟨201, bodyOf v⟩

def noContent : Answer := ⟨204, .null⟩

/-- The answer that sends the caller to another address. -/
def redirect : Answer := ⟨307, .null⟩

/-- The answer as a request of that method receives it. -/
def sentTo (method : String) (answer : Answer) : Answer :=
  if method = "HEAD" then { answer with body := .null } else answer

end Answer

namespace PathPart

def toValue : PathPart → Value
  | field name => .text name
  | item index => .int index

end PathPart

namespace Issue

def toValue (issue : Issue) : Value :=
  .record
    [("type", .text issue.kind.name), ("loc", .list (issue.path.map PathPart.toValue))]

end Issue

namespace Refusal

def status : Refusal → Nat
  | badInput _ | queryFailed _ _ => 400
  | forbidden => 403
  | missing _ | noRoute => 404
  | wrongMethod => 405
  | notReady _ | schemaInUse => 409
  | unreadable _ => 422
  | notProvisioned _ | databaseError => 500
  | noStorage | noConnection => 503

def detail : Refusal → Value
  | unreadable issues => .list ((Issue.sorted issues.eraseDups).map Issue.toValue)
  | badInput text => .text text
  | queryFailed text execution =>
      .record
        [("message", .text ("Report query failed: " ++ text)), ("execution_id", .ofId execution)]
  | forbidden => .text "Insufficient permissions"
  | missing kind => .text (kind.title ++ " not found")
  | notReady text => .text text
  | schemaInUse => .text "Schema name already in use"
  | notProvisioned text => .text ("Failed to provision tenant: " ++ text)
  | databaseError => .text "<database error>"
  | noStorage => .text "Export storage is not configured"
  | noConnection => .text "Tenant database connection unavailable"
  | noRoute => .text "Not Found"
  | wrongMethod => .text "Method Not Allowed"

def answer (refusal : Refusal) : Answer := ⟨refusal.status, .record [("detail", refusal.detail)]⟩

end Refusal

end TenantReports
