import TenantReports.Fault
import TenantReports.Report.Spec
import TenantReports.Text.Basic

/-!
What a role may do: run a report, and author the predicates of joins. A role is a text, or null
where none is named; no other value is a role.
-/

namespace TenantReports

/-- Whether a value lists a role: a list names its items, a mapping its keys, and a text what
occurs in it. -/
def listsRole (roles role : Value) : Result Bool :=
  match roles, role with
  | .list items, role | .tuple items, role => .ok (items.any (·.sameKey role))
  | .mapping _, .list _ | .mapping _, .mapping _ => .error .mistyped
  | .mapping entries, role => .ok (Entries.has entries role)
  | .text names, .text name => .ok (Text.occurs name.toList names.toList)
  | _, _ => .error .mistyped

/-- Fails for a role that may not run a report, which `report` names. A report that lists no role
is open to every role. -/
def requirePermitted (roles role : Value) (report : String) : Result Unit := do
  if roles.isTruthy then
    unless ← listsRole roles role do throw (.reportForbidden role report)

def isManager (managers : List String) : Value → Bool
  | .text role => managers.contains role
  | _ => false

/-- Takes the predicates of a request's joins as trusted work, if a manager of reports wrote
them. -/
def ReportSpec.authorizeJoins (spec : ReportSpec) (managers : List String) (role : Value) :
    Result ReportSpec :=
  if spec.joins.isEmpty || isManager managers role then .ok spec.trustJoins
  else .error (.joinsForbidden role)

end TenantReports
