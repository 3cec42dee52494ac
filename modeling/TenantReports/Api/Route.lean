import TenantReports.Text.Basic

/-!
The endpoints of the API and the routes that lead to them. A route has at most one part of its
path open.
-/

namespace TenantReports

inductive Endpoint
  /-- Pages that describe the API. -/
  | documentation
  | welcome
  | health
  | databaseHealth
  | cacheHealth
  | provisionTenant
  | listTenants
  | getTenant
  | createDefinition
  | listDefinitions
  | getDefinition
  | deactivateDefinition
  | runDefinition
  | showTrend
  | compareWithHistory
  | listExecutions
  | getExecution
  | createCustomReport
  | previewCustomReport
  | listCustomReports
  | getCustomReport
  | updateCustomReport
  | deleteCustomReport
  | runCustomReport
  | createSchedule
  | listSchedules
  | updateSchedule
  | deleteSchedule
  | processSchedules
deriving DecidableEq, Repr

inductive RoutePart
  | fixed (name : String)
  /-- Any name but the empty one. -/
  | argument
deriving DecidableEq, Repr

structure Route where
  method : String
  parts : List RoutePart
  endpoint : Endpoint
deriving DecidableEq, Repr

namespace Route

/-- What stands in a path for the open part of a route; the empty text if there is none. A line
feed may follow a fixed part at the end. -/
def argument? : List RoutePart → List String → Option String
  | [], [] => some ""
  | [.fixed name], [part] => if name = part || name ++ "\n" = part then some "" else none
  | .fixed name :: parts, part :: path => if name = part then argument? parts path else none
  | .argument :: parts, part :: path =>
      if part = "" then none else (argument? parts path).map fun _ => part
  | _, _ => none

def fixed (path : List String) : List RoutePart := path.map .fixed

/-- A route below the root of the API. -/
def api (method : String) (path : List String) (endpoint : Endpoint) : Route :=
  ⟨method, fixed ("" :: "api" :: path), endpoint⟩

/-- A route below the root of the API with an open part, and more behind it. -/
def apiOne (method : String) (path rest : List String) (endpoint : Endpoint) : Route :=
  ⟨method, fixed ("" :: "api" :: path) ++ .argument :: fixed rest, endpoint⟩

def documentationPaths : List (List String) :=
  [["", "openapi.json"], ["", "docs"], ["", "docs", "oauth2-redirect"], ["", "redoc"]]

/-- The pages that describe the API can be asked for with and without what they hold. -/
def documentation : List Route :=
  documentationPaths.flatMap fun path =>
    ["GET", "HEAD"].map fun method => ⟨method, fixed path, .documentation⟩

def endpoints : List Route :=
  [api "GET" ["health", ""] .health,
   api "GET" ["health", "db"] .databaseHealth,
   api "GET" ["health", "cache"] .cacheHealth,
   api "POST" ["tenants", ""] .provisionTenant,
   api "GET" ["tenants", ""] .listTenants,
   apiOne "GET" ["tenants"] [] .getTenant,
   api "POST" ["reports", "definitions"] .createDefinition,
   api "GET" ["reports", "definitions"] .listDefinitions,
   apiOne "GET" ["reports", "definitions"] [] .getDefinition,
   apiOne "DELETE" ["reports", "definitions"] [] .deactivateDefinition,
   apiOne "POST" ["reports", "definitions"] ["execute"] .runDefinition,
   apiOne "GET" ["reports", "definitions"] ["trends"] .showTrend,
   apiOne "POST" ["reports", "definitions"] ["compare"] .compareWithHistory,
   api "GET" ["reports", "executions"] .listExecutions,
   apiOne "GET" ["reports", "executions"] [] .getExecution,
   api "POST" ["custom-reports", ""] .createCustomReport,
   api "POST" ["custom-reports", "preview"] .previewCustomReport,
   api "GET" ["custom-reports", ""] .listCustomReports,
   apiOne "GET" ["custom-reports"] [] .getCustomReport,
   apiOne "PATCH" ["custom-reports"] [] .updateCustomReport,
   apiOne "DELETE" ["custom-reports"] [] .deleteCustomReport,
   apiOne "POST" ["custom-reports"] ["execute"] .runCustomReport,
   api "POST" ["scheduled-reports", ""] .createSchedule,
   api "GET" ["scheduled-reports", ""] .listSchedules,
   apiOne "PATCH" ["scheduled-reports"] [] .updateSchedule,
   apiOne "DELETE" ["scheduled-reports"] [] .deleteSchedule,
   api "POST" ["scheduled-reports", "process"] .processSchedules,
   ⟨"GET", fixed ["", ""], .welcome⟩]

def all : List Route := documentation ++ endpoints

/-- Where a request goes. -/
inductive Target
  | endpoint (endpoint : Endpoint) (argument : String)
  | wrongMethod
  /-- The path would lead somewhere with a slash more at its end, or without those it has. -/
  | elsewhere
  | nowhere
deriving DecidableEq, Repr

def partsOf (path : String) : List String := (Text.split '/' path.toList).map String.ofList

def isMatch (path : List String) (route : Route) : Bool := (argument? route.parts path).isSome

def endpoint? (method : String) (path : List String) : Option (Endpoint × String) :=
  all.findSome? fun route =>
    if route.method = method then (argument? route.parts path).map (route.endpoint, ·) else none

/-- The path with a slash at its end, or without any. -/
def slashToggled (path : List Char) : List Char :=
  if path.getLast? = some '/' then (path.reverse.dropWhile (· == '/')).reverse else path ++ ['/']

def targetOf (method path : String) : Target :=
  let isKnown (path : String) : Bool := all.any (isMatch (partsOf path))
  match endpoint? method (partsOf path) with
  | some (endpoint, argument) => .endpoint endpoint argument
  | none =>
      if isKnown path then .wrongMethod
      else if path != "/" && isKnown (String.ofList (slashToggled path.toList)) then .elsewhere
      else .nowhere

end Route

end TenantReports
