import TenantReports.Api.Guard

/-!
Endpoints that tell how the application is.
-/

namespace TenantReports.Api

/-- An answer with texts under names. -/
def textAnswer (fields : List (String × String)) : Answer :=
  .ok (.record (fields.map fun field => (field.1, .text field.2)))

def health : Answer := textAnswer [("status", "ok")]

/-- The search path of the pooled connection. -/
def pooledPath : Work String :=
  Action.unscoped do
    Action.inspect "SHOW search_path"
    return (← Action.connection).searchPath

/-- Whether the database can be reached, and the search path of a connection that no tenant
uses. -/
def databaseHealth : Work Answer := do
  match ← Action.attemptUncancelled pooledPath with
  | .ok path =>
      return textAnswer [("status", "ok"), ("database", "connected"), ("search_path", path)]
  | .error fault =>
      return textAnswer [("status", "error"), ("database", "connection_error: " ++ fault.message)]

def cacheHealth : Work Answer := do
  match (← get).cache with
  | .disabled => return textAnswer [("status", "ok"), ("cache", "disabled")]
  | .memory _ => return textAnswer [("status", "ok"), ("cache", "memory")]
  | .shared cache =>
      let status := if cache.isReachable then "ok" else "degraded"
      return textAnswer [("status", status), ("cache", "redis")]

/-- The pages that describe the API; what they hold is not told. -/
def documentation : Answer := .ok .null

def welcome : Work Answer := do
  let api := (← get).settings.api
  return textAnswer [("message", api.title), ("version", api.version), ("docs", "/docs")]

end TenantReports.Api
