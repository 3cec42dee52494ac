import TenantReports.Api.Answer
import TenantReports.Api.Request
import TenantReports.Tenant.Directory

/-!
What a request has to pass before its endpoint acts: the tenant is ready, the role is allowed, a
store is there, and all parts can be read. Issues of all parts are told together; whatever else
stands against a request ends it at once.
-/

namespace TenantReports.Guard

variable {α : Type}

def refuse (refusal : Refusal) : Work α := throw (.refused refusal)

/-- Turns faults of an action into refusals. -/
def refusing (refusal? : Fault → Option Refusal) (action : Work α) : Work α := do
  match ← Action.attempt action with
  | .ok a => return a
  | .error fault => throw ((refusal? fault).elim fault .refused)

/-- Faults of the caller's input are refused with their message. -/
def inputRefusal? (fault : Fault) : Option Refusal :=
  if fault.isInput then some (.badInput fault.message) else none

def missingRefusal? : Fault → Option Refusal
  | .notFound kind _ => some (.missing kind)
  | _ => none

def queryRefusal? : Fault → Option Refusal
  | .queryRejected text execution => some (.queryFailed text execution)
  | _ => none

def roleRefusal? : Fault → Option Refusal
  | .joinsForbidden _ | .reportForbidden _ _ => some .forbidden
  | _ => none

def tenantRefusal? : Fault → Option Refusal
  | .notFound kind _ => some (.missing kind)
  | .tenantNotReady id status => some (.notReady (Fault.tenantNotReady id status).message)
  | _ => none

/-- The first refusal that one of the functions has for a fault. -/
def firstOf (refusals : List (Fault → Option Refusal)) (fault : Fault) : Option Refusal :=
  refusals.findSome? (· fault)

def requireManager (request : ApiRequest) : Work Unit := do
  unless (← get).settings.reports.isManager request.role do refuse .forbidden

def requireStore : Work Unit := do
  if (← get).store.isNone then refuse .noStorage

def requireReadable : Validated α → Work α
  | .valid a => pure a
  | .invalid issues => refuse (.unreadable issues)

/-- The tenant that the request names, which has to be ready. -/
def tenantOf (request : ApiRequest) : Work (Validated TenantContext) := do
  match request.tenant with
  | .invalid issues => return .invalid issues
  | .valid id => return .valid ⟨id, ← refusing tenantRefusal? (Directory.resolveSchema id)⟩

/-- Work in the schema of a tenant. When the connection fails only after the work, the answer to
it was already given. -/
def inSchema (tenant : TenantContext) (action : Work α) : Work α := do
  match ← Action.attempt (Action.inSession (.text tenant.schemaName) action) with
  | .ok a => return a
  | .error (.searchPath .set _) => refuse .noConnection
  | .error (.searchPath .reset _) => throw .lateFailure
  | .error fault => throw fault

/-- Serves a request that acts for no tenant. -/
def serve (guard : Work Unit) (given : Validated α) (act : α → Work Answer) : Work Answer := do
  guard
  act (← requireReadable given)

/-- Serves a request that acts for a tenant on the shared tables. -/
def serveTenant (request : ApiRequest) (guard : Work Unit) (given : Validated α)
    (act : TenantContext → α → Work Answer) : Work Answer := do
  let tenant ← tenantOf request
  guard
  let (tenant, a) ← requireReadable (Prod.mk <$> tenant <*> given)
  act tenant a

/-- Serves a request that acts in the schema of a tenant. -/
def serveInSchema (request : ApiRequest) (guard : Work Unit) (given : Validated α)
    (act : TenantContext → α → Work Answer) : Work Answer := do
  match ← tenantOf request with
  | .valid tenant =>
      inSchema tenant do
        guard
        act tenant (← requireReadable given)
  | .invalid issues =>
      guard
      refuse (.unreadable (issues ++ given.issues))

def noGuard : Work Unit := pure ()

end TenantReports.Guard
