import TenantReports.Api.Guard

/-!
Endpoints for tenants: provisioning them, and reading the directory.
-/

namespace TenantReports.Api

open Guard

def shownTenant (tenant : Tenant) : Value := .record (tenant.fields .short)

def provisionRefusal? : Fault → Option Refusal
  | .outside .database text => some (.notProvisioned text)
  | .integrity => some .databaseError
  | _ => none

def provisionTenant (request : ApiRequest) : Work Answer :=
  serve noGuard (request.readBody TenantDraft.read) fun draft => do
    let schemaName := Directory.schemaNameFor draft.name draft.schemaName
    if (← Directory.bySchema? (.text schemaName)).isSome then refuse .schemaInUse
    let tenant ← refusing (firstOf [inputRefusal?, provisionRefusal?])
      (Directory.provision draft.name (some schemaName) draft.domain)
    return .created (shownTenant tenant)

def listTenants (request : ApiRequest) : Work Answer :=
  serve noGuard (request.optionalParameter "status" Read.text) fun status => do
    return .ok (.list ((← Directory.list status).map shownTenant))

def getTenant (argument : String) : Work Answer :=
  serve noGuard (ApiRequest.idInPath "tenant_id" argument) fun id => do
    match ← Directory.find? id with
    | some tenant => return .ok (shownTenant tenant)
    | none => refuse (.missing .tenant)

end TenantReports.Api
