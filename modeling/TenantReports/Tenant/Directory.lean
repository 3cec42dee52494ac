import TenantReports.Platform.Basic
import TenantReports.Tenant.Request
import TenantReports.Tenant.SchoolTables
import TenantReports.Tenant.Slug

/-!
The directory of tenants: it provisions a schema for every tenant, tells which schema work for a
tenant is scoped to, and knows which tables a schema has.
-/

namespace TenantReports.Directory

def find? (id : Uuid) : Work (Option Tenant) := do return (← Work.database).tenant? id

def bySchema? (schema : Value) : Work (Option Tenant) := do
  let schemaName ← Action.ofResult (Sql.identifierOf schema)
  return (← Work.database).tenants.find? (·.schemaName == schemaName)

/-- The tenants with a status, or all, in the order of their names. -/
def list (status : Option String) : Work (List Tenant) := do
  let matching (tenant : Tenant) : Bool :=
    (status.filter (· ≠ "")).all (· == tenant.status.name)
  return ((← Work.database).tenants.filter matching).mergeSort fun a b => a.name ≤ b.name

/-- The schema of a tenant that is ready. -/
def resolveSchema (id : Uuid) : Work String := do
  let tenant ← Work.require (.notFound .tenant id) (← find? id)
  match tenant.status with
  | .ready =>
      Action.ofResult (Sql.requireIdentifier tenant.schemaName)
      return tenant.schemaName
  | status => throw (.tenantNotReady id status.name)

/-! Provisioning -/

def createSchema (schemaName : String) : Work Unit :=
  Action.unscoped do
    Action.execute ("CREATE SCHEMA IF NOT EXISTS " ++ schemaName)
    Action.commit

/-- The migrations of new schemas. No other directory than the default one is at hand. -/
def migrationsOf (settings : Settings) : Option (List MigrationFile) :=
  match secretText settings.reports.migrationsDirectory with
  | some _ => none
  | none => some Migration.defaultDirectory

/-- Makes a schema with all its tables. -/
def prepare (schemaName : String) : Work Unit := do
  createSchema schemaName
  let _ ← Migration.apply (.text schemaName) (migrationsOf (← get).settings)

/-- Gives a tenant a status, and the reason if its schema could not be prepared. -/
def settle (tenant : Tenant) (status : TenantStatus) (preparationError : Option String) :
    Work Tenant := do
  Work.updateDatabase (·.updateTenant tenant.id fun t => { t with status, preparationError })
  return { tenant with status, preparationError }

/-- The schema name for a new tenant: the one that is asked for, or one made from its name. -/
def schemaNameFor (name : String) (schemaName : Option String) : String :=
  (schemaName.filter (· ≠ "")).getD (schemaSlug name)

/-- Enters a tenant into the directory and prepares its schema. A tenant whose schema could not be
prepared stays in the directory as failed. -/
def provision (name : String) (schemaName domain : Option String) : Work Tenant := do
  let schemaName := schemaNameFor name schemaName
  Action.ofResult (Sql.requireIdentifier schemaName)
  let createdAt ← Work.now
  let tenant ← Work.insertTenant fun id =>
    { id, name, domain, schemaName, status := .pending, preparationError := none, createdAt }
  match ← Action.attemptUncancelled (prepare schemaName) with
  | .ok () => settle tenant .ready none
  | .error fault =>
      let _ ← settle tenant .failed (some fault.message)
      throw fault

/-! Tables -/

/-- What the cache knows under a key. -/
def cached? (key : String) : Work (Option Bool) := do
  let p ← get
  let (answer, cache) := p.cache.get key p.now
  set { p with cache }
  return answer

/-- Puts an answer into the cache for the time that the settings allow. -/
def remember (key : String) (answer : Bool) : Work Unit := do
  let p ← get
  let expiry ← Action.ofResult (TimedAnswer.expiryAfter p.settings.cache.ttl p.now)
  set { p with cache := p.cache.put key ⟨answer, expiry⟩ p.now }

/-- Asks the catalog for a table. -/
def lookUp (table : TenantTable) : Work Bool := do
  modify fun p => { p with lookups := p.lookups + 1 }
  return (← get).hasTable table

def tableKey (table : TenantTable) : String := table.schemaName ++ "." ++ table.table

/-- Whether a schema has a table, as the cache knows it or as the catalog has it now. -/
def tableExists (schema table : Value) (usesCache : Bool) : Work Bool := do
  let schemaName ← Action.ofResult (Sql.identifierOf schema)
  let table : TenantTable := ⟨schemaName, ← Action.ofResult (Sql.identifierOf table)⟩
  if usesCache && (← get).cache.isEnabled then
    match ← cached? (tableKey table) with
    | some answer => return answer
    | none =>
        let answer ← lookUp table
        remember (tableKey table) answer
        return answer
  else lookUp table

end TenantReports.Directory
