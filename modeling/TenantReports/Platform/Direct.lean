import TenantReports.Platform.Basic
import TenantReports.Value.Mapping

/-!
Rows that are written directly, column by column, without the tests that requests have to pass.
The rules of the tables hold for them as for all others.
-/

namespace TenantReports

namespace Tenant

/-- The tenant after changes, unless they set to null what must not be. -/
def change? (tenant : Tenant) (changes : Entries) : Option Tenant := do
  let name ← Change.textColumn changes "name" tenant.name
  let schemaName ← Change.textColumn changes "schema_name" tenant.schemaName
  let status ← Change.textColumn changes "status" tenant.status.name
  return { tenant with
    name
    schemaName
    status := .ofName status
    domain := Change.optionalTextColumn changes "domain" tenant.domain
    preparationError :=
      Change.optionalTextColumn changes "preparation_error" tenant.preparationError }

end Tenant

namespace Columns

def text? (columns : Entries) (name : String) : Option String :=
  match columns.field name with
  | .text s => some s
  | _ => none

def id? (columns : Entries) (name : String) : Option Uuid :=
  (text? columns name).bind Uuid.ofText?

/-- A point in time, as it is stored. -/
def time? (columns : Entries) (name : String) : Option DateTime := do
  let time ← DateTime.ofText? (← text? columns name)
  time.inUniversal?

end Columns

/-- The schedule that columns describe, unless one is null that must not be. -/
def Schedule.ofColumns? (columns : Entries) (now : DateTime) (id : Uuid) : Option Schedule := do
  return {
    id
    tenant := ← Columns.id? columns "tenant_id"
    definition := ← Columns.id? columns "report_definition_id"
    name := ← Columns.text? columns "name"
    type := ← Columns.text? columns "schedule_type"
    config := Change.documentColumn columns "schedule_config" (.mapping [])
    parameters := Change.documentColumn columns "parameters" (.mapping [])
    exportFormat := ← Change.textColumn columns "export_format" "csv"
    recipients := Change.documentColumn columns "recipients" (.list [])
    nextRunAt := Columns.time? columns "next_run_at"
    lastRunAt := Columns.time? columns "last_run_at"
    isActive := ← Change.flagColumn columns "is_active" true
    createdBy := Columns.id? columns "created_by"
    createdAt := now }

namespace Direct

def patchTenant (id : Uuid) (changes : Entries) : Work Unit := do
  match (← Work.database).tenant? id with
  | none => return ()
  | some tenant =>
      let changed ← Work.require .integrity (tenant.change? changes)
      if (← Work.database).acceptsTenant changed then
        Work.updateDatabase (·.updateTenant id fun _ => changed)
      else throw .integrity

def insertSchedule (columns : Entries) : Work Unit := do
  match Schedule.ofColumns? columns (← Work.now) ((← Work.database).nextId .schedules) with
  | some schedule =>
      let _ ← Work.insertSchedule fun id => { schedule with id }
  | none =>
      Work.updateDatabase (·.attempt .schedules)
      throw .integrity

def createTable (table : TenantTable) : Work Unit :=
  modify fun p => { p with catalog := Platform.addTable p.catalog table }

def dropTable (table : TenantTable) : Work Unit :=
  modify fun p => { p with catalog := p.catalog.filter (· ≠ table) }

end Direct

end TenantReports
