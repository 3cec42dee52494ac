import TenantReports.Platform.Basic

/-!
The collection of report definitions. A definition that is no longer active is as good as gone,
and a tenant sees its own definitions and those for all tenants.
-/

namespace TenantReports.Definitions

def create (draft : DefinitionDraft) (user : Option Uuid) : Work Definition := do
  Action.ofResult (Sql.requireIdentifier draft.dataSource)
  Work.insertDefinition (Definition.ofDraft draft user (← Work.now))

/-- Whether a definition is there for a tenant. -/
def isOffered (tenant : Option Uuid) (definition : Definition) : Bool :=
  definition.isActive && definition.isVisibleTo tenant

def find? (id : Uuid) (tenant : Option Uuid) : Work (Option Definition) := do
  return ((← Work.database).definition? id).filter (isOffered tenant)

def get (id : Uuid) (tenant : Option Uuid) : Work Definition := do
  Work.require (.notFound .definition id) (← find? id tenant)

/-- The definitions that a tenant sees, of one type or of all, in the order of their names. -/
def list (tenant : Option Uuid) (type : Option String) : Work (List Definition) := do
  let matching (definition : Definition) : Bool :=
    isOffered tenant definition && (type.filter (· ≠ "")).all (· == definition.reportType)
  return ((← Work.database).definitions.filter matching).mergeSort fun a b => a.name ≤ b.name

def deactivate (id : Uuid) (tenant : Option Uuid) : Work Definition := do
  let definition ← get id tenant
  Work.updateDatabase (·.updateDefinition id fun d => { d with isActive := false })
  return { definition with isActive := false }

end TenantReports.Definitions
