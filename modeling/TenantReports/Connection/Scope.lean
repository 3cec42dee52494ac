import TenantReports.Connection.Action

/-!
Work on a connection that is scoped to one tenant's schema. The work's transaction is committed
when the work succeeds and rolled back when it fails; on every way out the search path is reset,
and a connection that cannot be reset is invalidated.
-/

namespace TenantReports.Action

open Connection (defaultPath pathStatement)

variable {σ α : Type} [Connected σ]

/-- The search path of work in a schema. -/
def tenantPath (schemaName : String) : String := schemaName ++ ", " ++ defaultPath

/-- Sets the search path for good; any failure is told as one of the search path. -/
def setPath (schemaName : String) : Action σ Unit := do
  match ← attempt (do execute (pathStatement (tenantPath schemaName)); commit) with
  | .ok () => pure ()
  | .error _ => throw (.searchPath .set schemaName)

def resetPath : Action σ Unit := do
  rollbackIfActive
  execute (pathStatement defaultPath)
  commit

/-- The work itself, between setting the path and closing its transaction. -/
def work (schemaName : String) (action : Action σ α) : Action σ α := do
  setPath schemaName
  let a ← action
  commitIfActive
  return a

/-- Resets the search path or invalidates the connection; answers whether the reset succeeded. -/
def restore : Action σ Bool := do
  match ← attempt resetPath with
  | .ok () => return true
  | .error _ =>
      updateConnection Connection.invalidate
      return false

/-- Runs work on a borrowed connection that is scoped to a schema. A failure of the work hides a
failure of the reset. -/
def scopedTo (schema : Value) (action : Action σ α) : Action σ α := do
  let schemaName ← ofResult (Sql.identifierOf schema)
  updateConnection Connection.borrow
  let outcome ← attempt (work schemaName action)
  let isReset ← restore
  updateConnection Connection.release
  match outcome with
  | .error fault => throw fault
  | .ok a => if isReset then return a else throw (.searchPath .reset schemaName)

/-- Runs the work of a session in a schema. A session commits its own work; what it leaves open is
dropped when it ends. -/
def inSession (schema : Value) (action : Action σ α) : Action σ α :=
  scopedTo schema do
    let outcome ← attempt action
    rollbackIfActive
    ofResult outcome

end TenantReports.Action
