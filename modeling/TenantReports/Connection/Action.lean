import TenantReports.Connection.Basic

/-!
Actions on a state that holds a connection. An action that fails keeps what it did to the state.
-/

namespace TenantReports

abbrev Action (σ α : Type) := ExceptT Fault (StateM σ) α

/-- States that hold a connection. What a commit makes lasting may show in the rest of the
state. -/
class Connected (σ : Type) where
  connection : σ → Connection
  withConnection : σ → Connection → σ
  settle : List ConnectionEvent → σ → σ

instance : Connected Connection := ⟨id, fun _ c => c, fun _ c => c⟩

namespace Action

variable {σ α : Type}

def ofResult (result : Result α) : Action σ α :=
  match result with
  | .ok a => pure a
  | .error fault => throw fault

/-- Runs an action and answers how it ended. -/
def attempt (action : Action σ α) : Action σ (Except Fault α) := fun s =>
  let (outcome, s) := action s
  (.ok outcome, s)

/-- Runs an action and answers how it ended; a cancellation is not held up. -/
def attemptUncancelled (action : Action σ α) : Action σ (Except Fault α) := do
  match ← attempt action with
  | .error .cancelled => throw .cancelled
  | outcome => return outcome

def run (action : Action σ α) (s : σ) : Except Fault α × σ := action s

variable [Connected σ]

def connection : Action σ Connection := do return Connected.connection (← get)

def updateConnection (f : Connection → Connection) : Action σ Unit :=
  modify fun s => Connected.withConnection s (f (Connected.connection s))

def onConnection (f : Connection → Except Fault Unit × Connection) : Action σ Unit := do
  let s ← get
  let (outcome, c) := f (Connected.connection s)
  set (Connected.withConnection s c)
  ofResult outcome

def execute (sql : String) : Action σ Unit := onConnection (Connection.send (.statement sql))

def migrate (sql : String) : Action σ Unit := onConnection (Connection.send (.migration sql))

def sendQuery (sql : String) : Action σ Unit := onConnection (Connection.send (.query sql))

def inspect (sql : String) : Action σ Unit := onConnection (Connection.send (.inspection sql))

def commit : Action σ Unit := do
  let pending := (← connection).pending
  onConnection Connection.commit
  modify (Connected.settle pending)

def rollback : Action σ Unit := updateConnection Connection.rollback

def commitIfActive : Action σ Unit := do
  if (← connection).active then commit

def rollbackIfActive : Action σ Unit := do
  if (← connection).active then rollback

/-- Runs work on a borrowed connection that is scoped to no schema. -/
def unscoped {α : Type} (action : Action σ α) : Action σ α := do
  updateConnection Connection.borrow
  let outcome ← attempt action
  rollbackIfActive
  updateConnection Connection.release
  ofResult outcome

end Action

end TenantReports
