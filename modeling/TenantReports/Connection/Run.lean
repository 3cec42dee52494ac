import TenantReports.Connection.Action
import TenantReports.Connection.Scope

/-!
Work on a connection as a routine: it sends, commits and rolls back, sees how each of these went,
and goes on, answers or fails accordingly. Runs of such work go, one after another, over one pooled
connection.
-/

namespace TenantReports

inductive Routine (α : Type)
  | done (answer : α)
  | fail (fault : Fault)
  /-- Reads the search path, and whether a transaction is open. -/
  | look (next : String → Bool → Routine α)
  | send (sql : String) (next : Except Fault Unit → Routine α)
  | commit (next : Except Fault Unit → Routine α)
  | rollback (next : Routine α)

namespace Routine

variable {α : Type}

def act {σ : Type} [Connected σ] : Routine α → Action σ α
  | done answer => pure answer
  | fail fault => throw fault
  | look next => do
      let c ← Action.connection
      (next c.searchPath c.active).act
  | send sql next => do
      let outcome ← Action.attempt (Action.execute sql)
      (next outcome).act
  | commit next => do
      let outcome ← Action.attempt Action.commit
      (next outcome).act
  | rollback next => do
      Action.rollback
      next.act

/-- The routine on a connection by itself. -/
def run (work : Routine α) (c : Connection) : Except Fault α × Connection :=
  (work.act : Action Connection α).run c

/-- Goes on after a success; a failure is the routine's own. -/
def proceed (rest : Routine α) : Except Fault Unit → Routine α
  | .ok () => rest
  | .error fault => fail fault

end Routine

/-- A step of work that no failure is kept from. -/
inductive WorkStep
  | send (sql : String)
  | commit
  | rollback
  | fail (fault : Fault)

/-- The steps in order, the first failure ending them; the search path at their end. -/
def Routine.ofSteps : List WorkStep → Routine String
  | [] => look fun searchPath _ => done searchPath
  | .send sql :: steps => send sql (proceed (ofSteps steps))
  | .commit :: steps => commit (proceed (ofSteps steps))
  | .rollback :: steps => rollback (ofSteps steps)
  | .fail fault :: _ => fail fault

/-- What is seen of a run: its outcome, its events, and the connection after it. -/
structure RunReport where
  outcome : Except Fault String
  events : List ConnectionEvent
  connection : Connection

/-- Work that is to be done in a schema. -/
structure ScopedRun where
  schema : Value
  work : Routine String

namespace ScopedRun

def perform (run : ScopedRun) (c : Connection) : RunReport :=
  let (outcome, after) := (Action.scopedTo run.schema run.work.act).run { c with log := [] }
  ⟨outcome, after.log, after⟩

/-- The reports of runs that share a connection. -/
def performAll : List ScopedRun → Connection → List RunReport
  | [], _ => []
  | run :: runs, c =>
      let report := run.perform c
      report :: performAll runs report.connection

end ScopedRun

/-- A run whose work is given by its steps. -/
structure ConnectionRun where
  schema : Value
  steps : List WorkStep

namespace ConnectionRun

def toScoped (run : ConnectionRun) : ScopedRun := ⟨run.schema, .ofSteps run.steps⟩

def performAll (runs : List ConnectionRun) (c : Connection) : List RunReport :=
  ScopedRun.performAll (runs.map toScoped) c

end ConnectionRun

end TenantReports
