import TenantReports.Sql.Basic

/-!
A pooled database connection: its search path, its transaction, and what was sent over it. Any
statement and any commit may fail; rolling back and invalidating never do.
-/

namespace TenantReports

inductive ConnectionEvent
  | statement (sql : String)
  | migration (sql : String)
  /-- A report's query. -/
  | query (sql : String)
  /-- A question for the connection's own state. -/
  | inspection (sql : String)
  | commit
  | rollback
  | invalidate
deriving DecidableEq, Repr

def ConnectionEvent.text : ConnectionEvent → String
  | statement sql | migration sql | query sql | inspection sql => sql
  | commit => "<commit>"
  | rollback => "<rollback>"
  | invalidate => "<invalidate>"

/-- The failure of a statement or of a commit, which is never a cancellation. -/
structure Failure where
  outside ::
  kind : OutsideKind
  text : String
deriving DecidableEq, Repr

def Failure.fault (failure : Failure) : Fault := .outside failure.kind failure.text

/-- What fails: statements by their text, statements by their number, and commits by their number,
both counted from one. -/
structure FaultPlan where
  statement : String → Option Failure
  commit : Nat → Option Failure
  occurrence : Nat → Option Failure := fun _ => .none

namespace FaultPlan

def none : FaultPlan := { statement := fun _ => .none, commit := fun _ => .none }

/-- How the statement with the number `n` fails, if it does. -/
def failure? (plan : FaultPlan) (n : Nat) (sql : String) : Option Failure :=
  (plan.statement sql).or (plan.occurrence n)

end FaultPlan

structure Connection where
  plan : FaultPlan
  searchPath : String
  /-- Whether a transaction is open. -/
  active : Bool
  /-- What the open transaction has done. -/
  pending : List ConnectionEvent
  /-- What was done in transactions that were committed. -/
  settled : List ConnectionEvent
  statements : Nat
  commits : Nat
  log : List ConnectionEvent
  borrowed : Nat
  released : Nat
  invalidated : Bool

namespace Connection

def defaultPath : String := "public"

/-- A new connection, in the pool. -/
def fresh (plan : FaultPlan) : Connection :=
  { plan, searchPath := defaultPath, active := false, pending := [], settled := [],
    statements := 0, commits := 0, log := [], borrowed := 0, released := 0, invalidated := false }

def pathStatement (path : String) : String := "SET search_path TO " ++ path

/-- The search path that a statement sets. -/
def pathSet? (sql : String) : Option String :=
  let lead := "SET search_path TO ".toList
  if lead.isPrefixOf sql.toList then some (String.ofList (sql.toList.drop lead.length)) else none

def record (event : ConnectionEvent) (c : Connection) : Connection :=
  { c with log := c.log ++ [event] }

/-- Sends a statement, which opens a transaction. A statement that fails has no other effect. -/
def send (event : ConnectionEvent) (c : Connection) : Except Fault Unit × Connection :=
  let c := { c.record event with active := true, statements := c.statements + 1 }
  match c.plan.failure? c.statements event.text with
  | some failure => (.error failure.fault, c)
  | none =>
      (.ok (), { c with
        pending := c.pending ++ [event]
        searchPath := (pathSet? event.text).getD c.searchPath })

def commit (c : Connection) : Except Fault Unit × Connection :=
  let c := { c.record .commit with commits := c.commits + 1 }
  match c.plan.commit c.commits with
  | some failure => (.error failure.fault, c)
  | none => (.ok (), { c with active := false, pending := [], settled := c.settled ++ c.pending })

def rollback (c : Connection) : Connection :=
  { c.record .rollback with active := false, pending := [] }

/-- Makes sure that the pool never hands the connection out again. -/
def invalidate (c : Connection) : Connection :=
  { c.record .invalidate with invalidated := true }

/-- What the pool hands out: the same connection, or a new one in the place of one that was
invalidated. -/
def renewed (c : Connection) : Connection := if c.invalidated then fresh c.plan else c

def borrow (c : Connection) : Connection := { c with borrowed := c.borrowed + 1 }

def release (c : Connection) : Connection := { c with released := c.released + 1 }

end Connection

end TenantReports
