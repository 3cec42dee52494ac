import TenantReports.Connection.Run

/-!
What actions do to the state they run on, one equation for each way of building an action.
-/

namespace TenantReports

@[simp] theorem Connection.connection_self (c : Connection) : Connected.connection c = c := rfl

@[simp] theorem Connection.withConnection_self (c c' : Connection) :
    Connected.withConnection c c' = c' := rfl

namespace Action

variable {σ α β : Type}

theorem run_bind (action : Action σ α) (next : α → Action σ β) (s : σ) :
    (action >>= next).run s =
      match action.run s with
      | (.ok a, s') => (next a).run s'
      | (.error fault, s') => (.error fault, s') := by
  change ExceptT.bindCont next (action s).1 (action s).2 = _
  rcases h : action s with ⟨outcome, s'⟩
  cases outcome <;> simp only [Action.run, h] <;> rfl

theorem run_attempt (action : Action σ α) (s : σ) :
    (attempt action).run s = (.ok (action.run s).1, (action.run s).2) := rfl

theorem run_ofResult (result : Result α) (s : σ) :
    (ofResult result : Action σ α).run s = (result, s) := by
  cases result <;> rfl

variable [Connected σ]

theorem run_connection (s : σ) :
    (connection : Action σ Connection).run s = (.ok (Connected.connection s), s) := rfl

theorem run_updateConnection (f : Connection → Connection) (s : σ) :
    (updateConnection f).run s =
      (.ok (), Connected.withConnection s (f (Connected.connection s))) := rfl

theorem run_onConnection (f : Connection → Except Fault Unit × Connection) (s : σ) :
    (onConnection f).run s =
      ((f (Connected.connection s)).1,
        Connected.withConnection s (f (Connected.connection s)).2) :=
  run_ofResult _ _

theorem run_execute (sql : String) (c : Connection) :
    (execute sql).run c = c.send (.statement sql) :=
  run_onConnection _ _

theorem run_commit (c : Connection) : (commit : Action Connection Unit).run c = c.commit := by
  unfold commit
  rw [run_bind, run_connection]
  dsimp only
  rw [run_bind, run_onConnection]
  rcases h : c.commit with ⟨outcome, c'⟩
  cases outcome with
  | ok => simp only [Connection.connection_self, h]; rfl
  | error => simp only [Connection.connection_self, h]; rfl

end Action

namespace Routine

variable {α : Type}

theorem run_done (answer : α) (c : Connection) : (done answer).run c = (.ok answer, c) := rfl

theorem run_fail (fault : Fault) (c : Connection) :
    (fail fault : Routine α).run c = (.error fault, c) := rfl

theorem run_look (next : String → Bool → Routine α) (c : Connection) :
    (look next).run c = (next c.searchPath c.active).run c := rfl

theorem run_send (sql : String) (next : Except Fault Unit → Routine α) (c : Connection) :
    (send sql next).run c =
      (next (c.send (.statement sql)).1).run (c.send (.statement sql)).2 := by
  rw [run, act, Action.run_bind, Action.run_attempt, Action.run_execute]
  rfl

theorem run_commit (next : Except Fault Unit → Routine α) (c : Connection) :
    (commit next).run c = (next c.commit.1).run c.commit.2 := by
  rw [run, act, Action.run_bind, Action.run_attempt, Action.run_commit]
  rfl

theorem run_rollback (next : Routine α) (c : Connection) :
    (rollback next).run c = next.run c.rollback := rfl

/-- What every operation of a connection keeps, a routine keeps. -/
theorem run_keeps (kept : Connection → Prop)
    (hsend : ∀ sql c, kept c → kept (c.send (.statement sql)).2)
    (hcommit : ∀ c, kept c → kept c.commit.2)
    (hrollback : ∀ c, kept c → kept c.rollback)
    (work : Routine α) (c : Connection) (h : kept c) : kept (work.run c).2 := by
  induction work generalizing c with
  | done answer => exact h
  | fail fault => exact h
  | look next ih =>
      rw [run_look]
      exact ih _ _ c h
  | send sql next ih =>
      rw [run_send]
      exact ih _ _ (hsend sql c h)
  | commit next ih =>
      rw [run_commit]
      exact ih _ _ (hcommit c h)
  | rollback next ih => exact ih _ (hrollback c h)

end Routine

end TenantReports
