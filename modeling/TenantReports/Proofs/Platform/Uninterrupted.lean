import TenantReports.Proofs.Platform.Aside
import TenantReports.Proofs.Report.Uncancelled

/-!
Work that is not cancelled. Only the reply to a report's query can be a cancellation.
-/

namespace TenantReports

namespace Platform

/-- Whether no query will be cancelled. -/
def IsCalm (p : Platform) : Prop := .cancelled ∉ p.replies

theorem SameTables.calm {p q : Platform} (h : p.SameTables q) (hcalm : p.IsCalm) : q.IsCalm := by
  unfold IsCalm
  rw [h.replies]
  exact hcalm

end Platform

namespace Action

variable {α β : Type}

/-- Whether work is not cancelled where no query is. -/
def IsUninterrupted (action : Work α) : Prop :=
  ∀ p : Platform, p.IsCalm → IsUncancelled (action.run p).1 ∧ (action.run p).2.IsCalm

namespace IsUninterrupted

theorem answer (a : α) : IsUninterrupted (pure a) := fun _ hcalm => ⟨.ok, hcalm⟩

theorem fail {fault : Fault} (h : fault ≠ .cancelled) :
    IsUninterrupted (throw fault : Work α) := by
  refine fun p hcalm => ⟨fun hfault => ?_, hcalm⟩
  cases hfault
  exact h rfl

theorem ofResult {result : Result α} (h : IsUncancelled result) :
    IsUninterrupted (ofResult result) := by
  intro p hcalm
  rw [run_ofResult]
  exact ⟨h, hcalm⟩

theorem bind {action : Work α} {next : α → Work β} (h : IsUninterrupted action)
    (hnext : ∀ a, IsUninterrupted (next a)) : IsUninterrupted (action >>= next) := by
  intro p hcalm
  obtain ⟨houtcome, hafter⟩ := h p hcalm
  rw [run_bind]
  rcases hrun : action.run p with ⟨outcome, q⟩
  rw [hrun] at houtcome hafter
  cases outcome with
  | ok a => exact hnext a q hafter
  | error fault =>
      refine ⟨fun hfault => ?_, hafter⟩
      cases hfault
      exact houtcome rfl

/-- How work ended is told without ending the work that asks for it. -/
theorem attempt {action : Work α} {next : Except Fault α → Work β} (h : IsUninterrupted action)
    (hnext : ∀ outcome, IsUncancelled outcome → IsUninterrupted (next outcome)) :
    IsUninterrupted (attempt action >>= next) := by
  intro p hcalm
  obtain ⟨houtcome, hafter⟩ := h p hcalm
  rw [run_bind, run_attempt]
  exact hnext _ houtcome _ hafter

theorem of_aside {action : Work α} (haside : IsAside action)
    (h : ∀ p, IsUncancelled (action.run p).1) : IsUninterrupted action :=
  fun p hcalm => ⟨h p, (haside p).calm hcalm⟩

theorem get : IsUninterrupted (MonadState.get : Work Platform) := of_aside .get fun _ => .ok

theorem rollbackIfActive : IsUninterrupted rollbackIfActive := by
  refine of_aside .rollbackIfActive fun p => ?_
  unfold Action.rollbackIfActive
  rw [run_bind, run_connection]
  dsimp only
  split <;> exact .ok

theorem onConnection {f : Connection → Except Fault Unit × Connection}
    (hqueries : ∀ c, (f c).2.queries = c.queries) (h : ∀ c, IsUncancelled (f c).1) :
    IsUninterrupted (onConnection f) := by
  refine of_aside (.onConnection hqueries) fun p => ?_
  rw [run_onConnection]
  exact h _

theorem execute (sql : String) : IsUninterrupted (execute sql) := by
  refine onConnection (Connection.queries_send rfl) fun c => ?_
  rcases Connection.send_cases (.statement sql) c with ⟨failure, _, heq⟩ | ⟨_, heq⟩
  · rw [heq]
    exact fun h => nomatch h
  · rw [heq]
    exact .ok

theorem commit : IsUninterrupted commit := by
  have hcommit : ∀ c : Connection, IsUncancelled c.commit.1 := by
    intro c
    rcases Connection.commit_cases c with ⟨failure, _, heq⟩ | ⟨_, heq⟩
    · rw [heq]
      exact fun h => nomatch h
    · rw [heq]
      exact .ok
  refine bind (of_aside .connection fun _ => .ok) fun c => ?_
  refine (onConnection Connection.queries_commit hcommit).bind fun _ => ?_
  exact of_aside (.settle c.pending) fun _ => .ok

theorem commitIfActive : IsUninterrupted commitIfActive := by
  refine bind (of_aside .connection fun _ => .ok) fun c => ?_
  split
  · exact commit
  · exact answer ()

theorem setPath (schemaName : String) : IsUninterrupted (setPath schemaName) := by
  refine attempt ((execute _).bind fun _ => commit) fun outcome _ => ?_
  split
  · exact answer ()
  · exact fail fun h => nomatch h

theorem restore : IsUninterrupted restore := by
  have hreset : IsUninterrupted resetPath :=
    rollbackIfActive.bind fun _ => (execute _).bind fun _ => commit
  refine attempt hreset fun outcome _ => ?_
  split
  · exact answer true
  · refine bind (of_aside (.updateConnection Connection.queries_invalidate) fun _ => .ok) ?_
    exact fun _ => answer false

theorem inSession {action : Work α} (h : IsUninterrupted action) (schemaName : String) :
    IsUninterrupted (inSession (.text schemaName) action) := by
  have hsession : IsUninterrupted (do
      let outcome ← Action.attempt action
      Action.rollbackIfActive
      Action.ofResult outcome) :=
    attempt h fun outcome houtcome => rollbackIfActive.bind fun _ => ofResult houtcome
  refine (ofResult (Sql.identifierOf_uncancelled _)).bind fun name => ?_
  refine bind (of_aside (.updateConnection fun _ => rfl) fun _ => .ok) fun _ => ?_
  refine attempt ((setPath name).bind fun _ => hsession.bind fun a => ?_) fun outcome houtcome => ?_
  · exact commitIfActive.bind fun _ => answer a
  refine restore.bind fun isReset => ?_
  refine bind (of_aside (.updateConnection fun _ => rfl) fun _ => .ok) fun _ => ?_
  cases outcome with
  | error fault =>
      refine fail fun hfault => ?_
      exact houtcome (congrArg Except.error hfault)
  | ok a =>
      cases isReset with
      | true => exact answer a
      | false => exact fail fun h => nomatch h

end IsUninterrupted

/-- How work ended that was not cancelled. -/
theorem run_attemptUncancelled {σ : Type} {action : Action σ α} {s s' : σ}
    {outcome : Except Fault α} (hrun : action.run s = (outcome, s'))
    (h : outcome ≠ .error .cancelled) :
    (attemptUncancelled action).run s = (.ok outcome, s') := by
  unfold attemptUncancelled
  rw [run_bind, run_attempt, hrun]
  dsimp only
  split
  · exact absurd rfl h
  · rfl

end Action

namespace Work

open Action (IsUninterrupted)

variable {α : Type}

end Work

end TenantReports
