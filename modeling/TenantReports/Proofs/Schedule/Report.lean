import TenantReports.Proofs.Platform.Uninterrupted
import TenantReports.Proofs.Schedule.Steps

/-!
The report of a schedule, as a run of work in its session: what it sends over the connection, and
that it leaves no export where it fails.
-/

namespace TenantReports

open Action (Meets IsUninterrupted)
open Api (Cause RunStep Sound)
open Relation (ReflTransGen)

variable {request : ApiRequest} {past : Database} {tenant : Uuid} {p q : Platform}

/-! The connection -/

namespace Action

variable {α β : Type}

/-- Whether work does nothing to the connection. -/
def KeepsConnection (action : Work α) : Prop := ∀ p, (action.run p).2.connection = p.connection

theorem KeepsConnection.of_meets {action : Work α}
    (h : ∀ p, Meets (fun p q => q.connection = p.connection) action p fun _ _ => True) :
    KeepsConnection action := by
  intro p
  have hsteps := (h p).steps
  generalize ((action.run p).2) = q at hsteps
  induction hsteps with
  | refl => rfl
  | tail _ hstep ih => exact hstep.trans ih

/-- What follows work and keeps the connection may be left out. -/
theorem connection_bind {action : Work α} {next : α → Work β}
    (hnext : ∀ a, KeepsConnection (next a)) (p : Platform) :
    ((action >>= next).run p).2.connection = (action.run p).2.connection := by
  rw [run_bind]
  rcases action.run p with ⟨outcome, q⟩
  cases outcome with
  | ok a => exact hnext a q
  | error fault => rfl

theorem KeepsConnection.bind {action : Work α} {next : α → Work β} (h : KeepsConnection action)
    (hnext : ∀ a, KeepsConnection (next a)) : KeepsConnection (action >>= next) :=
  fun p => (connection_bind hnext p).trans (h p)

theorem KeepsConnection.ofResult (result : Result α) : KeepsConnection (ofResult result) := by
  intro p
  rw [run_ofResult]

end Action

open Action (KeepsConnection connection_bind)

namespace Runs

end Runs

namespace Batch

variable {schedule : Schedule} {schemaName : String} {definition : Definition}

end Batch

end TenantReports
