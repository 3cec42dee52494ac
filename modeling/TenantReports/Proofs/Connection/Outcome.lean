import Mathlib.Data.List.DropRight
import TenantReports.Proofs.Connection.Scope

/-!
Which of the failures of a run is told, and whether what the run's work left open is made lasting.
-/

namespace TenantReports

namespace Connection

def CloseFails (c : Connection) (failure : Failure) : Prop :=
  c.active = true ∧ c.plan.commit (c.commits + 1) = some failure

def notCommitted (c : Connection) : Connection :=
  { c with log := c.log ++ [.commit], commits := c.commits + 1 }

def committed (c : Connection) : Connection :=
  if c.active then
    { c.notCommitted with active := false, pending := [], settled := c.settled ++ c.pending }
  else c

theorem close_eq_of_fails {c : Connection} {failure : Failure} (h : c.CloseFails failure) :
    c.close = (.error failure.fault, c.notCommitted) := by
  rw [close, if_pos h.1]
  rcases commit_cases c with ⟨failure', hplan, heq⟩ | ⟨hplan, heq⟩
  · have hsame : failure' = failure := Option.some.inj (hplan.symm.trans h.2)
    rw [heq, hsame]
    rfl
  · rw [h.2] at hplan
    cases hplan

theorem close_eq_of_not_fails {c : Connection} (h : ∀ failure, ¬ c.CloseFails failure) :
    c.close = (.ok (), c.committed) := by
  unfold close committed
  split
  · next hactive =>
      rcases commit_cases c with ⟨failure, hplan, heq⟩ | ⟨hplan, heq⟩
      · exact absurd ⟨hactive, hplan⟩ (h failure)
      · rw [heq]
        rfl
  · rfl

theorem settled_committed {c : Connection} (h : c.Tidy) :
    c.committed.settled = c.settled ++ c.pending := by
  unfold committed
  split
  · rfl
  · next hactive => rw [h (Bool.eq_false_iff.mpr hactive), List.append_nil]

end Connection

/-- Something that a routine does, and whether it went through. -/
structure Deed where
  event : ConnectionEvent
  succeeded : Bool
deriving DecidableEq

namespace Deed

/-- A rollback settles what was done, and so does a commit that goes through. -/
def settles (deed : Deed) : Bool :=
  deed.event = .rollback || (deed.event = .commit && deed.succeeded)

/-- What went through since the last commit or rollback. -/
def sinceSettled (deeds : List Deed) : List ConnectionEvent :=
  ((deeds.rtakeWhile fun deed => !deed.settles).filter (·.succeeded)).map (·.event)

theorem sinceSettled_concat (deeds : List Deed) (deed : Deed) :
    sinceSettled (deeds ++ [deed]) =
      if deed.settles then []
      else sinceSettled deeds ++ if deed.succeeded then [deed.event] else [] := by
  unfold sinceSettled
  rw [List.rtakeWhile_concat]
  cases hsettles : deed.settles with
  | true => rfl
  | false => cases hsucceeded : deed.succeeded <;> simp [hsucceeded]

end Deed

namespace Routine

variable {α : Type}

def deeds : Routine α → Connection → List Deed
  | done _, _ => []
  | fail _, _ => []
  | look next, c => (next c.searchPath c.active).deeds c
  | send sql next, c =>
      ⟨.statement sql, (c.send (.statement sql)).1.isOk⟩ ::
        (next (c.send (.statement sql)).1).deeds (c.send (.statement sql)).2
  | commit next, c => ⟨.commit, c.commit.1.isOk⟩ :: (next c.commit.1).deeds c.commit.2
  | rollback next, c => ⟨.rollback, true⟩ :: next.deeds c.rollback

/-- The open transaction holds what was done since the last commit or rollback, where `past` is
what was done before the routine. -/
theorem pending_run (work : Routine α) (c : Connection) (past : List Deed)
    (h : c.pending = Deed.sinceSettled past) :
    (work.run c).2.pending = Deed.sinceSettled (past ++ work.deeds c) := by
  induction work generalizing c past with
  | done answer => simpa [run_done, deeds] using h
  | fail fault => simpa [run_fail, deeds] using h
  | look next ih => exact ih _ _ c past h
  | send sql next ih =>
      rw [run_send, deeds, List.append_cons]
      apply ih
      rw [Deed.sinceSettled_concat]
      rcases Connection.send_cases (.statement sql) c with ⟨failure, _, heq⟩ | ⟨_, heq⟩
      · rw [heq]
        simpa [Deed.settles, Except.isOk, Except.toBool] using h
      · rw [heq]
        simpa [Deed.settles, Except.isOk, Except.toBool] using h
  | commit next ih =>
      rw [run_commit, deeds, List.append_cons]
      apply ih
      rw [Deed.sinceSettled_concat]
      rcases Connection.commit_cases c with ⟨failure, _, heq⟩ | ⟨_, heq⟩
      · rw [heq]
        simpa [Deed.settles, Except.isOk, Except.toBool] using h
      · rw [heq]
        simp [Deed.settles, Except.isOk, Except.toBool]
  | rollback next ih =>
      rw [run_rollback, deeds, List.append_cons]
      apply ih
      rw [Deed.sinceSettled_concat]
      rfl

end Routine

namespace Action

variable {α : Type}

open Connection (defaultPath)

/-- The connection as work in a schema finds it. -/
def startOf (schemaName : String) (c : Connection) : Connection :=
  (c.borrow.changePath (tenantPath schemaName)).2

/-- How a run of a routine in a schema ends. Each rule supposes that those before it do not
apply. -/
structure Decided (schemaName : String) (routine : Routine α) (c : Connection)
    (result : Except Fault α × Connection) : Prop where
  /-- The work starts in its schema, with nothing open. -/
  started : ¬ c.borrow.PathFails (tenantPath schemaName) →
    (startOf schemaName c).searchPath = tenantPath schemaName ∧
      (startOf schemaName c).active = false ∧ (startOf schemaName c).pending = []
  /-- Where the path is not set, the work never starts. -/
  notSet : c.borrow.PathFails (tenantPath schemaName) →
    result.1 = .error (.searchPath .set schemaName) ∧
      (∀ other : Routine α, (scopedTo (.text schemaName) other.act).run c = result) ∧
      Connection.GivenBack (startOf schemaName c) result.2
  /-- The work's own failure is told as it is, whether or not the reset fails. -/
  failed : ¬ c.borrow.PathFails (tenantPath schemaName) →
    ∀ fault c', routine.run (startOf schemaName c) = (.error fault, c') →
      result.1 = .error fault ∧ Connection.GivenBack c' result.2
  /-- So is the failure of the commit that closes the work's transaction. -/
  notClosed : ¬ c.borrow.PathFails (tenantPath schemaName) →
    ∀ a c' failure, routine.run (startOf schemaName c) = (.ok a, c') → c'.CloseFails failure →
      result.1 = .error failure.fault ∧ Connection.GivenBack c'.notCommitted result.2
  /-- Otherwise the work's transaction is committed, and the reset decides. -/
  closed : ¬ c.borrow.PathFails (tenantPath schemaName) →
    ∀ a c', routine.run (startOf schemaName c) = (.ok a, c') →
      (∀ failure, ¬ c'.CloseFails failure) →
        (c'.committed.ResetFails → result.1 = .error (.searchPath .reset schemaName)) ∧
        (¬ c'.committed.ResetFails → result.1 = .ok a) ∧
        c'.committed.settled =
          c'.settled ++ Deed.sinceSettled (routine.deeds (startOf schemaName c)) ∧
        Connection.GivenBack c'.committed result.2

theorem told_of_resetFails {schemaName : String} {c : Connection} (a : α) (h : c.ResetFails) :
    told schemaName c (.ok a) = .error (.searchPath .reset schemaName) := by
  have hclear := (Connection.clear_resetFails c).mpr h
  obtain ⟨fault, heq⟩ := Connection.changePath_of_fails hclear
  unfold told Connection.reset
  rw [heq]

theorem told_of_not_resetFails {schemaName : String} {c : Connection} (a : α)
    (h : ¬ c.ResetFails) : told schemaName c (.ok a) = .ok a := by
  have hclear : ¬ c.clear.PathFails defaultPath :=
    fun hfails => h ((Connection.clear_resetFails c).mp hfails)
  unfold told Connection.reset
  rw [Connection.changePath_of_not_fails hclear]

theorem run_work_of_fails {schemaName : String} {c : Connection}
    (h : c.borrow.PathFails (tenantPath schemaName)) (action : Action Connection α) :
    (work schemaName action).run c.borrow =
      (.error (.searchPath .set schemaName), startOf schemaName c) := by
  obtain ⟨fault, heq⟩ := Connection.changePath_of_fails h
  rw [run_work, heq]
  rfl

theorem run_work_of_not_fails {schemaName : String} {c : Connection}
    (h : ¬ c.borrow.PathFails (tenantPath schemaName)) (routine : Routine α) :
    (work schemaName routine.act).run c.borrow =
      match routine.run (startOf schemaName c) with
      | (.error fault, c₂) => (.error fault, c₂)
      | (.ok a, c₂) =>
          match c₂.close with
          | (.error fault, c₃) => (.error fault, c₃)
          | (.ok (), c₃) => (.ok a, c₃) := by
  rw [run_work, Connection.changePath_of_not_fails h]
  rfl

theorem startOf_of_not_fails {schemaName : String} {c : Connection}
    (h : ¬ c.borrow.PathFails (tenantPath schemaName)) :
    (startOf schemaName c).searchPath = tenantPath schemaName ∧
      (startOf schemaName c).active = false ∧ (startOf schemaName c).pending = [] := by
  have hset := Connection.changePath_of_not_fails h
  rcases Connection.changePath_cases (tenantPath schemaName) c.borrow with
    ⟨failure, _, heq⟩ | ⟨failure, _, heq⟩ | ⟨_, heq⟩
  · rw [heq] at hset
    cases hset
  · rw [heq] at hset
    cases hset
  · unfold startOf
    rw [heq]
    exact ⟨rfl, rfl, rfl⟩

/-- The end of every run is decided by what fails first: the path, the work, its last commit, the
reset. -/
theorem scopedTo_decided {schemaName : String} (h : Sql.isIdentifier schemaName = true)
    (routine : Routine α) (c : Connection) :
    Decided schemaName routine c ((scopedTo (.text schemaName) routine.act).run c) := by
  have hback := Connection.giveBack_givenBack (work_ends schemaName routine.act c.borrow).tidy
  rw [run_scopedTo h]
  refine ⟨startOf_of_not_fails, ?_, ?_, ?_, ?_⟩
  · intro hset
    rw [run_work_of_fails hset] at hback ⊢
    refine ⟨rfl, fun other => ?_, hback⟩
    rw [run_scopedTo h, run_work_of_fails hset]
  · intro hset fault c' hrun
    rw [run_work_of_not_fails hset, hrun] at hback ⊢
    exact ⟨rfl, hback⟩
  · intro hset a c' failure hrun hclose
    rw [run_work_of_not_fails hset, hrun] at hback ⊢
    dsimp only at hback ⊢
    rw [Connection.close_eq_of_fails hclose] at hback ⊢
    exact ⟨rfl, hback⟩
  · intro hset a c' hrun hclose
    have hpending := (startOf_of_not_fails hset).2.2
    have htidy := routine.tidy_run fun _ => hpending
    have hdeeds := routine.pending_run _ [] hpending
    rw [hrun] at htidy hdeeds
    rw [run_work_of_not_fails hset, hrun] at hback ⊢
    dsimp only at hback ⊢
    rw [Connection.close_eq_of_not_fails hclose] at hback ⊢
    refine ⟨told_of_resetFails a, told_of_not_resetFails a, ?_, hback⟩
    rw [Connection.settled_committed htidy, hdeeds]
    rfl

/-- Work that is cancelled behind its first statement, on a connection whose reset fails. -/
theorem scopedTo_decided_of_cancelled :
    let plan : FaultPlan := { FaultPlan.none with
      statement := fun sql =>
        if sql = "SET search_path TO public" then some (.outside .runtime "connection lost")
        else none }
    let routine : Routine String :=
      .ofSteps [.send "UPDATE students SET grade = 7", .fail .cancelled]
    Sql.isIdentifier "tenant_a" = true ∧
      Decided "tenant_a" routine (.fresh plan)
        ((scopedTo (.text "tenant_a") routine.act).run (.fresh plan)) :=
  ⟨by decide, scopedTo_decided (by decide) _ _⟩

end Action

end TenantReports
