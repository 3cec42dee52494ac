import TenantReports.Proofs.Connection.Outcome
import TenantReports.Proofs.Platform.Aside

/-!
A session of work in a tenant's schema: what it does to the connection before the work and after
it, and how the session ends.
-/

namespace TenantReports

namespace Connection

theorem clear_active (c : Connection) : c.clear.active = false := by
  unfold clear
  split
  · rfl
  · next h => exact Bool.eq_false_iff.mpr h

end Connection

namespace Action

open Connection (defaultPath pathStatement)

variable {α : Type}

/-- Work ends, and leaves the connection, as the same work on the connection by itself does. -/
def ActsAs (action : Work α) (alone : Action Connection α) : Prop :=
  ∀ p : Platform, (action.run p).1 = (alone.run p.connection).1 ∧
    (action.run p).2.connection = (alone.run p.connection).2

namespace ActsAs

variable {β : Type}

theorem answer (a : α) : ActsAs (pure a) (pure a) := fun _ => ⟨rfl, rfl⟩

theorem fail (fault : Fault) : ActsAs (throw fault : Work α) (throw fault) := fun _ => ⟨rfl, rfl⟩

theorem bind {action : Work α} {alone : Action Connection α} {next : α → Work β}
    {nextAlone : α → Action Connection β} (h : ActsAs action alone)
    (hnext : ∀ a, ActsAs (next a) (nextAlone a)) : ActsAs (action >>= next) (alone >>= nextAlone) := by
  intro p
  obtain ⟨houtcome, hconnection⟩ := h p
  rw [run_bind, run_bind]
  rcases hrun : action.run p with ⟨outcome, q⟩
  rcases halone : alone.run p.connection with ⟨outcome', c⟩
  rw [hrun, halone] at houtcome hconnection
  dsimp only at houtcome hconnection
  rw [← houtcome, ← hconnection]
  cases outcome with
  | ok a => exact hnext a q
  | error fault => exact ⟨rfl, rfl⟩

theorem attempt {action : Work α} {alone : Action Connection α} (h : ActsAs action alone) :
    ActsAs (attempt action) (attempt alone) := fun p =>
  ⟨congrArg Except.ok (h p).1, (h p).2⟩

theorem connection : ActsAs connection connection := fun _ => ⟨rfl, rfl⟩

theorem updateConnection (f : Connection → Connection) :
    ActsAs (updateConnection f) (updateConnection f) := fun _ => ⟨rfl, rfl⟩

theorem onConnection (f : Connection → Except Fault Unit × Connection) :
    ActsAs (onConnection f) (onConnection f) := by
  intro p
  rw [run_onConnection, run_onConnection]
  exact ⟨rfl, rfl⟩

theorem execute (sql : String) : ActsAs (execute sql) (execute sql) := onConnection _

theorem commit : ActsAs commit commit :=
  connection.bind fun _ => (onConnection _).bind fun _ _ => ⟨rfl, rfl⟩

theorem rollbackIfActive : ActsAs rollbackIfActive rollbackIfActive := by
  refine connection.bind fun c => ?_
  split
  · exact updateConnection _
  · exact answer ()

theorem commitIfActive : ActsAs commitIfActive commitIfActive := by
  refine connection.bind fun c => ?_
  split
  · exact commit
  · exact answer ()

theorem setPath (schemaName : String) : ActsAs (setPath schemaName) (setPath schemaName) := by
  refine ((execute _).bind fun _ => commit).attempt.bind fun outcome => ?_
  cases outcome with
  | ok => exact answer ()
  | error fault => exact fail _

theorem restore : ActsAs restore restore := by
  have hreset : ActsAs resetPath resetPath :=
    rollbackIfActive.bind fun _ => (execute _).bind fun _ => commit
  refine hreset.attempt.bind fun outcome => ?_
  cases outcome with
  | ok => exact answer true
  | error fault => exact (updateConnection _).bind fun _ => answer false

/-- Work that leaves the tables alone is seen by what it does to the connection. -/
theorem run_eq {action : Work α} {alone : Action Connection α} (h : ActsAs action alone)
    (haside : IsAside action) (p : Platform) :
    ∃ q, action.run p = ((alone.run p.connection).1, q) ∧ p.SameTables q ∧
      q.connection = (alone.run p.connection).2 :=
  ⟨(action.run p).2, Prod.ext (h p).1 rfl, haside p, (h p).2⟩

end ActsAs

/-- What follows the work of a session: what it left open is dropped. -/
theorem run_closing (outcome : Except Fault α) (r : Platform) :
    ∃ q, (do rollbackIfActive; ofResult outcome : Work α).run r = (outcome, q) ∧ r.SameTables q ∧
      q.connection = r.connection.clear := by
  obtain ⟨q, hrun, hsame, hconnection⟩ :=
    ActsAs.rollbackIfActive.run_eq IsAside.rollbackIfActive r
  rw [run_rollbackIfActive] at hrun hconnection
  refine ⟨q, ?_, hsame, hconnection⟩
  rw [run_bind, hrun]
  exact run_ofResult outcome q

/-- What follows the scoped work: the connection is given back, and the outcome is told. -/
theorem run_givingBack (schemaName : String) (outcome : Except Fault α) (r : Platform) :
    ∃ q, (do
      let isReset ← restore
      updateConnection Connection.release
      match outcome with
      | .error fault => throw fault
      | .ok a => if isReset then return a else throw (.searchPath .reset schemaName) : Work α).run r =
        (told schemaName r.connection outcome, q) ∧ r.SameTables q ∧
      q.connection = r.connection.giveBack := by
  obtain ⟨q, hrun, hsame, hconnection⟩ := ActsAs.restore.run_eq IsAside.restore r
  have hrelease : IsAside (updateConnection Connection.release) := .updateConnection fun _ => rfl
  rw [run_restore] at hrun hconnection
  refine ⟨((updateConnection Connection.release).run q).2, ?_, hsame.trans (hrelease q), ?_⟩
  · rw [run_bind, hrun]
    unfold told
    rcases r.connection.reset with ⟨isReset, c⟩
    cases isReset <;> cases outcome <;> rfl
  · change q.connection.release = _
    rw [hconnection]
    unfold Connection.giveBack
    rcases r.connection.reset with ⟨isReset, c⟩
    cases isReset <;> rfl

section Session

variable {schemaName : String} {p : Platform}

/-- A platform whose connection is borrowed. -/
def borrowed (p : Platform) : Platform := { p with connection := p.connection.borrow }

theorem sameTables_borrowed (p : Platform) : p.SameTables (borrowed p) :=
  Platform.sameTables_withConnection rfl

theorem scopedTo_of_work (hname : Sql.isIdentifier schemaName = true) {action : Work α}
    {outcome : Except Fault α} {r : Platform}
    (hwork : (work schemaName action).run (borrowed p) = (outcome, r)) :
    ∃ q, (scopedTo (.text schemaName) action).run p = (told schemaName r.connection outcome, q) ∧
      r.SameTables q ∧ q.connection = r.connection.giveBack := by
  obtain ⟨q, hrun, hsame, hback⟩ := run_givingBack schemaName outcome r
  refine ⟨q, ?_, hsame, hback⟩
  have hborrow : (updateConnection Connection.borrow).run p = (.ok (), borrowed p) := rfl
  unfold scopedTo
  rw [Sql.identifierOf_text hname, run_bind, run_ofResult]
  dsimp only
  rw [run_bind, hborrow]
  dsimp only
  rw [run_bind, run_attempt, hwork]
  exact hrun

/-- The work of a session never starts where the path is not set. -/
theorem run_inSession_of_fails (hname : Sql.isIdentifier schemaName = true)
    (hfails : p.connection.borrow.PathFails (tenantPath schemaName)) (action : Work α) :
    ∃ q, (inSession (.text schemaName) action).run p = (.error (.searchPath .set schemaName), q) ∧
      p.SameTables q ∧ q.connection = (startOf schemaName p.connection).giveBack := by
  obtain ⟨r, hset, hsame, hconnection⟩ :=
    (ActsAs.setPath schemaName).run_eq (IsAside.setPath schemaName) (borrowed p)
  obtain ⟨fault, hpath⟩ := Connection.changePath_of_fails hfails
  change _ = (((setPath schemaName).run p.connection.borrow).1, r) at hset
  change _ = ((setPath schemaName).run p.connection.borrow).2 at hconnection
  rw [run_setPath, hpath] at hset hconnection
  have hwork : ∀ action : Work α, (work schemaName action).run (borrowed p) =
      (.error (.searchPath .set schemaName), r) := by
    intro action
    unfold work
    rw [run_bind, hset]
  obtain ⟨q, hrun, hsame', hback⟩ := scopedTo_of_work hname (hwork _)
  exact ⟨q, hrun, ((sameTables_borrowed p).trans hsame).trans hsame', by rw [hback, hconnection]; rfl⟩

/-- The platform once its connection is borrowed and was told the path to a schema. -/
def entered (schemaName : String) (p : Platform) : Platform :=
  ((setPath schemaName).run (borrowed p)).2

theorem sameTables_entered (schemaName : String) (p : Platform) :
    p.SameTables (entered schemaName p) :=
  (sameTables_borrowed p).trans (IsAside.setPath schemaName (borrowed p))

theorem run_setPath_borrowed (hset : ¬ p.connection.borrow.PathFails (tenantPath schemaName)) :
    (setPath schemaName).run (borrowed p) = (.ok (), entered schemaName p) ∧
      (entered schemaName p).connection = startOf schemaName p.connection := by
  obtain ⟨s, hpath, -, hconnection⟩ :=
    (ActsAs.setPath schemaName).run_eq (IsAside.setPath schemaName) (borrowed p)
  have hok := Connection.changePath_of_not_fails hset
  change _ = (((setPath schemaName).run p.connection.borrow).1, s) at hpath
  change _ = ((setPath schemaName).run p.connection.borrow).2 at hconnection
  rw [run_setPath, hok] at hpath hconnection
  have hentered : entered schemaName p = s := congrArg Prod.snd hpath
  rw [hentered]
  exact ⟨hpath, hconnection⟩

/-- A session where the path is set: its work starts on a connection in its schema, what it leaves
open is dropped, and the reset decides what is told of a success. -/
theorem run_inSession_of_not_fails (hname : Sql.isIdentifier schemaName = true)
    (hset : ¬ p.connection.borrow.PathFails (tenantPath schemaName)) (action : Work α) :
    ∃ q, (inSession (.text schemaName) action).run p =
        (told schemaName (action.run (entered schemaName p)).2.connection.clear
          (action.run (entered schemaName p)).1, q) ∧
      (action.run (entered schemaName p)).2.SameTables q ∧
      q.connection = (action.run (entered schemaName p)).2.connection.clear.giveBack := by
  have hpath := (run_setPath_borrowed hset).1
  generalize entered schemaName p = s at hpath ⊢
  obtain ⟨r, hclosing, hsameClosing, hclear⟩ := run_closing (action.run s).1 (action.run s).2
  have hwork : ∃ r', (work schemaName (do
      let outcome ← attempt action
      rollbackIfActive
      ofResult outcome)).run (borrowed p) = ((action.run s).1, r') ∧ r.SameTables r' ∧
      r'.connection = r.connection := by
    unfold work
    rw [run_bind, hpath]
    dsimp only
    rw [run_bind, run_bind, run_attempt]
    dsimp only
    rw [hclosing]
    cases (action.run s).1 with
    | error fault => exact ⟨r, rfl, .refl r, rfl⟩
    | ok a =>
        dsimp only
        obtain ⟨r', hcommit, hsameCommit, hcommitted⟩ :=
          ActsAs.commitIfActive.run_eq IsAside.commitIfActive r
        have hinactive : r.connection.active = false := by
          rw [hclear]
          exact Connection.clear_active _
        rw [run_commitIfActive, Connection.close, hinactive] at hcommit hcommitted
        refine ⟨r', ?_, hsameCommit, hcommitted⟩
        rw [run_bind, hcommit]
        rfl
  obtain ⟨r', hwork, hsameWork, hkept⟩ := hwork
  obtain ⟨q, hrun, hsameBack, hback⟩ := scopedTo_of_work hname hwork
  refine ⟨q, ?_, (hsameClosing.trans hsameWork).trans hsameBack, ?_⟩
  · rw [hkept, hclear] at hrun
    exact hrun
  · rw [hback, hkept, hclear]

end Session

end Action

end TenantReports
