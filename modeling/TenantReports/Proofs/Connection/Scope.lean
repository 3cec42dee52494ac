import TenantReports.Proofs.Connection.Action
import TenantReports.Proofs.Sql.Basic

/-!
A run of work in a schema as a chain of what happens to the connection: its search path is set, the
work runs, the work's transaction is closed, and the connection is reset and given back.
-/

namespace TenantReports

namespace Connection

/-- Sets the search path and commits. -/
def changePath (path : String) (c : Connection) : Except Fault Unit × Connection :=
  match c.send (.statement (pathStatement path)) with
  | (.ok (), c) => c.commit
  | (.error fault, c) => (.error fault, c)

def close (c : Connection) : Except Fault Unit × Connection :=
  if c.active then c.commit else (.ok (), c)

def clear (c : Connection) : Connection := if c.active then c.rollback else c

def reset (c : Connection) : Except Fault Unit × Connection := c.clear.changePath defaultPath

/-- Resets the search path, invalidates the connection if that fails, and releases it. -/
def giveBack (c : Connection) : Connection :=
  match c.reset with
  | (.ok (), c) => c.release
  | (.error _, c) => c.invalidate.release

/-- Whether the next statement, which sets the search path, or the next commit is one that
fails. -/
def PathFails (path : String) (c : Connection) : Prop :=
  c.plan.failure? (c.statements + 1) (pathStatement path) ≠ none ∨
    c.plan.commit (c.commits + 1) ≠ none

def ResetFails (c : Connection) : Prop := c.PathFails defaultPath

/-- Without an open transaction there is nothing that it has done. -/
def Tidy (c : Connection) : Prop := c.active = false → c.pending = []

def resetEvent : ConnectionEvent := .statement (pathStatement defaultPath)

/-- How the connection `c` comes back to the pool as `after`. -/
structure GivenBack (c after : Connection) : Prop where
  /-- What is open is rolled back, and the next thing is the reset. -/
  events : ∃ rest,
    after.log = c.log ++ (if c.active then [.rollback] else []) ++ resetEvent :: rest ∧
      (.invalidate ∈ rest ↔ c.ResetFails)
  settled : ¬ c.ResetFails → after.settled = c.settled ++ [resetEvent]
  not_settled : c.ResetFails → after.settled = c.settled
  pending : after.pending ⊆ [resetEvent]
  searchPath : ¬ c.ResetFails → after.searchPath = defaultPath
  invalidated : after.invalidated = true ↔ c.invalidated = true ∨ c.ResetFails
  borrowed : after.borrowed = c.borrowed
  released : after.released = c.released + 1

theorem pathSet?_pathStatement (path : String) : pathSet? (pathStatement path) = some path := by
  unfold pathSet? pathStatement
  rw [String.toList_append]
  generalize "SET search_path TO ".toList = lead
  simp

theorem send_cases (event : ConnectionEvent) (c : Connection) :
    (∃ failure, c.plan.failure? (c.statements + 1) event.text = some failure ∧
      c.send event = (.error failure.fault,
        { c with log := c.log ++ [event], active := true, statements := c.statements + 1 })) ∨
    (c.plan.failure? (c.statements + 1) event.text = none ∧
      c.send event = (.ok (),
        { c with
          log := c.log ++ [event], active := true, statements := c.statements + 1
          pending := c.pending ++ [event]
          searchPath := (pathSet? event.text).getD c.searchPath })) := by
  cases h : c.plan.failure? (c.statements + 1) event.text with
  | some failure =>
      refine Or.inl ⟨failure, rfl, ?_⟩
      simp [send, record, h]
  | none =>
      refine Or.inr ⟨rfl, ?_⟩
      simp [send, record, h]

theorem commit_cases (c : Connection) :
    (∃ failure, c.plan.commit (c.commits + 1) = some failure ∧
      c.commit = (.error failure.fault,
        { c with log := c.log ++ [.commit], commits := c.commits + 1 })) ∨
    (c.plan.commit (c.commits + 1) = none ∧
      c.commit = (.ok (),
        { c with
          log := c.log ++ [.commit], commits := c.commits + 1
          active := false, pending := [], settled := c.settled ++ c.pending })) := by
  cases h : c.plan.commit (c.commits + 1) with
  | some failure =>
      refine Or.inl ⟨failure, rfl, ?_⟩
      simp [commit, record, h]
  | none =>
      refine Or.inr ⟨rfl, ?_⟩
      simp [commit, record, h]

theorem changePath_cases (path : String) (c : Connection) :
    (∃ failure,
      c.plan.failure? (c.statements + 1) (pathStatement path) = some failure ∧
      c.changePath path = (.error failure.fault,
        { c with
          log := c.log ++ [.statement (pathStatement path)]
          active := true, statements := c.statements + 1 })) ∨
    (∃ failure,
      c.plan.commit (c.commits + 1) = some failure ∧
      c.changePath path = (.error failure.fault,
        { c with
          log := c.log ++ [.statement (pathStatement path), .commit]
          active := true, statements := c.statements + 1, commits := c.commits + 1
          pending := c.pending ++ [.statement (pathStatement path)], searchPath := path })) ∨
    (¬ c.PathFails path ∧
      c.changePath path = (.ok (),
        { c with
          log := c.log ++ [.statement (pathStatement path), .commit]
          active := false, statements := c.statements + 1, commits := c.commits + 1
          pending := [], settled := c.settled ++ c.pending ++ [.statement (pathStatement path)]
          searchPath := path })) := by
  unfold changePath
  rcases send_cases (.statement (pathStatement path)) c with ⟨failure, hplan, hsend⟩ | ⟨hplan, hsend⟩
  · exact Or.inl ⟨failure, hplan, by rw [hsend]⟩
  · rw [hsend]
    have hpath : pathSet? (ConnectionEvent.statement (pathStatement path)).text = some path :=
      pathSet?_pathStatement path
    rcases commit_cases { c with
        log := c.log ++ [.statement (pathStatement path)], active := true
        statements := c.statements + 1
        pending := c.pending ++ [.statement (pathStatement path)]
        searchPath := path } with ⟨failure, hcommit, heq⟩ | ⟨hcommit, heq⟩
    · refine Or.inr (Or.inl ⟨failure, hcommit, ?_⟩)
      simp [hpath, heq]
    · refine Or.inr (Or.inr ⟨?_, ?_⟩)
      · rintro (h | h)
        · exact h hplan
        · exact h hcommit
      · simp [hpath, heq]

theorem changePath_eq_error {path : String} {c c' : Connection} {fault : Fault}
    (h : c.changePath path = (.error fault, c')) : c.PathFails path := by
  rcases changePath_cases path c with ⟨failure, hplan, heq⟩ | ⟨failure, hplan, heq⟩ | ⟨hplan, heq⟩
  · exact Or.inl (by simp [hplan])
  · exact Or.inr (by simp [hplan])
  · rw [heq] at h
    cases h

theorem changePath_eq_ok {path : String} {c c' : Connection}
    (h : c.changePath path = (.ok (), c')) : ¬ c.PathFails path := by
  rcases changePath_cases path c with ⟨failure, hplan, heq⟩ | ⟨failure, hplan, heq⟩ | ⟨hplan, heq⟩
  · rw [heq] at h
    cases h
  · rw [heq] at h
    cases h
  · exact hplan

theorem changePath_of_fails {path : String} {c : Connection} (h : c.PathFails path) :
    ∃ fault, c.changePath path = (.error fault, (c.changePath path).2) := by
  rcases hset : c.changePath path with ⟨outcome, c'⟩
  cases outcome with
  | error fault => exact ⟨fault, rfl⟩
  | ok => exact absurd h (changePath_eq_ok hset)

theorem changePath_of_not_fails {path : String} {c : Connection} (h : ¬ c.PathFails path) :
    c.changePath path = (.ok (), (c.changePath path).2) := by
  rcases hset : c.changePath path with ⟨outcome, c'⟩
  cases outcome with
  | error fault => exact absurd (changePath_eq_error hset) h
  | ok => rfl

theorem clear_eq {c : Connection} (h : c.Tidy) :
    c.clear = { c with
      log := c.log ++ (if c.active then [.rollback] else []), active := false, pending := [] } := by
  rcases c with ⟨plan, searchPath, active, pending, settled⟩
  cases active with
  | false =>
      have hpending : pending = [] := h rfl
      subst hpending
      simp [clear]
  | true => rfl

theorem clear_resetFails (c : Connection) : c.clear.PathFails defaultPath ↔ c.ResetFails := by
  unfold clear
  split <;> exact Iff.rfl

theorem giveBack_givenBack {c : Connection} (h : c.Tidy) : GivenBack c c.giveBack := by
  unfold giveBack reset
  rcases changePath_cases defaultPath c.clear with
    ⟨failure, hplan, heq⟩ | ⟨failure, hplan, heq⟩ | ⟨hplan, heq⟩
  · have hreset : c.ResetFails := (clear_resetFails c).mp (changePath_eq_error heq)
    rw [heq, clear_eq h]
    constructor <;> simp_all [invalidate, release, record, resetEvent]
  · have hreset : c.ResetFails := (clear_resetFails c).mp (changePath_eq_error heq)
    rw [heq, clear_eq h]
    constructor <;> simp_all [invalidate, release, record, resetEvent]
  · have hreset : ¬ c.ResetFails := fun hr => hplan ((clear_resetFails c).mpr hr)
    rw [heq, clear_eq h]
    constructor <;> simp_all [release, resetEvent]

theorem tidy_changePath (path : String) (c : Connection) : (c.changePath path).2.Tidy := by
  rcases changePath_cases path c with ⟨failure, hplan, heq⟩ | ⟨failure, hplan, heq⟩ | ⟨hplan, heq⟩
  · rw [heq]
    intro hactive
    cases hactive
  · rw [heq]
    intro hactive
    cases hactive
  · rw [heq]
    intro hactive
    rfl

theorem tidy_send (event : ConnectionEvent) (c : Connection) : (c.send event).2.Tidy := by
  rcases send_cases event c with ⟨failure, hplan, heq⟩ | ⟨hplan, heq⟩
  · rw [heq]
    intro hactive
    cases hactive
  · rw [heq]
    intro hactive
    cases hactive

theorem tidy_commit {c : Connection} (h : c.Tidy) : c.commit.2.Tidy := by
  rcases commit_cases c with ⟨failure, hplan, heq⟩ | ⟨hplan, heq⟩
  · rw [heq]
    exact h
  · rw [heq]
    intro hactive
    rfl

theorem tidy_rollback (c : Connection) : c.rollback.Tidy := fun _ => rfl

theorem tidy_close {c : Connection} (h : c.Tidy) : c.close.2.Tidy := by
  unfold close
  split
  · exact tidy_commit h
  · exact h

structure Continues (c c' : Connection) : Prop where
  events : ∃ events, c'.log = c.log ++ events ∧ .invalidate ∉ events
  borrowed : c'.borrowed = c.borrowed
  released : c'.released = c.released
  invalidated : c'.invalidated = c.invalidated

theorem Continues.refl (c : Connection) : Continues c c := ⟨⟨[], by simp⟩, rfl, rfl, rfl⟩

theorem Continues.trans {c₁ c₂ c₃ : Connection} (h : Continues c₁ c₂) (h' : Continues c₂ c₃) :
    Continues c₁ c₃ := by
  obtain ⟨events, hlog, hevents⟩ := h.events
  obtain ⟨events', hlog', hevents'⟩ := h'.events
  refine ⟨⟨events ++ events', ?_, ?_⟩, ?_, ?_, ?_⟩
  · rw [hlog', hlog, List.append_assoc]
  · simp [hevents, hevents']
  · rw [h'.borrowed, h.borrowed]
  · rw [h'.released, h.released]
  · rw [h'.invalidated, h.invalidated]

theorem continues_send (sql : String) (c : Connection) :
    Continues c (c.send (.statement sql)).2 := by
  rcases send_cases (.statement sql) c with ⟨failure, hplan, heq⟩ | ⟨hplan, heq⟩
  · rw [heq]
    exact ⟨⟨[.statement sql], rfl, by simp⟩, rfl, rfl, rfl⟩
  · rw [heq]
    exact ⟨⟨[.statement sql], rfl, by simp⟩, rfl, rfl, rfl⟩

theorem continues_commit (c : Connection) : Continues c c.commit.2 := by
  rcases commit_cases c with ⟨failure, hplan, heq⟩ | ⟨hplan, heq⟩
  · rw [heq]
    exact ⟨⟨[.commit], rfl, by simp⟩, rfl, rfl, rfl⟩
  · rw [heq]
    exact ⟨⟨[.commit], rfl, by simp⟩, rfl, rfl, rfl⟩

theorem continues_rollback (c : Connection) : Continues c c.rollback :=
  ⟨⟨[.rollback], rfl, by simp⟩, rfl, rfl, rfl⟩

theorem continues_close (c : Connection) : Continues c c.close.2 := by
  unfold close
  split
  · exact continues_commit c
  · exact Continues.refl c

theorem continues_changePath (path : String) (c : Connection) :
    Continues c (c.changePath path).2 := by
  have hsend := continues_send (pathStatement path) c
  unfold changePath
  split
  · next c' heq =>
      rw [heq] at hsend
      exact hsend.trans (continues_commit c')
  · next fault c' heq =>
      rw [heq] at hsend
      exact hsend

end Connection

namespace Routine

variable {α : Type}

theorem tidy_run (work : Routine α) {c : Connection} (h : c.Tidy) : (work.run c).2.Tidy :=
  run_keeps Connection.Tidy (fun sql c _ => Connection.tidy_send (.statement sql) c)
    (fun _ h => Connection.tidy_commit h) (fun c _ => Connection.tidy_rollback c) work c h

theorem continues_run (work : Routine α) (c : Connection) :
    Connection.Continues c (work.run c).2 :=
  run_keeps (Connection.Continues c)
    (fun sql c' h => h.trans (Connection.continues_send sql c'))
    (fun c' h => h.trans (Connection.continues_commit c'))
    (fun c' h => h.trans (Connection.continues_rollback c')) work c (.refl c)

end Routine

namespace Action

variable {α : Type}

open Connection (defaultPath pathStatement)

theorem run_commitIfActive (c : Connection) :
    (commitIfActive : Action Connection Unit).run c = c.close := by
  unfold commitIfActive Connection.close
  rw [run_bind, run_connection]
  dsimp only [Connection.connection_self]
  split
  · exact run_commit c
  · rfl

theorem run_rollbackIfActive (c : Connection) :
    (rollbackIfActive : Action Connection Unit).run c = (.ok (), c.clear) := by
  unfold rollbackIfActive Connection.clear
  rw [run_bind, run_connection]
  dsimp only [Connection.connection_self]
  split <;> rfl

theorem run_changePath (path : String) (c : Connection) :
    (do execute (pathStatement path); commit : Action Connection Unit).run c =
      c.changePath path := by
  rw [run_bind, run_execute, Connection.changePath]
  split
  · next heq => simp only [heq, run_commit]
  · next heq => simp only [heq]

theorem run_setPath (schemaName : String) (c : Connection) :
    (setPath schemaName : Action Connection Unit).run c =
      match c.changePath (tenantPath schemaName) with
      | (.ok (), c') => (.ok (), c')
      | (.error _, c') => (.error (.searchPath .set schemaName), c') := by
  unfold setPath
  rw [run_bind, run_attempt, run_changePath]
  rcases c.changePath (tenantPath schemaName) with ⟨outcome, c'⟩
  cases outcome <;> rfl

theorem run_resetPath (c : Connection) :
    (resetPath : Action Connection Unit).run c = c.reset := by
  unfold resetPath
  rw [run_bind, run_rollbackIfActive]
  exact run_changePath defaultPath c.clear

theorem run_restore (c : Connection) :
    (restore : Action Connection Bool).run c =
      match c.reset with
      | (.ok (), c') => (.ok true, c')
      | (.error _, c') => (.ok false, c'.invalidate) := by
  unfold restore
  rw [run_bind, run_attempt, run_resetPath]
  rcases c.reset with ⟨outcome, c'⟩
  cases outcome <;> rfl

theorem run_work (schemaName : String) (action : Action Connection α) (c : Connection) :
    (work schemaName action).run c =
      match c.changePath (tenantPath schemaName) with
      | (.error _, c₁) => (.error (.searchPath .set schemaName), c₁)
      | (.ok (), c₁) =>
          match action.run c₁ with
          | (.error fault, c₂) => (.error fault, c₂)
          | (.ok a, c₂) =>
              match c₂.close with
              | (.error fault, c₃) => (.error fault, c₃)
              | (.ok (), c₃) => (.ok a, c₃) := by
  unfold work
  rw [run_bind, run_setPath]
  rcases c.changePath (tenantPath schemaName) with ⟨outcome, c₁⟩
  cases outcome with
  | error fault => rfl
  | ok =>
      dsimp only
      rw [run_bind]
      rcases action.run c₁ with ⟨outcome, c₂⟩
      cases outcome with
      | error fault => rfl
      | ok a =>
          dsimp only
          rw [run_bind, run_commitIfActive]
          rcases c₂.close with ⟨outcome, c₃⟩
          cases outcome <;> rfl

/-- The ways in which work in a schema ends, from the connection `c` that it is given. -/
inductive WorkEnds (schemaName : String) (action : Action Connection α) (c : Connection) :
    Except Fault α → Connection → Prop
  | notSet {fault : Fault} {c₁ : Connection}
      (set : c.changePath (tenantPath schemaName) = (.error fault, c₁)) :
      WorkEnds schemaName action c (.error (.searchPath .set schemaName)) c₁
  | failed {fault : Fault} {c₁ c₂ : Connection}
      (set : c.changePath (tenantPath schemaName) = (.ok (), c₁))
      (acted : action.run c₁ = (.error fault, c₂)) :
      WorkEnds schemaName action c (.error fault) c₂
  | notClosed {a : α} {fault : Fault} {c₁ c₂ c₃ : Connection}
      (set : c.changePath (tenantPath schemaName) = (.ok (), c₁))
      (acted : action.run c₁ = (.ok a, c₂)) (closed : c₂.close = (.error fault, c₃)) :
      WorkEnds schemaName action c (.error fault) c₃
  | done {a : α} {c₁ c₂ c₃ : Connection}
      (set : c.changePath (tenantPath schemaName) = (.ok (), c₁))
      (acted : action.run c₁ = (.ok a, c₂)) (closed : c₂.close = (.ok (), c₃)) :
      WorkEnds schemaName action c (.ok a) c₃

theorem work_ends (schemaName : String) (action : Action Connection α) (c : Connection) :
    WorkEnds schemaName action c ((work schemaName action).run c).1
      ((work schemaName action).run c).2 := by
  rw [run_work]
  rcases hset : c.changePath (tenantPath schemaName) with ⟨outcome, c₁⟩
  cases outcome with
  | error fault => exact .notSet hset
  | ok =>
      dsimp only
      rcases hacted : action.run c₁ with ⟨outcome, c₂⟩
      cases outcome with
      | error fault => exact .failed hset hacted
      | ok a =>
          dsimp only
          rcases hclosed : c₂.close with ⟨outcome, c₃⟩
          cases outcome with
          | error fault => exact .notClosed hset hacted hclosed
          | ok => exact .done hset hacted hclosed

/-- What holds once the path is set, and what work and closing keep, holds at the end. -/
theorem WorkEnds.keeps {schemaName : String} {action : Action Connection α} {c c' : Connection}
    {outcome : Except Fault α} (kept : Connection → Prop)
    (hset : kept (c.changePath (tenantPath schemaName)).2)
    (haction : ∀ c, kept c → kept (action.run c).2) (hclose : ∀ c, kept c → kept c.close.2)
    (h : WorkEnds schemaName action c outcome c') : kept c' := by
  cases h with
  | notSet set => rwa [set] at hset
  | failed set acted =>
      rw [set] at hset
      simpa only [acted] using haction _ hset
  | notClosed set acted closed =>
      rw [set] at hset
      have hacted := haction _ hset
      rw [acted] at hacted
      simpa only [closed] using hclose _ hacted
  | done set acted closed =>
      rw [set] at hset
      have hacted := haction _ hset
      rw [acted] at hacted
      simpa only [closed] using hclose _ hacted

theorem WorkEnds.tidy {schemaName : String} {routine : Routine α} {c c' : Connection}
    {outcome : Except Fault α} (h : WorkEnds schemaName routine.act c outcome c') : c'.Tidy :=
  h.keeps Connection.Tidy (Connection.tidy_changePath _ c) (fun _ h => routine.tidy_run h)
    (fun _ h => Connection.tidy_close h)

theorem WorkEnds.continues {schemaName : String} {routine : Routine α} {c c' : Connection}
    {outcome : Except Fault α} (h : WorkEnds schemaName routine.act c outcome c') :
    Connection.Continues c c' :=
  h.keeps (Connection.Continues c) (Connection.continues_changePath _ c)
    (fun c h => h.trans (routine.continues_run c))
    (fun c h => h.trans (Connection.continues_close c))

/-- Work that looks first sees its own schema and no open transaction. -/
theorem run_work_look (schemaName : String) (next : String → Bool → Routine α)
    (c : Connection) :
    (work schemaName (Routine.look next).act).run c =
      (work schemaName (next (tenantPath schemaName) false).act).run c := by
  rw [run_work, run_work]
  rcases Connection.changePath_cases (tenantPath schemaName) c with
    ⟨failure, hplan, heq⟩ | ⟨failure, hplan, heq⟩ | ⟨hplan, heq⟩
  · rw [heq]
  · rw [heq]
  · rw [heq]
    rfl

/-- What a caller is told, from how the work and the reset went. -/
def told (schemaName : String) (c : Connection) : Except Fault α → Except Fault α
  | .error fault => .error fault
  | .ok a =>
      match c.reset.1 with
      | .ok () => .ok a
      | .error _ => .error (.searchPath .reset schemaName)

theorem run_scopedTo {schemaName : String} (h : Sql.isIdentifier schemaName = true)
    (action : Action Connection α) (c : Connection) :
    (scopedTo (.text schemaName) action).run c =
      (told schemaName ((work schemaName action).run c.borrow).2
          ((work schemaName action).run c.borrow).1,
        ((work schemaName action).run c.borrow).2.giveBack) := by
  unfold scopedTo
  rw [Sql.identifierOf_text h, run_bind, run_ofResult]
  dsimp only
  rw [run_bind, run_updateConnection]
  dsimp only [Connection.connection_self, Connection.withConnection_self]
  rw [run_bind, run_attempt]
  dsimp only
  rw [run_bind, run_restore]
  generalize (work schemaName action).run c.borrow = worked
  rcases worked with ⟨outcome, c'⟩
  unfold told Connection.giveBack
  dsimp only
  rcases c'.reset with ⟨isReset, c''⟩
  cases isReset <;> cases outcome <;> rfl

theorem run_scopedTo_invalid {schema : Value}
    (h : ∀ name, schema = .text name → Sql.isIdentifier name = false)
    (action : Action Connection α) (c : Connection) :
    (scopedTo schema action).run c = (.error (.invalidIdentifier schema), c) := by
  rcases Sql.identifierOf_cases schema with ⟨name, hschema, hname, _⟩ | ⟨_, heq⟩
  · rw [h name hschema] at hname
    cases hname
  · unfold scopedTo
    rw [heq, run_bind, run_ofResult]

end Action

end TenantReports
