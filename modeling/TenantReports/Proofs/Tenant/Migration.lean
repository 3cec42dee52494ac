import TenantReports.Proofs.Connection.Outcome
import TenantReports.Proofs.Sql.Script
import TenantReports.Tenant.Migration

/-!
What migrating a schema does to the connection: the statements of the scripts as they are written,
in the order of the scripts' names, each with the schema's name in the place of the marks, in one
transaction.
-/

namespace TenantReports

namespace FaultPlan

/-- Whether statements that are sent in turn, the first of them with the number `n`, all go
through. -/
def NoneFails (plan : FaultPlan) (n : Nat) (statements : List String) : Prop :=
  ∀ i (h : i < statements.length), plan.failure? (n + i) statements[i] = .none

theorem noneFails_cons {plan : FaultPlan} {n : Nat} {sql : String} {statements : List String}
    (h : plan.NoneFails n (sql :: statements)) :
    plan.failure? n sql = .none ∧ plan.NoneFails (n + 1) statements := by
  constructor
  · exact h 0 (by simp)
  · intro i hi
    have hnext := h (i + 1) (by simpa using hi)
    rw [Nat.add_assoc, Nat.add_comm 1 i]
    exact hnext

end FaultPlan

namespace Connection

theorem log_giveBack {c : Connection} (h : ¬ c.ResetFails) :
    c.giveBack.log = c.log ++ (if c.active then [.rollback] else []) ++ [resetEvent, .commit] := by
  have hclear : c.clear.log = c.log ++ if c.active then [.rollback] else [] := by
    unfold clear
    split
    · rfl
    · simp
  unfold giveBack reset
  rcases changePath_cases defaultPath c.clear with ⟨_, _, heq⟩ | ⟨_, _, heq⟩ | ⟨_, heq⟩
  · exact absurd ((clear_resetFails c).mp (changePath_eq_error heq)) h
  · exact absurd ((clear_resetFails c).mp (changePath_eq_error heq)) h
  · rw [heq]
    simp [release, hclear, resetEvent]

theorem committed_log (c : Connection) :
    c.committed.log = c.log ++ if c.active then [.commit] else [] := by
  unfold committed
  split
  · rfl
  · simp

theorem committed_active (c : Connection) : c.committed.active = false := by
  unfold committed
  split
  · rfl
  · next hactive => exact Bool.eq_false_iff.mpr hactive

theorem committed_resetFails (c : Connection) :
    c.committed.ResetFails →
      c.plan.failure? (c.statements + 1) (pathStatement defaultPath) ≠ none ∨
        ∃ n, c.plan.commit n ≠ none := by
  unfold committed
  split
  · exact Or.imp id fun hcommit => ⟨_, hcommit⟩
  · exact Or.imp id fun hcommit => ⟨_, hcommit⟩

/-- What sending the statements of a migration does to a connection. -/
structure Migrates (sent : List String) (c c' : Connection) : Prop where
  log : c'.log = c.log ++ sent.map .migration
  plan : c'.plan = c.plan
  statements : c'.statements = c.statements + sent.length
  active : c'.active = (c.active || !sent.isEmpty)

theorem Migrates.refl (c : Connection) : Migrates [] c c := by
  constructor <;> simp

theorem migrates_send (sql : String) (c : Connection) :
    Migrates [sql] c (c.send (.migration sql)).2 := by
  rcases send_cases (.migration sql) c with ⟨failure, _, heq⟩ | ⟨_, heq⟩
  · rw [heq]
    constructor <;> simp
  · rw [heq]
    constructor <;> simp

theorem send_migration_of_none {sql : String} {c : Connection}
    (h : c.plan.failure? (c.statements + 1) sql = none) :
    (c.send (.migration sql)).1 = .ok () := by
  rcases send_cases (.migration sql) c with ⟨failure, hplan, _⟩ | ⟨_, heq⟩
  · cases hplan.symm.trans h
  · rw [heq]

theorem send_migration_of_some {sql : String} {c : Connection} {failure : Failure}
    (h : c.plan.failure? (c.statements + 1) sql = some failure) :
    (c.send (.migration sql)).1 = .error failure.fault := by
  rcases send_cases (.migration sql) c with ⟨failure', hplan, heq⟩ | ⟨hplan, _⟩
  · rw [heq, Option.some.inj (hplan.symm.trans h)]
  · cases hplan.symm.trans h

theorem Migrates.trans {first second : List String} {c₁ c₂ c₃ : Connection}
    (h : Migrates first c₁ c₂) (h' : Migrates second c₂ c₃) :
    Migrates (first ++ second) c₁ c₃ := by
  constructor
  · rw [h'.log, h.log, List.map_append, List.append_assoc]
  · rw [h'.plan, h.plan]
  · rw [h'.statements, h.statements, List.length_append, Nat.add_assoc]
  · rw [h'.active, h.active]
    cases first <;> simp

end Connection

namespace Action

open Connection (Migrates pathStatement)

theorem run_migrate (sql : String) (c : Connection) :
    (migrate sql).run c = c.send (.migration sql) :=
  run_onConnection _ _

theorem run_forM_cons (sql : String) (rest : List String) (c : Connection) :
    ((sql :: rest).forM migrate : Action Connection PUnit).run c =
      match c.send (.migration sql) with
      | (.ok (), c') => (rest.forM migrate).run c'
      | (.error fault, c') => (.error fault, c') := by
  change (migrate sql >>= fun _ => rest.forM migrate).run c = _
  rw [run_bind, run_migrate]
  rcases c.send (.migration sql) with ⟨outcome, c'⟩
  cases outcome <;> rfl

/-- Statements that go through are sent, and what follows them goes on from there. -/
theorem run_migrations {done : List String} {c : Connection}
    (h : c.plan.NoneFails (c.statements + 1) done) (rest : List String) :
    ∃ c', Migrates done c c' ∧
      ((done ++ rest).forM migrate : Action Connection PUnit).run c =
        (rest.forM migrate).run c' := by
  induction done generalizing c with
  | nil => exact ⟨c, Migrates.refl c, rfl⟩
  | cons sql done ih =>
      obtain ⟨hfirst, hothers⟩ := FaultPlan.noneFails_cons h
      have hsend := Connection.migrates_send sql c
      have houtcome := Connection.send_migration_of_none hfirst
      have hnumber : (c.send (.migration sql)).2.statements = c.statements + 1 := hsend.statements
      rw [← hsend.plan, ← hnumber] at hothers
      obtain ⟨c', hmigrates, hrun⟩ := ih hothers
      refine ⟨c', hsend.trans hmigrates, ?_⟩
      rw [List.cons_append, run_forM_cons, ← hrun]
      rcases hsent : c.send (.migration sql) with ⟨outcome, c₁⟩
      rw [hsent] at houtcome
      subst houtcome
      rfl

theorem run_migrations_of_failure {done : List String} {sql : String} {failure : Failure}
    {c : Connection} (h : c.plan.NoneFails (c.statements + 1) done)
    (hfails : c.plan.failure? (c.statements + done.length + 1) sql = some failure)
    (rest : List String) :
    ∃ c', Migrates (done ++ [sql]) c c' ∧
      ((done ++ sql :: rest).forM migrate : Action Connection PUnit).run c =
        (.error failure.fault, c') := by
  obtain ⟨c₁, hdone, hrun⟩ := run_migrations h (sql :: rest)
  have hsend := Connection.migrates_send sql c₁
  rw [← hdone.plan, ← hdone.statements] at hfails
  have houtcome := Connection.send_migration_of_some hfails
  refine ⟨_, hdone.trans hsend, ?_⟩
  rw [hrun, run_forM_cons]
  rcases hsent : c₁.send (.migration sql) with ⟨outcome, c₂⟩
  rw [hsent] at houtcome
  subst houtcome
  rfl

section Scoped

variable {α : Type} {schemaName : String} {action : Action Connection α} {c c' : Connection}
  (hset : ¬ c.borrow.PathFails (tenantPath schemaName))
include hset

theorem startOf_eq :
    startOf schemaName c =
      { c.borrow with
        log := c.log ++ [.statement (pathStatement (tenantPath schemaName)), .commit]
        active := false, statements := c.statements + 1, commits := c.commits + 1
        pending := []
        settled := c.settled ++ c.pending ++ [.statement (pathStatement (tenantPath schemaName))]
        searchPath := tenantPath schemaName } := by
  unfold startOf
  rcases Connection.changePath_cases (tenantPath schemaName) c.borrow with
    ⟨_, _, heq⟩ | ⟨_, _, heq⟩ | ⟨_, heq⟩
  · exact absurd (Connection.changePath_eq_error heq) hset
  · exact absurd (Connection.changePath_eq_error heq) hset
  · rw [heq]
    rfl

variable (hname : Sql.isIdentifier schemaName = true)
include hname

theorem run_scopedTo_of_error {fault : Fault}
    (hrun : action.run (startOf schemaName c) = (.error fault, c')) :
    (scopedTo (.text schemaName) action).run c = (.error fault, c'.giveBack) := by
  have hwork : (work schemaName action).run c.borrow = (.error fault, c') := by
    unfold startOf at hrun
    rw [run_work, Connection.changePath_of_not_fails hset]
    dsimp only
    rw [hrun]
  rw [run_scopedTo hname, hwork]
  rfl

theorem run_scopedTo_of_ok {a : α}
    (hrun : action.run (startOf schemaName c) = (.ok a, c'))
    (hclose : ∀ failure, ¬ c'.CloseFails failure) (hreset : ¬ c'.committed.ResetFails) :
    (scopedTo (.text schemaName) action).run c = (.ok a, c'.committed.giveBack) := by
  have hwork : (work schemaName action).run c.borrow = (.ok a, c'.committed) := by
    unfold startOf at hrun
    rw [run_work, Connection.changePath_of_not_fails hset]
    dsimp only
    rw [hrun]
    dsimp only
    rw [Connection.close_eq_of_not_fails hclose]
  rw [run_scopedTo hname, hwork]
  exact congrArg (·, c'.committed.giveBack) (told_of_not_resetFails a hreset)

end Scoped

end Action

namespace Migration

open Action (tenantPath)
open Connection (defaultPath pathStatement resetEvent)

/-- The text of a file as it is read. -/
def textOf (file : MigrationFile) : String :=
  String.ofList (Text.unifyLineEnds file.content.toList)

/-- The statements of the scripts as they are written, for no schema in particular. -/
def written (files : List MigrationFile) : List String :=
  (scripts files).flatMap fun file => Sql.splitStatements (textOf file)

/-- A statement with the schema's name in the place of every mark. -/
def rendered (schemaName statement : String) : String :=
  String.ofList (Text.replaceAll schemaMark schemaName.toList statement.toList)

/-- What is sent between setting the search path to a schema's and resetting it. -/
def between (schemaName : String) (events : List ConnectionEvent) : List ConnectionEvent :=
  [.statement (pathStatement (tenantPath schemaName)), .commit] ++ events ++
    [.statement (pathStatement defaultPath), .commit]

/-- How the migration of a schema by the files of a directory goes. The statements of the scripts
have the numbers from `c.statements + 2` on. -/
structure Applied (schemaName : String) (files : List MigrationFile) (c : Connection)
    (result : Except Fault Nat × Connection) : Prop where
  /-- The scripts are the files with the suffix, in increasing order of their names. -/
  scripts_perm : (scripts files).Perm (files.filter isScript)
  scripts_sorted : (scripts files).Pairwise (·.name < ·.name)
  /-- The order in which the directory lists its files does not matter. -/
  written_perm : ∀ files', files'.Perm files → written files' = written files
  /-- Every schema gets these statements, each with that schema's name in it. -/
  uniform : ∀ other, Sql.isIdentifier other = true →
    statements other files = (written files).map (rendered other)
  completed :
    c.plan.NoneFails (c.statements + 2) ((written files).map (rendered schemaName)) →
    c.plan.failure? (c.statements + (written files).length + 2) (pathStatement defaultPath) = none →
      result.1 = .ok (written files).length ∧
      result.2.log = c.log ++ between schemaName
        ((written files).map (fun statement => .migration (rendered schemaName statement)) ++
          if written files = [] then [] else [.commit])
  stopped : ∀ done statement rest failure, written files = done ++ statement :: rest →
    c.plan.NoneFails (c.statements + 2) (done.map (rendered schemaName)) →
    c.plan.failure? (c.statements + done.length + 2) (rendered schemaName statement) =
      some failure →
    c.plan.failure? (c.statements + done.length + 3) (pathStatement defaultPath) = none →
      result.1 = .error failure.fault ∧
      result.2.log = c.log ++ between schemaName
        ((done ++ [statement]).map (fun statement => .migration (rendered schemaName statement)) ++
          [.rollback])

theorem isSolid_schemaMark : Text.IsSolid schemaMark := by
  have hchars : schemaMark.all (fun c => !Text.isBlank c && c != ';') = true := by decide
  simp only [List.all_eq_true, Bool.and_eq_true, Bool.not_eq_true', bne_iff_ne] at hchars
  refine ⟨by decide, ?_, ?_⟩
  · intro c hc
    exact (hchars c hc).1
  · intro c hc
    exact (hchars c hc).2

theorem toNat_of_isNameChar {c : Char} (h : Sql.isNameChar c = true) :
    (0x30 ≤ c.toNat ∧ c.toNat ≤ 0x39) ∨ (0x41 ≤ c.toNat ∧ c.toNat ≤ 0x7A) := by
  change (((decide (c.val ≥ 'A'.val ∧ c.val ≤ 'Z'.val) ||
    decide (c.val ≥ 'a'.val) && decide (c.val ≤ 'z'.val)) ||
      decide (c.val ≥ '0'.val) && decide (c.val ≤ '9'.val)) || c == '_') = true at h
  simp only [Bool.or_eq_true, Bool.and_eq_true, decide_eq_true_eq, beq_iff_eq, ge_iff_le,
    UInt32.le_iff_toNat_le] at h
  rcases h with ((⟨hlow, hhigh⟩ | ⟨hlow, hhigh⟩) | ⟨hlow, hhigh⟩) | rfl
  · exact Or.inr ⟨hlow, hhigh.trans (by decide)⟩
  · exact Or.inr ⟨(by decide : 0x41 ≤ 0x61).trans hlow, hhigh⟩
  · exact Or.inl ⟨hlow, hhigh⟩
  · exact Or.inr (by decide)

theorem isSolid_identifier {name : String} (h : Sql.isIdentifier name = true) :
    Text.IsSolid name.toList := by
  have hrange {c : Char} (hc : c ∈ name.toList) := toNat_of_isNameChar (Sql.isNameChar_of_mem h hc)
  refine ⟨?_, fun c hc => ?_, ?_⟩
  · intro hnil
    rw [String.toList_eq_nil_iff.mp hnil] at h
    cases h
  · rw [Bool.eq_false_iff]
    intro hblank
    obtain ⟨range, hmem, hlow, hhigh⟩ := Text.Ranges.has_iff.mp hblank
    have hapart : ∀ range ∈ Text.blankRanges, range.2 ≤ 0x20 ∨ 0x7F ≤ range.1 := by decide
    have := hapart range hmem
    have := hrange hc
    omega
  · rintro _ hc rfl
    exact absurd (hrange hc) (by decide)

theorem statementsOf_eq {schemaName : String} (h : Sql.isIdentifier schemaName = true)
    (file : MigrationFile) :
    statementsOf schemaName file =
      (Sql.splitStatements (textOf file)).map (rendered schemaName) :=
  Sql.splitStatements_replaceAll isSolid_schemaMark (isSolid_identifier h) _

theorem statements_eq {schemaName : String} (h : Sql.isIdentifier schemaName = true)
    (files : List MigrationFile) :
    statements schemaName files = (written files).map (rendered schemaName) := by
  unfold statements written
  rw [List.map_flatMap]
  congr 1
  funext file
  exact statementsOf_eq h file

theorem latest_eq_self {files : List MigrationFile} (h : (files.map (·.name)).Nodup) :
    latest files = files := by
  induction files with
  | nil => rfl
  | cons file files ih =>
      rw [List.map_cons, List.nodup_cons] at h
      have hnone : files.any (·.name == file.name) = false := by
        rw [List.any_eq_false]
        intro other hother hname
        exact h.1 (List.mem_map.mpr ⟨other, hother, by simpa using hname⟩)
      rw [latest, hnone, ih h.2]
      rfl

theorem scripts_perm {files : List MigrationFile} (h : (files.map (·.name)).Nodup) :
    (scripts files).Perm (files.filter isScript) := by
  unfold scripts
  rw [latest_eq_self h]
  exact List.mergeSort_perm _ _

theorem scripts_sorted {files : List MigrationFile} (h : (files.map (·.name)).Nodup) :
    (scripts files).Pairwise (·.name < ·.name) := by
  have hle : (scripts files).Pairwise fun a b => decide (a.name ≤ b.name) = true := by
    apply List.pairwise_mergeSort
    · intro a b c hab hbc
      exact decide_eq_true (String.le_trans (of_decide_eq_true hab) (of_decide_eq_true hbc))
    · intro a b
      simpa using String.le_total a.name b.name
  have hne : ((scripts files).map (·.name)).Nodup := by
    rw [((scripts_perm h).map _).nodup_iff]
    exact h.sublist (List.filter_sublist.map _)
  have hboth := hle.and (List.pairwise_map.mp hne)
  exact hboth.imp fun ⟨hab, hdiff⟩ => Std.lt_of_le_of_ne (of_decide_eq_true hab) hdiff

theorem written_perm {files files' : List MigrationFile} (h : (files.map (·.name)).Nodup)
    (hperm : files'.Perm files) : written files' = written files := by
  have h' : (files'.map (·.name)).Nodup := (hperm.map _).nodup_iff.mpr h
  have hscripts : scripts files' = scripts files := by
    apply List.Perm.eq_of_pairwise _ (scripts_sorted h') (scripts_sorted h)
    · exact ((scripts_perm h').trans (hperm.filter _)).trans (scripts_perm h).symm
    · intro a b _ _ hab hba
      exact absurd hba (Std.not_lt.mpr (Std.le_of_lt hab))
  unfold written
  rw [hscripts]

theorem apply_eq {schemaName : String} (h : Sql.isIdentifier schemaName = true)
    (files : List MigrationFile) :
    (apply (.text schemaName) (some files) : Action Connection Nat) =
      Action.scopedTo (.text schemaName) do
        ((written files).map (rendered schemaName)).forM Action.migrate
        return (written files).length := by
  unfold apply
  rw [Sql.identifierOf_text h]
  change Action.scopedTo (.text schemaName) _ = _
  rw [statements_eq h, List.length_map]

section Run

variable {schemaName : String} {files : List MigrationFile} {c : Connection}
  (hname : Sql.isIdentifier schemaName = true)
  (hcommit : ∀ n, c.plan.commit n = none)
  (hset : c.plan.failure? (c.statements + 1) (pathStatement (tenantPath schemaName)) = none)
include hcommit hset

theorem not_pathFails : ¬ c.borrow.PathFails (tenantPath schemaName) := by
  rintro (hfails | hfails)
  · exact hfails hset
  · exact hfails (hcommit _)

theorem startOf_plan : (Action.startOf schemaName c).plan = c.plan := by
  rw [Action.startOf_eq (not_pathFails hcommit hset)]
  rfl

theorem startOf_statements : (Action.startOf schemaName c).statements = c.statements + 1 := by
  rw [Action.startOf_eq (not_pathFails hcommit hset)]

theorem startOf_log : (Action.startOf schemaName c).log =
    c.log ++ [.statement (pathStatement (tenantPath schemaName)), .commit] := by
  rw [Action.startOf_eq (not_pathFails hcommit hset)]

theorem startOf_active : (Action.startOf schemaName c).active = false := by
  rw [Action.startOf_eq (not_pathFails hcommit hset)]

include hname

theorem apply_completed
    (hnone : c.plan.NoneFails (c.statements + 2) ((written files).map (rendered schemaName)))
    (hreset : c.plan.failure? (c.statements + (written files).length + 2)
      (pathStatement defaultPath) = none) :
    ∃ after, (apply (.text schemaName) (some files) : Action Connection Nat).run c =
        (.ok (written files).length, after) ∧
      after.log = c.log ++ between schemaName
        ((written files).map (fun statement => .migration (rendered schemaName statement)) ++
          if written files = [] then [] else [.commit]) := by
  have hpath := not_pathFails hcommit hset
  have hplan := startOf_plan hcommit hset
  have hnumber := startOf_statements hcommit hset
  obtain ⟨c', hmigrates, hrun⟩ := Action.run_migrations (c := Action.startOf schemaName c)
    (by rwa [hplan, hnumber]) []
  rw [List.append_nil] at hrun
  have hacted : (do
      ((written files).map (rendered schemaName)).forM Action.migrate
      return (written files).length : Action Connection Nat).run (Action.startOf schemaName c) =
        (.ok (written files).length, c') := by
    rw [Action.run_bind, hrun]
    rfl
  have hclose : ∀ failure, ¬ c'.CloseFails failure := by
    rintro failure ⟨_, hfails⟩
    rw [hmigrates.plan, hplan, hcommit] at hfails
    cases hfails
  have hlast : c'.statements + 1 = c.statements + (written files).length + 2 := by
    rw [hmigrates.statements, hnumber, List.length_map]
    omega
  have hback : ¬ c'.committed.ResetFails := by
    intro hfails
    rcases Connection.committed_resetFails c' hfails with hfails | ⟨n, hfails⟩
    · rw [hmigrates.plan, hplan, hlast] at hfails
      exact hfails hreset
    · rw [hmigrates.plan, hplan] at hfails
      exact hfails (hcommit n)
  refine ⟨c'.committed.giveBack, ?_, ?_⟩
  · rw [apply_eq hname, Action.run_scopedTo_of_ok hpath hname hacted hclose hback]
  · rw [Connection.log_giveBack hback, Connection.committed_log, Connection.committed_active,
      hmigrates.log, hmigrates.active, startOf_log hcommit hset, startOf_active hcommit hset]
    cases hwritten : written files <;> simp [between, resetEvent]

theorem apply_stopped {done rest : List String} {statement : String} {failure : Failure}
    (hwritten : written files = done ++ statement :: rest)
    (hnone : c.plan.NoneFails (c.statements + 2) (done.map (rendered schemaName)))
    (hfails : c.plan.failure? (c.statements + done.length + 2) (rendered schemaName statement) =
      some failure)
    (hreset : c.plan.failure? (c.statements + done.length + 3) (pathStatement defaultPath) =
      none) :
    ∃ after, (apply (.text schemaName) (some files) : Action Connection Nat).run c =
        (.error failure.fault, after) ∧
      after.log = c.log ++ between schemaName
        ((done ++ [statement]).map (fun statement => .migration (rendered schemaName statement)) ++
          [.rollback]) := by
  have hpath := not_pathFails hcommit hset
  have hplan := startOf_plan hcommit hset
  have hnumber := startOf_statements hcommit hset
  obtain ⟨c', hmigrates, hrun⟩ := Action.run_migrations_of_failure
    (c := Action.startOf schemaName c) (by rwa [hplan, hnumber])
    (by rwa [hplan, hnumber, List.length_map, Nat.add_right_comm c.statements])
    (rest.map (rendered schemaName))
  have hacted : (do
      ((written files).map (rendered schemaName)).forM Action.migrate
      return (written files).length : Action Connection Nat).run (Action.startOf schemaName c) =
        (.error failure.fault, c') := by
    rw [Action.run_bind, hwritten, List.map_append, List.map_cons, hrun]
  have hlast : c'.statements + 1 = c.statements + done.length + 3 := by
    rw [hmigrates.statements, hnumber, List.length_append, List.length_map, List.length_singleton]
    omega
  have hback : ¬ c'.ResetFails := by
    rintro (hfails | hfails)
    · rw [hmigrates.plan, hplan, hlast] at hfails
      exact hfails hreset
    · rw [hmigrates.plan, hplan] at hfails
      exact hfails (hcommit _)
  refine ⟨c'.giveBack, ?_, ?_⟩
  · rw [apply_eq hname, Action.run_scopedTo_of_error hpath hname hacted]
  · rw [Connection.log_giveBack hback, hmigrates.log, hmigrates.active,
      startOf_log hcommit hset]
    simp [between, resetEvent]

end Run

/-- The scripts of a directory reach a schema in the order of their names, each statement as it is
written with the schema's name in it, in a transaction of their own that the first failure rolls
back. -/
theorem apply_applied {schemaName : String} (hname : Sql.isIdentifier schemaName = true)
    {files : List MigrationFile} (hfiles : (files.map (·.name)).Nodup) {c : Connection}
    (hcommit : ∀ n, c.plan.commit n = none)
    (hset : c.plan.failure? (c.statements + 1) (pathStatement (tenantPath schemaName)) = none) :
    Applied schemaName files c
      ((apply (.text schemaName) (some files) : Action Connection Nat).run c) := by
  refine ⟨scripts_perm hfiles, scripts_sorted hfiles, fun _ => written_perm hfiles,
    fun _ hother => statements_eq hother files, ?_, ?_⟩
  · intro hnone hreset
    obtain ⟨after, hrun, hlog⟩ := apply_completed hname hcommit hset hnone hreset
    rw [hrun]
    exact ⟨rfl, hlog⟩
  · intro done statement rest failure hwritten hnone hfails hreset
    obtain ⟨after, hrun, hlog⟩ := apply_stopped hname hcommit hset hwritten hnone hfails hreset
    rw [hrun]
    exact ⟨rfl, hlog⟩

/-- Two scripts, listed the wrong way round, the second of which fails at its first statement. -/
theorem apply_applied_of_duplicate :
    let plan : FaultPlan := { FaultPlan.none with
      statement := fun sql =>
        if sql = "INSERT INTO tenant_a.students VALUES (1)" then
          some (.outside .runtime "duplicate key")
        else none }
    let files : List MigrationFile :=
      [⟨"002_rows.sql", "INSERT INTO \x7b\x7bschema\x7d\x7d.students VALUES (1);\nSELECT 1;\n"⟩,
       ⟨"README.md", "How to write scripts"⟩,
       ⟨"001_tables.sql", "CREATE TABLE \x7b\x7bschema\x7d\x7d.students (id INT);\n"⟩]
    let c := Connection.fresh plan
    Sql.isIdentifier "tenant_a" = true ∧ (files.map (·.name)).Nodup ∧
      c.plan.failure? 3 "INSERT INTO tenant_a.students VALUES (1)" ≠ none ∧
      Applied "tenant_a" files c
        ((apply (.text "tenant_a") (some files) : Action Connection Nat).run c) :=
  ⟨by decide, by decide, by decide,
    apply_applied (by decide) (by decide) (fun _ => rfl) (by decide)⟩

end Migration

end TenantReports
