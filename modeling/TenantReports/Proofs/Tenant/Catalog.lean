import TenantReports.Proofs.Platform.Aside
import TenantReports.Proofs.Tenant.Migration

/-!
The catalog of tables: work on the connection takes no table out of it, and a schema that was
prepared has the tables there which the statements of its migrations create.
-/

namespace TenantReports

open Relation (ReflTransGen)

namespace Platform

variable {p q r : Platform}

/-- `q` has every table that `p` has. -/
def Grows (p q : Platform) : Prop := p.catalog ⊆ q.catalog

theorem Grows.refl (p : Platform) : Grows p p := List.Subset.refl _

theorem Grows.trans (h : Grows p q) (h' : Grows q r) : Grows p r := List.Subset.trans h h'

theorem grows_of_steps (h : ReflTransGen Grows p q) : Grows p q := by
  induction h with
  | refl => exact .refl p
  | tail _ hstep ih => exact ih.trans hstep

theorem hasTable_iff {table : TenantTable} : p.hasTable table = true ↔ table ∈ p.catalog :=
  List.contains_iff_mem

theorem mem_addTable {catalog : List TenantTable} {table other : TenantTable} :
    other ∈ addTable catalog table ↔ other ∈ catalog ∨ other = table := by
  unfold addTable
  split
  · next hthere =>
      refine ⟨.inl, fun h => h.elim id ?_⟩
      rintro rfl
      exact List.contains_iff_mem.mp hthere
  · rw [List.mem_append, List.mem_singleton]

theorem mem_foldl_addTable {tables catalog : List TenantTable} {table : TenantTable} :
    table ∈ tables.foldl addTable catalog ↔ table ∈ catalog ∨ table ∈ tables := by
  induction tables generalizing catalog with
  | nil => simp
  | cons first rest ih => rw [List.foldl_cons, ih, mem_addTable, List.mem_cons, or_assoc]

theorem mem_settle {events : List ConnectionEvent} {table : TenantTable} :
    table ∈ (p.settle events).catalog ↔
      table ∈ p.catalog ∨ table ∈ events.filterMap TenantTable.ofEvent? :=
  mem_foldl_addTable

theorem grows_settle (p : Platform) (events : List ConnectionEvent) : Grows p (p.settle events) :=
  fun _ htable => mem_settle.mpr (.inl htable)

end Platform

/-- The tables that migrations create which are open on a connection. -/
def Connection.openTables (c : Connection) : List TenantTable :=
  c.pending.filterMap TenantTable.ofEvent?

/-- The tables that statements create. -/
def TenantTable.ofStatements (statements : List String) : List TenantTable :=
  statements.filterMap ofStatement?

namespace Action

open Platform (Grows grows_of_steps)

variable {α : Type} {p : Platform} {tables : List TenantTable}

/-- Work that takes no table out of the catalog, and what holds where it gives an answer. -/
abbrev Enlarges (action : Work α) (p : Platform) (Q : α → Platform → Prop) : Prop :=
  Meets Grows action p Q

theorem enlarges_updateConnection (f : Connection → Connection) :
    Enlarges (updateConnection f) p fun _ _ => True :=
  .of_run_eq (run_updateConnection f p) (.single (List.Subset.refl _)) fun _ _ => trivial

theorem enlarges_onConnection (f : Connection → Except Fault Unit × Connection) :
    Enlarges (onConnection f) p fun _ q =>
      (f p.connection).1 = .ok () ∧ q.connection = (f p.connection).2 :=
  .of_run_eq (run_onConnection f p) (.single (List.Subset.refl _)) fun _ h => ⟨h, rfl⟩

theorem enlarges_execute (sql : String) : Enlarges (execute sql) p fun _ _ => True :=
  (enlarges_onConnection _).weaken fun _ _ _ _ => trivial

theorem enlarges_migrate (sql : String) :
    Enlarges (migrate sql) p fun _ q => q.connection.active = true ∧
      q.connection.pending = p.connection.pending ++ [.migration sql] := by
  refine (enlarges_onConnection _).weaken fun _ q _ hsent => ?_
  obtain ⟨hok, heq⟩ := hsent
  rcases Connection.send_cases (.migration sql) p.connection with ⟨failure, -, hrun⟩ | ⟨-, hrun⟩
  · rw [hrun] at hok
    cases hok
  · rw [heq, hrun]
    exact ⟨rfl, rfl⟩

/-- Migrations that all go through are open until something closes the transaction. -/
theorem enlarges_migrations (statements : List String) (p : Platform) :
    Enlarges (statements.forM migrate) p fun _ q =>
      (p.connection.active = true ∨ statements ≠ [] → q.connection.active = true) ∧
        q.connection.pending = p.connection.pending ++ statements.map .migration := by
  induction statements generalizing p with
  | nil => exact .answer ⟨fun h => h.resolve_right fun h => h rfl, (List.append_nil _).symm⟩
  | cons sql rest ih =>
      refine (enlarges_migrate sql).bind fun _ q _ hfirst => (ih q).weaken fun _ r _ hrest => ?_
      refine ⟨fun _ => hrest.1 (.inl hfirst.1), ?_⟩
      rw [hrest.2, hfirst.2, List.append_assoc]
      rfl

/-- A commit puts the tables into the catalog that were open. -/
theorem enlarges_commit (p : Platform) :
    Enlarges commit p fun _ q => p.connection.openTables ⊆ q.catalog := by
  refine .read (a := p.connection) rfl ?_
  refine (enlarges_onConnection _).bind fun _ q _ _ => ?_
  exact .step (Platform.grows_settle q _) fun _ htable => Platform.mem_settle.mpr (.inr htable)

theorem enlarges_commitIfActive (p : Platform) :
    Enlarges commitIfActive p fun _ q =>
      p.connection.active = true → p.connection.openTables ⊆ q.catalog := by
  refine .read (a := p.connection) rfl ?_
  split
  · exact (enlarges_commit p).weaken fun _ _ _ hopen _ => hopen
  · next hclosed => exact .answer fun hactive => absurd hactive hclosed

theorem enlarges_rollbackIfActive (p : Platform) :
    Enlarges rollbackIfActive p fun _ _ => True := by
  refine .read (a := p.connection) rfl ?_
  split
  · exact enlarges_updateConnection _
  · exact .answer trivial

theorem enlarges_committed (sql : String) (p : Platform) :
    Enlarges (do execute sql; commit) p fun _ _ => True :=
  (enlarges_execute sql).bind fun _ q _ _ => (enlarges_commit q).weaken fun _ _ _ _ => trivial

theorem enlarges_setPath (schemaName : String) (p : Platform) :
    Enlarges (setPath schemaName) p fun _ _ => True := by
  refine (enlarges_committed _ p).attempt.bind fun outcome q _ _ => ?_
  split
  · exact .answer trivial
  · exact .fail

theorem enlarges_restore (p : Platform) : Enlarges restore p fun _ _ => True := by
  have hreset : Enlarges resetPath p fun _ _ => True :=
    (enlarges_rollbackIfActive p).bind fun _ q _ _ => enlarges_committed _ q
  refine hreset.attempt.bind fun outcome q _ _ => ?_
  split
  · exact .answer trivial
  · exact (enlarges_updateConnection _).bind fun _ _ _ _ => .answer trivial

/-- Work in a schema commits the tables that it leaves open. -/
theorem enlarges_scopedTo {action : Work α} (schema : Value)
    (h : ∀ q, Enlarges action q fun _ r =>
      (tables ≠ [] → r.connection.active = true) ∧ tables ⊆ r.connection.openTables) :
    Enlarges (scopedTo schema action) p fun _ q => tables ⊆ q.catalog := by
  refine .pass fun schemaName _ => ?_
  refine (enlarges_updateConnection _).bind fun _ q _ _ => ?_
  have hwork : Enlarges (work schemaName action) q fun _ r => tables ⊆ r.catalog := by
    refine (enlarges_setPath schemaName q).bind fun _ r _ _ => (h r).bind fun a s _ hopen => ?_
    refine (enlarges_commitIfActive s).bind fun _ t _ hcommitted => .answer ?_
    intro table htable
    exact hcommitted (hopen.1 (List.ne_nil_of_mem htable)) (hopen.2 htable)
  refine hwork.attempt.bind fun outcome r _ houtcome => ?_
  refine (enlarges_restore r).bind fun isReset s hrestored _ => ?_
  refine (enlarges_updateConnection _).bind fun _ t hreleased _ => ?_
  have hkept : Grows r t := (grows_of_steps hrestored).trans (grows_of_steps hreleased)
  cases outcome with
  | error fault => exact .fail
  | ok a =>
      cases isReset with
      | false => exact .fail
      | true => exact .answer (List.Subset.trans (houtcome a rfl) hkept)

theorem enlarges_unscoped {action : Work α}
    (h : ∀ q, Enlarges action q fun _ _ => True) : Enlarges (unscoped action) p fun _ _ => True := by
  refine (enlarges_updateConnection _).bind fun _ q _ _ => ?_
  refine (h q).attempt.bind fun outcome r _ _ => ?_
  refine (enlarges_rollbackIfActive r).bind fun _ s _ _ => ?_
  exact (enlarges_updateConnection _).bind fun _ t _ _ => .ofResult fun _ _ => trivial

end Action

namespace Directory

open Action (Enlarges IsAside)

variable {p : Platform}

/-- The tables that the migrations of a schema create. -/
def tablesOf (settings : Settings) (schemaName : String) : List TenantTable :=
  TenantTable.ofStatements ((migrationsOf settings).elim [] (Migration.statements schemaName))

theorem isAside_createSchema (schemaName : String) : IsAside (createSchema schemaName) :=
  ((IsAside.execute _).bind fun _ => .commit).unscoped

theorem enlarges_apply {schemaName : String} (hname : Sql.isIdentifier schemaName = true) :
    Enlarges (Migration.apply (.text schemaName) (migrationsOf p.settings)) p fun _ q =>
      tablesOf p.settings schemaName ⊆ q.catalog := by
  unfold Migration.apply tablesOf
  rw [Sql.identifierOf_text hname]
  refine .pass ?_
  rintro _ ⟨⟩
  cases migrationsOf p.settings with
  | none => exact .answer (List.nil_subset _)
  | some files =>
      refine Action.enlarges_scopedTo _ fun q => ?_
      refine (Action.enlarges_migrations _ q).bind fun _ r _ hopen => .answer ⟨fun hsome => ?_, ?_⟩
      · refine hopen.1 (.inr ?_)
        rintro hnone
        rw [Option.elim_some, hnone] at hsome
        exact hsome rfl
      · intro table htable
        unfold Connection.openTables
        rw [hopen.2, List.filterMap_append, List.filterMap_map]
        exact List.mem_append_right _ htable

/-- A schema that was prepared has all its tables. -/
theorem enlarges_prepare {schemaName : String} (hname : Sql.isIdentifier schemaName = true)
    (p : Platform) :
    Enlarges (prepare schemaName) p fun _ q => tablesOf p.settings schemaName ⊆ q.catalog := by
  have hcreate : Enlarges (createSchema schemaName) p fun _ q => q.settings = p.settings := by
    have hsteps : Enlarges (createSchema schemaName) p fun _ _ => True :=
      Action.enlarges_unscoped fun q => Action.enlarges_committed _ q
    exact ⟨hsteps.steps, fun _ _ => (isAside_createSchema schemaName p).settings⟩
  refine hcreate.bind fun _ q _ hsettings => ?_
  rw [← hsettings]
  refine .read (a := q) rfl ?_
  exact (enlarges_apply hname).bind fun _ _ _ htables => .answer htables

end Directory

end TenantReports
