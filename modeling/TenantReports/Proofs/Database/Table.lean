import Mathlib.Data.List.Nodup
import TenantReports.Database.Basic

/-!
What can happen to one of the shared tables at once, and what is kept whatever happens.
-/

namespace TenantReports

structure Table (Row : Type) where
  name : TableName
  rows : Database → List Row
  id : Row → Uuid
  tenant : Row → Option Uuid

namespace Table

/-- No tenant is the owner of its row. -/
def tenants : Table Tenant := ⟨.tenants, Database.tenants, Tenant.id, fun _ => none⟩

def definitions : Table Definition :=
  ⟨.definitions, Database.definitions, Definition.id, Definition.tenant⟩

def executions : Table Execution :=
  ⟨.executions, Database.executions, Execution.id, Execution.tenant⟩

def snapshots : Table Snapshot :=
  ⟨.snapshots, Database.snapshots, Snapshot.id, fun snapshot => some snapshot.tenant⟩

def customReports : Table CustomReport :=
  ⟨.customReports, Database.customReports, CustomReport.id, fun report => some report.tenant⟩

def schedules : Table Schedule :=
  ⟨.schedules, Database.schedules, Schedule.id, fun schedule => some schedule.tenant⟩

variable {Row : Type} {t : Table Row} {db db' : Database} {id : Uuid} {row : Row}

/-- The identifiers of the rows are different, and each was given out for this table. -/
structure Numbered (t : Table Row) (db : Database) : Prop where
  nodup : ((t.rows db).map t.id).Nodup
  given : ∀ row ∈ t.rows db, ∃ n, n ≤ db.attempts.count t.name ∧ t.id row = t.name.rowId n

/-- An identifier that was not yet given out. -/
def IsLater (db : Database) (name : TableName) (id : Uuid) : Prop :=
  ∃ n, db.attempts.count name < n ∧ id = name.rowId n

theorem rowId_injective (name : TableName) : Function.Injective name.rowId := by
  intro m n h
  have hvalue := congrArg Uuid.value h
  exact Nat.add_left_cancel hvalue

theorem isLater_nextId {name : TableName}
    (h : db.attempts.count name ≤ db'.attempts.count name) :
    IsLater db name (db'.nextId name) :=
  ⟨_, Nat.lt_succ_of_le h, rfl⟩

theorem Numbered.id_ne_of_isLater (h : t.Numbered db) (hlater : IsLater db t.name id)
    (hrow : row ∈ t.rows db) : t.id row ≠ id := by
  obtain ⟨n, hn, rfl⟩ := hlater
  obtain ⟨m, hm, hid⟩ := h.given row hrow
  intro heq
  have hsame := rowId_injective t.name (hid.symm.trans heq)
  omega

theorem Numbered.eq_of_id_eq {row' : Row} (h : t.Numbered db) (hrow : row ∈ t.rows db)
    (hrow' : row' ∈ t.rows db) (hid : t.id row = t.id row') : row = row' :=
  List.inj_on_of_nodup_map h.nodup hrow hrow' hid

/-- A row is found by its identifier. -/
theorem Numbered.find?_of_mem (h : t.Numbered db) (hrow : row ∈ t.rows db) :
    (t.rows db).find? (t.id · == t.id row) = some row := by
  cases hfound : (t.rows db).find? (t.id · == t.id row) with
  | none => exact absurd (beq_self_eq_true (t.id row)) (List.find?_eq_none.mp hfound row hrow)
  | some found =>
      have hid := List.find?_some hfound
      rw [h.eq_of_id_eq (List.mem_of_find?_eq_some hfound) hrow (eq_of_beq hid)]

/-- What one step can do to a table: nothing, the insert of a row that is `New`, a change of rows
that keeps what `Keeps` says, or the removal of rows. No row but the `Open` ones is changed or
removed. -/
inductive Change (t : Table Row) (New : Row → Prop) (Keeps : Row → Row → Prop)
    (Open : Row → Prop) (db db' : Database) : Prop
  | none (hrows : t.rows db' = t.rows db)
  | add (row : Row) (hid : t.id row = db.nextId t.name) (hnew : New row)
      (hcount : db.attempts.count t.name < db'.attempts.count t.name)
      (hrows : t.rows db' = t.rows db ++ [row])
  | update (f : Row → Row) (hid : ∀ row, t.id (f row) = t.id row)
      (htenant : ∀ row ∈ t.rows db, t.tenant (f row) = t.tenant row)
      (hkeeps : ∀ row ∈ t.rows db, f row = row ∨ Open row ∧ Keeps row (f row))
      (hrows : t.rows db' = (t.rows db).map f)
  | remove (stays : Row → Bool) (hopen : ∀ row ∈ t.rows db, stays row = false → Open row)
      (hrows : t.rows db' = (t.rows db).filter stays)

namespace Change

variable {New Open : Row → Prop} {Keeps : Row → Row → Prop}

/-- A row that is stored is changed under its identifier. -/
theorem update_stored {stored : Row} (hnum : t.Numbered db) (hstored : stored ∈ t.rows db)
    (g : Row → Row) (hid : ∀ row, t.id row = t.id stored → t.id (g row) = t.id stored)
    (htenant : t.tenant (g stored) = t.tenant stored) (hopen : Open stored)
    (hkeeps : Keeps stored (g stored))
    (hrows : t.rows db' = (t.rows db).map fun row =>
      if t.id row = t.id stored then g row else row) :
    t.Change New Keeps Open db db' := by
  refine .update _ (fun row => ?_) (fun row hrow => ?_) (fun row hrow => ?_) hrows
  · by_cases h : t.id row = t.id stored
    · rw [if_pos h, hid row h, h]
    · rw [if_neg h]
  · by_cases h : t.id row = t.id stored
    · rw [if_pos h, hnum.eq_of_id_eq hrow hstored h, htenant]
    · rw [if_neg h]
  · by_cases h : t.id row = t.id stored
    · rw [if_pos h, hnum.eq_of_id_eq hrow hstored h]
      exact .inr ⟨hopen, hkeeps⟩
    · exact .inl (if_neg h)

theorem numbered (h : t.Change New Keeps Open db db')
    (hcount : db.attempts.count t.name ≤ db'.attempts.count t.name) (hnum : t.Numbered db) :
    t.Numbered db' := by
  have hgiven : ∀ row ∈ t.rows db, ∃ n, n ≤ db'.attempts.count t.name ∧
      t.id row = t.name.rowId n := by
    intro row hrow
    obtain ⟨n, hn, hid⟩ := hnum.given row hrow
    exact ⟨n, Nat.le_trans hn hcount, hid⟩
  cases h with
  | none hrows =>
      rw [← hrows] at hgiven
      exact ⟨hrows ▸ hnum.nodup, hgiven⟩
  | add row hid hnew hcount hrows =>
      refine ⟨?_, fun other hother => ?_⟩
      · have hfresh : ∀ other ∈ t.rows db, t.id other ≠ t.id row := fun other hother =>
          hid ▸ hnum.id_ne_of_isLater (isLater_nextId (Nat.le_refl _)) hother
        rw [hrows, List.map_append]
        refine hnum.nodup.append (List.nodup_singleton _) ?_
        intro id hold hid
        obtain ⟨other, hother, rfl⟩ := List.mem_map.mp hold
        exact hfresh other hother (List.mem_singleton.mp hid)
      · rw [hrows] at hother
        rcases List.mem_append.mp hother with hold | hnew
        · exact hgiven other hold
        · rw [List.mem_singleton.mp hnew]
          exact ⟨_, hcount, hid⟩
  | update f hid htenant hkeeps hrows =>
      refine ⟨?_, fun other hother => ?_⟩
      · have hids : t.id ∘ f = t.id := funext hid
        rw [hrows, List.map_map, hids]
        exact hnum.nodup
      · rw [hrows] at hother
        obtain ⟨row, hrow, rfl⟩ := List.mem_map.mp hother
        rw [hid row]
        exact hgiven row hrow
  | remove stays hopen hrows =>
      have hsub : (t.rows db').Sublist (t.rows db) := hrows ▸ List.filter_sublist
      exact ⟨hnum.nodup.sublist (hsub.map t.id), fun row hrow => hgiven row (hsub.subset hrow)⟩

/-- A column whose entries are different stays so, if no change touches it and new rows have an
entry that is not used. -/
theorem nodup_column {β : Type} {f : Row → β} (h : t.Change New Keeps Open db db')
    (hkeeps : ∀ row row', Keeps row row' → f row' = f row)
    (hnew : ∀ row, t.id row = db.nextId t.name → New row → ∀ other ∈ t.rows db, f other ≠ f row)
    (hnodup : ((t.rows db).map f).Nodup) : ((t.rows db').map f).Nodup := by
  cases h with
  | none hrows =>
      rw [hrows]
      exact hnodup
  | add row hid hadded hcount hrows =>
      rw [hrows, List.map_append]
      refine hnodup.append (List.nodup_singleton _) ?_
      intro entry hold hentry
      obtain ⟨other, hother, rfl⟩ := List.mem_map.mp hold
      exact hnew row hid hadded other hother (List.mem_singleton.mp hentry)
  | update g hid htenant hchanged hrows =>
      have hsame : (t.rows db).map (f ∘ g) = (t.rows db).map f := by
        refine List.map_congr_left fun row hrow => ?_
        rcases hchanged row hrow with heq | ⟨-, hkept⟩
        · exact congrArg f heq
        · exact hkeeps row (g row) hkept
      rw [hrows, List.map_map, hsame]
      exact hnodup
  | remove stays hopen hrows =>
      rw [hrows]
      exact hnodup.sublist (List.filter_sublist.map f)

/-- A row comes from one that was there, or it is new. -/
theorem origin (h : t.Change New Keeps Open db db') (hrow : row ∈ t.rows db') :
    (∃ old ∈ t.rows db, t.id row = t.id old ∧ t.tenant row = t.tenant old ∧
      (row = old ∨ Open old ∧ Keeps old row)) ∨
    t.id row = db.nextId t.name ∧ New row := by
  cases h with
  | none hrows => exact .inl ⟨row, hrows ▸ hrow, rfl, rfl, .inl rfl⟩
  | add added hid hnew hcount hrows =>
      rw [hrows] at hrow
      rcases List.mem_append.mp hrow with hold | hadded
      · exact .inl ⟨row, hold, rfl, rfl, .inl rfl⟩
      · rw [List.mem_singleton.mp hadded]
        exact .inr ⟨hid, hnew⟩
  | update f hid htenant hkeeps hrows =>
      rw [hrows] at hrow
      obtain ⟨old, hold, rfl⟩ := List.mem_map.mp hrow
      exact .inl ⟨old, hold, hid old, htenant old hold, hkeeps old hold⟩
  | remove stays hopen hrows =>
      rw [hrows] at hrow
      exact .inl ⟨row, (List.mem_filter.mp hrow).1, rfl, rfl, .inl rfl⟩

/-- The rows of a tenant that are neither open nor new are the same before and after. -/
theorem filter_tenant_eq {tenant : Uuid} (h : t.Change New Keeps Open db db')
    (hopen : ∀ row, Open row → t.tenant row ≠ some tenant)
    (hnew : ∀ row, New row → t.tenant row ≠ some tenant) :
    (t.rows db').filter (t.tenant · == some tenant) =
      (t.rows db).filter (t.tenant · == some tenant) := by
  cases h with
  | none hrows => rw [hrows]
  | add row hid hadded hcount hrows =>
      rw [hrows, List.filter_append]
      simp [hnew row hadded]
  | update f hid htenant hkeeps hrows =>
      rw [hrows, List.filter_map]
      have hfilter : (t.rows db).filter ((t.tenant · == some tenant) ∘ f) =
          (t.rows db).filter (t.tenant · == some tenant) := by
        refine List.filter_congr fun row hrow => ?_
        simp only [Function.comp_apply, htenant row hrow]
      have hsame : ∀ row ∈ (t.rows db).filter (t.tenant · == some tenant), f row = row := by
        intro row hrow
        obtain ⟨hmem, htenant⟩ := List.mem_filter.mp hrow
        rcases hkeeps row hmem with heq | ⟨hopened, -⟩
        · exact heq
        · exact absurd (eq_of_beq htenant) (hopen row hopened)
      rw [hfilter, List.map_congr_left hsame]
      exact List.map_id _
  | remove stays hstays hrows =>
      rw [hrows, List.filter_filter]
      refine List.filter_congr fun row hrow => ?_
      cases h : stays row with
      | true => simp
      | false => simp [hopen row (hstays row hrow h)]

end Change

end Table

end TenantReports
