import TenantReports.Proofs.Value.Mapping
import TenantReports.Proofs.Value.Plain

/-!
The plain form of a value is a normal form: it is made of plain parts, no key stands twice in a
mapping of it, and it is its own plain form. Every value without fractions has one, which is without
fractions too.
-/

namespace TenantReports

namespace Entries

variable {entries : Entries} {name : String} {v : Value}

theorem has_text_iff : entries.has (.text name) = true ↔ .text name ∈ entries.map (·.1) := by
  unfold has
  simp only [List.any_eq_true, Value.sameKey_text, List.mem_map]

/-- A new name is put at the end. -/
theorem put_of_not_mem (h : .text name ∉ entries.map (·.1)) :
    entries.put (.text name) v = entries ++ [(.text name, v)] :=
  if_neg fun hhas => h (has_text_iff.mp hhas)

theorem keys_put_of_mem (h : .text name ∈ entries.map (·.1)) :
    (entries.put (.text name) v).map (·.1) = entries.map (·.1) := by
  unfold put
  rw [if_pos (has_text_iff.mpr h), List.map_map]
  refine List.map_congr_left fun entry _ => ?_
  dsimp only [Function.comp_apply]
  split
  · rfl
  · rfl

theorem nodup_put (h : (entries.map (·.1)).Nodup) :
    ((entries.put (.text name) v).map (·.1)).Nodup := by
  by_cases hmem : .text name ∈ entries.map (·.1)
  · rwa [keys_put_of_mem hmem]
  · rw [put_of_not_mem hmem, List.map_append]
    refine List.nodup_append.mpr ⟨h, List.pairwise_singleton _ _, fun key hkey _ hnew heq => ?_⟩
    rw [heq, List.mem_singleton.mp hnew] at hkey
    exact hmem hkey

/-- Whether all keys are texts, as those of plain mappings are. -/
def HasTextKeys (entries : Entries) : Prop := ∀ entry ∈ entries, ∃ name, entry.1 = .text name

theorem HasTextKeys.put (h : entries.HasTextKeys) : (entries.put (.text name) v).HasTextKeys := by
  intro entry hentry
  unfold Entries.put at hentry
  split at hentry
  · obtain ⟨old, hold, rfl⟩ := List.mem_map.mp hentry
    split
    · exact h old hold
    · exact h old hold
  · rcases List.mem_append.mp hentry with hold | hnew
    · exact h entry hold
    · rw [List.mem_singleton.mp hnew]
      exact ⟨name, rfl⟩

/-- A row of a result: its columns have names, and no two of them the same. -/
structure IsRow (row : Entries) : Prop where
  named : row.HasTextKeys
  distinct : (row.map (·.1)).Nodup

theorem IsRow.field?_eq_some {row : Entries} (h : row.IsRow) :
    row.field? name = some v ↔ (.text name, v) ∈ row := by
  induction row with
  | nil => exact iff_of_false (fun hnone => nomatch hnone) List.not_mem_nil
  | cons entry row ih =>
      obtain ⟨⟨key, hkey⟩, hnamed⟩ := List.forall_mem_cons.mp h.named
      obtain ⟨hnew, hdistinct⟩ := List.nodup_cons.mp h.distinct
      obtain ⟨_, value⟩ := entry
      cases hkey
      rw [field?_cons, List.mem_cons, Prod.mk.injEq]
      by_cases hname : key = name
      · subst hname
        have hrest : (.text key, v) ∉ row := fun hmem =>
          hnew (List.mem_map.mpr ⟨_, hmem, rfl⟩)
        rw [if_pos rfl, Option.some.injEq, or_iff_left hrest]
        exact ⟨fun heq => ⟨rfl, heq.symm⟩, fun heq => heq.2.symm⟩
      · rw [if_neg hname, ih ⟨hnamed, hdistinct⟩, or_iff_right fun heq => hname ?_]
        exact (Value.text.inj heq.1).symm

/-- Each column is found under its name. -/
theorem IsRow.get?_of_mem {row : Entries} (h : row.IsRow) {entry : Value × Value}
    (hentry : entry ∈ row) : row.get? entry.1 = some entry.2 := by
  obtain ⟨key, value⟩ := entry
  obtain ⟨name, rfl⟩ := h.named _ hentry
  exact h.field?_eq_some.mpr hentry

/-- Where no row comes first, there are no columns. -/
theorem isRow_headD {rows : List Entries} (h : ∀ row ∈ rows, row.IsRow) :
    (rows.headD []).IsRow := by
  cases rows with
  | nil => exact ⟨List.forall_mem_nil _, List.nodup_nil⟩
  | cons row rows => exact h row List.mem_cons_self

/-- Whatever names come twice among pairs, none does in the mapping that they make. -/
theorem ofPairs_apart {pairs : List (Value × Value)} (h : HasTextKeys pairs) :
    (ofPairs pairs).HasTextKeys ∧ ((ofPairs pairs).map (·.1)).Nodup := by
  have hfold (made : Entries) (hmade : made.HasTextKeys ∧ (made.map (·.1)).Nodup) :
      (pairs.foldl (fun entries pair => entries.put pair.1 pair.2) made).HasTextKeys ∧
        ((pairs.foldl (fun entries pair => entries.put pair.1 pair.2) made).map (·.1)).Nodup := by
    induction pairs generalizing made with
    | nil => exact hmade
    | cons pair pairs ih =>
        obtain ⟨⟨name, hname⟩, hpairs⟩ := List.forall_mem_cons.mp h
        rw [List.foldl_cons, hname]
        exact ih hpairs _ ⟨hmade.1.put, nodup_put hmade.2⟩
  exact hfold [] ⟨List.forall_mem_nil _, List.nodup_nil⟩

/-- Entries with distinct names are the mapping that they make. -/
theorem ofPairs_eq_self (htexts : entries.HasTextKeys) (hdistinct : (entries.map (·.1)).Nodup) :
    ofPairs entries = entries := by
  have hfold (made rest : Entries) (htexts : rest.HasTextKeys)
      (hdistinct : ((made ++ rest).map (·.1)).Nodup) :
      rest.foldl (fun entries pair => entries.put pair.1 pair.2) made = made ++ rest := by
    induction rest generalizing made with
    | nil => exact (List.append_nil made).symm
    | cons entry rest ih =>
        obtain ⟨⟨name, hname⟩, hrest⟩ := List.forall_mem_cons.mp htexts
        have hnew : .text name ∉ made.map (·.1) := by
          rw [List.map_append, List.map_cons, hname] at hdistinct
          intro hmem
          exact List.nodup_append.mp hdistinct |>.2.2 _ hmem _ List.mem_cons_self rfl
        rw [List.foldl_cons, hname, put_of_not_mem hnew, ← hname, ih _ hrest, List.append_assoc]
        · rfl
        · rwa [List.append_assoc]
  exact hfold [] entries htexts hdistinct

end Entries

namespace Value

mutual

/-- Whether a value is plain, and no key stands twice in one of its mappings. -/
def isSettled : Value → Bool
  | null | bool _ | int _ | float _ | text _ => true
  | list items => allSettled items
  | mapping entries => entriesSettled entries
  | _ => false

def allSettled : List Value → Bool
  | [] => true
  | item :: items => isSettled item && allSettled items

def entriesSettled : List (Value × Value) → Bool
  | [] => true
  | (.text key, value) :: entries =>
      !Entries.has entries (.text key) && isSettled value && entriesSettled entries
  | _ => false

end

theorem entriesSettled_iff {entries : Entries} : entriesSettled entries = true ↔
    entries.HasTextKeys ∧ (entries.map (·.1)).Nodup ∧
      ∀ entry ∈ entries, entry.2.isSettled = true := by
  induction entries with
  | nil => simp [entriesSettled, Entries.HasTextKeys]
  | cons entry entries ih =>
      obtain ⟨key, value⟩ := entry
      unfold Entries.HasTextKeys
      rw [List.forall_mem_cons, List.forall_mem_cons, List.map_cons, List.nodup_cons]
      cases key with
      | text name =>
          simp only [entriesSettled, Bool.and_eq_true, Bool.not_eq_true', ih,
            ← Entries.has_text_iff, Bool.not_eq_true, text.injEq, exists_eq', true_and]
          tauto
      | _ => simp [entriesSettled]

mutual

theorem isPlain_of_isSettled : ∀ {v : Value}, v.isSettled = true → v.isPlain = true
  | null, _ | bool _, _ | int _, _ | float _, _ | text _, _ => by rw [isPlain]
  | list items, h => by
      rw [isSettled] at h
      rw [isPlain]
      exact allPlain_of_allSettled h
  | mapping entries, h => by
      rw [isSettled] at h
      rw [isPlain]
      exact entriesPlain_of_entriesSettled h

theorem allPlain_of_allSettled : ∀ {items : List Value},
    allSettled items = true → allPlain items = true
  | [], _ => by rw [allPlain]
  | item :: items, h => by
      rw [allSettled, Bool.and_eq_true] at h
      rw [allPlain, Bool.and_eq_true]
      exact ⟨isPlain_of_isSettled h.1, allPlain_of_allSettled h.2⟩

theorem entriesPlain_of_entriesSettled : ∀ {entries : List (Value × Value)},
    entriesSettled entries = true → entriesPlain entries = true
  | [], _ => by rw [entriesPlain]
  | (.text key, value) :: entries, h => by
      simp only [entriesSettled, Bool.and_eq_true] at h
      rw [entriesPlain, Bool.and_eq_true]
      exact ⟨isPlain_of_isSettled h.1.2, entriesPlain_of_entriesSettled h.2⟩

end

mutual

/-- A settled value is its own plain form. -/
theorem toPlain_eq_self : ∀ {v : Value}, v.isSettled = true → v.toPlain = .ok v
  | null, _ | bool _, _ | int _, _ | float _, _ | text _, _ => by rw [toPlain]
  | list items, h => by
      rw [isSettled] at h
      rw [toPlain, itemsToPlain_eq_self h]
      rfl
  | mapping entries, h => by
      rw [isSettled] at h
      obtain ⟨htexts, hdistinct, -⟩ := entriesSettled_iff.mp h
      rw [toPlain, entriesToPlain_eq_self h]
      change Except.ok (mapping (Entries.ofPairs entries)) = _
      rw [Entries.ofPairs_eq_self htexts hdistinct]

theorem itemsToPlain_eq_self : ∀ {items : List Value},
    allSettled items = true → itemsToPlain items = .ok items
  | [], _ => by rw [itemsToPlain]
  | item :: items, h => by
      rw [allSettled, Bool.and_eq_true] at h
      rw [itemsToPlain, toPlain_eq_self h.1, itemsToPlain_eq_self h.2]
      rfl

theorem entriesToPlain_eq_self : ∀ {entries : List (Value × Value)},
    entriesSettled entries = true → entriesToPlain entries = .ok entries
  | [], _ => by rw [entriesToPlain]
  | (.text key, value) :: entries, h => by
      simp only [entriesSettled, Bool.and_eq_true] at h
      have hkey : (text key).plainText = key := String.ofList_toList
      rw [entriesToPlain, toPlain_eq_self h.1.2, entriesToPlain_eq_self h.2, hkey]
      rfl

end

/-- Pairs of names and settled values make a settled mapping. -/
theorem isSettled_ofPairs {pairs : List (Value × Value)} (htexts : Entries.HasTextKeys pairs)
    (hsettled : ∀ pair ∈ pairs, pair.2.isSettled = true) :
    entriesSettled (Entries.ofPairs pairs) = true :=
  entriesSettled_iff.mpr
    ⟨(Entries.ofPairs_apart htexts).1, (Entries.ofPairs_apart htexts).2,
      Entries.forall_ofPairs (P := fun v => v.isSettled = true) hsettled⟩

mutual

theorem isSettled_of_toPlain : ∀ {given plain : Value},
    given.toPlain = .ok plain → plain.isSettled = true
  | list items, _, h | tuple items, _, h => by
      rw [toPlain] at h
      obtain ⟨plain, hplain, heq⟩ := bind_eq_ok.mp h
      cases heq
      rw [isSettled]
      exact allSettled_of_itemsToPlain hplain
  | mapping entries, _, h => by
      rw [toPlain] at h
      obtain ⟨pairs, hpairs, heq⟩ := bind_eq_ok.mp h
      cases heq
      rw [isSettled]
      obtain ⟨htexts, hsettled⟩ := settled_of_entriesToPlain hpairs
      exact isSettled_ofPairs htexts hsettled
  | numeric n, _, h => by
      rw [toPlain] at h
      obtain ⟨x, -, heq⟩ := bind_eq_ok.mp h
      cases heq
      rw [isSettled]
  | uuid _, _, h | date _, _, h | dateTime _, _, h | time _, _, h | duration _, _, h
  | bytes _, _, h | view _, _, h | null, _, h | bool _, _, h | int _, _, h | float _, _, h
  | text _, _, h => by
      rw [toPlain] at h
      cases h
      rw [isSettled]

theorem allSettled_of_itemsToPlain : ∀ {items plain : List Value},
    itemsToPlain items = .ok plain → allSettled plain = true
  | [], _, h => by
      rw [itemsToPlain] at h
      cases h
      rw [allSettled]
  | item :: items, _, h => by
      rw [itemsToPlain] at h
      obtain ⟨first, hfirst, h⟩ := bind_eq_ok.mp h
      obtain ⟨rest, hrest, heq⟩ := bind_eq_ok.mp h
      cases heq
      rw [allSettled, isSettled_of_toPlain hfirst, allSettled_of_itemsToPlain hrest]
      rfl

theorem settled_of_entriesToPlain : ∀ {entries pairs : List (Value × Value)},
    entriesToPlain entries = .ok pairs →
      Entries.HasTextKeys pairs ∧ ∀ pair ∈ pairs, pair.2.isSettled = true
  | [], _, h => by
      rw [entriesToPlain] at h
      cases h
      exact ⟨List.forall_mem_nil _, List.forall_mem_nil _⟩
  | (key, value) :: entries, _, h => by
      rw [entriesToPlain] at h
      obtain ⟨first, hfirst, h⟩ := bind_eq_ok.mp h
      obtain ⟨rest, hrest, heq⟩ := bind_eq_ok.mp h
      cases heq
      obtain ⟨htexts, hsettled⟩ := settled_of_entriesToPlain hrest
      exact ⟨List.forall_mem_cons.mpr ⟨⟨_, rfl⟩, htexts⟩,
        List.forall_mem_cons.mpr ⟨isSettled_of_toPlain hfirst, hsettled⟩⟩

end

end Value

/-- Rows in plain form are their own plain form. -/
theorem rowsToPlain_settled {rows plain : List Entries} (h : rowsToPlain rows = .ok plain) :
    (∀ row ∈ plain, Value.entriesSettled row = true) ∧ rowsToPlain plain = .ok plain := by
  have hsettled : ∀ row ∈ plain, Value.entriesSettled row = true := by
    intro row hrow
    obtain ⟨given, -, hgiven⟩ := exists_of_mem_right (mapM_eq_ok.mp h) hrow
    obtain ⟨pairs, hpairs, heq⟩ := bind_eq_ok.mp hgiven
    cases heq
    obtain ⟨htexts, hvalues⟩ := Value.settled_of_entriesToPlain hpairs
    exact Value.isSettled_ofPairs htexts hvalues
  refine ⟨hsettled, mapM_eq_ok.mpr (List.forall₂_same.mpr fun row hrow => ?_)⟩
  obtain ⟨htexts, hdistinct, -⟩ := Value.entriesSettled_iff.mp (hsettled row hrow)
  rw [Value.entriesToPlain_eq_self (hsettled row hrow)]
  exact congrArg Except.ok (Entries.ofPairs_eq_self htexts hdistinct)

theorem isRow_of_rowsToPlain {rows plain : List Entries} (h : rowsToPlain rows = .ok plain) :
    ∀ row ∈ plain, row.IsRow := by
  intro row hrow
  obtain ⟨htexts, hdistinct, -⟩ := Value.entriesSettled_iff.mp ((rowsToPlain_settled h).1 row hrow)
  exact ⟨htexts, hdistinct⟩

/-! Values without fractions -/

namespace Value

mutual

/-- Whether a value is made of null, truth values, whole numbers, texts, identifiers, times, bytes,
lists and mappings with text keys: there is no floating-point number, exact decimal or span. -/
def isDiscrete : Value → Bool
  | null | bool _ | int _ | text _ | uuid _ | date _ | dateTime _ | time _ | bytes _ | view _ =>
      true
  | list items | tuple items => allDiscrete items
  | mapping entries => entriesDiscrete entries
  | _ => false

def allDiscrete : List Value → Bool
  | [] => true
  | item :: items => isDiscrete item && allDiscrete items

def entriesDiscrete : List (Value × Value) → Bool
  | [] => true
  | (.text _, value) :: entries => isDiscrete value && entriesDiscrete entries
  | _ => false

end

theorem allDiscrete_iff {items : List Value} :
    allDiscrete items = true ↔ ∀ item ∈ items, item.isDiscrete = true := by
  induction items with
  | nil => simp [allDiscrete]
  | cons item items ih => rw [allDiscrete, Bool.and_eq_true, ih, List.forall_mem_cons]

theorem entriesDiscrete_iff {entries : Entries} : entriesDiscrete entries = true ↔
    entries.HasTextKeys ∧ ∀ entry ∈ entries, entry.2.isDiscrete = true := by
  induction entries with
  | nil => simp [entriesDiscrete, Entries.HasTextKeys]
  | cons entry entries ih =>
      obtain ⟨key, value⟩ := entry
      unfold Entries.HasTextKeys
      rw [List.forall_mem_cons, List.forall_mem_cons]
      cases key with
      | text name =>
          simp only [entriesDiscrete, Bool.and_eq_true, ih, text.injEq, exists_eq', true_and]
          exact and_left_comm
      | _ => simp [entriesDiscrete]

mutual

theorem exists_toPlain : ∀ {given : Value}, given.isDiscrete = true →
    ∃ plain, given.toPlain = .ok plain ∧ plain.isDiscrete = true
  | list items, h | tuple items, h => by
      rw [isDiscrete] at h
      obtain ⟨plain, hplain, hdiscrete⟩ := exists_itemsToPlain h
      exact ⟨.list plain, by rw [toPlain, hplain]; rfl, by rwa [isDiscrete]⟩
  | mapping entries, h => by
      rw [isDiscrete] at h
      obtain ⟨pairs, hpairs, hdiscrete⟩ := exists_entriesToPlain h
      refine ⟨.mapping (Entries.ofPairs pairs), by rw [toPlain, hpairs]; rfl, ?_⟩
      obtain ⟨htexts, hvalues⟩ := entriesDiscrete_iff.mp hdiscrete
      rw [isDiscrete, entriesDiscrete_iff]
      exact ⟨(Entries.ofPairs_apart htexts).1,
        Entries.forall_ofPairs (P := fun v => v.isDiscrete = true) hvalues⟩
  | uuid _, _ | date _, _ | dateTime _, _ | time _, _ | bytes _, _ | view _, _ | null, _
  | bool _, _ | int _, _ | text _, _ => by
      rw [toPlain]
      exact ⟨_, rfl, by rw [isDiscrete]⟩

theorem exists_itemsToPlain : ∀ {items : List Value}, allDiscrete items = true →
    ∃ plain, itemsToPlain items = .ok plain ∧ allDiscrete plain = true
  | [], _ => ⟨[], by rw [itemsToPlain], by rw [allDiscrete]⟩
  | item :: items, h => by
      rw [allDiscrete, Bool.and_eq_true] at h
      obtain ⟨first, hfirst, hdiscrete⟩ := exists_toPlain h.1
      obtain ⟨rest, hrest, hall⟩ := exists_itemsToPlain h.2
      refine ⟨first :: rest, by rw [itemsToPlain, hfirst, hrest]; rfl, ?_⟩
      rw [allDiscrete, hdiscrete, hall]
      rfl

theorem exists_entriesToPlain : ∀ {entries : List (Value × Value)},
    entriesDiscrete entries = true →
      ∃ pairs, entriesToPlain entries = .ok pairs ∧ entriesDiscrete pairs = true
  | [], _ => ⟨[], by rw [entriesToPlain], by rw [entriesDiscrete]⟩
  | (.text key, value) :: entries, h => by
      rw [entriesDiscrete, Bool.and_eq_true] at h
      obtain ⟨first, hfirst, hdiscrete⟩ := exists_toPlain h.1
      obtain ⟨rest, hrest, hall⟩ := exists_entriesToPlain h.2
      refine ⟨(.text (text key).plainText, first) :: rest,
        by rw [entriesToPlain, hfirst, hrest]; rfl, ?_⟩
      rw [entriesDiscrete, hdiscrete, hall]
      rfl

end

end Value

end TenantReports
