import Mathlib.Data.List.Forall2
import TenantReports.Proofs.Value.Mapping
import TenantReports.Report.Custom
import TenantReports.Validation.Form

/-!
What a reader has found when it succeeds, and the fields of forms: those that were given, those
that are not null, and all.
-/

namespace TenantReports

namespace Validated

variable {α β : Type}

theorem map_eq_valid {f : α → β} {v : Validated α} {b : β} :
    f <$> v = .valid b ↔ ∃ a, v = .valid a ∧ f a = b := by
  cases v with
  | valid a =>
      constructor
      · intro h
        exact ⟨a, rfl, Validated.valid.inj h⟩
      · rintro ⟨_, ⟨⟩, rfl⟩
        rfl
  | invalid issues =>
      constructor
      · intro h
        cases h
      · rintro ⟨a, ha, -⟩
        cases ha

theorem seq_eq_valid {f : Validated (α → β)} {v : Validated α} {b : β} :
    f <*> v = .valid b ↔ ∃ g a, f = .valid g ∧ v = .valid a ∧ g a = b := by
  cases f with
  | invalid issues =>
      constructor
      · intro h
        cases v <;> cases h
      · rintro ⟨g, a, hg, -⟩
        cases hg
  | valid g =>
      cases v with
      | invalid issues =>
          constructor
          · intro h
            cases h
          · rintro ⟨_, a, -, ha, -⟩
            cases ha
      | valid a =>
          constructor
          · intro h
            exact ⟨g, a, rfl, rfl, Validated.valid.inj h⟩
          · rintro ⟨_, _, ⟨⟩, ⟨⟩, rfl⟩
            rfl

theorem under_eq_valid {part : PathPart} {v : Validated α} {a : α} :
    v.under part = .valid a ↔ v = .valid a := by
  cases v with
  | valid a' => rfl
  | invalid issues =>
      constructor
      · intro h
        cases h
      · intro h
        cases h

end Validated

open Validated

namespace Read

variable {α : Type}

theorem items_eq_valid {reader : Reader α} {index : Nat} {values : List Value} {parts : List α}
    (h : items reader index values = .valid parts) :
    List.Forall₂ (fun v part => reader v = .valid part) values parts := by
  induction values generalizing index parts with
  | nil =>
      cases h
      exact .nil
  | cons v values ih =>
      unfold items at h
      obtain ⟨g, rest, hfirst, hrest, rfl⟩ := seq_eq_valid.mp h
      obtain ⟨part, hpart, rfl⟩ := map_eq_valid.mp hfirst
      exact .cons (under_eq_valid.mp hpart) (ih hrest)

end Read

/-! Fields of forms -/

theorem Form.toValue_record (fields : List (String × Form)) :
    (record fields).toValue = .record (fields.map fun field => (field.1, field.2.toValue)) := by
  have hfields : fieldValues fields =
      fields.map fun field => (.text field.1, field.2.toValue) := by
    induction fields with
    | nil => rfl
    | cons field fields ih => rw [fieldValues, ih, List.map_cons]
  rw [toValue, hfields, Value.record, List.map_map]
  rfl

/-- A record that is cut down to what was given has the fields that were given. -/
theorem Form.field?_givenIn {given : Entries} {name : String} (fields : List (String × Form)) :
    (entriesOf ((record fields).givenIn (.mapping given))).field? name =
      (given.field? name).bind fun v =>
        (fields.lookup name).map fun form => form.givenIn v := by
  change Entries.field? (fieldValues (givenFields given fields)) name = _
  induction fields with
  | nil => cases given.field? name <;> rfl
  | cons field fields ih =>
      obtain ⟨key, form⟩ := field
      rw [givenFields, List.lookup_cons]
      by_cases hname : name = key
      · subst hname
        rw [beq_self_eq_true]
        cases hgiven : given.field? name with
        | none => rw [hgiven] at ih; exact ih
        | some v =>
            change Entries.field? ((.text name, _) :: _) name = _
            rw [Entries.field?_cons, if_pos rfl]
            rfl
      · rw [beq_eq_false_iff_ne.mpr hname]
        cases given.field? key with
        | none => exact ih
        | some v =>
            change Entries.field? ((.text key, _) :: _) name = _
            rw [Entries.field?_cons, if_neg (Ne.symm hname)]
            exact ih

theorem Form.withoutNulls_of_isNull {form : Form} (h : form.isNull = true) :
    form.withoutNulls = .null := by
  unfold isNull at h
  split at h
  · rfl
  · cases h

/-- Where no two fields have one name, those that are not null are found without the others. -/
theorem Form.field_withoutNulls (fields : List (String × Form))
    (hnames : (fields.map (·.1)).Nodup) (name : String) :
    (entriesOf (record fields).withoutNulls).field name =
      ((fields.lookup name).map withoutNulls).getD .null := by
  change Entries.field (fieldValues (filledFields fields)) name = _
  unfold Entries.field
  induction fields with
  | nil => rfl
  | cons field fields ih =>
      obtain ⟨key, form⟩ := field
      obtain ⟨hkey, hrest⟩ := List.nodup_cons.mp hnames
      rw [filledFields, List.lookup_cons]
      by_cases hname : name = key
      · subst hname
        have hmissing : fields.lookup name = none := by
          refine List.lookup_eq_none_iff.mpr fun field hfield => bne_iff_ne.mpr fun hsame => ?_
          exact hkey (List.mem_map.mpr ⟨field, hfield, hsame.symm⟩)
        rw [beq_self_eq_true]
        split
        · next hnull =>
            rw [ih hrest, hmissing]
            exact (withoutNulls_of_isNull hnull).symm
        · change (Entries.field? ((.text name, _) :: _) name).getD .null = _
          rw [Entries.field?_cons, if_pos rfl]
          rfl
      · rw [beq_eq_false_iff_ne.mpr hname]
        split
        · exact ih hrest
        · change (Entries.field? ((.text key, _) :: _) name).getD .null = _
          rw [Entries.field?_cons, if_neg (Ne.symm hname)]
          exact ih hrest

theorem Read.entries_any (fields : List (String × Value)) :
    entries any (fields.map fun field => (.text field.1, field.2)) = .valid fields := by
  induction fields with
  | nil => rfl
  | cons field fields ih =>
      rw [List.map_cons, entries, ih]
      rfl

end TenantReports
