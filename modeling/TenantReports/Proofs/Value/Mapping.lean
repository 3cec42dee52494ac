import Mathlib.Data.List.Basic
import TenantReports.Value.Mapping

/-!
Looking up what was put into a mapping under the names of fields.
-/

namespace TenantReports

theorem Value.sameKey_text {key : Value} {name : String} :
    key.sameKey (.text name) = true ↔ key = .text name := by
  cases key with
  | text s =>
      change (s == name) = true ↔ _
      simp
  | _ => simp [sameKey, sameLeaf, magnitude?, content?]

namespace Entries

theorem field?_cons (key name : String) (v : Value) (rest : Entries) :
    field? ((.text key, v) :: rest) name = if key = name then some v else rest.field? name := by
  have hsame : (Value.text key).sameKey (.text name) = (key == name) := rfl
  unfold field? get?
  rw [List.find?_cons]
  dsimp only
  rw [hsame]
  by_cases hname : key = name
  · rw [if_pos hname, beq_iff_eq.mpr hname]
    rfl
  · rw [if_neg hname, beq_eq_false_iff_ne.mpr hname]

theorem has_eq_isSome_field? (entries : Entries) (name : String) :
    entries.has (.text name) = (entries.field? name).isSome := by
  unfold field? get?
  rw [Option.isSome_map, Bool.eq_iff_iff, List.find?_isSome]
  exact List.any_eq_true

theorem field?_eq_none {entries : Entries} {name : String}
    (h : entries.has (.text name) = false) : entries.field? name = none := by
  rw [has_eq_isSome_field?] at h
  exact Option.isNone_iff_eq_none.mp (Option.isSome_eq_false_iff.mp h)

theorem field?_append (xs ys : Entries) (name : String) :
    field? (xs ++ ys) name = (xs.field? name).or (ys.field? name) := by
  unfold field? get?
  rw [List.find?_append, Option.map_or]

/-- What is put under one name is found there, and all else stays. -/
theorem field?_put (entries : Entries) (key name : String) (v : Value) :
    (entries.put (.text key) v).field? name =
      if key = name then some v else entries.field? name := by
  unfold put
  split
  · next hhas =>
      rw [has_eq_isSome_field?] at hhas
      let replaced (entry : Value × Value) : Value × Value :=
        if entry.1.sameKey (.text key) then (entry.1, v) else entry
      have hkeys : ∀ entry, (replaced entry).1 = entry.1 := by
        intro entry
        unfold replaced
        split
        · rfl
        · rfl
      unfold field? get? at hhas ⊢
      have hfind : (entries.map replaced).find? (·.1.sameKey (.text name)) =
          (entries.find? (·.1.sameKey (.text name))).map replaced := by
        rw [List.find?_map]
        simp only [Function.comp_def, hkeys]
      change ((entries.map replaced).find? _).map _ = _
      rw [hfind]
      cases hfound : entries.find? (·.1.sameKey (.text name)) with
      | none =>
          have hne : key ≠ name := by
            rintro rfl
            rw [hfound] at hhas
            cases hhas
          rw [if_neg hne]
          rfl
      | some entry =>
          have hkey := List.find?_some hfound
          rw [Value.sameKey_text] at hkey
          have hsame : entry.1.sameKey (.text key) = (name == key) := by
            rw [hkey]
            rfl
          dsimp only [Option.map_some]
          unfold replaced
          rw [hsame]
          by_cases hname : key = name
          · rw [if_pos hname, if_pos (beq_iff_eq.mpr hname.symm)]
          · rw [if_neg hname, if_neg (fun h => hname (beq_iff_eq.mp h).symm)]
  · next hmissing =>
      rw [field?_append, field?_cons]
      by_cases hname : key = name
      · rw [← hname, field?_eq_none (Bool.eq_false_iff.mpr hmissing), if_pos rfl, if_pos rfl]
        rfl
      · rw [if_neg hname, if_neg hname]
        exact Option.or_none
end Entries

end TenantReports
