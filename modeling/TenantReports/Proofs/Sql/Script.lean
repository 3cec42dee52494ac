import Mathlib.Data.List.DropRight
import TenantReports.Sql.Script
import TenantReports.Text.Basic

/-!
Replacing a mark in a script and splitting the script into its statements commute, where neither
the mark nor what takes its place holds a blank or a semicolon.
-/

namespace TenantReports

namespace Text

/-- Text that no script is split within: not empty, and without blanks and semicolons. -/
structure IsSolid (cs : List Char) : Prop where
  ne_nil : cs ≠ []
  isBlank_eq_false : ∀ c ∈ cs, isBlank c = false
  ne_semicolon : ∀ c ∈ cs, c ≠ ';'

variable {old new : List Char}

@[simp] theorem replaceAll_nil : replaceAll old new [] = [] := by
  rw [replaceAll]

theorem replaceAll_append (h : old ≠ []) (rest : List Char) :
    replaceAll old new (old ++ rest) = new ++ replaceAll old new rest := by
  obtain ⟨c, tail, rfl⟩ := List.exists_cons_of_ne_nil h
  have hmark : (c :: tail).isPrefixOf (c :: (tail ++ rest)) = true :=
    List.isPrefixOf_iff_prefix.mpr ⟨rest, rfl⟩
  rw [List.cons_append, replaceAll, if_pos ⟨h, hmark⟩]
  simp

theorem replaceAll_cons {c : Char} {rest : List Char} (h : ¬ old <+: c :: rest) :
    replaceAll old new (c :: rest) = c :: replaceAll old new rest := by
  rw [replaceAll, if_neg]
  rintro ⟨_, hmark⟩
  exact h (List.isPrefixOf_iff_prefix.mp hmark)

/-- Where no mark begins, none begins once the text is cut off behind. -/
theorem replaceAll_cons_of_cut {c : Char} {rest part : List Char} (h : ¬ old <+: c :: rest)
    (hpart : part <+: rest) :
    replaceAll old new (c :: part) = c :: replaceAll old new part := by
  apply replaceAll_cons
  intro hmark
  exact h (hmark.trans (List.cons_prefix_cons.mpr ⟨rfl, hpart⟩))

/-- A text is read from its marks: it is empty, begins with a mark, or begins with a character
at which no mark begins. -/
theorem mark_induction (h : old ≠ []) {motive : List Char → Prop} (nil : motive [])
    (mark : ∀ rest, motive rest → motive (old ++ rest))
    (cons : ∀ c rest, ¬ old <+: c :: rest → motive rest → motive (c :: rest))
    (cs : List Char) : motive cs := by
  induction hn : cs.length using Nat.strong_induction_on generalizing cs with
  | _ n ih =>
      have hpos : 0 < old.length := List.length_pos_iff.mpr h
      subst hn
      by_cases hmark : old <+: cs
      · obtain ⟨rest, rfl⟩ := hmark
        refine mark rest (ih rest.length ?_ rest rfl)
        rw [List.length_append]
        omega
      · cases cs with
        | nil => exact nil
        | cons c rest => exact cons c rest hmark (ih rest.length (by simp) rest rfl)

theorem replaceAll_eq_nil_iff (hOld : old ≠ []) (hNew : new ≠ []) {cs : List Char} :
    replaceAll old new cs = [] ↔ cs = [] := by
  induction cs using mark_induction hOld with
  | nil => simp
  | mark rest ih =>
      rw [replaceAll_append hOld]
      simp [hOld, hNew]
  | cons c rest hmark ih =>
      rw [replaceAll_cons hmark]
      simp

section Blanks

variable {solid : List Char}

theorem IsSolid.takeWhile_append (h : IsSolid solid) (cs : List Char) :
    (solid ++ cs).takeWhile isBlank = [] := by
  obtain ⟨c, tail, rfl⟩ := List.exists_cons_of_ne_nil h.ne_nil
  have hc := h.isBlank_eq_false c (by simp)
  simp [hc]

theorem IsSolid.dropWhile_append (h : IsSolid solid) (cs : List Char) :
    (solid ++ cs).dropWhile isBlank = solid ++ cs := by
  obtain ⟨c, tail, rfl⟩ := List.exists_cons_of_ne_nil h.ne_nil
  have hc := h.isBlank_eq_false c (by simp)
  simp [hc]

theorem rdropWhile_append (p : Char → Bool) (cs ds : List Char) :
    (cs ++ ds).rdropWhile p =
      if ds.rdropWhile p = [] then cs.rdropWhile p else cs ++ ds.rdropWhile p := by
  simp only [List.rdropWhile, List.reverse_append, List.dropWhile_append, List.isEmpty_iff,
    List.reverse_eq_nil_iff]
  split
  · rfl
  · rw [List.reverse_append, List.reverse_reverse]

theorem IsSolid.rdropWhile_append (h : IsSolid solid) (cs : List Char) :
    (solid ++ cs).rdropWhile isBlank = solid ++ cs.rdropWhile isBlank := by
  have hself : solid.rdropWhile isBlank = solid := by
    rw [List.rdropWhile_eq_self_iff]
    intro hne
    simp [h.isBlank_eq_false _ (List.getLast_mem hne)]
  rw [Text.rdropWhile_append]
  split
  · next hnil => rw [hself, hnil, List.append_nil]
  · rfl

variable (hOld : IsSolid old) (hNew : IsSolid new) (cs : List Char)
include hOld hNew

theorem takeWhile_replaceAll :
    (replaceAll old new cs).takeWhile isBlank = cs.takeWhile isBlank := by
  induction cs using mark_induction hOld.ne_nil with
  | nil => simp
  | mark rest ih =>
      rw [replaceAll_append hOld.ne_nil, hOld.takeWhile_append, hNew.takeWhile_append]
  | cons c rest hmark ih =>
      rw [replaceAll_cons hmark, List.takeWhile_cons, List.takeWhile_cons, ih]

theorem dropWhile_replaceAll :
    (replaceAll old new cs).dropWhile isBlank =
      replaceAll old new (cs.dropWhile isBlank) := by
  induction cs using mark_induction hOld.ne_nil with
  | nil => simp
  | mark rest ih =>
      rw [hOld.dropWhile_append, replaceAll_append hOld.ne_nil, hNew.dropWhile_append]
  | cons c rest hmark ih =>
      rw [replaceAll_cons hmark, List.dropWhile_cons, List.dropWhile_cons, ih]
      split
      · rfl
      · rw [replaceAll_cons hmark]

theorem rdropWhile_replaceAll :
    (replaceAll old new cs).rdropWhile isBlank =
      replaceAll old new (cs.rdropWhile isBlank) := by
  induction cs using mark_induction hOld.ne_nil with
  | nil => simp
  | mark rest ih =>
      rw [replaceAll_append hOld.ne_nil, hOld.rdropWhile_append, hNew.rdropWhile_append,
        replaceAll_append hOld.ne_nil, ih]
  | cons c rest hmark ih =>
      have hcut {part : List Char} (hpart : part <+: rest) :
          replaceAll old new (c :: part) = c :: replaceAll old new part :=
        replaceAll_cons_of_cut hmark hpart
      have hnil : replaceAll old new (rest.rdropWhile isBlank) = [] ↔ rest.rdropWhile isBlank = [] :=
        replaceAll_eq_nil_iff hOld.ne_nil hNew.ne_nil
      rw [hcut (List.prefix_refl rest), ← List.singleton_append, ← List.singleton_append (l := rest),
        Text.rdropWhile_append, Text.rdropWhile_append, ih]
      simp only [hnil]
      split
      · rw [List.rdropWhile_singleton]
        split
        · rw [replaceAll_nil]
        · rw [hcut List.nil_prefix, replaceAll_nil]
      · rw [List.singleton_append, List.singleton_append, hcut (List.rdropWhile_prefix isBlank rest)]

theorem trim_replaceAll : trim (replaceAll old new cs) = replaceAll old new (trim cs) := by
  change ((replaceAll old new cs).dropWhile isBlank).rdropWhile isBlank = _
  rw [dropWhile_replaceAll hOld hNew, rdropWhile_replaceAll hOld hNew]
  rfl

end Blanks

end Text

namespace Sql

open TenantReports.Text

theorem scriptParts_nil : scriptParts [] = [[]] := by
  rw [scriptParts]

theorem scriptParts_cons_of_ends {c : Char} {rest : List Char}
    (h : c = ';' ∧ '\n' ∈ rest.takeWhile isBlank) :
    scriptParts (c :: rest) = [] :: scriptParts (rest.dropWhile isBlank) := by
  rw [scriptParts, if_pos h]

theorem scriptParts_ne_nil (cs : List Char) : scriptParts cs ≠ [] := by
  cases cs with
  | nil => simp [scriptParts_nil]
  | cons c rest =>
      rw [scriptParts]
      split
      · simp
      · split <;> simp

theorem scriptParts_cons {c : Char} {rest : List Char}
    (h : ¬ (c = ';' ∧ '\n' ∈ rest.takeWhile isBlank)) :
    scriptParts (c :: rest) = (scriptParts rest).modifyHead (c :: ·) := by
  rw [scriptParts, if_neg h]
  cases hparts : scriptParts rest with
  | nil => exact absurd hparts (scriptParts_ne_nil rest)
  | cons part parts => rfl

/-- The first part is where the script begins. -/
theorem prefix_of_scriptParts {cs part : List Char} {parts : List (List Char)}
    (h : scriptParts cs = part :: parts) : part <+: cs := by
  induction cs generalizing part parts with
  | nil =>
      rw [scriptParts_nil] at h
      simp_all
  | cons c rest ih =>
      by_cases hends : c = ';' ∧ '\n' ∈ rest.takeWhile isBlank
      · rw [scriptParts_cons_of_ends hends] at h
        obtain ⟨rfl, -⟩ := List.cons.inj h
        exact List.nil_prefix
      · rw [scriptParts_cons hends] at h
        cases hparts : scriptParts rest with
        | nil => exact absurd hparts (scriptParts_ne_nil rest)
        | cons first others =>
            rw [hparts] at h
            obtain ⟨rfl, -⟩ := List.cons.inj h
            exact List.cons_prefix_cons.mpr ⟨rfl, ih hparts⟩

theorem scriptParts_append {solid : List Char} (h : ∀ c ∈ solid, c ≠ ';') (cs : List Char) :
    scriptParts (solid ++ cs) = (scriptParts cs).modifyHead (solid ++ ·) := by
  induction solid with
  | nil =>
      rw [List.nil_append]
      cases scriptParts cs <;> rfl
  | cons c solid ih =>
      have hc : ¬ (c = ';' ∧ '\n' ∈ (solid ++ cs).takeWhile isBlank) :=
        fun hends => h c (by simp) hends.1
      rw [List.cons_append, scriptParts_cons hc, ih fun d hd => h d (by simp [hd]),
        List.modifyHead_modifyHead]
      rfl

section Replacing

variable {old new : List Char} (hOld : IsSolid old) (hNew : IsSolid new)
include hOld hNew

/-- The ends of statements are where they were, since marks stand for no blank and for no
semicolon, and the mark itself lies within one part. -/
theorem scriptParts_replaceAll (cs : List Char) :
    scriptParts (replaceAll old new cs) = (scriptParts cs).map (replaceAll old new) := by
  induction hn : cs.length using Nat.strong_induction_on generalizing cs with
  | _ n ih =>
      subst hn
      by_cases hmark : old <+: cs
      · obtain ⟨rest, rfl⟩ := hmark
        have hpos : 0 < old.length := List.length_pos_iff.mpr hOld.ne_nil
        have hrest := ih rest.length (by rw [List.length_append]; omega) rest rfl
        rw [replaceAll_append hOld.ne_nil, scriptParts_append hNew.ne_semicolon,
          scriptParts_append hOld.ne_semicolon, hrest]
        cases scriptParts rest with
        | nil => rfl
        | cons part parts => simp [replaceAll_append hOld.ne_nil]
      · cases cs with
        | nil => simp [scriptParts_nil]
        | cons c rest =>
            rw [replaceAll_cons hmark]
            by_cases hends : c = ';' ∧ '\n' ∈ rest.takeWhile isBlank
            · have hless := (List.dropWhile_sublist isBlank (l := rest)).length_le
              have hrest := ih (rest.dropWhile isBlank).length
                (by rw [List.length_cons]; omega) _ rfl
              have hends' : c = ';' ∧ '\n' ∈ (replaceAll old new rest).takeWhile isBlank := by
                rwa [takeWhile_replaceAll hOld hNew]
              rw [scriptParts_cons_of_ends hends', scriptParts_cons_of_ends hends,
                dropWhile_replaceAll hOld hNew, hrest]
              simp
            · have hrest := ih rest.length (by simp) rest rfl
              have hends' : ¬ (c = ';' ∧ '\n' ∈ (replaceAll old new rest).takeWhile isBlank) := by
                rwa [takeWhile_replaceAll hOld hNew]
              rw [scriptParts_cons hends', scriptParts_cons hends, hrest]
              cases hparts : scriptParts rest with
              | nil => rfl
              | cons part parts =>
                  have hpart := prefix_of_scriptParts hparts
                  simp [replaceAll_cons_of_cut hmark hpart]

theorem splitStatements_replaceAll (cs : List Char) :
    splitStatements (String.ofList (replaceAll old new cs)) =
      (splitStatements (String.ofList cs)).map fun statement =>
        String.ofList (replaceAll old new statement.toList) := by
  unfold splitStatements
  simp only [String.toList_ofList]
  rw [scriptParts_replaceAll hOld hNew]
  simp only [List.map_map, List.filter_map]
  have hkept : (fun cs : List Char => decide (cs ≠ [])) ∘ trim ∘ replaceAll old new =
      (fun cs : List Char => decide (cs ≠ [])) ∘ trim := by
    funext part
    simp [trim_replaceAll hOld hNew, replaceAll_eq_nil_iff hOld.ne_nil hNew.ne_nil]
  rw [hkept]
  apply List.map_congr_left
  intro part _
  simp [trim_replaceAll hOld hNew]

end Replacing

end Sql

end TenantReports
