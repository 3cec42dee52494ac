import Mathlib.Data.Nat.Basic
import Mathlib.Tactic.IntervalCases
import TenantReports.Uuid

/-!
Identifiers are told apart by their texts, which hold nothing but digits and hyphens.
-/

namespace TenantReports

namespace Text

/-- A digit is read as what it was written for. -/
theorem hexValue?_hexDigit {n : Nat} (h : n < 16) : hexValue? (hexDigit n) = some n := by
  interval_cases n <;> rfl

theorem length_hexPadded (width n : Nat) : (hexPadded width n).length = width := by
  induction width generalizing n with
  | zero => rfl
  | succ width ih =>
      unfold hexPadded
      rw [List.length_append, ih]
      rfl

/-- The last digits of a number are read as its remainder. -/
theorem hexNumber?_hexPadded (width n : Nat) :
    hexNumber? (hexPadded width n) = some (n % 16 ^ width) := by
  induction width generalizing n with
  | zero =>
      rw [pow_zero, Nat.mod_one]
      rfl
  | succ width ih =>
      have hlead : hexNumber? (hexPadded width (n / 16)) = some (n / 16 % 16 ^ width) := ih _
      have hlast : hexValue? (hexDigit (n % 16)) = some (n % 16) :=
        hexValue?_hexDigit (Nat.mod_lt _ (by decide))
      unfold hexNumber? at hlead ⊢
      unfold hexPadded
      rw [List.foldlM_append, hlead]
      change (hexValue? (hexDigit (n % 16))).map _ >>= pure = _
      rw [hlast, pow_succ', Nat.mod_mul]
      simp [Nat.add_comm, Nat.mul_comm]

theorem hexPadded_inj {width m n : Nat} (h : hexPadded width m = hexPadded width n) :
    m % 16 ^ width = n % 16 ^ width := by
  have hnumber := congrArg hexNumber? h
  rw [hexNumber?_hexPadded, hexNumber?_hexPadded] at hnumber
  exact Option.some.inj hnumber

theorem isSome_hexValue?_of_mem {width n : Nat} {c : Char} (h : c ∈ hexPadded width n) :
    (hexValue? c).isSome = true := by
  induction width generalizing n with
  | zero => cases h
  | succ width ih =>
      rcases List.mem_append.mp h with hlead | hlast
      · exact ih hlead
      · rw [List.mem_singleton.mp hlast, hexValue?_hexDigit (Nat.mod_lt _ (by decide))]
        rfl

end Text

namespace Uuid

open Text

/-- No digit of the first group is lost. -/
theorem lt_leadingWidth (id : Uuid) : id.value / Decimal.twoTo 96 < 16 ^ id.leadingWidth := by
  unfold leadingWidth
  generalize id.value / Decimal.twoTo 96 = n
  calc n < 2 ^ (n.log2 + 1) := Nat.lt_log2_self
    _ ≤ 2 ^ (4 * max 8 (n.log2 / 4 + 1)) := Nat.pow_le_pow_right (by decide) (by omega)
    _ = 16 ^ max 8 (n.log2 / 4 + 1) := Nat.pow_mul 2 4 _

theorem toChars_injective : Function.Injective toChars := by
  intro a b h
  have hlength (n m : Nat) : ∀ width, ('-' :: hexPadded width n).length =
      ('-' :: hexPadded width m).length := fun width => by
    rw [List.length_cons, List.length_cons, length_hexPadded, length_hexPadded]
  unfold toChars at h
  obtain ⟨h, hlast⟩ := List.append_inj' h (hlength _ _ 12)
  obtain ⟨h, hfourth⟩ := List.append_inj' h (hlength _ _ 4)
  obtain ⟨h, hthird⟩ := List.append_inj' h (hlength _ _ 4)
  obtain ⟨hfirst, hsecond⟩ := List.append_inj' h (hlength _ _ 4)
  have hleading := congrArg hexNumber? hfirst
  rw [hexNumber?_hexPadded, hexNumber?_hexPadded, Nat.mod_eq_of_lt a.lt_leadingWidth,
    Nat.mod_eq_of_lt b.lt_leadingWidth] at hleading
  have hleading := Option.some.inj hleading
  have hsecond := hexPadded_inj (List.cons.inj hsecond).2
  have hthird := hexPadded_inj (List.cons.inj hthird).2
  have hfourth := hexPadded_inj (List.cons.inj hfourth).2
  have hlast := hexPadded_inj (List.cons.inj hlast).2
  have hvalue : a.value = b.value := by
    simp only [Decimal.twoTo, Nat.pow_eq, Nat.reducePow] at hleading hsecond hthird hfourth hlast
    omega
  cases a
  cases b
  exact congrArg mk hvalue

theorem toText_injective : Function.Injective toText := fun _ _ h =>
  toChars_injective (String.ofList_injective h)

/-- A text of an identifier holds hyphens and digits. -/
theorem not_mem_toChars {c : Char} (hhyphen : c ≠ '-') (hdigit : hexValue? c = none) (id : Uuid) :
    c ∉ id.toChars := by
  have hpadded : ∀ width n, c ∉ hexPadded width n := fun width n hmem => by
    have hsome := isSome_hexValue?_of_mem hmem
    rw [hdigit] at hsome
    cases hsome
  unfold toChars
  simp only [List.mem_append, List.mem_cons, hpadded, hhyphen, or_self, not_false_eq_true]

end Uuid

end TenantReports
