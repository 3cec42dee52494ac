import Mathlib.Data.List.Chain
import Mathlib.Tactic.IntervalCases
import TenantReports.Decimal.Numeral
import TenantReports.Proofs.Decimal.Constant

/-!
The shape of written numbers: a sign, digits with a point among them, and an exponent with a sign
of its own. Whole numbers, finite floating-point numbers and numerals all have it. Whole numbers are
read back from their digits, which have no needless zeros in front.
-/

namespace TenantReports.Decimal

open TenantReports.Text

/-- Decimal digits of any script, and points. -/
def IsMantissa (cs : List Char) : Prop := cs ≠ [] ∧ ∀ c ∈ cs, isDigit c = true ∨ c = '.'

/-- Nothing, or a mark with a sign and decimal digits behind it. -/
def IsExponent (cs : List Char) : Prop :=
  cs = [] ∨ ∃ mark sign digits, cs = mark :: (sign ++ digits) ∧ (mark = 'e' ∨ mark = 'E') ∧
    IsSign sign ∧ ∀ c ∈ digits, isDigit c = true

def IsMagnitude (cs : List Char) : Prop :=
  ∃ mantissa exponent, cs = mantissa ++ exponent ∧ IsMantissa mantissa ∧ IsExponent exponent

def IsWritten (cs : List Char) : Prop :=
  ∃ sign magnitude, cs = sign ++ magnitude ∧ IsSign sign ∧ IsMagnitude magnitude

/-- Of two neighbours at most one is a minus sign. -/
def LoneMinus (a b : Char) : Prop := a ≠ '-' ∨ b ≠ '-'

section Digits

theorem isDigit_of_isDigit_ascii {c : Char} (h : c.isDigit = true) : isDigit c = true := by
  have hrange : 0x30 ≤ c.toNat ∧ c.toNat ≤ 0x30 + 9 := by
    simpa [Char.isDigit, UInt32.le_iff_toNat_le] using h
  unfold isDigit digit? digitZeros
  rw [List.findSome?_cons, if_pos hrange]
  rfl

theorem isBlank_of_isDigit {c : Char} (h : isDigit c = true) : isBlank c = false := by
  have hapart : ∀ start ∈ digitZeros, ∀ range ∈ blankRanges,
      start + 9 < range.1 ∨ range.2 < start := by decide
  unfold isDigit digit? at h
  rw [Option.isSome_iff_exists] at h
  obtain ⟨_, h⟩ := h
  obtain ⟨start, hstart, h⟩ := List.exists_of_findSome?_eq_some h
  rw [Bool.eq_false_iff]
  intro hblank
  obtain ⟨range, hrange, hlow, hhigh⟩ := Ranges.has_iff.mp hblank
  split at h
  · have := hapart start hstart range hrange
    omega
  · cases h

end Digits

section Shapes

theorem IsPointed.isMantissa {cs : List Char} (h : IsPointed isDigit cs) : IsMantissa cs := by
  refine ⟨?_, fun c => h.digit_or_mark⟩
  obtain ⟨whole, fraction, hsome, -, rfl | rfl⟩ := h
  · exact hsome
  · simp

theorem IsPower.isExponent {cs : List Char} (h : IsPower isDigit cs) : IsExponent cs := by
  rcases h with rfl | ⟨mark, sign, digits, rfl, hmark, hsign, -, hdigits⟩
  · exact Or.inl rfl
  · exact Or.inr ⟨mark, sign, digits, rfl, hmark, hsign, hdigits⟩

theorem IsConstant.isWritten {cs : List Char} (h : IsConstant isDigit cs) : IsWritten cs := by
  obtain ⟨sign, mantissa, power, rfl, hsign, hmantissa, hpower⟩ := h
  exact ⟨sign, _, rfl, hsign, mantissa, power, rfl, hmantissa.isMantissa, hpower.isExponent⟩

theorem IsSigned.isWritten {cs : List Char} (h : IsSigned cs) : IsWritten cs :=
  (h.isConstant.restrict fun _ _ => isDigit_of_isDigit_ascii).isWritten

end Shapes

section Characters

theorem IsExponent.isDigit_or_mem {cs : List Char} (h : IsExponent cs) {c : Char} (hc : c ∈ cs) :
    isDigit c = true ∨ c ∈ numberMarks := by
  rcases h with rfl | ⟨mark, sign, digits, rfl, hmark, hsign, hdigits⟩
  · cases hc
  · rcases List.mem_cons.mp hc with rfl | hc
    · right
      rcases hmark with rfl | rfl
      · decide
      · decide
    · rcases List.mem_append.mp hc with hc | hc
      · exact Or.inr (hsign.mem_numberMarks hc)
      · exact Or.inl (hdigits c hc)

theorem IsMantissa.isDigit_or_mem {cs : List Char} (h : IsMantissa cs) {c : Char} (hc : c ∈ cs) :
    isDigit c = true ∨ c ∈ numberMarks := by
  rcases h.2 c hc with hdigit | rfl
  · exact Or.inl hdigit
  · exact Or.inr (by decide)

theorem IsWritten.isDigit_or_mem {cs : List Char} (h : IsWritten cs) {c : Char} (hc : c ∈ cs) :
    isDigit c = true ∨ c ∈ numberMarks := by
  obtain ⟨sign, _, rfl, hsign, mantissa, exponent, rfl, hmantissa, hexponent⟩ := h
  rcases List.mem_append.mp hc with hc | hc
  · exact Or.inr (hsign.mem_numberMarks hc)
  · rcases List.mem_append.mp hc with hc | hc
    · exact hmantissa.isDigit_or_mem hc
    · exact hexponent.isDigit_or_mem hc

theorem IsWritten.ne_nil {cs : List Char} (h : IsWritten cs) : cs ≠ [] := by
  obtain ⟨sign, _, rfl, -, mantissa, exponent, rfl, hmantissa, -⟩ := h
  have := hmantissa.1
  simp [this]

theorem isDigit_minus : isDigit '-' = false := by decide

theorem isDigit_quote : isDigit '\'' = false := by decide

theorem IsWritten.quote_not_mem {cs : List Char} (h : IsWritten cs) : '\'' ∉ cs := by
  intro hc
  rcases h.isDigit_or_mem hc with hdigit | hmark
  · rw [isDigit_quote] at hdigit
    cases hdigit
  · exact absurd hmark (by decide)

theorem IsWritten.isBlank_eq_false {cs : List Char} (h : IsWritten cs) {c : Char} (hc : c ∈ cs) :
    isBlank c = false := by
  have hmarks : numberMarks.all (fun c => !isBlank c) = true := by decide
  rcases h.isDigit_or_mem hc with hdigit | hmark
  · exact isBlank_of_isDigit hdigit
  · simpa using List.all_eq_true.mp hmarks c hmark

theorem dropWhile_of_forall {p : Char → Bool} {cs : List Char} (h : ∀ c ∈ cs, p c = false) :
    cs.dropWhile p = cs := by
  cases cs with
  | nil => rfl
  | cons c cs => rw [List.dropWhile_cons_of_neg (by simp [h c List.mem_cons_self])]

theorem IsWritten.trim_eq {cs : List Char} (h : IsWritten cs) : trim cs = cs := by
  unfold trim
  rw [dropWhile_of_forall fun _ => h.isBlank_eq_false, dropWhile_of_forall, List.reverse_reverse]
  intro c hc
  exact h.isBlank_eq_false (List.mem_reverse.mp hc)

theorem isChain_of_not_mem {cs : List Char} (h : '-' ∉ cs) : cs.IsChain LoneMinus := by
  induction cs with
  | nil => exact List.IsChain.nil
  | cons c cs ih =>
      rw [List.isChain_cons]
      refine ⟨fun _ _ => Or.inl ?_, ih fun hmem => h (List.mem_cons_of_mem c hmem)⟩
      rintro rfl
      exact h List.mem_cons_self

theorem IsSign.isChain_append {sign cs : List Char} (hsign : IsSign sign) (h : '-' ∉ cs) :
    (sign ++ cs).IsChain LoneMinus := by
  rcases hsign with rfl | rfl | rfl
  · exact isChain_of_not_mem h
  · refine List.isChain_cons.mpr ⟨?_, isChain_of_not_mem h⟩
    rintro c hc
    refine Or.inr ?_
    rintro rfl
    exact h (List.mem_of_mem_head? hc)
  · refine isChain_of_not_mem fun hmem => ?_
    rcases List.mem_cons.mp hmem with heq | hmem
    · exact absurd heq (by decide)
    · exact h hmem

theorem minus_not_mem_of_digits {cs : List Char} (h : ∀ c ∈ cs, isDigit c = true) :
    '-' ∉ cs := by
  intro hmem
  have := h _ hmem
  rw [isDigit_minus] at this
  cases this

theorem IsMantissa.minus_not_mem {cs : List Char} (h : IsMantissa cs) : '-' ∉ cs := by
  intro hmem
  rcases h.2 _ hmem with hdigit | heq
  · rw [isDigit_minus] at hdigit
    cases hdigit
  · exact absurd heq (by decide)

/-- A mark stands between a mantissa and the sign of its exponent. -/
theorem IsWritten.isChain {cs : List Char} (h : IsWritten cs) : cs.IsChain LoneMinus := by
  obtain ⟨sign, _, rfl, hsign, mantissa, exponent, rfl, hmantissa, hexponent⟩ := h
  rw [← List.append_assoc, List.isChain_append]
  refine ⟨hsign.isChain_append hmantissa.minus_not_mem, ?_, ?_⟩
  · rcases hexponent with rfl | ⟨mark, sign', digits, rfl, hmark, hsign', hdigits⟩
    · exact List.IsChain.nil
    · refine List.isChain_cons.mpr ⟨fun _ _ => Or.inl ?_,
        hsign'.isChain_append (minus_not_mem_of_digits hdigits)⟩
      rcases hmark with rfl | rfl
      · decide
      · decide
  · intro last hlast _ _
    left
    rintro rfl
    rw [List.getLast?_append_of_ne_nil _ hmantissa.1] at hlast
    exact hmantissa.minus_not_mem (List.mem_of_getLast? hlast)

theorem IsWritten.no_comment {cs : List Char} (h : IsWritten cs) : ¬ ['-', '-'] <:+: cs := by
  intro hinfix
  have hpair := h.isChain.infix hinfix
  rw [List.isChain_pair] at hpair
  rcases hpair with hne | hne
  · exact hne rfl
  · exact hne rfl

end Characters

/-! Digits read back -/

theorem digit?_of_isDigit {c : Char} (h : c.isDigit = true) :
    digit? c = some (c.toNat - '0'.toNat) := by
  have hrange : 0x30 ≤ c.toNat ∧ c.toNat ≤ 0x30 + 9 := by
    simpa [Char.isDigit, UInt32.le_iff_toNat_le] using h
  unfold digit? digitZeros
  rw [List.findSome?_cons, if_pos hrange]
  rfl

theorem digitsValue_eq_ofDigitChars {cs : List Char} (h : ∀ c ∈ cs, c.isDigit = true) :
    digitsValue cs = Nat.ofDigitChars 10 cs 0 := by
  unfold digitsValue Nat.ofDigitChars
  refine List.foldl_ext _ _ _ fun value c hc => ?_
  rw [digit?_of_isDigit (h c hc), Nat.mul_comm]
  rfl

theorem digitsValue_natDigits (n : Nat) : digitsValue (natDigits n) = n := by
  rw [digitsValue_eq_ofDigitChars fun c => isDigit_of_mem_toDigits]
  exact Nat.ofDigitChars_ten_toDigits

/-- Only zero begins with a zero. -/
theorem exists_natDigits_eq_cons {n : Nat} (h : n ≠ 0) :
    ∃ c cs, natDigits n = c :: cs ∧ c ≠ '0' := by
  induction n using Nat.strongRecOn with
  | ind n ih =>
      by_cases hsmall : n < 10
      · refine ⟨n.digitChar, [], Nat.toDigits_of_lt_base hsmall, ?_⟩
        interval_cases n
        · exact absurd rfl h
        all_goals decide
      · have hlarge : natDigits n = natDigits (n / 10) ++ [(n % 10).digitChar] :=
          Nat.toDigits_of_base_le (by decide) (Nat.le_of_not_lt hsmall)
        obtain ⟨c, cs, hcs, hc⟩ := ih (n / 10) (by omega) (by omega)
        exact ⟨c, _, by rw [hlarge, hcs, List.cons_append], hc⟩

theorem splitSign_minus (cs : List Char) : splitSign ('-' :: cs) = (true, cs) := by
  rw [splitSign]

theorem splitSign_natDigits (n : Nat) : splitSign (natDigits n) = (false, natDigits n) := by
  obtain ⟨hne, hall⟩ := isWhole_natDigits n
  unfold splitSign
  split
  · next hcs => exact absurd (hall '-' (hcs ▸ List.mem_cons_self)) (by decide)
  · next hcs => exact absurd (hall '+' (hcs ▸ List.mem_cons_self)) (by decide)
  · rfl

/-- A whole number is read back from its digits. -/
theorem signedDigits?_intDigits (n : Int) : signedDigits? (intDigits n) = some n := by
  have hdigits : natDigits n.natAbs ≠ [] ∧ (natDigits n.natAbs).all isDigit = true :=
    ⟨(isWhole_natDigits _).1, List.all_eq_true.mpr fun _ hc =>
      isDigit_of_isDigit_ascii (isDigit_of_mem_toDigits hc)⟩
  unfold intDigits
  split
  · next hneg =>
      unfold signedDigits?
      rw [splitSign_minus]
      dsimp only
      rw [if_pos hdigits, if_pos rfl, digitsValue_natDigits]
      exact congrArg some (by omega)
  · next hnonneg =>
      unfold signedDigits?
      rw [splitSign_natDigits]
      dsimp only
      rw [if_pos hdigits, if_neg (by decide), digitsValue_natDigits]
      exact congrArg some (by omega)

end TenantReports.Decimal
