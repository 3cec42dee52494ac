import Mathlib.Data.List.TakeWhile
import TenantReports.Decimal.Numeral
import TenantReports.Proofs.Decimal.Unsigned

/-!
Numeric constants: a sign, digits with at most one point among them, and an exponent. Which
characters are digits is left open. Numerals are constants over the digits of all scripts, numbers
that are written by themselves over those of ASCII.
-/

namespace TenantReports.Decimal

open TenantReports.Text

def IsSign (cs : List Char) : Prop := cs = [] ∨ cs = ['-'] ∨ cs = ['+']

section Grammar

variable (isDigit : Char → Bool)

/-- Digits with at most one point among them, one digit at least. -/
def IsPointed (cs : List Char) : Prop :=
  ∃ whole fraction, whole ++ fraction ≠ [] ∧ (∀ c ∈ whole ++ fraction, isDigit c = true) ∧
    (cs = whole ++ fraction ∨ cs = whole ++ '.' :: fraction)

/-- Nothing, or a mark, a sign, and one digit or more. -/
def IsPower (cs : List Char) : Prop :=
  cs = [] ∨ ∃ mark sign digits, cs = mark :: (sign ++ digits) ∧ (mark = 'e' ∨ mark = 'E') ∧
    IsSign sign ∧ digits ≠ [] ∧ ∀ c ∈ digits, isDigit c = true

def IsConstant (cs : List Char) : Prop :=
  ∃ sign mantissa power, cs = sign ++ (mantissa ++ power) ∧ IsSign sign ∧
    IsPointed isDigit mantissa ∧ IsPower isDigit power

end Grammar

/-! Other digits -/

section Digits

variable {p q : Char → Bool} {cs : List Char}

theorem IsPointed.restrict (h : IsPointed p cs) (hq : ∀ c ∈ cs, p c = true → q c = true) :
    IsPointed q cs := by
  obtain ⟨whole, fraction, hsome, hdigits, hcs⟩ := h
  have hsubset : whole ++ fraction ⊆ cs := by
    rcases hcs with rfl | rfl
    · exact List.Subset.refl _
    · exact ((List.Sublist.refl whole).append (List.sublist_cons_self _ _)).subset
  exact ⟨whole, fraction, hsome, fun c hc => hq c (hsubset hc) (hdigits c hc), hcs⟩

theorem IsPower.restrict (h : IsPower p cs) (hq : ∀ c ∈ cs, p c = true → q c = true) :
    IsPower q cs := by
  rcases h with rfl | ⟨mark, sign, digits, rfl, hmark, hsign, hsome, hdigits⟩
  · exact .inl rfl
  · refine .inr ⟨mark, sign, digits, rfl, hmark, hsign, hsome, fun c hc => ?_⟩
    exact hq c (List.mem_cons_of_mem _ (List.mem_append_right _ hc)) (hdigits c hc)

/-- A constant is one over all digits that stand in it. -/
theorem IsConstant.restrict (h : IsConstant p cs) (hq : ∀ c ∈ cs, p c = true → q c = true) :
    IsConstant q cs := by
  obtain ⟨sign, mantissa, power, rfl, hsign, hmantissa, hpower⟩ := h
  refine ⟨sign, mantissa, power, rfl, hsign, hmantissa.restrict fun c hc => ?_,
    hpower.restrict fun c hc => ?_⟩
  · exact hq c (List.mem_append_right _ (List.mem_append_left _ hc))
  · exact hq c (List.mem_append_right _ (List.mem_append_right _ hc))

/-- The characters of numeric constants, digits aside. -/
def numberMarks : List Char := ['+', '-', '.', 'e', 'E']

theorem IsSign.mem_numberMarks (h : IsSign cs) {c : Char} (hc : c ∈ cs) : c ∈ numberMarks := by
  rcases h with rfl | rfl | rfl
  · cases hc
  · rw [List.mem_singleton.mp hc]
    decide
  · rw [List.mem_singleton.mp hc]
    decide

theorem IsPointed.digit_or_mark (h : IsPointed p cs) {c : Char} (hc : c ∈ cs) :
    p c = true ∨ c = '.' := by
  obtain ⟨whole, fraction, -, hdigits, rfl | rfl⟩ := h
  · exact .inl (hdigits c hc)
  · rcases List.mem_append.mp hc with hc | hc
    · exact .inl (hdigits c (List.mem_append_left _ hc))
    · rcases List.mem_cons.mp hc with rfl | hc
      · exact .inr rfl
      · exact .inl (hdigits c (List.mem_append_right _ hc))

theorem IsPower.digit_or_mark (h : IsPower p cs) {c : Char} (hc : c ∈ cs) :
    p c = true ∨ c ∈ numberMarks := by
  rcases h with rfl | ⟨mark, sign, digits, rfl, hmark, hsign, -, hdigits⟩
  · cases hc
  · rcases List.mem_cons.mp hc with rfl | hc
    · rcases hmark with rfl | rfl
      · exact .inr (by decide)
      · exact .inr (by decide)
    · rcases List.mem_append.mp hc with hc | hc
      · exact .inr (hsign.mem_numberMarks hc)
      · exact .inl (hdigits c hc)

theorem IsConstant.digit_or_mark (h : IsConstant p cs) {c : Char} (hc : c ∈ cs) :
    p c = true ∨ c ∈ numberMarks := by
  obtain ⟨sign, mantissa, power, rfl, hsign, hmantissa, hpower⟩ := h
  rcases List.mem_append.mp hc with hc | hc
  · exact .inr (hsign.mem_numberMarks hc)
  · rcases List.mem_append.mp hc with hc | hc
    · rcases hmantissa.digit_or_mark hc with hdigit | rfl
      · exact .inl hdigit
      · exact .inr (by decide)
    · exact hpower.digit_or_mark hc

end Digits

/-! Numerals -/

section Numerals

variable {cs : List Char}

theorem splitSign_eq (cs : List Char) : ∃ sign, IsSign sign ∧ cs = sign ++ (splitSign cs).2 := by
  unfold splitSign
  split
  · exact ⟨['-'], .inr (.inl rfl), rfl⟩
  · exact ⟨['+'], .inr (.inr rfl), rfl⟩
  · exact ⟨[], .inl rfl, rfl⟩

theorem isPower_of_exponentPart? {exponent : Int} (h : exponentPart? cs = some exponent) :
    IsPower isDigit cs := by
  cases cs with
  | nil => exact .inl rfl
  | cons mark rest =>
      rw [exponentPart?] at h
      split at h
      · next hmark =>
          unfold signedDigits? at h
          dsimp only at h
          split at h
          · next hdigits =>
              obtain ⟨sign, hsign, hrest⟩ := splitSign_eq rest
              refine .inr ⟨mark, sign, (splitSign rest).2, ?_, hmark, hsign, hdigits.1,
                List.all_eq_true.mp hdigits.2⟩
              rw [← hrest]
          · cases h
      · cases h

theorem isPointed_of_splitMagnitude {whole fraction rest : List Char}
    (h : Numeral.splitMagnitude cs = some (whole, fraction, rest)) :
    ∃ mantissa, cs = mantissa ++ rest ∧ IsPointed isDigit mantissa := by
  have hcs : cs = cs.takeWhile isDigit ++ cs.dropWhile isDigit :=
    List.takeWhile_append_dropWhile.symm
  have hwhole : ∀ c ∈ cs.takeWhile isDigit, isDigit c = true := fun _ => List.mem_takeWhile_imp
  unfold Numeral.splitMagnitude at h
  dsimp only at h
  split at h
  · next behind hbehind =>
      split at h
      · cases h
      · next hsome =>
          cases h
          refine ⟨cs.takeWhile isDigit ++ '.' :: behind.takeWhile isDigit, ?_, _, _, ?_, ?_,
            .inr rfl⟩
          · rw [List.append_assoc, List.cons_append, List.takeWhile_append_dropWhile, ← hbehind]
            exact hcs
          · rwa [Ne, List.append_eq_nil_iff]
          · intro c hc
            rcases List.mem_append.mp hc with hc | hc
            · exact hwhole c hc
            · exact List.mem_takeWhile_imp hc
  · split at h
    · cases h
    · next hsome =>
        cases h
        refine ⟨cs.takeWhile isDigit, hcs, cs.takeWhile isDigit, [], ?_, ?_, .inl ?_⟩
        · rwa [List.append_nil]
        · rwa [List.append_nil]
        · rw [List.append_nil]

theorem isConstant_of_ofChars? {numeral : Numeral} (h : Numeral.ofChars? cs = some numeral) :
    IsConstant isDigit cs := by
  unfold Numeral.ofChars? at h
  obtain ⟨⟨whole, fraction, rest⟩, hmagnitude, h⟩ := Option.bind_eq_some_iff.mp h
  obtain ⟨exponent, hexponent, -⟩ := Option.bind_eq_some_iff.mp h
  obtain ⟨sign, hsign, hcs⟩ := splitSign_eq cs
  obtain ⟨mantissa, hunsigned, hmantissa⟩ := isPointed_of_splitMagnitude hmagnitude
  exact ⟨sign, mantissa, rest, hcs.trans (congrArg (sign ++ ·) hunsigned), hsign, hmantissa,
    isPower_of_exponentPart? hexponent⟩

end Numerals

/-! Numbers that are written by themselves -/

section Written

variable {cs : List Char}

theorem IsWhole.isPointed {whole fraction : List Char} (h : IsWhole whole)
    (hfraction : IsFraction fraction) : IsPointed Char.isDigit (whole ++ fraction) := by
  rcases hfraction with rfl | ⟨digits, rfl, hdigits⟩
  · refine ⟨whole, [], ?_, ?_, .inl rfl⟩
    · rw [List.append_nil]
      exact h.1
    · rw [List.append_nil]
      exact h.2
  · refine ⟨whole, digits, fun hnil => h.1 (List.append_eq_nil_iff.mp hnil).1, fun c hc => ?_,
      .inr rfl⟩
    exact (List.mem_append.mp hc).elim (h.2 c) (hdigits c)

theorem IsScale.isPower (h : IsScale cs) : IsPower Char.isDigit cs := by
  rcases h with rfl | ⟨mark, sign, digits, rfl, hmark, hsign, hdigits⟩
  · exact .inl rfl
  · refine .inr ⟨mark, [sign], digits, rfl, hmark, ?_, hdigits.1, hdigits.2⟩
    rcases hsign with rfl | rfl
    · exact .inr (.inl rfl)
    · exact .inr (.inr rfl)

theorem IsUnsigned.isConstant {sign : List Char} (h : IsUnsigned cs) (hsign : IsSign sign) :
    IsConstant Char.isDigit (sign ++ cs) := by
  obtain ⟨whole, fraction, scale, rfl, hwhole, hfraction, hscale⟩ := h
  refine ⟨sign, whole ++ fraction, scale, ?_, hsign, hwhole.isPointed hfraction, hscale.isPower⟩
  rw [List.append_assoc]

theorem IsSigned.isConstant (h : IsSigned cs) : IsConstant Char.isDigit cs := by
  rcases h with h | ⟨unsigned, rfl, h⟩
  · exact h.isConstant (.inl rfl)
  · exact h.isConstant (.inr (.inl rfl))

end Written

end TenantReports.Decimal
