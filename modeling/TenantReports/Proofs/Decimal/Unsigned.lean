import TenantReports.Decimal.FloatText
import TenantReports.Decimal.Numeric
import Mathlib.Data.List.Basic

/-!
How numbers are written by themselves: in ASCII digits, with at most one point, which stands behind
a digit, and with at most one exponent, which has a sign and digits.
-/

namespace TenantReports.Decimal

/-- One digit or more. -/
def IsWhole (cs : List Char) : Prop := cs ≠ [] ∧ ∀ c ∈ cs, c.isDigit = true

def IsFraction (cs : List Char) : Prop :=
  cs = [] ∨ ∃ digits, cs = '.' :: digits ∧ ∀ c ∈ digits, c.isDigit = true

def IsScale (cs : List Char) : Prop :=
  cs = [] ∨ ∃ mark sign digits, cs = mark :: sign :: digits ∧ (mark = 'e' ∨ mark = 'E') ∧
    (sign = '-' ∨ sign = '+') ∧ IsWhole digits

/-- A number that is written without a sign. -/
def IsUnsigned (cs : List Char) : Prop :=
  ∃ whole fraction scale, cs = whole ++ (fraction ++ scale) ∧ IsWhole whole ∧
    IsFraction fraction ∧ IsScale scale

/-- A number that is written without a sign or with a minus sign. -/
def IsSigned (cs : List Char) : Prop :=
  IsUnsigned cs ∨ ∃ unsigned, cs = '-' :: unsigned ∧ IsUnsigned unsigned

theorem isDigit_of_mem_toDigits {n : Nat} {c : Char} (h : c ∈ natDigits n) : c.isDigit = true :=
  Nat.isDigit_of_mem_toDigits (by decide) (by decide) h

theorem isWhole_natDigits (n : Nat) : IsWhole (natDigits n) :=
  ⟨Nat.toDigits_ne_nil, fun _ => isDigit_of_mem_toDigits⟩

theorem isDigit_of_mem_zeros {n : Nat} {c : Char} (h : c ∈ List.replicate n '0') :
    c.isDigit = true := by
  rw [List.eq_of_mem_replicate h]
  decide

theorem isWhole_padded (width n : Nat) : IsWhole (padded width n) := by
  refine ⟨fun h => ?_, fun c hc => ?_⟩
  · exact (isWhole_natDigits n).1 (List.append_eq_nil_iff.mp h).2
  · rcases List.mem_append.mp hc with hc | hc
    · exact isDigit_of_mem_zeros hc
    · exact isDigit_of_mem_toDigits hc

theorem isWhole_zero : IsWhole ['0'] :=
  ⟨List.cons_ne_nil _ _, List.forall_mem_singleton.mpr rfl⟩

theorem isWhole_dropTrailingZeros {digits : List Char} (h : ∀ c ∈ digits, c.isDigit = true) :
    IsWhole (dropTrailingZeros digits) := by
  unfold dropTrailingZeros
  split
  · exact isWhole_zero
  · next hne =>
      refine ⟨fun hnil => hne hnil, fun c hc => ?_⟩
      rw [List.mem_reverse] at hc
      exact h c (List.mem_reverse.mp ((List.dropWhile_sublist _).subset hc))

section Shapes

variable {digits : List Char}

theorem IsWhole.isUnsigned (h : IsWhole digits) : IsUnsigned digits :=
  ⟨digits, [], [], by simp, h, .inl rfl, .inl rfl⟩

/-- Digits, a point behind them, and more digits. -/
theorem IsWhole.isUnsigned_point {behind : List Char} (h : IsWhole digits)
    (hbehind : ∀ c ∈ behind, c.isDigit = true) : IsUnsigned (digits ++ '.' :: behind) :=
  ⟨digits, '.' :: behind, [], by simp, h, .inr ⟨behind, rfl, hbehind⟩, .inl rfl⟩

theorem IsWhole.take (h : IsWhole digits) {n : Nat} (hn : 0 < n) : IsWhole (digits.take n) := by
  refine ⟨fun hnil => ?_, fun c hc => h.2 c (List.mem_of_mem_take hc)⟩
  rcases List.take_eq_nil_iff.mp hnil with hzero | hempty
  · omega
  · exact h.1 hempty

theorem isDigit_zeros_append {n : Nat} (h : ∀ c ∈ digits, c.isDigit = true) :
    ∀ c ∈ List.replicate n '0' ++ digits, c.isDigit = true := by
  intro c hc
  rcases List.mem_append.mp hc with hc | hc
  · exact isDigit_of_mem_zeros hc
  · exact h c hc

theorem isUnsigned_belowOne (n : Nat) (h : ∀ c ∈ digits, c.isDigit = true) :
    IsUnsigned ('0' :: '.' :: (List.replicate n '0' ++ digits)) :=
  isWhole_zero.isUnsigned_point (isDigit_zeros_append h)

theorem isUnsigned_positional (point : Int) (h : IsWhole digits) :
    IsUnsigned (positional digits point) := by
  unfold positional
  split
  · exact isUnsigned_belowOne _ h.2
  · next hpoint =>
      have htake : IsWhole (digits.take point.toNat) := h.take (by omega)
      refine IsWhole.isUnsigned_point ⟨?_, fun c hc => ?_⟩ fun c hc => ?_
      · exact fun hnil => htake.1 (List.append_eq_nil_iff.mp hnil).1
      · rcases List.mem_append.mp hc with hc | hc
        · exact htake.2 c hc
        · exact isDigit_of_mem_zeros hc
      · split at hc
        · rw [List.mem_singleton.mp hc]
          decide
        · exact h.2 c (List.mem_of_mem_drop hc)

/-- One digit, the others behind a point, and an exponent. -/
theorem isUnsigned_scale {mark sign : Char} {power : List Char} (hmark : mark = 'e' ∨ mark = 'E')
    (hsign : sign = '-' ∨ sign = '+') (hpower : IsWhole power) :
    IsWhole digits → IsUnsigned ((match digits with
      | [] => ['0']
      | [d] => [d]
      | d :: rest => d :: '.' :: rest) ++ mark :: sign :: power) := by
  intro h
  have hscale : IsScale (mark :: sign :: power) :=
    .inr ⟨mark, sign, power, rfl, hmark, hsign, hpower⟩
  cases digits with
  | nil => exact absurd rfl h.1
  | cons d rest =>
      have hfirst : IsWhole [d] :=
        ⟨List.cons_ne_nil _ _, fun c hc => h.2 c (List.mem_singleton.mp hc ▸ List.mem_cons_self)⟩
      cases rest with
      | nil => exact ⟨[d], [], _, rfl, hfirst, .inl rfl, hscale⟩
      | cons d' rest =>
          refine ⟨[d], '.' :: d' :: rest, _, rfl, hfirst, .inr ⟨_, rfl, fun c hc => ?_⟩, hscale⟩
          exact h.2 c (List.mem_cons_of_mem d hc)

theorem sign_cases (n : Int) :
    (if n < 0 then '-' else '+') = '-' ∨ (if n < 0 then '-' else '+') = '+' :=
  (ite_eq_or_eq _ _ _)

theorem isUnsigned_magnitudeText (style : FloatStyle) (bits : Nat) (b : Binary) :
    IsUnsigned (magnitudeText style bits b) := by
  unfold magnitudeText
  split
  · exact isWhole_zero.isUnsigned_point isWhole_zero.2
  · have hkept : IsWhole (dropTrailingZeros (natDigits (shortest bits b.ratio.1 b.ratio.2).1)) :=
      isWhole_dropTrailingZeros fun _ => isDigit_of_mem_toDigits
    dsimp only
    split
    · exact isUnsigned_positional _ hkept
    · exact isUnsigned_scale (.inl rfl) (sign_cases _) (isWhole_padded _ _) hkept

theorem isUnsigned_magnitudeChars (coefficient : Nat) (exponent : Int) :
    IsUnsigned (Numeric.magnitudeChars coefficient exponent) := by
  have hdigits := isWhole_natDigits coefficient
  unfold Numeric.magnitudeChars
  dsimp only
  split
  · split
    · exact hdigits.isUnsigned
    · split
      · exact isUnsigned_belowOne _ hdigits.2
      · next hpoint =>
          exact (hdigits.take (by omega)).isUnsigned_point
            fun c hc => hdigits.2 c (List.mem_of_mem_drop hc)
  · exact isUnsigned_scale (.inr rfl) (sign_cases _) (isWhole_natDigits _) hdigits

end Shapes

theorem IsUnsigned.first {cs : List Char} (h : IsUnsigned cs) :
    ∃ c rest, cs = c :: rest ∧ c.isDigit = true := by
  obtain ⟨whole, fraction, scale, rfl, hwhole, -⟩ := h
  cases whole with
  | nil => exact absurd rfl hwhole.1
  | cons c whole => exact ⟨c, _, rfl, hwhole.2 c List.mem_cons_self⟩

/-! Numbers with their signs -/

theorem IsUnsigned.isSigned_if {cs : List Char} (h : IsUnsigned cs) {p : Prop} [Decidable p] :
    IsSigned (if p then '-' :: cs else cs) := by
  split
  · exact .inr ⟨cs, rfl, h⟩
  · exact .inl h

theorem isSigned_intDigits (n : Int) : IsSigned (intDigits n) :=
  (isWhole_natDigits n.natAbs).isUnsigned.isSigned_if

theorem isSigned_floatChars (style : FloatStyle) {x : Float}
    (h : (Binary.ofFloat? x).isSome = true) : IsSigned (floatChars style x) := by
  obtain ⟨b, hb⟩ := Option.isSome_iff_exists.mp h
  unfold Binary.ofFloat? at hb
  unfold floatChars
  dsimp only
  rw [hb]
  exact (isUnsigned_magnitudeText _ _ b).isSigned_if

theorem Numeric.isSigned_toChars {n : Numeric} (h : n.isFinite = true) : IsSigned n.toChars := by
  cases n with
  | finite negative coefficient exponent =>
      cases negative with
      | true => exact .inr ⟨_, rfl, isUnsigned_magnitudeChars _ _⟩
      | false => exact .inl (isUnsigned_magnitudeChars _ _)
  | infinite negative => exact nomatch h
  | notANumber negative signaling payload => exact nomatch h

end TenantReports.Decimal
