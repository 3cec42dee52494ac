import Mathlib.Tactic.Linarith
import Mathlib.Tactic.Ring
import TenantReports.Decimal.Binary64

/-!
The floating-point number nearest to a fraction: its bits, and its whole part where the fraction is
small enough for the digits behind the point to be held.
-/

namespace TenantReports.Decimal

theorem roundHalfEven_bounds (num : Nat) {den : Nat} (hden : 0 < den) :
    num / den ≤ roundHalfEven num den ∧ 2 * (den * roundHalfEven num den) ≤ 2 * num + den := by
  have hdiv := Nat.div_add_mod num den
  have hsucc : den * (num / den + 1) = den * (num / den) + den := Nat.mul_succ ..
  unfold roundHalfEven
  dsimp only
  split_ifs <;> omega

theorem twoTo_add (m n : Nat) : twoTo (m + n) = twoTo m * twoTo n := Nat.pow_add ..

theorem twoTo_pos (n : Nat) : 0 < twoTo n := Nat.pow_pos (by decide)

theorem twoTo_mono {m n : Nat} (h : m ≤ n) : twoTo m ≤ twoTo n :=
  Nat.pow_le_pow_right (by decide) h

section Place

variable {num den : Nat}

theorem log2_bounds {n : Nat} (h : 0 < n) :
    twoTo (Nat.log2 n) ≤ n ∧ n < twoTo (Nat.log2 n + 1) :=
  ⟨Nat.log2_self_le (by omega), Nat.lt_log2_self⟩

/-- The place of the last digit lies at the guess or just below it. -/
theorem lastPlace_cases (num den : Nat) : ∃ guess : Int,
    guess = (Nat.log2 num : Int) - Nat.log2 den - 52 ∧
    (num * twoTo (-guess).toNat < den * twoTo (guess.toNat + 52) ∧
        lastPlace num den = max (-1074) (guess - 1) ∨
      den * twoTo (guess.toNat + 52) ≤ num * twoTo (-guess).toNat ∧
        lastPlace num den = max (-1074) guess) := by
  refine ⟨_, rfl, ?_⟩
  unfold lastPlace
  dsimp only
  generalize (Nat.log2 num : Int) - Nat.log2 den - 52 = guess
  have hone : twoTo 0 = 1 := rfl
  by_cases hsign : 0 ≤ guess
  · have hzero : (-guess).toNat = 0 := by omega
    simp only [if_pos hsign, decide_eq_true_eq, hzero, hone, Nat.mul_one]
    split_ifs <;> omega
  · have hzero : guess.toNat = 0 := by omega
    simp only [if_neg hsign, decide_eq_true_eq, hzero, Nat.zero_add]
    split_ifs <;> omega

/-- Which of two numbers is greater in units of powers of two, told in other units. -/
theorem mul_twoTo_lt {a b a' b' : Nat} (h : num * twoTo a < den * twoTo b)
    (hunits : a' + b ≤ a + b') : num * twoTo a' < den * twoTo b' := by
  apply Nat.lt_of_mul_lt_mul_right (a := twoTo (a + b))
  calc num * twoTo a' * twoTo (a + b)
      = num * twoTo a * twoTo (a' + b) := by simp only [twoTo_add]; ring
    _ < den * twoTo b * twoTo (a' + b) := Nat.mul_lt_mul_of_pos_right h (twoTo_pos _)
    _ ≤ den * twoTo b * twoTo (a + b') := Nat.mul_le_mul_left _ (twoTo_mono hunits)
    _ = den * twoTo b' * twoTo (a + b) := by simp only [twoTo_add]; ring

theorem mul_twoTo_le {a b a' b' : Nat} (h : num * twoTo a ≤ den * twoTo b)
    (hunits : a' + b ≤ a + b') : num * twoTo a' ≤ den * twoTo b' := by
  apply Nat.le_of_mul_le_mul_right (c := twoTo (a + b)) _ (twoTo_pos _)
  calc num * twoTo a' * twoTo (a + b)
      = num * twoTo a * twoTo (a' + b) := by simp only [twoTo_add]; ring
    _ ≤ den * twoTo b * twoTo (a' + b) := Nat.mul_le_mul_right _ h
    _ ≤ den * twoTo b * twoTo (a + b') := Nat.mul_le_mul_left _ (twoTo_mono hunits)
    _ = den * twoTo b' * twoTo (a + b) := by simp only [twoTo_add]; ring

theorem twoTo_log2_lt (hnum : 0 < num) (hden : 0 < den) :
    num * twoTo (Nat.log2 den) < den * twoTo (Nat.log2 num + 1) :=
  calc num * twoTo (Nat.log2 den)
      < twoTo (Nat.log2 num + 1) * twoTo (Nat.log2 den) :=
        Nat.mul_lt_mul_of_pos_right (log2_bounds hnum).2 (twoTo_pos _)
    _ ≤ den * twoTo (Nat.log2 num + 1) := by
        rw [Nat.mul_comm]
        exact Nat.mul_le_mul_right _ (log2_bounds hden).1

/-- A fraction is less than the mantissas reach, counted in its last place. -/
theorem lt_of_lastPlace (hnum : 0 < num) (hden : 0 < den) :
    num * twoTo (-lastPlace num den).toNat < den * twoTo ((lastPlace num den).toNat + 53) := by
  obtain ⟨guess, hguess, ⟨hbelow, hplace⟩ | ⟨-, hplace⟩⟩ := lastPlace_cases num den
  · exact mul_twoTo_lt hbelow (by omega)
  · exact mul_twoTo_lt (twoTo_log2_lt hnum hden) (by omega)

/-- Above the least place, it fills the mantissas. -/
theorem le_of_lastPlace (hnum : 0 < num) (hden : 0 < den) (hplace : -1074 < lastPlace num den) :
    den * twoTo ((lastPlace num den).toNat + 52) ≤ num * twoTo (-lastPlace num den).toNat := by
  obtain ⟨guess, hguess, ⟨-, heq⟩ | ⟨habove, heq⟩⟩ := lastPlace_cases num den
  · exact mul_twoTo_le (twoTo_log2_lt hden hnum).le (by omega)
  · exact mul_twoTo_le habove (by omega)

/-- What is rounded to the digits of the nearest number, in units of the last place. -/
def mantissa (num den : Nat) : Nat :=
  roundHalfEven (num * twoTo (-lastPlace num den).toNat) (den * twoTo (lastPlace num den).toNat)

theorem mantissa_le (hnum : 0 < num) (hden : 0 < den) : mantissa num den ≤ twoTo 53 := by
  have hunit : 0 < den * twoTo (lastPlace num den).toNat := Nat.mul_pos hden (twoTo_pos _)
  have hround := (roundHalfEven_bounds (num * twoTo (-lastPlace num den).toNat) hunit).2
  have hlt := lt_of_lastPlace hnum hden
  rw [twoTo_add, ← Nat.mul_assoc] at hlt
  by_contra hmore
  have hmul := Nat.mul_le_mul_left (den * twoTo (lastPlace num den).toNat)
    (show twoTo 53 + 1 ≤ mantissa num den by omega)
  rw [Nat.mul_succ] at hmul
  unfold mantissa at hmul
  omega

theorem le_mantissa (hnum : 0 < num) (hden : 0 < den) (hplace : -1074 < lastPlace num den) :
    twoTo 52 ≤ mantissa num den := by
  have hunit : 0 < den * twoTo (lastPlace num den).toNat := Nat.mul_pos hden (twoTo_pos _)
  have hround := (roundHalfEven_bounds (num * twoTo (-lastPlace num den).toNat) hunit).1
  have hle := le_of_lastPlace hnum hden hplace
  rw [twoTo_add, ← Nat.mul_assoc, Nat.mul_comm] at hle
  exact Nat.le_trans ((Nat.le_div_iff_mul_le hunit).mpr hle) hround

/-- A mantissa that is rounded up to a digit more is halved, and its place is one higher. -/
def carried (num den : Nat) : Nat × Int :=
  if mantissa num den = twoTo 53 then (twoTo 52, lastPlace num den + 1)
  else (mantissa num den, lastPlace num den)

theorem carried_lt (hnum : 0 < num) (hden : 0 < den) : (carried num den).1 < twoTo 53 := by
  have hle := mantissa_le hnum hden
  unfold carried
  split
  · exact show twoTo 52 < twoTo 53 by decide
  · next hne => exact Nat.lt_of_le_of_ne hle hne

theorem nearestBits_eq (hnum : 0 < num) : nearestBits num den =
    if (carried num den).1 < twoTo 52 then (carried num den).1
    else if 971 < (carried num den).2 then infinityBits
    else ((carried num den).2 + 1075).toNat * twoTo 52 + ((carried num den).1 - twoTo 52) := by
  have hone : twoTo 0 = 1 := rfl
  have hmantissa : (if 0 ≤ lastPlace num den then
      roundHalfEven num (den * twoTo (lastPlace num den).toNat)
    else roundHalfEven (num * twoTo (-lastPlace num den).toNat) den) = mantissa num den := by
    unfold mantissa
    split
    · next hplace => rw [show (-lastPlace num den).toNat = 0 by omega, hone, Nat.mul_one]
    · next hplace => rw [show (lastPlace num den).toNat = 0 by omega, hone, Nat.mul_one]
  unfold nearestBits
  rw [if_neg (Nat.ne_of_gt hnum)]
  dsimp only
  rw [hmantissa]
  unfold carried
  split_ifs <;> rfl

/-- The nearest number to a magnitude has no sign. -/
theorem nearestBits_lt (num : Nat) (hden : 0 < den) : nearestBits num den < twoTo 63 := by
  rcases Nat.eq_zero_or_pos num with rfl | hnum
  · exact twoTo_pos 63
  have hlt := carried_lt hnum hden
  have hsum : twoTo 53 = twoTo 52 + twoTo 52 := rfl
  have hhigh : 2047 * twoTo 52 < twoTo 63 := by decide
  rw [nearestBits_eq hnum]
  split_ifs with hsmall hgreat
  · exact Nat.lt_trans hsmall (by decide)
  · exact hhigh
  · have hplace : ((carried num den).2 + 1075).toNat ≤ 2046 := by omega
    have hmul := Nat.mul_le_mul_right (twoTo 52) hplace
    omega

end Place

namespace Binary

theorem negative_of_lt {bits : Nat} {b : Binary} (h : ofBits? bits = some b)
    (hlt : bits < twoTo 63) : b.negative = false := by
  unfold ofBits? at h
  rw [Nat.div_eq_of_lt hlt] at h
  dsimp only at h
  split_ifs at h <;> cases h <;> rfl

theorem ofBits?_of_normal {exponent fraction : Nat} (hpos : 0 < exponent) (hlt : exponent < 2047)
    (hfraction : fraction < twoTo 52) :
    ofBits? (exponent * twoTo 52 + fraction) =
      some ⟨false, fraction + twoTo 52, (exponent : Int) - 1075⟩ := by
  have hhigh : twoTo 63 = 2048 * twoTo 52 := rfl
  have hdiv : (exponent * twoTo 52 + fraction) / twoTo 52 = exponent := by
    rw [Nat.mul_comm, Nat.mul_add_div (twoTo_pos _), Nat.div_eq_of_lt hfraction, Nat.add_zero]
  have hmod : (exponent * twoTo 52 + fraction) % twoTo 52 = fraction := by
    rw [Nat.mul_add_mod', Nat.mod_eq_of_lt hfraction]
  have hsign : (exponent * twoTo 52 + fraction) / twoTo 63 = 0 := by
    apply Nat.div_eq_of_lt
    have hmul := Nat.mul_le_mul_right (twoTo 52) (Nat.le_of_lt_succ hlt)
    omega
  have hwidth : exponent % twoTo 11 = exponent := Nat.mod_eq_of_lt (Nat.lt_trans hlt (by decide))
  unfold ofBits?
  rw [hdiv, hmod, hsign, hwidth]
  dsimp only
  rw [if_neg (by omega), if_neg (by omega)]
  rfl

theorem truncate_of_neg {mantissa k : Nat} (hk : 0 < k) :
    truncate ⟨false, mantissa, -(k : Int)⟩ = ((mantissa / twoTo k : Nat) : Int) := by
  have hneg : ¬ (0 : Int) ≤ -(k : Int) := by omega
  unfold truncate ratio
  dsimp only
  rw [if_neg hneg]
  simp

end Binary

section Whole

variable {num den : Nat}

theorem carried_bounds (hnum : 0 < num) (hden : 0 < den) (hplace : -1074 < lastPlace num den) :
    twoTo 52 ≤ (carried num den).1 ∧ -1074 < (carried num den).2 ∧
      (carried num den).2 ≤ lastPlace num den + 1 := by
  have hle := le_mantissa hnum hden hplace
  unfold carried
  split
  · exact ⟨Nat.le_refl _, by omega, Int.le_refl _⟩
  · exact ⟨hle, hplace, by omega⟩

/-- Carrying a digit keeps the number. -/
theorem carried_div (hsmall : lastPlace num den < -1) :
    (carried num den).1 / twoTo (-(carried num den).2).toNat =
      mantissa num den / twoTo (-lastPlace num den).toNat := by
  unfold carried
  split
  · next hcarry =>
      have hplace : (-lastPlace num den).toNat = (-(lastPlace num den + 1)).toNat + 1 := by omega
      have hhalf : twoTo 53 = twoTo 52 * 2 := rfl
      rw [hcarry, hplace, twoTo_add, hhalf]
      exact (Nat.mul_div_mul_right _ _ (by decide)).symm
  · rfl

/-- The whole part of the nearest number, where its digits reach behind the point. -/
theorem truncate_nearestBits (hnum : 0 < num) (hden : 0 < den)
    (hplace : -1074 < lastPlace num den) (hsmall : lastPlace num den < -1) :
    ∃ b, Binary.ofBits? (nearestBits num den) = some b ∧
      b.truncate = ((mantissa num den / twoTo (-lastPlace num den).toNat : Nat) : Int) := by
  obtain ⟨hfull, habove, hbelow⟩ := carried_bounds hnum hden hplace
  have hlt := carried_lt hnum hden
  have hwidth : twoTo 53 = twoTo 52 + twoTo 52 := rfl
  rw [← carried_div hsmall, nearestBits_eq hnum, if_neg (by omega), if_neg (by omega),
    Binary.ofBits?_of_normal (by omega) (by omega) (by omega)]
  obtain ⟨k, hk, hplace⟩ : ∃ k : Nat, 0 < k ∧ (carried num den).2 = -(k : Int) :=
    ⟨(-(carried num den).2).toNat, by omega, by omega⟩
  have hexponent : (((-(k : Int) + 1075).toNat : Nat) : Int) - 1075 = -(k : Int) := by omega
  have hunits : (- -(k : Int)).toNat = k := by omega
  refine ⟨_, rfl, ?_⟩
  rw [hplace, hexponent, Nat.sub_add_cancel hfull, Binary.truncate_of_neg hk, hunits]

theorem mantissa_of_neg (hplace : lastPlace num den < 0) :
    mantissa num den = roundHalfEven (num * twoTo (-lastPlace num den).toNat) den := by
  have hzero : (lastPlace num den).toNat = 0 := by omega
  have hone : twoTo 0 = 1 := rfl
  unfold mantissa
  rw [hzero, hone, Nat.mul_one]

theorem div_le_mantissa_div (hden : 0 < den) (hplace : lastPlace num den < 0) :
    num / den ≤ mantissa num den / twoTo (-lastPlace num den).toNat := by
  have hlower := (roundHalfEven_bounds (num * twoTo (-lastPlace num den).toNat) hden).1
  rw [← mantissa_of_neg hplace] at hlower
  rw [Nat.le_div_iff_mul_le (twoTo_pos _)]
  apply Nat.le_trans _ hlower
  rw [Nat.le_div_iff_mul_le hden]
  calc num / den * twoTo (-lastPlace num den).toNat * den
      = den * (num / den) * twoTo (-lastPlace num den).toNat := by ring
    _ ≤ num * twoTo (-lastPlace num den).toNat :=
        Nat.mul_le_mul_right _ (Nat.mul_div_le num den)

/-- What a rounded number must exceed to have a whole part of `whole`. -/
theorem mul_le_of_le_mantissa_div {whole : Nat} (hden : 0 < den) (hplace : lastPlace num den < 0)
    (h : whole ≤ mantissa num den / twoTo (-lastPlace num den).toNat) :
    2 * (den * whole * twoTo (-lastPlace num den).toNat) ≤
      2 * (num * twoTo (-lastPlace num den).toNat) + den := by
  have hupper := (roundHalfEven_bounds (num * twoTo (-lastPlace num den).toNat) hden).2
  rw [← mantissa_of_neg hplace] at hupper
  rw [Nat.le_div_iff_mul_le (twoTo_pos _)] at h
  have hmul := Nat.mul_le_mul_left den h
  rw [← Nat.mul_assoc] at hmul
  omega

theorem mantissa_div_le (hden : 0 < den) (hplace : lastPlace num den < 0) :
    mantissa num den / twoTo (-lastPlace num den).toNat ≤ num / den + 1 := by
  by_contra hmore
  have hreached := mul_le_of_le_mantissa_div hden hplace (Nat.not_le.mp hmore)
  have hpos := twoTo_pos (-lastPlace num den).toNat
  have hnum := Nat.lt_mul_div_succ num hden
  have hnext : num + den < den * (num / den + 1).succ := by
    rw [Nat.mul_succ]
    exact Nat.add_lt_add_right hnum den
  nlinarith

/-- Rounding does not reach the next whole number where a unit of the fraction is more than half
a unit of the last place. -/
theorem mantissa_div (hden : 0 < den) (hplace : lastPlace num den < 0)
    (hunit : den < twoTo ((-lastPlace num den).toNat + 1)) :
    mantissa num den / twoTo (-lastPlace num den).toNat = num / den := by
  apply Nat.le_antisymm _ (div_le_mantissa_div hden hplace)
  by_contra hmore
  have hreached := mul_le_of_le_mantissa_div hden hplace (Nat.not_le.mp hmore)
  have hmul := Nat.mul_le_mul_right (twoTo (-lastPlace num den).toNat)
    (Nat.lt_mul_div_succ num hden)
  rw [Nat.succ_mul] at hmul
  have htwo : twoTo ((-lastPlace num den).toNat + 1) = twoTo (-lastPlace num den).toNat * 2 :=
    twoTo_add _ 1
  change 2 * (den * (num / den + 1) * twoTo (-lastPlace num den).toNat) ≤ _ at hreached
  omega

end Whole

end TenantReports.Decimal
