import TenantReports.Calendar.DateTime
import TenantReports.Calendar.Span
import TenantReports.Proofs.Calendar.Date
import TenantReports.Proofs.Decimal.Nearest

/-!
The whole seconds of a span, which are counted through a floating-point number of seconds. Dates
of the calendar are told apart by their numbers, and the date some days before another is found
wherever it lies in the calendar. A clock that can be moved by a span shows the point in time that
much later. Months are counted on through the years, and every date of a later month is later.
-/

namespace TenantReports.Duration

open Decimal

/-- Spans that a floating-point number of seconds tells apart to the microsecond. -/
def exactBound : Nat := twoTo 34 * microsPerSecond

/-- Spans whose number of seconds has digits behind the point. Those within the calendar have. -/
def fractionBound : Nat := twoTo 51 * microsPerSecond

section Positive

variable {n : Nat}

theorem lastPlace_micros (hpos : 0 < n) (h : n < fractionBound) :
    -1074 < lastPlace n microsPerSecond ∧ lastPlace n microsPerSecond < -1 := by
  have hsecond : 0 < microsPerSecond := by decide
  constructor
  · obtain ⟨guess, hguess, ⟨-, hplace⟩ | ⟨-, hplace⟩⟩ := lastPlace_cases n microsPerSecond
    all_goals
      rw [show Nat.log2 microsPerSecond = 19 by decide] at hguess
      omega
  · by_contra hhigh
    have hfull := le_of_lastPlace hpos hsecond (by omega)
    have hless : n * twoTo 0 < microsPerSecond * twoTo 51 := by
      rw [show twoTo 0 = 1 from rfl, Nat.mul_one, Nat.mul_comm]
      exact h
    exact Nat.not_lt.mpr hfull (mul_twoTo_lt hless (by omega))

theorem lastPlace_exact (hpos : 0 < n) (h : n < exactBound) :
    lastPlace n microsPerSecond ≤ -19 := by
  have hfraction : n < fractionBound :=
    Nat.lt_of_lt_of_le h (Nat.mul_le_mul_right _ (twoTo_mono (by decide)))
  by_contra hhigh
  have hfull := le_of_lastPlace hpos (by decide) (lastPlace_micros hpos hfraction).1
  have hless : n * twoTo 0 < microsPerSecond * twoTo 34 := by
    rw [show twoTo 0 = 1 from rfl, Nat.mul_one, Nat.mul_comm]
    exact h
  exact Nat.not_lt.mpr hfull (mul_twoTo_lt hless (by omega))

theorem wholeSeconds_eq_mantissa (hpos : 0 < n) (h : n < fractionBound) :
    wholeSeconds ⟨n⟩ = ((mantissa n microsPerSecond /
      twoTo (-lastPlace n microsPerSecond).toNat : Nat) : Int) := by
  obtain ⟨hlow, hhigh⟩ := lastPlace_micros hpos h
  obtain ⟨b, hbits, htruncate⟩ := truncate_nearestBits hpos (by decide) hlow hhigh
  have hnonneg : ¬ (n : Int) < 0 := by omega
  unfold wholeSeconds
  dsimp only
  rw [Int.natAbs_natCast, hbits]
  simp only [if_neg hnonneg]
  exact htruncate

end Positive

theorem wholeSeconds_zero : wholeSeconds ⟨0⟩ = 0 := by decide +kernel

theorem wholeSeconds_bounds {n : Nat} (h : n < fractionBound) :
    ((n / microsPerSecond : Nat) : Int) ≤ wholeSeconds ⟨n⟩ ∧
      wholeSeconds ⟨n⟩ ≤ ((n / microsPerSecond : Nat) : Int) + 1 := by
  have hsecond : 0 < microsPerSecond := by decide
  rcases Nat.eq_zero_or_pos n with rfl | hpos
  · simp [wholeSeconds_zero]
  have hplace : lastPlace n microsPerSecond < 0 := by
    have := (lastPlace_micros hpos h).2
    omega
  have hlower := div_le_mantissa_div hsecond hplace
  have hupper := mantissa_div_le hsecond hplace
  rw [wholeSeconds_eq_mantissa hpos h]
  constructor
  · exact_mod_cast hlower
  · exact_mod_cast hupper

theorem wholeSeconds_of_lt {n : Nat} (h : n < exactBound) :
    wholeSeconds ⟨n⟩ = ((n / microsPerSecond : Nat) : Int) := by
  rcases Nat.eq_zero_or_pos n with rfl | hpos
  · simp [wholeSeconds_zero]
  have hfraction : n < fractionBound :=
    Nat.lt_of_lt_of_le h (Nat.mul_le_mul_right _ (twoTo_mono (by decide)))
  have hplace := lastPlace_exact hpos h
  have hunit : microsPerSecond < twoTo ((-lastPlace n microsPerSecond).toNat + 1) :=
    Nat.lt_of_lt_of_le (show microsPerSecond < twoTo 20 by decide) (twoTo_mono (by omega))
  rw [wholeSeconds_eq_mantissa hpos hfraction, mantissa_div (by decide) (by omega) hunit]

theorem wholeSeconds_nonpos {d : Duration} (h : d.micros < 0) : d.wholeSeconds ≤ 0 := by
  unfold wholeSeconds
  cases hbits : Binary.ofBits? (nearestBits d.micros.natAbs microsPerSecond) with
  | none => exact Int.le_refl 0
  | some b =>
      have hsign := Binary.negative_of_lt hbits (nearestBits_lt _ (by decide))
      have htruncate : b.truncate = ((b.ratio.1 / b.ratio.2 : Nat) : Int) := by
        simp [Binary.truncate, hsign]
      simp only [if_pos h, htruncate]
      exact Int.neg_nonpos_of_nonneg (Int.natCast_nonneg _)

end TenantReports.Duration

namespace TenantReports

theorem daysBeforeMonth_le (year : Nat) {month later : Nat} (hmonth : 1 ≤ month)
    (h : month < later) :
    daysBeforeMonth year month + daysInMonth year month ≤ daysBeforeMonth year later := by
  induction later, h using Nat.le_induction with
  | base => exact Nat.le_of_eq (daysBeforeMonth_succ year hmonth).symm
  | succ later hlater ih =>
      rw [daysBeforeMonth_succ year (by omega)]
      exact Nat.le_add_right_of_le ih

namespace Date

variable {d d' : Date}

theorem IsValid.ordinal_bounds (h : d.IsValid) :
    daysBeforeYear d.year < d.ordinal ∧ d.ordinal ≤ daysBeforeYear (d.year + 1) := by
  obtain ⟨hyear, -, hmonth, hmonth', hday, hday'⟩ := h
  have hlater := daysBeforeMonth_le d.year hmonth (show d.month < 13 by omega)
  have hlast := (daysBeforeMonth_eq d.year).2.2.2
  rw [daysBeforeYear_succ hyear]
  unfold ordinal
  omega

theorem IsValid.ordinal_pos (h : d.IsValid) : 1 ≤ d.ordinal :=
  Nat.one_le_of_lt h.ordinal_bounds.1

theorem IsValid.ordinal_le (h : d.IsValid) : d.ordinal ≤ lastOrdinal := by
  have hyear : d.year + 1 ≤ lastYear + 1 := Nat.succ_le_succ h.2.1
  calc d.ordinal ≤ daysBeforeYear (d.year + 1) := h.ordinal_bounds.2
    _ ≤ daysBeforeYear (lastYear + 1) := daysBeforeYear_mono (by omega) hyear
    _ = lastOrdinal := by decide

theorem IsValid.year_eq (h : d.IsValid) : yearOfOrdinal d.ordinal = d.year :=
  yearOfOrdinal_eq h.1 h.ordinal_bounds.1 h.ordinal_bounds.2

theorem IsValid.ordinal_lt_of_month (h : d.IsValid) (h' : d'.IsValid) (hyear : d.year = d'.year)
    (hmonth : d.month < d'.month) : d.ordinal < d'.ordinal := by
  have hlater := daysBeforeMonth_le d.year h.2.2.1 hmonth
  have hday := h.2.2.2.2.2
  have hday' := h'.2.2.2.2.1
  unfold ordinal
  rw [← hyear]
  omega

theorem IsValid.ordinal_inj (h : d.IsValid) (h' : d'.IsValid) (heq : d.ordinal = d'.ordinal) :
    d = d' := by
  have hyear : d.year = d'.year := by rw [← h.year_eq, ← h'.year_eq, heq]
  have hmonth : d.month = d'.month := by
    rcases Nat.lt_trichotomy d.month d'.month with hlt | hsame | hgt
    · exact absurd heq (Nat.ne_of_lt (h.ordinal_lt_of_month h' hyear hlt))
    · exact hsame
    · exact absurd heq (Nat.ne_of_gt (h'.ordinal_lt_of_month h hyear.symm hgt))
  have hday : d.day = d'.day := by
    unfold ordinal at heq
    rw [hyear, hmonth] at heq
    omega
  cases d
  cases d'
  simp_all

theorem isValid_ofOrdinal {n : Nat} (hone : 1 ≤ n) (hlast : n ≤ lastOrdinal) :
    (ofOrdinal n).IsValid := by
  obtain ⟨-, hyear, hmonth, hmonth', hday, hday'⟩ := ofOrdinal_spec hone
  obtain ⟨hfirst, hbefore, -⟩ := yearOfOrdinal_spec hone
  have hbound : yearOfOrdinal n ≤ lastYear := by
    rcases Nat.lt_or_ge lastYear (yearOfOrdinal n) with hlater | hin
    · have hmono := daysBeforeYear_mono (Nat.le_add_left 1 lastYear) hlater
      have hend : daysBeforeYear (lastYear + 1) = lastOrdinal := by decide
      omega
    · exact hin
  exact ⟨hyear ▸ hfirst, hyear ▸ hbound, hmonth, hmonth', hday, hday'⟩

theorem daysBefore_eq_ok {days : Nat} (h : d.IsValid) (h' : d'.IsValid)
    (heq : d'.ordinal + days = d.ordinal) : d.daysBefore days = .ok d' := by
  have hlast := h.ordinal_le
  have hspan : (Duration.ofParts days 0 0).days = days := by
    change Int.fdiv _ (86400000000 : Nat) = _
    rw [Int.fdiv_eq_ediv_of_nonneg _ (by omega)]
    unfold Duration.ofParts microsPerSecond
    dsimp only
    omega
  have hcheck : (Duration.ofParts days 0 0).check = .ok () := by
    unfold Duration.check
    rw [hspan, if_neg]
    unfold longestSpan
    unfold lastOrdinal at hlast
    omega
  have hdate : d.addDays? (-days) = some d' := by
    have hnumber : (d.ordinal : Int) + -days = d'.ordinal := by omega
    unfold addDays?
    rw [hnumber, if_pos ⟨by exact_mod_cast h'.ordinal_pos, by exact_mod_cast h'.ordinal_le⟩,
      Int.toNat_natCast]
    have hvalid := isValid_ofOrdinal h'.ordinal_pos h'.ordinal_le
    exact congrArg some (hvalid.ordinal_inj h' (ofOrdinal_spec h'.ordinal_pos).1)
  unfold daysBefore
  rw [hcheck, hdate]
  rfl

end Date

theorem DateTime.instant_of_moved {t moved : DateTime} {span : Duration}
    (h : t.moved span = .ok moved) : moved.instant = t.instant + span.micros := by
  unfold DateTime.moved at h
  cases hcheck : span.check with
  | error fault =>
      rw [hcheck] at h
      cases h
  | ok =>
      rw [hcheck] at h
      cases hadd : t.add? span with
      | none =>
          rw [hadd] at h
          cases h
      | some later =>
          rw [hadd] at h
          cases h
          exact instant_of_add? hadd

/-! Months -/

namespace Date

variable {d d' : Date}

/-- The number of a month, counted on through the years. -/
def monthNumber (d : Date) : Nat := 12 * d.year + d.month

/-- The number of the last month of the calendar. -/
def lastMonthNumber : Nat := 12 * lastYear + 12

theorem IsValid.monthNumber_le (h : d.IsValid) : d.monthNumber ≤ lastMonthNumber := by
  obtain ⟨-, hyear, -, hmonth, -⟩ := h
  unfold monthNumber lastMonthNumber
  omega

theorem IsValid.monthNumber_inj (h : d.IsValid) (h' : d'.IsValid)
    (heq : d.monthNumber = d'.monthNumber) : d.year = d'.year ∧ d.month = d'.month := by
  obtain ⟨-, -, hone, htwelve, -⟩ := h
  obtain ⟨-, -, hone', htwelve', -⟩ := h'
  unfold monthNumber at heq
  omega

theorem IsValid.ordinal_lt_of_year (h : d.IsValid) (h' : d'.IsValid) (hyear : d.year < d'.year) :
    d.ordinal < d'.ordinal := by
  have hmono := daysBeforeYear_mono (Nat.le_add_left 1 d.year) (Nat.succ_le_of_lt hyear)
  exact Nat.lt_of_le_of_lt (Nat.le_trans h.ordinal_bounds.2 hmono) h'.ordinal_bounds.1

theorem IsValid.ordinal_lt_of_monthNumber (h : d.IsValid) (h' : d'.IsValid)
    (hlt : d.monthNumber < d'.monthNumber) : d.ordinal < d'.ordinal := by
  rcases Nat.lt_trichotomy d.year d'.year with hyear | hyear | hyear
  · exact h.ordinal_lt_of_year h' hyear
  · refine h.ordinal_lt_of_month h' hyear ?_
    unfold monthNumber at hlt
    omega
  · obtain ⟨-, -, hone, -⟩ := h
    obtain ⟨-, -, -, htwelve, -⟩ := h'
    unfold monthNumber at hlt
    omega

theorem isValid_of_addDays? {days : Int} (h : d.addDays? days = some d') : d'.IsValid := by
  unfold addDays? at h
  dsimp only at h
  split at h
  · next hin =>
      cases h
      exact isValid_ofOrdinal (by omega) (by omega)
  · cases h

end Date

theorem TimeOfDay.IsValid.micros_lt {t : TimeOfDay} (h : t.IsValid) : t.micros < microsPerDay := by
  obtain ⟨hhour, hminute, hsecond, hmicro⟩ := h
  unfold micros
  unfold microsPerSecond microsPerDay at *
  omega

namespace DateTime

variable {clock t : DateTime}

theorem isShown_of_isValid (hdate : t.date.IsValid) (htime : t.time.IsValid) : t.IsShown := by
  obtain ⟨hyear, -, hmonth, hmonth', hday, hday'⟩ := hdate
  exact ⟨hyear, ⟨hmonth, hmonth'⟩, ⟨hday, hday'⟩, htime.micros_lt⟩

theorem IsShown.ordinal_le (hclock : clock.IsShown) (h : clock.wallMicros < t.wallMicros)
    (htime : t.time.micros < microsPerDay) : clock.date.ordinal ≤ t.date.ordinal := by
  refine Nat.le_of_not_lt fun hearlier => ?_
  have hmul := Nat.mul_le_mul_right microsPerDay (Nat.succ_le_of_lt hearlier)
  have hstart := hclock.wallMicros_bounds.1
  have hwall : t.wallMicros = t.date.ordinal * microsPerDay + t.time.micros := rfl
  rw [Nat.succ_mul] at hmul
  omega

end DateTime

end TenantReports
