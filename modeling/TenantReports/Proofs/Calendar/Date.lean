import Mathlib.Data.Nat.Init
import TenantReports.Calendar.DateTime

/-!
Dates and their numbers: a number is found again from its date, and later dates have larger
numbers. Wall clocks and the microseconds that they stand for.
-/

namespace TenantReports

theorem daysInMonth_bounds (year month : Nat) :
    28 ≤ daysInMonth year month ∧ daysInMonth year month ≤ 31 := by
  unfold daysInMonth
  split
  · split
    · exact ⟨by omega, by omega⟩
    · exact ⟨by omega, by omega⟩
  · exact ⟨by omega, by omega⟩
  · exact ⟨by omega, by omega⟩
  · exact ⟨by omega, by omega⟩
  · exact ⟨by omega, by omega⟩
  · exact ⟨by omega, by omega⟩

theorem daysBeforeMonth_succ (year : Nat) {month : Nat} (h : 1 ≤ month) :
    daysBeforeMonth year (month + 1) = daysBeforeMonth year month + daysInMonth year month := by
  obtain ⟨m, rfl⟩ := Nat.exists_eq_add_of_le' h
  rfl

theorem isLeapYear_iff (year : Nat) :
    isLeapYear year = true ↔ year % 4 = 0 ∧ (year % 100 ≠ 0 ∨ year % 400 = 0) := by
  simp [isLeapYear]

/-- The days of a year. -/
def daysInYear (year : Nat) : Nat := if isLeapYear year then 366 else 365

theorem daysBeforeMonth_eq (year : Nat) :
    daysBeforeMonth year 3 = daysInYear year - 306 ∧
      daysBeforeMonth year 10 = daysInYear year - 92 ∧
      daysBeforeMonth year 11 = daysInYear year - 61 ∧
      daysBeforeMonth year 13 = daysInYear year := by
  unfold daysInYear
  cases h : isLeapYear year with
  | true => simp [daysBeforeMonth, daysInMonth, h]
  | false => simp [daysBeforeMonth, daysInMonth, h]

theorem daysBeforeYear_succ {year : Nat} (h : 1 ≤ year) :
    daysBeforeYear (year + 1) = daysBeforeYear year + daysInYear year := by
  obtain ⟨past, rfl⟩ := Nat.exists_eq_add_of_le' h
  have h4 : (past + 1) / 4 = past / 4 + if 4 ∣ past + 1 then 1 else 0 := Nat.succ_div
  have h100 : (past + 1) / 100 = past / 100 + if 100 ∣ past + 1 then 1 else 0 := Nat.succ_div
  have h400 : (past + 1) / 400 = past / 400 + if 400 ∣ past + 1 then 1 else 0 := Nat.succ_div
  have hle : past / 100 ≤ past / 4 := Nat.div_le_div_left (by omega) (by omega)
  have hleap := isLeapYear_iff (past + 1)
  rw [← Nat.dvd_iff_mod_eq_zero, ← Nat.dvd_iff_mod_eq_zero, ne_eq,
    ← Nat.dvd_iff_mod_eq_zero] at hleap
  have h400' : 400 ∣ past + 1 → 100 ∣ past + 1 := Nat.dvd_trans (by decide)
  have h100' : 100 ∣ past + 1 → 4 ∣ past + 1 := Nat.dvd_trans (by decide)
  unfold daysBeforeYear daysInYear
  simp only [Nat.add_sub_cancel, h4, h100, h400]
  generalize past / 4 = a at *
  generalize past / 100 = b at *
  generalize past / 400 = c at *
  by_cases hd4 : 4 ∣ past + 1
  · by_cases hd100 : 100 ∣ past + 1
    · by_cases hd400 : 400 ∣ past + 1
      · simp only [hd4, hd100, hd400, if_true, hleap.mpr ⟨hd4, .inr hd400⟩]
        omega
      · have hyear : ¬ isLeapYear (past + 1) = true := fun hyear =>
          (hleap.mp hyear).2.elim (absurd hd100) hd400
        simp only [hd4, hd100, hd400, if_true, if_false, hyear, Bool.false_eq_true]
        omega
    · have hd400 : ¬ 400 ∣ past + 1 := fun hd400 => hd100 (h400' hd400)
      simp only [hd4, hd100, hd400, if_true, if_false, hleap.mpr ⟨hd4, .inl hd100⟩]
      omega
  · have hd100 : ¬ 100 ∣ past + 1 := fun hd100 => hd4 (h100' hd100)
    have hd400 : ¬ 400 ∣ past + 1 := fun hd400 => hd100 (h400' hd400)
    have hyear : ¬ isLeapYear (past + 1) = true := fun hyear => hd4 (hleap.mp hyear).1
    simp only [hd4, hd100, hd400, if_false, hyear, Bool.false_eq_true]
    omega

theorem daysBeforeYear_one : daysBeforeYear 1 = 0 := rfl

theorem daysBeforeYear_mono {year year' : Nat} (hyear : 1 ≤ year) (h : year ≤ year') :
    daysBeforeYear year ≤ daysBeforeYear year' := by
  induction year', h using Nat.le_induction with
  | base => exact Nat.le_refl _
  | succ m hm ih =>
      rw [daysBeforeYear_succ (Nat.le_trans hyear hm)]
      exact Nat.le_add_right_of_le ih

/-- Four centuries have 146097 days, and no year is far from its share of them. -/
theorem daysBeforeYear_bounds (past : Nat) :
    146097 * past ≤ 400 * daysBeforeYear (past + 1) + 699 ∧
      400 * daysBeforeYear (past + 1) ≤ 146097 * past + 396 := by
  unfold daysBeforeYear
  simp only [Nat.add_sub_cancel]
  omega

namespace Date

/-- The year of a number is the one whose days it is among. -/
theorem yearOfOrdinal_spec {n : Nat} (h : 1 ≤ n) :
    1 ≤ yearOfOrdinal n ∧ daysBeforeYear (yearOfOrdinal n) < n ∧
      n ≤ daysBeforeYear (yearOfOrdinal n + 1) := by
  obtain ⟨m, rfl⟩ := Nat.exists_eq_add_of_le' h
  unfold yearOfOrdinal
  simp only [Nat.add_sub_cancel]
  have hguess := Nat.div_add_mod (m * 400) 146097
  have hrest := Nat.mod_lt (m * 400) (show 0 < 146097 by omega)
  generalize m * 400 / 146097 = guess at *
  generalize m * 400 % 146097 = rest at *
  split
  · next hearly =>
      cases guess with
      | zero => exact absurd hearly (by rw [daysBeforeYear_one]; omega)
      | succ past =>
          have hbounds := daysBeforeYear_bounds past
          refine ⟨by omega, ?_, hearly⟩
          omega
  · next hlate =>
      split
      · next hlater =>
          have hbounds := daysBeforeYear_bounds (guess + 1 + 1)
          exact ⟨by omega, hlater, by omega⟩
      · exact ⟨by omega, by omega, by omega⟩

/-- Only one year's days a number is among. -/
theorem yearOfOrdinal_eq {n year : Nat} (hyear : 1 ≤ year) (hfirst : daysBeforeYear year < n)
    (hlast : n ≤ daysBeforeYear (year + 1)) : yearOfOrdinal n = year := by
  obtain ⟨hone, hfirst', hlast'⟩ := yearOfOrdinal_spec (n := n) (by omega)
  rcases Nat.lt_trichotomy (yearOfOrdinal n) year with hlt | heq | hgt
  · have hmono := daysBeforeYear_mono (by omega) (show yearOfOrdinal n + 1 ≤ year by omega)
    omega
  · exact heq
  · have hmono := daysBeforeYear_mono (by omega) (show year + 1 ≤ yearOfOrdinal n by omega)
    omega

/-- The days of a year's months, from a month on. -/
theorem monthOfDay_spec (year month fuel rest : Nat) (hmonth : 1 ≤ month)
    (hfuel : month + fuel = 12) (hrest : 1 ≤ rest)
    (hdays : daysBeforeMonth year month + rest ≤ daysInYear year) :
    let found := monthOfDay year month fuel rest
    month ≤ found.1 ∧ found.1 ≤ 12 ∧ 1 ≤ found.2 ∧ found.2 ≤ daysInMonth year found.1 ∧
      daysBeforeMonth year found.1 + found.2 = daysBeforeMonth year month + rest := by
  induction fuel generalizing month rest with
  | zero =>
      have hyear := (daysBeforeMonth_eq year).2.2.2
      have hlast : month = 12 := by omega
      subst hlast
      rw [daysBeforeMonth_succ _ (by omega)] at hyear
      have hday : rest ≤ daysInMonth year 12 := by omega
      exact ⟨Nat.le_refl _, Nat.le_refl _, hrest, hday, rfl⟩
  | succ fuel ih =>
      unfold monthOfDay
      split
      · next hin => exact ⟨Nat.le_refl _, by omega, hrest, hin, rfl⟩
      · next hout =>
          have hsucc := daysBeforeMonth_succ year hmonth
          obtain ⟨hfrom, hto, hone, hday, heq⟩ :=
            ih (month + 1) (rest - daysInMonth year month) (by omega) (by omega) (by omega)
              (by omega)
          exact ⟨by omega, hto, hone, hday, by omega⟩

theorem ofOrdinal_spec {n : Nat} (h : 1 ≤ n) :
    (ofOrdinal n).ordinal = n ∧ (ofOrdinal n).year = yearOfOrdinal n ∧
      1 ≤ (ofOrdinal n).month ∧ (ofOrdinal n).month ≤ 12 ∧ 1 ≤ (ofOrdinal n).day ∧
      (ofOrdinal n).day ≤ daysInMonth (ofOrdinal n).year (ofOrdinal n).month := by
  obtain ⟨hone, hfirst, hlast⟩ := yearOfOrdinal_spec h
  rw [daysBeforeYear_succ hone] at hlast
  have hspec := monthOfDay_spec (yearOfOrdinal n) 1 11 (n - daysBeforeYear (yearOfOrdinal n))
    (by omega) rfl (by omega)
    (by change 0 + _ ≤ _; omega)
  unfold ofOrdinal ordinal
  dsimp only
  obtain ⟨hmonth, hmonth', hday, hday', heq⟩ := hspec
  refine ⟨?_, rfl, hmonth, hmonth', hday, hday'⟩
  change _ = 0 + _ at heq
  omega

theorem addDays?_eq_some {d d' : Date} {days : Int} (h : d.addDays? days = some d') :
    (d'.ordinal : Int) = d.ordinal + days ∧ 1 ≤ d'.year := by
  unfold addDays? at h
  dsimp only at h
  split at h
  · next hin =>
      cases h
      obtain ⟨hordinal, hyear, -⟩ :=
        ofOrdinal_spec (n := ((d.ordinal : Int) + days).toNat) (by omega)
      rw [hordinal, hyear]
      exact ⟨by omega, (yearOfOrdinal_spec (by omega)).1⟩
  · cases h

/-- Every day of a later month of the year is later. -/
theorem ordinal_lt_nextMonth {d : Date} {day : Nat} (hmonth : 1 ≤ d.month)
    (hday : d.day ≤ daysInMonth d.year d.month) (h : 1 ≤ day) :
    d.ordinal < (Date.mk d.year (d.month + 1) day).ordinal := by
  have hsucc := daysBeforeMonth_succ d.year hmonth
  unfold ordinal
  dsimp only
  omega

/-- Every day of January is later than those of the year before. -/
theorem ordinal_lt_nextYear {d : Date} {day : Nat} (hyear : 1 ≤ d.year) (hmonth : d.month = 12)
    (hday : d.day ≤ daysInMonth d.year d.month) (h : 1 ≤ day) :
    d.ordinal < (Date.mk (d.year + 1) 1 day).ordinal := by
  have hlast := (daysBeforeMonth_eq d.year).2.2.2
  have hsucc := daysBeforeYear_succ hyear
  rw [daysBeforeMonth_succ _ (by omega)] at hlast
  rw [hmonth] at hday
  unfold ordinal
  rw [hmonth]
  change _ < daysBeforeYear (d.year + 1) + 0 + day
  omega

end Date

/-! Wall clocks -/

theorem TimeOfDay.micros_ofMicros (n : Nat) : (TimeOfDay.ofMicros n).micros = n := by
  unfold ofMicros micros microsPerSecond
  dsimp only
  omega

namespace DateTime

/-- A clock of the calendar that shows a time of the day. -/
structure IsShown (t : DateTime) : Prop where
  year : 1 ≤ t.date.year
  month : 1 ≤ t.date.month ∧ t.date.month ≤ 12
  day : 1 ≤ t.date.day ∧ t.date.day ≤ daysInMonth t.date.year t.date.month
  time : t.time.micros < microsPerDay

theorem IsShown.wallMicros_bounds {t : DateTime} (h : t.IsShown) :
    t.date.ordinal * microsPerDay ≤ t.wallMicros ∧
      t.wallMicros < (t.date.ordinal + 1) * microsPerDay := by
  have htime := h.time
  unfold wallMicros
  rw [Nat.add_mul]
  omega

/-- The number of a clock's day, and the day's year. -/
theorem ofWallMicros?_eq_some {micros : Int} {zone : Zone} {t : DateTime}
    (h : ofWallMicros? micros zone = some t) :
    (t.wallMicros : Int) = micros ∧ t.zone = zone ∧ t.IsShown ∧
      (t.date.ordinal : Int) = micros / microsPerDay ∧
      t.date.year = Date.yearOfOrdinal (micros / microsPerDay).toNat := by
  unfold ofWallMicros? at h
  dsimp only at h
  split at h
  · next hday =>
      cases h
      have hdiv := Int.mul_ediv_add_emod micros microsPerDay
      have hnonneg := Int.emod_nonneg micros (show (microsPerDay : Int) ≠ 0 by decide)
      have hlt := Int.emod_lt_of_pos micros (show (0 : Int) < microsPerDay by decide)
      obtain ⟨hordinal, hyear, hmonth, hmonth', hday', hday''⟩ :=
        Date.ofOrdinal_spec (n := (micros / microsPerDay).toNat) (by omega)
      have hone := (Date.yearOfOrdinal_spec (n := (micros / microsPerDay).toNat) (by omega)).1
      have htime := TimeOfDay.micros_ofMicros (micros % microsPerDay).toNat
      refine ⟨?_, rfl, ⟨?_, ⟨hmonth, hmonth'⟩, ⟨hday', hday''⟩, ?_⟩, ?_, hyear⟩
      · unfold wallMicros
        dsimp only
        rw [hordinal, htime]
        unfold microsPerDay at *
        omega
      · dsimp only
        omega
      · dsimp only
        rw [htime]
        omega
      · dsimp only
        rw [hordinal]
        omega
  · cases h

/-- Moving the wall clock moves the point in time by as much. -/
theorem instant_of_add? {t later : DateTime} {span : Duration} (h : t.add? span = some later) :
    later.instant = t.instant + span.micros := by
  obtain ⟨hwall, hzone, -⟩ := ofWallMicros?_eq_some h
  unfold instant universal?
  rw [hzone, hwall]
  cases t.zone with
  | naive => rfl
  | region name isLater => rfl
  | offset micros =>
      simp only [Zone.first, Option.getD_some]
      omega

end DateTime

end TenantReports
