import TenantReports.Proofs.Calendar.Region
import TenantReports.Proofs.Result
import TenantReports.Schedule.Recurrence

/-!
The next time of a recurrence is later, by the clock that it is found by.
-/

namespace TenantReports

open DateTime (MovesOn)

theorem ClockTime.micros_lt {time : ClockTime} (h : time.isOnClock = true) :
    time.toTimeOfDay.micros < microsPerDay := by
  simp only [isOnClock, Bool.and_eq_true, decide_eq_true_eq] at h
  unfold toTimeOfDay TimeOfDay.micros microsPerSecond microsPerDay
  dsimp only
  omega

theorem ClockTime.isOnClock_of_ofValue {given : Value} {time : ClockTime}
    (h : ClockTime.ofValue given = .ok time) : time.isOnClock = true := by
  unfold ofValue at h
  split at h
  · cases h
    rfl
  · split at h
    · split at h
      · split at h
        · next hclock =>
            cases h
            exact hclock
        · cases h
      · cases h
    · cases h

theorem ClockTime.isOnClock_of_ofCronFields {given : Value} {fields : List (List Char)}
    {time : ClockTime} (h : ClockTime.ofCronFields given fields = .ok time) :
    time.isOnClock = true := by
  unfold ofCronFields at h
  split at h
  · split at h
    · obtain ⟨minute, -, h⟩ := bind_eq_ok.mp h
      obtain ⟨hour, -, h⟩ := bind_eq_ok.mp h
      dsimp only at h
      split at h
      · next hclock =>
          cases h
          exact hclock
      · cases h
    · cases h
  · cases h

theorem ClockTime.isOnClock_of_ofCron {given : Value} {time : ClockTime}
    (h : ClockTime.ofCron given = .ok time) : time.isOnClock = true := by
  unfold ofCron at h
  split at h
  · cases h
    rfl
  · split at h
    · exact isOnClock_of_ofCronFields h
    · exact isOnClock_of_ofCronFields h
    · cases h

namespace Recurrence

/-- A recurrence at a time of the day, on a day that months have. -/
def Fits : Recurrence → Prop
  | daily time => time.isOnClock = true
  | weekly _ time => time.isOnClock = true
  | monthly day time => 1 ≤ day ∧ time.isOnClock = true

theorem fits_of_ofConfig {type : String} {config : Value} {recurrence : Recurrence}
    (h : ofConfig type config = .ok recurrence) : recurrence.Fits := by
  unfold ofConfig at h
  split at h
  · obtain ⟨entries, -, h⟩ := bind_eq_ok.mp h
    obtain ⟨time, htime, h⟩ := bind_eq_ok.mp h
    cases h
    exact ClockTime.isOnClock_of_ofValue htime
  · obtain ⟨entries, -, h⟩ := bind_eq_ok.mp h
    obtain ⟨time, htime, h⟩ := bind_eq_ok.mp h
    obtain ⟨weekday, -, h⟩ := bind_eq_ok.mp h
    cases h
    exact ClockTime.isOnClock_of_ofValue htime
  · obtain ⟨entries, -, h⟩ := bind_eq_ok.mp h
    obtain ⟨time, htime, h⟩ := bind_eq_ok.mp h
    obtain ⟨day, hday, h⟩ := bind_eq_ok.mp h
    cases h
    refine ⟨?_, ClockTime.isOnClock_of_ofValue htime⟩
    obtain ⟨given, -, hday⟩ := bind_eq_ok.mp hday
    split at hday
    · next hrange =>
        cases hday
        omega
    · cases hday
  · obtain ⟨entries, -, h⟩ := bind_eq_ok.mp h
    obtain ⟨time, htime, h⟩ := bind_eq_ok.mp h
    cases h
    exact ClockTime.isOnClock_of_ofCron htime
  · cases h

/-! Later times -/

variable {clock next : DateTime} {time : ClockTime}

/-- What is found on a later day is later. -/
theorem wall_lt_of_day (hclock : clock.IsShown) (h : clock.date.ordinal < next.date.ordinal) :
    clock.wallMicros < next.wallMicros := by
  have hstart : next.date.ordinal * microsPerDay ≤ next.wallMicros := Nat.le_add_right _ _
  have hmul := Nat.mul_le_mul_right microsPerDay (Nat.succ_le_of_lt h)
  exact Nat.lt_of_lt_of_le hclock.wallMicros_bounds.2 (Nat.le_trans hmul hstart)

/-- What a recurrence finds is later on the wall, and its clock was moved on or set. -/
structure Later (clock next : DateTime) : Prop where
  wall : clock.wallMicros < next.wallMicros
  moves : MovesOn clock next
  year : 1 ≤ next.date.year

theorem later_of_addDays? {days : Int} {date : Date} (hclock : clock.IsShown) (hdays : 1 ≤ days)
    (h : clock.date.addDays? days = some date) (time : TimeOfDay) :
    Later clock { date, time, zone := clock.zone.first } := by
  obtain ⟨hordinal, hyear⟩ := Date.addDays?_eq_some h
  have hday : clock.date.ordinal < date.ordinal := by omega
  exact ⟨wall_lt_of_day hclock hday, .moved rfl hday, hyear⟩

theorem ofCalendar_eq_ok {α : Type} {found : Option α} {a : α} (h : ofCalendar found = .ok a) :
    found = some a := by
  cases found with
  | none => cases h
  | some a' =>
      cases h
      rfl

theorem nextDaily_later (hclock : clock.IsShown) (htime : time.isOnClock = true)
    (h : nextDaily time clock = .ok next) : Later clock next := by
  unfold nextDaily at h
  dsimp only at h
  split at h
  · next hlt =>
      cases h
      exact ⟨of_decide_eq_true hlt, .set rfl (ClockTime.micros_lt htime) (.inl rfl), hclock.year⟩
  · obtain ⟨date, hdate, rfl⟩ := Option.map_eq_some_iff.mp (ofCalendar_eq_ok h)
    exact later_of_addDays? hclock (Int.le_refl 1) hdate _

theorem one_le_daysUntil (weekday : Nat) (today : Date) : 1 ≤ daysUntil weekday today := by
  unfold daysUntil
  dsimp only
  split
  · decide
  · next hdays => exact Nat.one_le_iff_ne_zero.mpr hdays

theorem nextWeekly_later {weekday : Nat} (hclock : clock.IsShown)
    (h : nextWeekly weekday time clock = .ok next) : Later clock next := by
  unfold nextWeekly at h
  obtain ⟨day, hday, h⟩ := bind_eq_ok.mp h
  cases h
  obtain ⟨date, hdate, rfl⟩ := Option.map_eq_some_iff.mp (ofCalendar_eq_ok hday)
  have hdays := one_le_daysUntil weekday clock.date
  exact later_of_addDays? hclock (by omega) hdate _

theorem one_le_monthDay {day : Nat} (hday : 1 ≤ day) (year month : Nat) :
    1 ≤ (monthDate year month day).day :=
  Nat.le_min.mpr ⟨hday, Nat.le_trans (by decide) (daysInMonth_bounds year month).1⟩

theorem nextMonthly_later {day : Nat} (hclock : clock.IsShown) (hday : 1 ≤ day)
    (htime : time.isOnClock = true) (h : nextMonthly day time clock = .ok next) :
    Later clock next := by
  have hmicros := ClockTime.micros_lt htime
  unfold nextMonthly at h
  dsimp only at h
  split at h
  · next hlt =>
      cases h
      exact ⟨of_decide_eq_true hlt, .set rfl hmicros (.inl rfl), hclock.year⟩
  · split at h
    · cases h
      have hlater := Date.ordinal_lt_nextMonth hclock.month.1 hclock.day.2
        (one_le_monthDay hday clock.date.year (clock.date.month + 1))
      exact ⟨wall_lt_of_day hclock hlater, .set rfl hmicros (.inl rfl), hclock.year⟩
    · next hmonth =>
        split at h
        · cases h
          have hdecember : clock.date.month = 12 := by
            have := hclock.month.2
            omega
          have hlater := Date.ordinal_lt_nextYear hclock.year hdecember hclock.day.2
            (one_le_monthDay hday (clock.date.year + 1) 1)
          have hjanuary : (monthDate (clock.date.year + 1) 1 day).ordinal ≤
              daysBeforeYear (clock.date.year + 1) + 31 := by
            exact Nat.add_le_add_left (Nat.min_le_right day 31) _
          refine ⟨wall_lt_of_day hclock hlater, .set rfl hmicros (.inr ⟨rfl, hjanuary⟩), ?_⟩
          exact Nat.le_add_left 1 clock.date.year
        · cases h

theorem next_later {recurrence : Recurrence} (hclock : clock.IsShown) (hfits : recurrence.Fits)
    (h : recurrence.next clock = .ok next) : Later clock next := by
  cases recurrence with
  | daily time => exact nextDaily_later hclock hfits h
  | weekly weekday time => exact nextWeekly_later hclock h
  | monthly day time => exact nextMonthly_later hclock hfits.1 hfits.2 h

/-! The day of the next time -/

/-- The number of the day of the next time, on a calendar without an end. -/
def slotDay (clock : DateTime) : Recurrence → Nat
  | daily time =>
      if clock.wallLt { clock with time := time.toTimeOfDay } then clock.date.ordinal
      else clock.date.ordinal + 1
  | weekly weekday _ => clock.date.ordinal + daysUntil weekday clock.date
  | monthly day time =>
      let year := clock.date.year
      let month := clock.date.month
      let thisMonth := monthDate year month day
      if clock.wallLt ⟨thisMonth, time.toTimeOfDay, clock.zone⟩ then thisMonth.ordinal
      else if month < 12 then (monthDate year (month + 1) day).ordinal
      else (monthDate (year + 1) 1 day).ordinal

/-- The day after the last one of the calendar. -/
def pastEnd : Date := ⟨Date.lastYear + 1, 1, 1⟩

theorem ordinal_pastEnd : pastEnd.ordinal = Date.lastOrdinal + 1 := by decide

theorem addDays?_of_lt {date : Date} {days : Nat} (hdays : 1 ≤ days)
    (h : date.ordinal + days < pastEnd.ordinal) :
    ∃ later, date.addDays? days = some later ∧ later.ordinal = date.ordinal + days := by
  rw [ordinal_pastEnd] at h
  have hin : 1 ≤ (date.ordinal : Int) + days ∧ (date.ordinal : Int) + days ≤ Date.lastOrdinal := by
    omega
  have hspec := (Date.ofOrdinal_spec (n := ((date.ordinal : Int) + days).toNat) (by omega)).1
  refine ⟨_, if_pos hin, ?_⟩
  rw [hspec]
  omega

/-- No day of January is before the end of the calendar once the last year is over. -/
theorem lt_lastYear_of_ordinal {year day : Nat} (hday : 1 ≤ day)
    (h : (monthDate (year + 1) 1 day).ordinal < pastEnd.ordinal) : year < Date.lastYear := by
  by_contra hlast
  have hyears := daysBeforeYear_mono (show 1 ≤ Date.lastYear + 1 by decide)
    (Nat.add_le_add_right (Nat.le_of_not_lt hlast) 1)
  have hone := one_le_monthDay hday (year + 1) 1
  unfold Date.ordinal monthDate at h
  unfold monthDate at hone
  change _ < daysBeforeYear (Date.lastYear + 1) + 0 + 1 at h
  dsimp only at h hone
  omega

theorem slotDay_le {recurrence : Recurrence} (hclock : clock.IsShown) :
    slotDay clock recurrence ≤ clock.date.ordinal + 62 := by
  have hday := hclock.day.1
  cases recurrence with
  | daily time =>
      unfold slotDay
      dsimp only
      split
      · omega
      · omega
  | weekly weekday time =>
      have hweek : daysUntil weekday clock.date ≤ 7 := by
        unfold daysUntil
        dsimp only
        split
        · exact Nat.le_refl 7
        · omega
      exact Nat.add_le_add_left (Nat.le_trans hweek (by decide)) _
  | monthly day time =>
      have hshort : ∀ year month, (monthDate year month day).ordinal ≤
          daysBeforeYear year + daysBeforeMonth year month + 31 := fun year month =>
        Nat.add_le_add_left
          (Nat.le_trans (Nat.min_le_right day _) (daysInMonth_bounds year month).2) _
      have hthis : daysBeforeYear clock.date.year +
          daysBeforeMonth clock.date.year clock.date.month + 1 ≤ clock.date.ordinal :=
        Nat.add_le_add_left hday _
      have hlong := (daysInMonth_bounds clock.date.year clock.date.month).2
      unfold slotDay
      dsimp only
      split
      · have hslot := hshort clock.date.year clock.date.month
        omega
      · split
        · have hslot := hshort clock.date.year (clock.date.month + 1)
          rw [daysBeforeMonth_succ _ hclock.month.1] at hslot
          omega
        · next hmonth =>
            have hdecember : clock.date.month = 12 := by
              have := hclock.month.2
              omega
            have hslot := hshort (clock.date.year + 1) 1
            have hyear := (daysBeforeMonth_eq clock.date.year).2.2.2
            rw [daysBeforeMonth_succ _ (by decide)] at hyear
            rw [daysBeforeYear_succ hclock.year] at hslot
            rw [hdecember] at hthis hlong
            change _ ≤ _ + 0 + 31 at hslot
            omega

/-- There is a next time on its day, if that day is before the end of the calendar. -/
theorem next_of_slotDay {recurrence : Recurrence} (hfits : recurrence.Fits)
    (h : slotDay clock recurrence < pastEnd.ordinal) :
    ∃ slot, recurrence.next clock = .ok slot ∧ slot.date.ordinal = slotDay clock recurrence ∧
      slot.time.micros < microsPerDay := by
  cases recurrence with
  | daily time =>
      have hmicros := ClockTime.micros_lt hfits
      unfold slotDay at h ⊢
      unfold next nextDaily
      dsimp only at h ⊢
      by_cases hlt : clock.wallLt { clock with time := time.toTimeOfDay } = true
      · rw [if_pos hlt, if_pos hlt]
        exact ⟨_, rfl, rfl, hmicros⟩
      · rw [if_neg hlt] at h
        obtain ⟨later, hlater, hordinal⟩ := addDays?_of_lt (Nat.le_refl 1) h
        have htomorrow : clock.date.addDays? 1 = some later := hlater
        rw [if_neg hlt, if_neg hlt]
        unfold DateTime.addDays?
        rw [htomorrow]
        exact ⟨_, rfl, hordinal, hmicros⟩
  | weekly weekday time =>
      obtain ⟨later, hlater, hordinal⟩ := addDays?_of_lt (one_le_daysUntil weekday clock.date) h
      unfold next nextWeekly DateTime.addDays?
      dsimp only
      rw [hlater]
      exact ⟨_, rfl, hordinal, ClockTime.micros_lt hfits⟩
  | monthly day time =>
      have hmicros := ClockTime.micros_lt hfits.2
      unfold slotDay at h ⊢
      unfold next nextMonthly
      dsimp only at h ⊢
      split at h
      · next hlt =>
          rw [if_pos hlt, if_pos hlt]
          exact ⟨_, rfl, rfl, hmicros⟩
      · next hlt =>
          rw [if_neg hlt, if_neg hlt]
          split at h
          · next hmonth =>
              rw [if_pos hmonth, if_pos hmonth]
              exact ⟨_, rfl, rfl, hmicros⟩
          · next hmonth =>
              rw [if_neg hmonth, if_neg hmonth, if_pos (lt_lastYear_of_ordinal hfits.1 h)]
              exact ⟨_, rfl, rfl, hmicros⟩

end Recurrence

end TenantReports
