import Mathlib.Logic.ExistsUnique
import TenantReports.Proofs.Calendar.Span
import TenantReports.Proofs.Schedule.Given

/-!
The slots of a recurrence, and the next one. What follows a clock is the first slot that the
recurrence awaits there, and it is found wherever the calendar has one; a recurrence by the month
goes through the months one by one, whatever days they have.
-/

namespace TenantReports

theorem Zone.first_first (zone : Zone) : zone.first.first = zone.first := by
  cases zone with
  | _ => rfl

namespace Recurrence

/-- The time of the day at which a recurrence takes place. -/
def clockTime : Recurrence → ClockTime
  | daily time => time
  | weekly _ time => time
  | monthly _ time => time

/-- Whether a recurrence takes place on a date. -/
def IsOn : Recurrence → Date → Prop
  | daily _, _ => True
  | weekly weekday _, date => (date.weekday + 1) % 7 = weekday
  | monthly day _, date => date.day = min day (daysInMonth date.year date.month)

/-- A time at which a recurrence takes place. -/
structure IsSlot (recurrence : Recurrence) (t : DateTime) : Prop where
  date : t.date.IsValid
  on : recurrence.IsOn t.date
  time : t.time = ⟨recurrence.clockTime.hour, recurrence.clockTime.minute, 0, 0⟩

/-- Whether a recurrence awaits a time: by the week, one on a later day; else, one that is later on
the wall. -/
def Awaits : Recurrence → (clock t : DateTime) → Prop
  | weekly _ _, clock, t => clock.date.ordinal < t.date.ordinal
  | _, clock, t => clock.wallMicros < t.wallMicros

/-- The first slot that a recurrence awaits. -/
structure IsNextSlot (recurrence : Recurrence) (clock next : DateTime) : Prop where
  slot : recurrence.IsSlot next
  later : clock.wallMicros < next.wallMicros
  awaited : recurrence.Awaits clock next
  first : ∀ other, recurrence.IsSlot other → recurrence.Awaits clock other →
    next.wallMicros ≤ other.wallMicros

variable {recurrence : Recurrence} {clock t t' : DateTime}

/-! Slots in the order of their days -/

theorem IsSlot.wallMicros_le (h : recurrence.IsSlot t) (h' : recurrence.IsSlot t')
    (hday : t.date.ordinal ≤ t'.date.ordinal) : t.wallMicros ≤ t'.wallMicros := by
  unfold DateTime.wallMicros
  rw [h.time, h'.time]
  exact Nat.add_le_add_right (Nat.mul_le_mul_right _ hday) _

theorem Fits.isOnClock (h : recurrence.Fits) : recurrence.clockTime.isOnClock = true := by
  cases recurrence with
  | daily time => exact h
  | weekly weekday time => exact h
  | monthly day time => exact h.2

theorem IsSlot.micros_lt (h : recurrence.IsSlot t) (hfits : recurrence.Fits) :
    t.time.micros < microsPerDay := by
  rw [h.time]
  exact ClockTime.micros_lt hfits.isOnClock

theorem IsSlot.ordinal_le (h : recurrence.IsSlot t) (hfits : recurrence.Fits)
    (hclock : clock.IsShown) (hlater : clock.wallMicros < t.wallMicros) :
    clock.date.ordinal ≤ t.date.ordinal :=
  hclock.ordinal_le hlater (h.micros_lt hfits)

section Monthly

variable {day : Nat} {time : ClockTime} {date date' : Date}

theorem isValid_monthDate {year month : Nat} (hday : 1 ≤ day) (hyear : 1 ≤ year)
    (hlast : year ≤ Date.lastYear) (hmonth : 1 ≤ month) (hmonths : month ≤ 12) :
    (monthDate year month day).IsValid :=
  ⟨hyear, hlast, hmonth, hmonths, one_le_monthDay hday year month, Nat.min_le_right _ _⟩

/-- A recurrence by the month takes place on one day of each month. -/
theorem isOn_monthly_iff :
    (monthly day time).IsOn date ↔ date = monthDate date.year date.month day := by
  cases date with
  | mk year month d =>
      change d = min day (daysInMonth year month) ↔ _
      simp [monthDate]

theorem ordinal_le_of_monthNumber (h : date.IsValid) (h' : date'.IsValid)
    (hon : (monthly day time).IsOn date) (hon' : (monthly day time).IsOn date')
    (hle : date.monthNumber ≤ date'.monthNumber) : date.ordinal ≤ date'.ordinal := by
  rcases Nat.lt_or_eq_of_le hle with hlt | heq
  · exact Nat.le_of_lt (h.ordinal_lt_of_monthNumber h' hlt)
  · obtain ⟨hyear, hmonth⟩ := h.monthNumber_inj h' heq
    rw [isOn_monthly_iff] at hon hon'
    rw [hon, hon', hyear, hmonth]

/-- The day of the month after that of a date. -/
def monthAfter (date : Date) (day : Nat) : Date :=
  if date.month < 12 then monthDate date.year (date.month + 1) day
  else monthDate (date.year + 1) 1 day

theorem isOn_monthDate (year month : Nat) : (monthly day time).IsOn (monthDate year month day) :=
  rfl

theorem isOn_monthAfter : (monthly day time).IsOn (monthAfter date day) := by
  unfold monthAfter
  split
  · exact isOn_monthDate _ _
  · exact isOn_monthDate _ _

theorem monthNumber_monthAfter (h : date.IsValid) :
    (monthAfter date day).monthNumber = date.monthNumber + 1 := by
  obtain ⟨-, -, -, hmonth, -⟩ := h
  unfold monthAfter Date.monthNumber monthDate
  split
  · rfl
  · dsimp only
    omega

theorem isValid_monthAfter (h : date.IsValid) (hday : 1 ≤ day)
    (hlast : date.monthNumber < Date.lastMonthNumber) : (monthAfter date day).IsValid := by
  obtain ⟨hyear, hlastYear, hone, hmonth, -⟩ := h
  unfold Date.monthNumber Date.lastMonthNumber at hlast
  unfold monthAfter
  split
  · next hearly => exact isValid_monthDate hday hyear hlastYear (by omega) (by omega)
  · exact isValid_monthDate hday (by omega) (by omega) (by omega) (by omega)

/-- The slot of a month, by the clock's zone. -/
def monthSlot (clock : DateTime) (time : ClockTime) (date : Date) : DateTime :=
  ⟨date, time.toTimeOfDay, clock.zone⟩

theorem isSlot_monthSlot (clock : DateTime) (h : date.IsValid)
    (hon : (monthly day time).IsOn date) : (monthly day time).IsSlot (monthSlot clock time date) :=
  ⟨h, hon, rfl⟩

/-- The slot of the clock's own month. -/
def thisMonth (clock : DateTime) (day : Nat) (time : ClockTime) : DateTime :=
  monthSlot clock time (monthDate clock.date.year clock.date.month day)

theorem isSlot_thisMonth (time : ClockTime) (hdate : clock.date.IsValid) (hday : 1 ≤ day) :
    (monthly day time).IsSlot (thisMonth clock day time) := by
  obtain ⟨hyear, hlast, hmonth, hmonths, -⟩ := hdate
  exact isSlot_monthSlot clock (isValid_monthDate hday hyear hlast hmonth hmonths)
    (isOn_monthDate _ _)

theorem nextMonthly_eq (hdate : clock.date.IsValid) :
    nextMonthly day time clock =
      if clock.wallLt (thisMonth clock day time) then .ok (thisMonth clock day time)
      else if clock.date.monthNumber < Date.lastMonthNumber then
        .ok (monthSlot clock time (monthAfter clock.date day))
      else .error (.calendar (.year (clock.date.year + 1))) := by
  obtain ⟨-, hyear, -, hmonth, -⟩ := hdate
  unfold nextMonthly thisMonth monthSlot monthAfter Date.monthNumber Date.lastMonthNumber
  dsimp only
  split
  · rfl
  · split
    · rw [if_pos (by omega)]
    · split
      · rw [if_pos (by omega)]
      · rw [if_neg (by omega)]

theorem slotDay_monthly (clock : DateTime) :
    slotDay clock (monthly day time) =
      if clock.wallLt (thisMonth clock day time) then (thisMonth clock day time).date.ordinal
      else (monthAfter clock.date day).ordinal := by
  unfold slotDay thisMonth monthSlot monthAfter
  dsimp only
  rw [apply_ite Date.ordinal]

end Monthly

/-! The day of the next slot -/

/-- No slot that is awaited comes before the day that is found. -/
theorem slotDay_le_of_isSlot (hdate : clock.date.IsValid) (hclock : clock.IsShown)
    (hfits : recurrence.Fits) (hslot : recurrence.IsSlot t) (hawaits : recurrence.Awaits clock t) :
    slotDay clock recurrence ≤ t.date.ordinal := by
  cases recurrence with
  | daily time =>
      have hday := hslot.ordinal_le hfits hclock hawaits
      unfold slotDay
      dsimp only
      split
      · exact hday
      · next hpast =>
          have htoday : IsSlot (daily time) { clock with time := time.toTimeOfDay } :=
            ⟨hdate, trivial, rfl⟩
          refine Nat.succ_le_of_lt (Nat.lt_of_le_of_ne hday fun heq => hpast ?_)
          have hwall := hslot.wallMicros_le htoday (Nat.le_of_eq heq.symm)
          exact decide_eq_true (Nat.lt_of_lt_of_le hawaits hwall)
  | weekly weekday time =>
      have hlater : clock.date.ordinal < t.date.ordinal := hawaits
      have hon : (t.date.weekday + 1) % 7 = weekday := hslot.on
      unfold slotDay daysUntil
      unfold Date.weekday at *
      dsimp only
      split
      · omega
      · omega
  | monthly day time =>
      have hday := hslot.ordinal_le hfits hclock hawaits
      have hmonth : clock.date.monthNumber ≤ t.date.monthNumber := Nat.le_of_not_lt fun hlt =>
        absurd (hslot.date.ordinal_lt_of_monthNumber hdate hlt) (Nat.not_lt.mpr hday)
      have hthis := isSlot_thisMonth time hdate hfits.1
      rw [slotDay_monthly]
      split
      · exact ordinal_le_of_monthNumber hthis.date hslot.date hthis.on hslot.on hmonth
      · next hpast =>
          -- The slot of this month is over, so what is awaited lies in a later one.
          have hlater : clock.date.monthNumber < t.date.monthNumber := by
            refine Nat.lt_of_le_of_ne hmonth fun heq => hpast ?_
            have hsame := ordinal_le_of_monthNumber hslot.date hthis.date hslot.on hthis.on
              (Nat.le_of_eq heq.symm)
            exact decide_eq_true (Nat.lt_of_lt_of_le hawaits (hslot.wallMicros_le hthis hsame))
          have hlast := Nat.lt_of_lt_of_le hlater hslot.date.monthNumber_le
          have hvalid := isValid_monthAfter hdate hfits.1 hlast
          refine ordinal_le_of_monthNumber hvalid hslot.date isOn_monthAfter
            hslot.on ?_
          rw [monthNumber_monthAfter hdate]
          exact hlater

/-! What is found -/

/-- Whether a recurrence by the week has one of the seven weekdays. -/
def InWeek : Recurrence → Prop
  | weekly weekday _ => weekday ≤ 6
  | _ => True

theorem IsGivenBy.inWeek {type : String} {config : Value} (h : recurrence.IsGivenBy config type) :
    recurrence.InWeek := by
  cases h with
  | weekly read clock given last => exact last
  | _ => trivial

theorem weekday_of_daysUntil {weekday : Nat} {today date : Date} (hweekday : weekday ≤ 6)
    (h : date.ordinal = today.ordinal + daysUntil weekday today) :
    (date.weekday + 1) % 7 = weekday := by
  unfold daysUntil Date.weekday at h
  unfold Date.weekday
  dsimp only at h
  split at h
  · omega
  · omega

/-- What is found is a slot on the day of the next one, by a clock of the same zone. -/
theorem next_spec (hdate : clock.date.IsValid) (hfits : recurrence.Fits)
    (hweek : recurrence.InWeek) (h : recurrence.next clock = .ok t) :
    recurrence.IsSlot t ∧ t.date.ordinal = slotDay clock recurrence ∧
      t.zone.first = clock.zone.first := by
  cases recurrence with
  | daily time =>
      change nextDaily time clock = _ at h
      unfold nextDaily at h
      unfold slotDay
      dsimp only at h ⊢
      split at h
      · next hlt =>
          cases h
          rw [if_pos hlt]
          exact ⟨⟨hdate, trivial, rfl⟩, rfl, rfl⟩
      · next hlt =>
          obtain ⟨date, hadd, rfl⟩ := Option.map_eq_some_iff.mp (ofCalendar_eq_ok h)
          have hordinal := (Date.addDays?_eq_some hadd).1
          rw [if_neg hlt]
          exact ⟨⟨Date.isValid_of_addDays? hadd, trivial, rfl⟩, Int.ofNat_inj.mp hordinal,
            Zone.first_first _⟩
  | weekly weekday time =>
      obtain ⟨day, hday, h⟩ := bind_eq_ok.mp h
      cases h
      obtain ⟨date, hadd, rfl⟩ := Option.map_eq_some_iff.mp (ofCalendar_eq_ok hday)
      have hordinal := Int.ofNat_inj.mp (Date.addDays?_eq_some hadd).1
      exact ⟨⟨Date.isValid_of_addDays? hadd, weekday_of_daysUntil hweek hordinal, rfl⟩, hordinal,
        Zone.first_first _⟩
  | monthly day time =>
      have hfound : nextMonthly day time clock = .ok t := h
      rw [nextMonthly_eq hdate] at hfound
      rw [slotDay_monthly]
      split at hfound
      · next hlt =>
          cases hfound
          rw [if_pos hlt]
          exact ⟨isSlot_thisMonth time hdate hfits.1, rfl, rfl⟩
      · next hlt =>
          rw [if_neg hlt]
          split at hfound
          · next hlast =>
              cases hfound
              have hvalid := isValid_monthAfter hdate hfits.1 hlast
              exact ⟨isSlot_monthSlot clock hvalid isOn_monthAfter, rfl, rfl⟩
          · cases hfound

theorem isNextSlot_of_next (hdate : clock.date.IsValid) (hclock : clock.IsShown)
    (hfits : recurrence.Fits) (hweek : recurrence.InWeek) (h : recurrence.next clock = .ok t) :
    recurrence.IsNextSlot clock t := by
  obtain ⟨hslot, hday, -⟩ := next_spec hdate hfits hweek h
  have hlater := (next_later hclock hfits h).wall
  refine ⟨hslot, hlater, ?_, fun other hother hawaits => hslot.wallMicros_le hother ?_⟩
  · cases recurrence with
    | daily time => exact hlater
    | weekly weekday time =>
        have hdays := one_le_daysUntil weekday clock.date
        change t.date.ordinal = clock.date.ordinal + daysUntil weekday clock.date at hday
        change clock.date.ordinal < t.date.ordinal
        omega
    | monthly day time => exact hlater
  · rw [hday]
    exact slotDay_le_of_isSlot hdate hclock hfits hother hawaits

/-- Where the calendar has a slot that is awaited, one is found. -/
theorem next_of_awaits (hdate : clock.date.IsValid) (hclock : clock.IsShown)
    (hfits : recurrence.Fits) (hslot : recurrence.IsSlot t) (hawaits : recurrence.Awaits clock t) :
    ∃ next, recurrence.next clock = .ok next := by
  have hday := slotDay_le_of_isSlot hdate hclock hfits hslot hawaits
  have hlast := Nat.le_trans hday hslot.date.ordinal_le
  have hend : slotDay clock recurrence < pastEnd.ordinal := by
    rw [ordinal_pastEnd]
    exact Nat.lt_succ_of_le hlast
  obtain ⟨next, hnext, -⟩ := next_of_slotDay hfits hend
  exact ⟨next, hnext⟩

theorem nextRun_eq {type : String} {config : Value} (h : ofConfig type config = .ok recurrence)
    (clock : DateTime) : nextRun type config clock = recurrence.next clock := by
  unfold nextRun
  rw [h]
  rfl

/-! Run after run -/

/-- What is found after so many runs, each of which is found from the one before. -/
def runsAfter (type : String) (config : Value) : (count : Nat) → DateTime → Result DateTime
  | 0, clock => .ok clock
  | count + 1, clock => runsAfter type config count clock >>= nextRun type config

/-- From a run on, every month to the end of the calendar has one run, and each run is a slot. -/
structure VisitsMonths (recurrence : Recurrence) (type : String) (config : Value)
    (run : DateTime) : Prop where
  slots : ∀ count later, runsAfter type config count run = .ok later → recurrence.IsSlot later
  months : ∀ month : Date, month.IsValid → run.date.monthNumber ≤ month.monthNumber →
    ∃! count, ∃ later, runsAfter type config count run = .ok later ∧
      later.date.year = month.year ∧ later.date.month = month.month

section Months

variable {type : String} {config : Value} {day : Nat} {time : ClockTime}

/-- From the slot of a month the one of the month after it is found. -/
theorem next_of_slot (hday : 1 ≤ day) (hslot : (monthly day time).IsSlot t) :
    (monthly day time).next t =
      if t.date.monthNumber < Date.lastMonthNumber then
        .ok (monthSlot t time (monthAfter t.date day))
      else .error (.calendar (.year (t.date.year + 1))) := by
  have hsame : (thisMonth t day time).date = t.date := (isOn_monthly_iff.mp hslot.on).symm
  have hwall := (isSlot_thisMonth time hslot.date hday).wallMicros_le hslot
    (Nat.le_of_eq (congrArg Date.ordinal hsame))
  change nextMonthly day time t = _
  rw [nextMonthly_eq hslot.date, if_neg]
  exact fun hlt => absurd (of_decide_eq_true hlt) (Nat.not_lt.mpr hwall)

theorem month_of_runsAfter (hconfig : ofConfig type config = .ok (monthly day time))
    (hslot : (monthly day time).IsSlot t) {count : Nat} {later : DateTime}
    (h : runsAfter type config count t = .ok later) :
    (monthly day time).IsSlot later ∧ later.date.monthNumber = t.date.monthNumber + count := by
  have hday := (fits_of_ofConfig hconfig).1
  induction count generalizing later with
  | zero =>
      cases h
      exact ⟨hslot, rfl⟩
  | succ count ih =>
      obtain ⟨before, hbefore, h⟩ := bind_eq_ok.mp h
      obtain ⟨hslot', hmonth⟩ := ih hbefore
      rw [nextRun_eq hconfig, next_of_slot hday hslot'] at h
      split at h
      · next hlast =>
          cases h
          have hvalid := isValid_monthAfter hslot'.date hday hlast
          refine ⟨isSlot_monthSlot before hvalid isOn_monthAfter, ?_⟩
          change (monthAfter before.date day).monthNumber = _
          rw [monthNumber_monthAfter hslot'.date, hmonth]
          rfl
      · cases h

theorem exists_runsAfter (hconfig : ofConfig type config = .ok (monthly day time))
    (hslot : (monthly day time).IsSlot t) {count : Nat}
    (h : t.date.monthNumber + count ≤ Date.lastMonthNumber) :
    ∃ later, runsAfter type config count t = .ok later := by
  have hday := (fits_of_ofConfig hconfig).1
  induction count with
  | zero => exact ⟨t, rfl⟩
  | succ count ih =>
      obtain ⟨before, hbefore⟩ := ih (Nat.le_of_succ_le h)
      obtain ⟨hslot', hmonth⟩ := month_of_runsAfter hconfig hslot hbefore
      have hlast : before.date.monthNumber < Date.lastMonthNumber := hmonth ▸ h
      let later := monthSlot before time (monthAfter before.date day)
      refine ⟨later, bind_eq_ok.mpr ⟨before, hbefore, ?_⟩⟩
      rw [nextRun_eq hconfig, next_of_slot hday hslot', if_pos hlast]

theorem visitsMonths (hconfig : ofConfig type config = .ok (monthly day time))
    (hslot : (monthly day time).IsSlot t) : (monthly day time).VisitsMonths type config t := by
  refine ⟨fun count later h => (month_of_runsAfter hconfig hslot h).1, fun month hmonth hle => ?_⟩
  have hlast := hmonth.monthNumber_le
  obtain ⟨count, hcount⟩ := Nat.exists_eq_add_of_le hle
  obtain ⟨later, hlater⟩ := exists_runsAfter hconfig hslot (hcount ▸ hlast)
  obtain ⟨hslot', hnumber⟩ := month_of_runsAfter hconfig hslot hlater
  have hfound := hnumber.trans hcount.symm
  refine ⟨count, ⟨later, hlater, hslot'.date.monthNumber_inj hmonth hfound⟩, ?_⟩
  rintro count' ⟨other, hother, hyear, hsame⟩
  obtain ⟨-, hcount'⟩ := month_of_runsAfter hconfig hslot hother
  have hthere : other.date.monthNumber = month.monthNumber := by
    unfold Date.monthNumber
    rw [hyear, hsame]
  omega

end Months

/-- The next run after a clock is the first slot that the configured recurrence awaits there, by a
clock of the same zone. It is found wherever the calendar has such a slot. Run after run, a
recurrence by the month visits every month once. -/
theorem nextRun_isNextSlot {type : String} {config : Value} {recurrence : Recurrence}
    {clock : DateTime} (hconfig : ofConfig type config = .ok recurrence)
    (hdate : clock.date.IsValid) (htime : clock.time.IsValid) :
    recurrence.IsGivenBy config type ∧
    ((∃ next, nextRun type config clock = .ok next) ↔
      ∃ slot, recurrence.IsSlot slot ∧ recurrence.Awaits clock slot) ∧
    ∀ next, nextRun type config clock = .ok next →
      next.zone.first = clock.zone.first ∧ recurrence.IsNextSlot clock next ∧
      ∀ day time, recurrence = monthly day time → recurrence.VisitsMonths type config next := by
  have hgiven := isGivenBy_of_ofConfig hconfig
  have hfits := fits_of_ofConfig hconfig
  have hclock := DateTime.isShown_of_isValid hdate htime
  rw [nextRun_eq hconfig]
  refine ⟨hgiven, ⟨?_, ?_⟩, fun next hnext => ?_⟩
  · rintro ⟨next, hnext⟩
    have hfirst := isNextSlot_of_next hdate hclock hfits hgiven.inWeek hnext
    exact ⟨next, hfirst.slot, hfirst.awaited⟩
  · rintro ⟨slot, hslot, hawaits⟩
    exact next_of_awaits hdate hclock hfits hslot hawaits
  · obtain ⟨hslot, -, hzone⟩ := next_spec hdate hfits hgiven.inWeek hnext
    refine ⟨hzone, isNextSlot_of_next hdate hclock hfits hgiven.inWeek hnext, ?_⟩
    rintro day time rfl
    exact visitsMonths hconfig hslot

/-- The end of January is over; the next run is on the last day of February in a leap year, by the
same clock, and the runs after it miss no month. -/
theorem nextRun_isNextSlot_of_leapYear :
    let config : Value := .mapping [(.text "day_of_month", .int 31), (.text "time", .text "9:30")]
    let clock : DateTime := ⟨⟨2024, 1, 31⟩, ⟨9, 30, 0, 1⟩, .region "Europe/Paris"⟩
    let next : DateTime := ⟨⟨2024, 2, 29⟩, ⟨9, 30, 0, 0⟩, .region "Europe/Paris"⟩
    ofConfig "monthly" config = .ok (monthly 31 ⟨9, 30⟩) ∧
      nextRun "monthly" config clock = .ok next ∧ (monthly 31 ⟨9, 30⟩).IsNextSlot clock next ∧
      (monthly 31 ⟨9, 30⟩).VisitsMonths "monthly" config next := by
  intro config clock next
  have hconfig : ofConfig "monthly" config = .ok (monthly 31 ⟨9, 30⟩) := by rfl
  have hnext : nextRun "monthly" config clock = .ok next := eq_ok_of_toOption (by decide +kernel)
  have hdate : clock.date.IsValid := by decide
  have htime : clock.time.IsValid := by decide
  obtain ⟨-, -, hfound⟩ := nextRun_isNextSlot hconfig hdate htime
  obtain ⟨-, hfirst, hvisits⟩ := hfound next hnext
  exact ⟨hconfig, hnext, hfirst, hvisits 31 ⟨9, 30⟩ rfl⟩

end Recurrence

end TenantReports
