import TenantReports.Proofs.Platform.Work
import TenantReports.Proofs.Schedule.Recurrence
import TenantReports.Proofs.Value.Mapping
import TenantReports.Schedule.Schedules

/-!
Finding the next run of a schedule by the clock of the reports' region. For a schedule that was
accepted before it fails only where the calendar ends, and what it finds is later than now. In all
years but the first and the last one, schedules that were accepted before have a next run.
-/

namespace TenantReports

open Recurrence (ofConfig ofCalendar_eq_ok)

namespace DateTime

/-- Whether a clock shows universal time. -/
def IsUniversal (t : DateTime) : Prop := t.inUniversal? = some t

instance (t : DateTime) : Decidable t.IsUniversal := by unfold IsUniversal; infer_instance

theorem IsUniversal.day_le_instant {t : DateTime} (h : t.IsUniversal) :
    (microsPerDay : Int) ≤ t.instant := by
  obtain ⟨-, hzone, hshown, -⟩ := ofWallMicros?_eq_some h
  have hinstant : t.instant = t.wallMicros := by
    unfold instant universal?
    rw [hzone]
    exact Int.sub_zero _
  have hfirst : 1 ≤ t.date.ordinal := Nat.le_trans hshown.day.1 (Nat.le_add_left _ _)
  have hwall := Nat.le_trans (Nat.mul_le_mul_right microsPerDay hfirst) hshown.wallMicros_bounds.1
  rw [hinstant]
  exact_mod_cast (Nat.one_mul microsPerDay) ▸ hwall

end DateTime

theorem Work.run_require {α : Type} (fault : Fault) (found : Option α) (p : Platform) :
    (Work.require fault found).run p = (found.elim (.error fault) .ok, p) := by
  cases found with
  | none => rfl
  | some a => rfl

namespace Schedules

/-- The clock of the reports' region at a point in time. -/
def clockBy (settings : Settings) (now : DateTime) : Result DateTime := do
  let region := settings.reports.timezone
  let _ ← (Region.ofName? region).elim (.error (.unknownRegion region)) .ok
  ofCalendar (now.inRegion? region)

/-- When a recurrence runs next after `now`, by the clock of the reports' region. -/
def nextRunBy (settings : Settings) (now : DateTime) (type : String) (config : Value) :
    Result DateTime := do
  let slot ← nextRun type config (← clockBy settings now)
  ofCalendar slot.inUniversal?

theorem run_regionalNow (p : Platform) : regionalNow.run p = (clockBy p.settings p.now, p) := by
  have hget : (MonadState.get : Work Platform).run p = (.ok p, p) := rfl
  unfold regionalNow clockBy
  rw [Action.run_bind, hget]
  dsimp only
  rw [Action.run_bind, Work.run_require]
  cases Region.ofName? p.settings.reports.timezone with
  | none => rfl
  | some region =>
      refine (Work.run_require _ _ p).trans ?_
      cases p.now.inRegion? p.settings.reports.timezone with
      | none => rfl
      | some clock => rfl

theorem run_nextRunAfter (type : String) (config : Value) (clock : DateTime) (p : Platform) :
    (nextRunAfter type config clock).run p =
      (do ofCalendar (← nextRun type config clock).inUniversal?, p) := by
  unfold nextRunAfter
  rw [Action.run_bind, Action.run_ofResult]
  cases nextRun type config clock with
  | error fault => rfl
  | ok slot =>
      refine (Work.run_require _ _ p).trans ?_
      cases hnext : slot.inUniversal? with
      | none => simp [bind, Except.bind, hnext, ofCalendar]
      | some next => simp [bind, Except.bind, hnext, ofCalendar]

theorem run_nextRunFromNow (type : String) (config : Value) (p : Platform) :
    (nextRunFromNow type config).run p = (nextRunBy p.settings p.now type config, p) := by
  unfold nextRunFromNow nextRunBy
  rw [Action.run_bind, run_regionalNow]
  cases clockBy p.settings p.now with
  | error fault => rfl
  | ok clock => exact run_nextRunAfter type config clock p

theorem nextRunBy_eq_ok {settings : Settings} {now next : DateTime} {type : String}
    {config : Value} (h : nextRunBy settings now type config = .ok next) :
    ∃ clock recurrence slot, (Region.ofName? settings.reports.timezone).isSome ∧
      now.inRegion? settings.reports.timezone = some clock ∧
      ofConfig type config = .ok recurrence ∧ recurrence.next clock = .ok slot ∧
      slot.inUniversal? = some next := by
  obtain ⟨clock, hclock, h⟩ := bind_eq_ok.mp h
  obtain ⟨slot, hslot, h⟩ := bind_eq_ok.mp h
  obtain ⟨recurrence, hrecurrence, hslot⟩ := bind_eq_ok.mp hslot
  obtain ⟨region, hregion, hclock⟩ := bind_eq_ok.mp hclock
  refine ⟨clock, recurrence, slot, ?_, ofCalendar_eq_ok hclock, hrecurrence, hslot,
    ofCalendar_eq_ok h⟩
  cases hname : Region.ofName? settings.reports.timezone with
  | none =>
      rw [hname] at hregion
      cases hregion
  | some region => rfl

/-- The next run is later than now. -/
theorem lt_nextRunBy {settings : Settings} {now next : DateTime} {type : String} {config : Value}
    (hnow : now.IsUniversal) (h : nextRunBy settings now type config = .ok next) :
    now.instant < next.instant := by
  obtain ⟨clock, recurrence, slot, -, hclock, hrecurrence, hslot, hnext⟩ := nextRunBy_eq_ok h
  have hshown := hclock
  unfold DateTime.inRegion? at hshown
  obtain ⟨region, -, hshown⟩ := Option.bind_eq_some_iff.mp hshown
  have hlater := Recurrence.next_later (DateTime.ofWallMicros?_eq_some hshown).2.2.1
    (Recurrence.fits_of_ofConfig hrecurrence) hslot
  exact DateTime.instant_lt_of_wall hnow.day_le_instant hclock hlater.wall hlater.moves hlater.year
    hnext

end Schedules

namespace Recurrence

theorem ofCalendar_eq_error {α : Type} {found : Option α} {fault : Fault}
    (h : ofCalendar found = .error fault) : fault = .calendar .outsideCalendar := by
  cases found with
  | none =>
      cases h
      rfl
  | some a => cases h

/-- The next time is found unless the calendar ends. -/
theorem next_eq_error {recurrence : Recurrence} {clock : DateTime} {fault : Fault}
    (h : recurrence.next clock = .error fault) : ∃ reason, fault = .calendar reason := by
  cases recurrence with
  | daily time =>
      unfold next nextDaily at h
      dsimp only at h
      split at h
      · cases h
      · exact ⟨_, ofCalendar_eq_error h⟩
  | weekly weekday time =>
      unfold next nextWeekly at h
      dsimp only at h
      cases hday : ofCalendar (clock.addDays? (daysUntil weekday clock.date)) with
      | error reason =>
          rw [hday] at h
          cases h
          exact ⟨_, ofCalendar_eq_error hday⟩
      | ok day =>
          rw [hday] at h
          cases h
  | monthly day time =>
      unfold next nextMonthly at h
      dsimp only at h
      split at h
      · cases h
      · split at h
        · cases h
        · split at h
          · cases h
          · cases h
            exact ⟨_, rfl⟩

end Recurrence

namespace Schedule

/-- A schedule whose next run can be found, as far as the calendar goes. -/
structure IsTimed (settings : Settings) (schedule : Schedule) : Prop where
  region : (Region.ofName? settings.reports.timezone).isSome
  recurrence : ∃ recurrence, ofConfig schedule.type schedule.config = .ok recurrence

theorem isTimed_of_nextRunBy {settings : Settings} {now next : DateTime} {schedule : Schedule}
    (h : Schedules.nextRunBy settings now schedule.type schedule.config = .ok next) :
    schedule.IsTimed settings := by
  obtain ⟨clock, recurrence, slot, hregion, -, hrecurrence, -⟩ := Schedules.nextRunBy_eq_ok h
  exact ⟨hregion, recurrence, hrecurrence⟩

/-- Whether a schedule's next run is the one after a point in time that its type and its
configuration give, by the clock of the reports' region. -/
def IsInStep (settings : Settings) (time : DateTime) (schedule : Schedule) : Prop :=
  ∃ next, Schedules.nextRunBy settings time schedule.type schedule.config = .ok next ∧
    schedule.nextRunAt = some next

theorem IsInStep.isTimed {settings : Settings} {time : DateTime} {schedule : Schedule}
    (h : schedule.IsInStep settings time) : schedule.IsTimed settings := by
  obtain ⟨next, hnext, -⟩ := h
  exact isTimed_of_nextRunBy hnext

theorem IsTimed.next {settings : Settings} {schedule : Schedule} (h : schedule.IsTimed settings)
    (now : DateTime) :
    (∃ next, Schedules.nextRunBy settings now schedule.type schedule.config = .ok next) ∨
    ∃ reason, Schedules.nextRunBy settings now schedule.type schedule.config =
      .error (.calendar reason) := by
  obtain ⟨recurrence, hrecurrence⟩ := h.recurrence
  obtain ⟨region, hregion⟩ := Option.isSome_iff_exists.mp h.region
  unfold Schedules.nextRunBy Schedules.clockBy nextRun
  dsimp only
  rw [hregion, hrecurrence]
  cases hclock : now.inRegion? settings.reports.timezone with
  | none => exact .inr ⟨_, rfl⟩
  | some clock =>
      change (∃ next, (recurrence.next clock >>= fun slot => ofCalendar slot.inUniversal?) =
        .ok next) ∨ ∃ reason, (recurrence.next clock >>= fun slot => ofCalendar slot.inUniversal?) =
          .error (.calendar reason)
      cases hslot : recurrence.next clock with
      | error fault =>
          obtain ⟨reason, rfl⟩ := Recurrence.next_eq_error hslot
          exact .inr ⟨reason, rfl⟩
      | ok slot =>
          cases hnext : slot.inUniversal? with
          | none => exact .inr ⟨.outsideCalendar, congrArg ofCalendar hnext⟩
          | some next => exact .inl ⟨next, congrArg ofCalendar hnext⟩

end Schedule

namespace Schedules

/-- Whether changes set what the next run of a schedule is found by. -/
def setsTimes (changes : Entries) : Bool :=
  changes.has (.text typeName) || changes.has (.text configName)

/-- The next run after changes: it is found anew, or nothing changes that it is found by. -/
theorem nextRunAfterChanges_eq_ok {p : Platform} {schedule : Schedule} {changes : Entries}
    {nextRunAt : Option DateTime}
    (h : (nextRunAfterChanges schedule changes).run p = (.ok nextRunAt, p)) :
    (setsTimes changes = true ∧ ∃ next, nextRunBy p.settings p.now (typeAfter schedule changes)
      (Change.documentColumn changes configName schedule.config) = .ok next ∧
        nextRunAt = some next) ∨
    (setsTimes changes = false ∧ nextRunAt = schedule.nextRunAt ∧
      typeAfter schedule changes = schedule.type ∧
      Change.documentColumn changes configName schedule.config = schedule.config) := by
  unfold nextRunAfterChanges at h
  split at h
  · next hset =>
      rw [Action.run_bind, run_nextRunFromNow] at h
      cases hfound : nextRunBy p.settings p.now (typeAfter schedule changes)
          (Change.documentColumn changes configName schedule.config) with
      | ok next =>
          rw [hfound] at h
          cases h
          exact .inl ⟨hset, next, rfl, rfl⟩
      | error fault =>
          rw [hfound] at h
          cases h
  · next hset =>
      have hunset := Bool.eq_false_of_not_eq_true hset
      obtain ⟨htype, hdocument⟩ := Bool.or_eq_false_iff.mp hunset
      cases h
      refine .inr ⟨hunset, rfl, ?_, ?_⟩
      · rw [typeAfter, Entries.field?_eq_none htype]
      · rw [Change.documentColumn, Entries.field?_eq_none hdocument]
        rfl

end Schedules

/-- Changes of the type or of the configuration are timed anew; other changes keep both. -/
theorem Schedule.IsTimed.rescheduled {p : Platform} {schedule changed : Schedule}
    {changes : Entries} {nextRunAt : Option DateTime} (h : schedule.IsTimed p.settings)
    (htimed : (Schedules.nextRunAfterChanges schedule changes).run p = (.ok nextRunAt, p))
    (hconfig : changed.config =
      Change.documentColumn changes Schedules.configName schedule.config) :
    IsTimed p.settings
      { changed with type := Schedules.typeAfter schedule changes, nextRunAt := nextRunAt } := by
  rcases Schedules.nextRunAfterChanges_eq_ok htimed with
    ⟨-, next, hnext, -⟩ | ⟨-, -, htype, hsame⟩
  · rw [← hconfig] at hnext
    exact isTimed_of_nextRunBy hnext
  · obtain ⟨recurrence, hrecurrence⟩ := h.recurrence
    refine ⟨h.region, recurrence, ?_⟩
    dsimp only
    rw [hconfig, hsame, htype]
    exact hrecurrence

/-! Years -/

open Recurrence (pastEnd slotDay)

namespace DateTime

/-- A point in universal time that is neither in the first nor in the last year. -/
structure IsWellWithin (t : DateTime) : Prop where
  universal : t.IsUniversal
  first : 1 < t.date.year
  last : t.date.year < Date.lastYear

theorem IsWellWithin.instant_bounds {t : DateTime} (h : t.IsWellWithin) :
    (366 : Int) * microsPerDay ≤ t.instant ∧
      t.instant < ((Date.lastOrdinal : Int) - 364) * microsPerDay := by
  obtain ⟨huniversal, hzone, hshown, hordinal, hyear⟩ := ofWallMicros?_eq_some h.universal
  have hinstant : t.instant = t.wallMicros := by
    unfold instant universal?
    rw [hzone]
    exact Int.sub_zero _
  obtain ⟨hlow, hhigh⟩ := hshown.wallMicros_bounds
  have hpositive : 1 ≤ t.date.ordinal := Nat.le_trans hshown.day.1 (Nat.le_add_left _ _)
  rw [← hordinal, Int.toNat_natCast] at hyear
  obtain ⟨-, hafter, hbefore⟩ := Date.yearOfOrdinal_spec hpositive
  rw [← hyear] at hafter hbefore
  have hsecond := daysBeforeYear_mono (by decide) (show 2 ≤ t.date.year from h.first)
  have hfinal := daysBeforeYear_mono (Nat.le_add_left 1 _) (show t.date.year + 1 ≤ 9999 from h.last)
  change 365 ≤ _ at hsecond
  change _ ≤ 3651694 at hfinal
  rw [hinstant]
  unfold microsPerDay Date.lastOrdinal at *
  omega

theorem ofWallMicros?_isSome {micros : Int} {zone : Zone} (hlow : (microsPerDay : Int) ≤ micros)
    (hhigh : micros < ((Date.lastOrdinal : Int) + 1) * microsPerDay) :
    ∃ t, ofWallMicros? micros zone = some t := by
  refine ⟨_, if_pos ⟨?_, ?_⟩⟩
  · unfold microsPerDay at *
    omega
  · unfold microsPerDay at *
    omega

end DateTime

namespace Region

variable {region : Region}

theorem offsetAt_bounds (h : region.IsModerate) (instant : Int) :
    -(2 * microsPerDay : Int) ≤ region.offsetAt instant ∧
      region.offsetAt instant ≤ 2 * microsPerDay := by
  obtain ⟨hlow, hhigh⟩ := standardMicros_bounds h
  have hhour : (0 : Int) ≤ microsPerHour ∧ microsPerHour ≤ microsPerDay := by decide
  rcases region.offsetAt_cases instant with heq | ⟨heq, -⟩
  · rw [heq]
    omega
  · rw [heq]
    omega

theorem offsetOfWall_bounds (h : region.IsModerate) (isLater : Bool) (wall : DateTime) :
    -(2 * microsPerDay : Int) ≤ region.offsetOfWall isLater wall ∧
      region.offsetOfWall isLater wall ≤ 2 * microsPerDay := by
  obtain ⟨hlow, hhigh⟩ := standardMicros_bounds h
  have hhour : (0 : Int) ≤ microsPerHour ∧ microsPerHour ≤ microsPerDay := by decide
  rcases region.offsetOfWall_cases isLater wall with heq | ⟨heq, -⟩
  · rw [heq]
    omega
  · rw [heq]
    omega

end Region

theorem DateTime.IsWellWithin.inRegion? {now : DateTime} {name : String} {region : Region}
    (h : now.IsWellWithin) (hregion : Region.ofName? name = some region) :
    ∃ clock, now.inRegion? name = some clock := by
  obtain ⟨hlow, hhigh⟩ := h.instant_bounds
  obtain ⟨hbehind, hahead⟩ :=
    Region.offsetAt_bounds (Region.isModerate_of_ofName? hregion) now.instant
  unfold DateTime.inRegion?
  rw [hregion]
  refine DateTime.ofWallMicros?_isSome ?_ ?_
  · unfold microsPerDay at *
    omega
  · unfold microsPerDay at *
    omega

/-- Well within the calendar there is always a next run. -/
theorem Schedule.IsTimed.nextRunBy_of_isWellWithin {settings : Settings} {schedule : Schedule}
    {now : DateTime} (h : schedule.IsTimed settings) (hnow : now.IsWellWithin) :
    ∃ next, Schedules.nextRunBy settings now schedule.type schedule.config = .ok next := by
  obtain ⟨recurrence, hrecurrence⟩ := h.recurrence
  obtain ⟨region, hregion⟩ := Option.isSome_iff_exists.mp h.region
  have hmoderate := Region.isModerate_of_ofName? hregion
  have hfits := Recurrence.fits_of_ofConfig hrecurrence
  obtain ⟨hlow, hhigh⟩ := hnow.instant_bounds
  obtain ⟨hbehind, hahead⟩ := Region.offsetAt_bounds hmoderate now.instant
  obtain ⟨clock, hclock⟩ := hnow.inRegion? hregion
  have hwall := hclock
  unfold DateTime.inRegion? at hwall
  rw [hregion] at hwall
  obtain ⟨hwall, hzone, hshown, -⟩ := DateTime.ofWallMicros?_eq_some hwall
  obtain ⟨hfrom, hto⟩ := hshown.wallMicros_bounds
  have hday : slotDay clock recurrence ≤ clock.date.ordinal + 62 :=
    Recurrence.slotDay_le hshown
  obtain ⟨slot, hslot, hordinal, htime⟩ : ∃ slot, recurrence.next clock = .ok slot ∧
      slot.date.ordinal = slotDay clock recurrence ∧ slot.time.micros < microsPerDay := by
    refine Recurrence.next_of_slotDay hfits ?_
    rw [Recurrence.ordinal_pastEnd]
    unfold microsPerDay at *
    omega
  have hlater := Recurrence.next_later hshown hfits hslot
  obtain ⟨isLater, hslotZone⟩ := hlater.moves.zone hzone
  obtain ⟨hbehind', hahead'⟩ := Region.offsetOfWall_bounds hmoderate isLater slot
  have hslotWall : slot.wallMicros < (clock.date.ordinal + 63) * microsPerDay := by
    unfold DateTime.wallMicros
    rw [hordinal]
    unfold microsPerDay at *
    omega
  obtain ⟨next, hnext⟩ : ∃ next, slot.inUniversal? = some next := by
    have hfound := hlater.wall
    unfold DateTime.inUniversal?
    rw [DateTime.offset_of_region hregion hslotZone]
    refine DateTime.ofWallMicros?_isSome ?_ ?_
    · unfold microsPerDay at *
      omega
    · unfold microsPerDay at *
      omega
  refine ⟨next, ?_⟩
  unfold Schedules.nextRunBy Schedules.clockBy nextRun
  dsimp only
  rw [hregion, hclock, hrecurrence]
  change (recurrence.next clock >>= fun slot => ofCalendar slot.inUniversal?) = _
  rw [hslot]
  change ofCalendar slot.inUniversal? = _
  rw [hnext]
  rfl

end TenantReports
