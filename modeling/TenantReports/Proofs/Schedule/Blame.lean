import TenantReports.Proofs.Schedule.Given
import TenantReports.Proofs.Schedule.Patch

/-!
What finding a next run can fail with: what the caller sent, or the end of the calendar.
-/

namespace TenantReports

/-! Faults -/

/-- Whether a result fails only by what the caller sent. -/
def FailsByInput {α : Type} (result : Result α) : Prop :=
  ∀ fault, result = .error fault → fault.isInput = true

namespace FailsByInput

variable {α β : Type}

theorem ok {a : α} : FailsByInput (.ok a : Result α) := fun _ h => nomatch h

theorem fault {fault : Fault} (h : fault.isInput = true) :
    FailsByInput (.error fault : Result α) := by
  rintro _ ⟨⟩
  exact h

theorem bind {result : Result α} {next : α → Result β} (h : FailsByInput result)
    (hnext : ∀ a, FailsByInput (next a)) : FailsByInput (result >>= next) := by
  cases result with
  | ok a => exact hnext a
  | error fault =>
      rintro _ ⟨⟩
      exact h fault rfl

end FailsByInput

theorem ClockTime.ofValue_failsOnly {Of : Fault → Prop}
    (hschedule : ∀ reason, Of (.schedule reason)) {given : Value} {time : Option String}
    (h : given = .orNull .text time) : FailsOnly Of (ofValue given) := by
  unfold ofValue
  split
  · exact .ok _
  · next htruthy =>
      split
      · split
        · split
          · exact .ok _
          · exact .fault (hschedule _)
        · exact .fault (hschedule _)
      · next hother =>
          cases time with
          | none =>
              subst h
              exact absurd rfl htruthy
          | some s => exact absurd h (hother s)

theorem Value.wholeOfChars_failsByInput (given : Value) (cs : List Char) :
    FailsByInput (wholeOfChars given cs) :=
  fun _ h => (wholeOfChars_eq_error h).2.1

theorem ClockTime.ofCron_failsByInput {given : Value} {cron : Option String}
    (h : given = .orNull .text cron) : FailsByInput (ofCron given) := by
  have hfields : ∀ given fields, FailsByInput (ofCronFields given fields) := by
    intro given fields
    unfold ofCronFields
    split
    · split
      · refine (Value.wholeOfChars_failsByInput _ _).bind fun minute => ?_
        refine (Value.wholeOfChars_failsByInput _ _).bind fun hour => ?_
        dsimp only
        split
        · exact .ok
        · exact .fault rfl
      · exact .fault rfl
    · exact .fault rfl
  unfold ofCron
  split
  · exact .ok
  · next htruthy =>
      split
      · exact hfields _ _
      · exact hfields _ _
      · next hother _ =>
          cases cron with
          | none =>
              subst h
              exact absurd rfl htruthy
          | some s => exact absurd h (hother s)

namespace Recurrence

/-- Whether a stored configuration gives what a configuration of a request gave. -/
structure Gives (entries : Entries) (config : ScheduleConfig) : Prop where
  time : entries.field "time" = .orNull .text config.time
  cron : entries.field "cron" = .orNull .text config.cron
  weekday : entries.field "day_of_week" = .orNull .int config.dayOfWeek
  monthDay : entries.field "day_of_month" = .orNull .int config.dayOfMonth

theorem wholeField_failsOnly {Of : Fault → Prop} {entries : Entries} {name : String}
    {given : Option Int} (h : entries.field name = .orNull .int given) (default : Int) :
    FailsOnly Of (wholeField entries name default) := by
  unfold wholeField
  rw [h]
  cases given with
  | none => exact .ok _
  | some n => exact .ok _

theorem gives_withoutNulls (config : ScheduleConfig) :
    Gives (Form.entriesOf config.form.withoutNulls) config := by
  have hnames : ["cron", "day_of_week", "day_of_month", "time"].Nodup := by decide
  have hfield := Form.field_withoutNulls
    [("cron", .orNull .text config.cron),
      ("day_of_week", .orNull (fun n => .value (.int n)) config.dayOfWeek),
      ("day_of_month", .orNull (fun n => .value (.int n)) config.dayOfMonth),
      ("time", .orNull .text config.time)] hnames
  constructor
  · refine (hfield "time").trans ?_
    cases config.time <;> rfl
  · refine (hfield "cron").trans ?_
    cases config.cron <;> rfl
  · refine (hfield "day_of_week").trans ?_
    cases config.dayOfWeek <;> rfl
  · refine (hfield "day_of_month").trans ?_
    cases config.dayOfMonth <;> rfl

theorem configEntries_of_isStored {v : Value} (h : v = .null ∨ ScheduleConfig.IsStored v) :
    ∃ entries config, configEntries v = .ok entries ∧ Gives entries config := by
  rcases h with rfl | ⟨config, rfl⟩
  · exact ⟨[], .empty, rfl, rfl, rfl, rfl, rfl⟩
  · exact ⟨_, config, rfl, gives_withoutNulls config⟩

/-- A configuration fails as schedules do, and a cron expression in its own ways beside. -/
theorem ofConfig_failsOnly {Of : Fault → Prop} {type : String} {v : Value} {entries : Entries}
    {config : ScheduleConfig} (hentries : configEntries v = .ok entries)
    (hgives : Gives entries config) (hschedule : ∀ reason, Of (.schedule reason))
    (hcron : type = "custom" → FailsOnly Of (ClockTime.ofCron (entries.field "cron"))) :
    FailsOnly Of (ofConfig type v) := by
  have htime : FailsOnly Of (ClockTime.ofValue (entries.field "time")) :=
    ClockTime.ofValue_failsOnly hschedule hgives.time
  unfold ofConfig
  rw [hentries]
  split
  · exact htime.bind fun _ => .ok _
  · refine htime.bind fun time => FailsOnly.bind ?_ fun _ => .ok _
    refine (wholeField_failsOnly hgives.weekday 1).bind fun weekday => ?_
    split
    · exact .ok _
    · exact .fault (hschedule _)
  · refine htime.bind fun time => FailsOnly.bind ?_ fun _ => .ok _
    refine (wholeField_failsOnly hgives.monthDay 1).bind fun day => ?_
    split
    · exact .ok _
    · exact .fault (hschedule _)
  · exact (hcron rfl).bind fun _ => .ok _
  · exact .fault (hschedule _)

theorem ofConfig_failsByInput {v : Value} (h : v = .null ∨ ScheduleConfig.IsStored v)
    (type : String) : FailsByInput (ofConfig type v) := by
  obtain ⟨entries, config, hentries, hgives⟩ := configEntries_of_isStored h
  change FailsOnly (fun fault : Fault => fault.isInput = true) (ofConfig type v)
  refine ofConfig_failsOnly hentries hgives (fun reason => rfl) fun _ => ?_
  exact ClockTime.ofCron_failsByInput hgives.cron

end Recurrence

namespace Schedules

variable {settings : Settings} {now : DateTime} {fault : Fault}

theorem clockBy_of_isWellWithin (hregion : (Region.ofName? settings.reports.timezone).isSome)
    (hnow : now.IsWellWithin) : ∃ clock, clockBy settings now = .ok clock := by
  obtain ⟨region, hregion⟩ := Option.isSome_iff_exists.mp hregion
  obtain ⟨clock, hclock⟩ := hnow.inRegion? hregion
  unfold clockBy
  dsimp only
  rw [hregion, hclock]
  exact ⟨clock, rfl⟩

/-- The next run by a stored configuration is found, unless the caller's input is at fault or the
calendar ends. -/
theorem nextRunBy_eq_error {schedule : Schedule}
    (hregion : (Region.ofName? settings.reports.timezone).isSome)
    (hconfig : schedule.config = .null ∨ ScheduleConfig.IsStored schedule.config)
    (h : nextRunBy settings now schedule.type schedule.config = .error fault) :
    fault.isInput = true ∨ (∃ reason, fault = .calendar reason) ∧ ¬ now.IsWellWithin := by
  cases hfound : Recurrence.ofConfig schedule.type schedule.config with
  | ok recurrence =>
      have htimed : schedule.IsTimed settings := ⟨hregion, recurrence, hfound⟩
      rcases htimed.next now with ⟨next, hnext⟩ | ⟨reason, hreason⟩
      · cases h.symm.trans hnext
      · cases h.symm.trans hreason
        refine .inr ⟨⟨reason, rfl⟩, fun hnow => ?_⟩
        obtain ⟨next, hnext⟩ := htimed.nextRunBy_of_isWellWithin hnow
        cases h.symm.trans hnext
  | error blamed =>
      unfold nextRunBy nextRun at h
      rw [hfound] at h
      cases hclock : clockBy settings now with
      | ok clock =>
          rw [hclock] at h
          cases h
          exact .inl (Recurrence.ofConfig_failsByInput hconfig _ _ hfound)
      | error reason =>
          rw [hclock] at h
          cases h
          refine .inr ⟨?_, fun hnow => ?_⟩
          · obtain ⟨region, hname⟩ := Option.isSome_iff_exists.mp hregion
            unfold clockBy at hclock
            dsimp only at hclock
            rw [hname] at hclock
            exact ⟨_, Recurrence.ofCalendar_eq_error hclock⟩
          · obtain ⟨clock, hfine⟩ := clockBy_of_isWellWithin hregion hnow
            cases hclock.symm.trans hfine

end Schedules

end TenantReports
