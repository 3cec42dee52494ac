import TenantReports.Proofs.Schedule.Blame
import TenantReports.Proofs.Schedule.Slot
import TenantReports.Proofs.Text.Runs

/-!
Which configurations of schedules give a next run, and what the others fail with. A text gives a
time where a line feed may stand behind it, and a cron expression fails like a number where its
fields stand for digits but are no numerals. Before the last year of the calendar nothing else fails
than the configuration.
-/

namespace TenantReports

open Text

/-! Times -/

namespace ClockTime

theorem isOnClock_iff {time : ClockTime} :
    time.isOnClock = true ↔ time.hour ≤ 23 ∧ time.minute ≤ 59 := by
  simp [isOnClock]

theorem isValid_toTimeOfDay {time : ClockTime} (h : time.isOnClock = true) :
    time.toTimeOfDay.IsValid := by
  obtain ⟨hhour, hminute⟩ := isOnClock_iff.mp h
  exact ⟨hhour, hminute, Nat.zero_le _, Nat.zero_lt_succ _⟩

/-- A text that is a time and nothing else: an hour of one or two digits, a colon, and a minute of
two digits. -/
inductive IsSpelledBy : List Char → ClockTime → Prop
  | mk {hour minute : List Char} (hourDigits : ∀ c ∈ hour, isDigit c = true)
      (hourLength : hour.length = 1 ∨ hour.length = 2)
      (minuteDigits : ∀ c ∈ minute, isDigit c = true) (minuteLength : minute.length = 2) :
      IsSpelledBy (hour ++ ':' :: minute) ⟨digitsValue hour, digitsValue minute⟩

variable {s : String} {given : Value} {time : ClockTime}

theorem IsSpelledBy.digit_or_colon {cs : List Char} (h : IsSpelledBy cs time) :
    ∀ c ∈ cs, isDigit c = true ∨ c = ':' := by
  obtain ⟨hhour, -, hminute, -⟩ := h
  intro c hc
  rcases List.mem_append.mp hc with hc | hc
  · exact .inl (hhour c hc)
  · rcases List.mem_cons.mp hc with rfl | hc
    · exact .inr rfl
    · exact .inl (hminute c hc)

theorem isGivenBy_text_iff (hs : s ≠ "") :
    IsGivenBy (.text s) time ↔
      IsSpelledBy s.toList time ∨ ∃ cs, s.toList = cs ++ ['\n'] ∧ IsSpelledBy cs time := by
  constructor
  · intro h
    cases h with
    | absent absent => exact absurd (bne_eq_false_iff_eq.mp absent) hs
    | @written _ hour minute hourDigits hourLength minuteDigits minuteLength text =>
        have hspelled := IsSpelledBy.mk hourDigits hourLength minuteDigits minuteLength
        rcases text with htext | htext
        · exact .inl (htext ▸ hspelled)
        · exact .inr ⟨hour ++ ':' :: minute, by rw [htext, List.append_assoc]; rfl, hspelled⟩
  · rintro (h | ⟨cs, htext, h⟩)
    · generalize hcs : s.toList = cs at h
      obtain ⟨hourDigits, hourLength, minuteDigits, minuteLength⟩ := h
      exact .written hourDigits hourLength minuteDigits minuteLength (.inl hcs)
    · obtain ⟨hourDigits, hourLength, minuteDigits, minuteLength⟩ := h
      rw [List.append_assoc] at htext
      exact .written hourDigits hourLength minuteDigits minuteLength (.inr htext)

theorem ofChars?_of_isGivenBy (hs : s ≠ "") (h : IsGivenBy (.text s) time) :
    ofChars? s.toList = some time := by
  cases h with
  | absent absent => exact absurd (bne_eq_false_iff_eq.mp absent) hs
  | @written _ hour minute hourDigits hourLength minuteDigits minuteLength text =>
      have hshape : ((hour.length == 1 || hour.length == 2) && minute.length == 2 &&
          minute.all isDigit) = true := by
        simp only [Bool.and_eq_true, Bool.or_eq_true, beq_iff_eq, List.all_eq_true]
        exact ⟨⟨hourLength, minuteLength⟩, minuteDigits⟩
      obtain ⟨rest, htext, hrest⟩ : ∃ rest, s.toList = hour ++ ':' :: rest ∧
          (if rest.getLast? = some '\n' then rest.dropLast else rest) = minute := by
        rcases text with htext | htext
        · have hlast : minute.getLast? ≠ some '\n' := fun hlast =>
            absurd (minuteDigits '\n' (List.mem_of_getLast? hlast)) (by decide)
          exact ⟨minute, htext, if_neg hlast⟩
        · exact ⟨minute ++ ['\n'], htext,
            (if_pos List.getLast?_concat).trans List.dropLast_concat⟩
      have hstop : Stops isDigit (':' :: rest) := stops_cons (by decide) rest
      unfold ofChars?
      rw [htext, takeWhile_run hourDigits hstop, dropWhile_run hourDigits hstop]
      subst hrest
      exact if_pos hshape

theorem ofValue_text (hs : s ≠ "") :
    ofValue (.text s) =
      match ofChars? s.toList with
      | some time => if time.isOnClock then .ok time else .error (.schedule (.time (.text s)))
      | none => .error (.schedule (.time (.text s))) := by
  have hgiven : (Value.text s).isTruthy = true := bne_iff_ne.mpr hs
  unfold ofValue
  rw [hgiven]
  rfl

theorem ofValue_text_eq_ok_iff (hs : s ≠ "") :
    ofValue (.text s) = .ok time ↔ IsGivenBy (.text s) time ∧ time.isOnClock = true := by
  constructor
  · exact fun h => ⟨isGivenBy_of_ofValue h, isOnClock_of_ofValue h⟩
  · rintro ⟨hgiven, hclock⟩
    rw [ofValue_text hs, ofChars?_of_isGivenBy hs hgiven]
    exact if_pos hclock

/-- A text that gives no time is told as it is. -/
theorem ofValue_text_eq_error {fault : Fault} (h : ofValue (.text s) = .error fault) :
    fault = .schedule (.time (.text s)) := by
  unfold ofValue at h
  split at h
  · cases h
  · dsimp only at h
    split at h
    · split at h
      · cases h
      · cases h
        rfl
    · cases h
      rfl

/-! Cron expressions -/

/-- Whether a cron expression starts with a minute and an hour in numerals. -/
inductive IsStatedBy (cron : String) : ClockTime → Prop
  | mk {minute hour : List Char} {rest : List (List Char)}
      (fields : words cron.toList = minute :: hour :: rest) (minuteNumeral : IsNumeral minute)
      (hourNumeral : IsNumeral hour) : IsStatedBy cron ⟨digitsValue hour, digitsValue minute⟩

/-- Whether a cron expression starts with two fields whose characters all stand for digits. -/
def HasDigitFields (cron : String) : Prop :=
  ∃ minute hour rest, words cron.toList = minute :: hour :: rest ∧
    (∀ c ∈ minute, isDigitSign c = true) ∧ ∀ c ∈ hour, isDigitSign c = true

/-- Whether such fields are taken for numbers although one of them is no numeral. -/
def IsMisread (cron : String) : Prop := HasDigitFields cron ∧ ∀ time, ¬ IsStatedBy cron time

/-- How the reading of a cron expression ends. -/
inductive CronEnds (cron : String) : Result ClockTime → Prop
  | stated {time : ClockTime} (stated : IsStatedBy cron time) (onClock : time.isOnClock = true) :
      CronEnds cron (.ok time)
  | offClock {time : ClockTime} (stated : IsStatedBy cron time)
      (offClock : time.isOnClock = false) :
      CronEnds cron (.error (.schedule (.cron (.text cron))))
  | misread (misread : IsMisread cron) (reason : NumberFault) :
      CronEnds cron (.error (.number reason))
  | unread (unread : ¬ HasDigitFields cron) :
      CronEnds cron (.error (.schedule (.cron (.text cron))))

variable {cron : String} {time' : ClockTime}

theorem IsStatedBy.hasDigitFields (h : IsStatedBy cron time) : HasDigitFields cron := by
  obtain ⟨hfields, hminute, hhour⟩ := h
  exact ⟨_, _, _, hfields, hminute.digitSigns, hhour.digitSigns⟩

theorem IsStatedBy.unique (h : IsStatedBy cron time) (h' : IsStatedBy cron time') :
    time = time' := by
  obtain ⟨hfields, -, -⟩ := h
  obtain ⟨hfields', -, -⟩ := h'
  cases hfields.symm.trans hfields'
  rfl

theorem ofCron_text (hcron : cron ≠ "") :
    ofCron (.text cron) = ofCronFields (.text cron) (words cron.toList) := by
  have hgiven : (Value.text cron).isTruthy = true := bne_iff_ne.mpr hcron
  unfold ofCron
  rw [hgiven]
  rfl

/-- The two tests of a field differ: one asks what its characters stand for, the other one reads
them. Between them a cron expression is misread. -/
theorem cronEnds_ofCron (hcron : cron ≠ "") : CronEnds cron (ofCron (.text cron)) := by
  rw [ofCron_text hcron]
  unfold ofCronFields
  split
  · next minute hour rest hfields =>
      split
      · next hsigns =>
          rw [Bool.and_eq_true_iff, List.all_eq_true, List.all_eq_true] at hsigns
          have hmisread : ¬ (IsNumeral minute ∧ IsNumeral hour) → IsMisread cron := by
            intro hnot
            refine ⟨⟨minute, hour, rest, hfields, hsigns⟩, ?_⟩
            rintro _ ⟨hfields', hminute, hhour⟩
            cases hfields.symm.trans hfields'
            exact hnot ⟨hminute, hhour⟩
          cases hm : Value.wholeOfChars (.text (String.ofList minute)) minute with
          | error fault =>
              obtain ⟨hnot, -, reason, rfl⟩ := Value.wholeOfChars_eq_error hm
              exact .misread (hmisread fun hnumerals => hnot hnumerals.1) reason
          | ok m =>
              obtain ⟨hminute, rfl⟩ := (Value.wholeOfChars_eq_ok_iff hsigns.1).mp hm
              cases hh : Value.wholeOfChars (.text (String.ofList hour)) hour with
              | error fault =>
                  obtain ⟨hnot, -, reason, rfl⟩ := Value.wholeOfChars_eq_error hh
                  exact .misread (hmisread fun hnumerals => hnot hnumerals.2) reason
              | ok h =>
                  obtain ⟨hhour, rfl⟩ := (Value.wholeOfChars_eq_ok_iff hsigns.2).mp hh
                  have hstated := IsStatedBy.mk hfields hminute hhour
                  change CronEnds cron (if isOnClock _ then _ else _)
                  split
                  · next hclock => exact .stated hstated hclock
                  · next hclock => exact .offClock hstated (Bool.not_eq_true _ ▸ hclock)
      · next hsigns =>
          refine .unread ?_
          rintro ⟨_, _, _, hfields', hminute, hhour⟩
          cases hfields.symm.trans hfields'
          simp only [Bool.and_eq_true_iff, List.all_eq_true] at hsigns
          exact hsigns ⟨hminute, hhour⟩
  · next hfew =>
      refine .unread ?_
      rintro ⟨minute, hour, rest, hfields, -⟩
      exact hfew minute hour rest hfields

theorem ofCron_eq_ok_iff (hcron : cron ≠ "") :
    ofCron (.text cron) = .ok time ↔ IsStatedBy cron time ∧ time.isOnClock = true := by
  have hends := cronEnds_ofCron hcron
  generalize ofCron (.text cron) = result at hends ⊢
  cases hends with
  | @stated other stated onClock =>
      constructor
      · rintro ⟨⟩
        exact ⟨stated, onClock⟩
      · rintro ⟨hstated, -⟩
        rw [stated.unique hstated]
  | offClock stated offClock =>
      constructor
      · rintro ⟨⟩
      · rintro ⟨hstated, hclock⟩
        rw [stated.unique hstated, hclock] at offClock
        cases offClock
  | misread misread reason =>
      constructor
      · rintro ⟨⟩
      · rintro ⟨hstated, -⟩
        exact absurd hstated (misread.2 time)
  | unread unread =>
      constructor
      · rintro ⟨⟩
      · rintro ⟨hstated, -⟩
        exact absurd hstated.hasDigitFields unread

theorem ofCron_eq_number_iff (hcron : cron ≠ "") :
    (∃ reason, ofCron (.text cron) = .error (.number reason)) ↔ IsMisread cron := by
  have hends := cronEnds_ofCron hcron
  generalize ofCron (.text cron) = result at hends ⊢
  cases hends with
  | stated stated _ =>
      constructor
      · rintro ⟨reason, ⟨⟩⟩
      · rintro ⟨-, hnot⟩
        exact absurd stated (hnot _)
  | offClock stated _ =>
      constructor
      · rintro ⟨reason, ⟨⟩⟩
      · rintro ⟨-, hnot⟩
        exact absurd stated (hnot _)
  | misread misread reason => exact ⟨fun _ => misread, fun _ => ⟨reason, rfl⟩⟩
  | unread unread =>
      constructor
      · rintro ⟨reason, ⟨⟩⟩
      · rintro ⟨hdigits, -⟩
        exact absurd hdigits unread

end ClockTime

namespace Recurrence

variable {recurrence : Recurrence} {clock : DateTime} {s : String}

/-- Before the last year of the calendar every recurrence that is configured has a next run. -/
theorem exists_nextRun {type : String} {config : Value} (hdate : clock.date.IsValid)
    (htime : clock.time.IsValid) (hyear : clock.date.year < Date.lastYear)
    (h : ofConfig type config = .ok recurrence) :
    ∃ next, nextRun type config clock = .ok next ∧ recurrence.IsSlot next := by
  have hfits := fits_of_ofConfig h
  have hclock := DateTime.isShown_of_isValid hdate htime
  have hday : slotDay clock recurrence < pastEnd.ordinal :=
    calc slotDay clock recurrence ≤ clock.date.ordinal + 62 := slotDay_le hclock
      _ ≤ daysBeforeYear (clock.date.year + 1) + 62 :=
        Nat.add_le_add_right hdate.ordinal_bounds.2 _
      _ ≤ daysBeforeYear Date.lastYear + 62 :=
        Nat.add_le_add_right (daysBeforeYear_mono (Nat.le_add_left 1 _) hyear) _
      _ < pastEnd.ordinal := by decide
  obtain ⟨next, hnext, -⟩ := next_of_slotDay hfits hday
  have hslot := next_spec hdate hfits (isGivenBy_of_ofConfig h).inWeek hnext
  exact ⟨next, (nextRun_eq h clock).trans hnext, hslot.1⟩

theorem nextRun_eq_error {type : String} {config : Value} {fault : Fault}
    (h : ofConfig type config = .error fault) (clock : DateTime) :
    nextRun type config clock = .error fault := by
  unfold nextRun
  rw [h]
  rfl

/-- A recurrence by the day has a next run at the time that is read, or fails as reading it does. -/
theorem nextRun_of_daily {type : String} {config : Value} {reading : Result ClockTime}
    (h : ofConfig type config = daily <$> reading) (hdate : clock.date.IsValid)
    (htime : clock.time.IsValid) (hyear : clock.date.year < Date.lastYear) :
    (∃ time next, reading = .ok time ∧ nextRun type config clock = .ok next ∧
      next.time = time.toTimeOfDay) ∨
    ∃ fault, reading = .error fault ∧ nextRun type config clock = .error fault := by
  cases reading with
  | ok time =>
      obtain ⟨next, hnext, hslot⟩ := exists_nextRun hdate htime hyear h
      exact .inl ⟨time, next, rfl, hnext, hslot.time⟩
  | error fault => exact .inr ⟨fault, rfl, nextRun_eq_error h clock⟩

theorem ofConfig_daily (given : Value) :
    ofConfig "daily" (.record [("time", given)]) = daily <$> ClockTime.ofValue given := by
  rfl

/-- A daily schedule has a next run exactly where its text spells an hour and a minute of the day,
with a line feed behind them or without, and the run is at that time. Every other text is told. -/
theorem nextRun_daily_reads_time (hs : s ≠ "") (hdate : clock.date.IsValid)
    (htime : clock.time.IsValid) (hyear : clock.date.year < Date.lastYear) :
    ((∃ next, nextRun "daily" (.record [("time", .text s)]) clock = .ok next) ↔
      ∃ time : ClockTime, (time.IsSpelledBy s.toList ∨
          ∃ cs, s.toList = cs ++ ['\n'] ∧ time.IsSpelledBy cs) ∧
        time.hour ≤ 23 ∧ time.minute ≤ 59) ∧
    (∀ next, nextRun "daily" (.record [("time", .text s)]) clock = .ok next →
      ∀ time : ClockTime, (time.IsSpelledBy s.toList ∨
          ∃ cs, s.toList = cs ++ ['\n'] ∧ time.IsSpelledBy cs) →
        next.time = ⟨time.hour, time.minute, 0, 0⟩) ∧
    ∀ fault, nextRun "daily" (.record [("time", .text s)]) clock = .error fault →
      fault = .schedule (.time (.text s)) := by
  simp only [← ClockTime.isOnClock_iff, ← ClockTime.isGivenBy_text_iff hs]
  rcases nextRun_of_daily (ofConfig_daily (.text s)) hdate htime hyear with
    ⟨time, next, hread, hnext, hat⟩ | ⟨fault, hread, herror⟩
  · have hgiven := ClockTime.isGivenBy_of_ofValue hread
    rw [hnext]
    refine ⟨⟨fun _ => ?_, fun _ => ⟨next, rfl⟩⟩, ?_, ?_⟩
    · exact ⟨time, hgiven, ClockTime.isOnClock_of_ofValue hread⟩
    · rintro _ ⟨⟩ other hother
      have hsame := ClockTime.ofChars?_of_isGivenBy hs hother
      rw [ClockTime.ofChars?_of_isGivenBy hs hgiven] at hsame
      cases hsame
      exact hat
    · rintro fault ⟨⟩
  · rw [herror]
    refine ⟨⟨?_, ?_⟩, ?_, ?_⟩
    · rintro ⟨next, ⟨⟩⟩
    · rintro ⟨time, hgiven⟩
      rw [(ClockTime.ofValue_text_eq_ok_iff hs).mpr hgiven] at hread
      cases hread
    · rintro next ⟨⟩
    · rintro _ ⟨⟩
      exact ClockTime.ofValue_text_eq_error hread

/-- At one minute to midnight on the last day of the year, that minute is tomorrow's. -/
theorem nextRun_daily_reads_time_of_midnight :
    let clock : DateTime := ⟨⟨2024, 12, 31⟩, ⟨23, 59, 0, 0⟩, .offset 0⟩
    ∃ next, nextRun "daily" (.record [("time", .text "23:59")]) clock = .ok next ∧
      next.time = ⟨23, 59, 0, 0⟩ := by
  intro clock
  obtain ⟨hfound, htime, -⟩ := @nextRun_daily_reads_time clock "23:59" (by decide) (by decide)
    (by decide) (by decide)
  have hspelled : ClockTime.IsSpelledBy "23:59".toList ⟨23, 59⟩ :=
    @ClockTime.IsSpelledBy.mk ['2', '3'] ['5', '9'] (List.all_eq_true.mp (by decide)) (.inr rfl)
      (List.all_eq_true.mp (by decide)) rfl
  obtain ⟨next, hnext⟩ := hfound.mpr ⟨⟨23, 59⟩, .inl hspelled, by decide⟩
  exact ⟨next, hnext, htime next hnext ⟨23, 59⟩ (.inl hspelled)⟩

/-- A time with a line feed behind it is no time as requests give it, and still has a next run. -/
theorem nextRun_daily_takes_line_feed :
    let clock : DateTime := ⟨⟨2024, 3, 13⟩, ⟨8, 59, 0, 0⟩, .offset 0⟩
    (∀ time : ClockTime, ¬ time.IsSpelledBy "09:00\n".toList) ∧
      ScheduleConfig.isTimePattern "09:00\n".toList = false ∧
      ScheduleConfig.isTimePattern "09:00".toList = true ∧
      nextRun "daily" (.record [("time", .text "09:00\n")]) clock =
        .ok ⟨⟨2024, 3, 13⟩, ⟨9, 0, 0, 0⟩, .offset 0⟩ := by
  intro clock
  refine ⟨fun time htime => ?_, by decide, by decide, eq_ok_of_toOption (by decide +kernel)⟩
  have hfeed : '\n' ∈ "09:00\n".toList := by decide
  exact absurd (htime.digit_or_colon '\n' hfeed) (by decide)

/-! What accepted configurations fail with -/

variable {type : String} {config : ScheduleConfig} {v : Value}

theorem gives_toValue (config : ScheduleConfig) :
    Gives (Form.entriesOf config.form.toValue) config := by
  obtain ⟨cron, weekday, monthDay, time⟩ := config
  constructor
  · cases time <;> rfl
  · cases cron <;> rfl
  · cases weekday <;> rfl
  · cases monthDay <;> rfl

theorem exists_gives (h : v = config.form.toValue ∨ v = config.form.withoutNulls) :
    ∃ entries, configEntries v = .ok entries ∧ Gives entries config := by
  rcases h with rfl | rfl
  · exact ⟨_, rfl, gives_toValue config⟩
  · exact ⟨_, rfl, gives_withoutNulls config⟩

theorem ofConfig_custom (hdump : v = config.form.toValue ∨ v = config.form.withoutNulls)
    {cron : String} (hgiven : config.cron = some cron) :
    ofConfig "custom" v = daily <$> ClockTime.ofCron (.text cron) := by
  obtain ⟨entries, hentries, hgives⟩ := exists_gives hdump
  have hfield := hgives.cron
  rw [hgiven] at hfield
  change (configEntries v >>= fun entries =>
    ClockTime.ofCron (entries.field "cron") >>= fun time => pure (daily time)) = _
  rw [hentries]
  change (ClockTime.ofCron (entries.field "cron") >>= fun time => pure (daily time)) = _
  rw [hfield]
  rfl

/-- What a configuration that requests can give fails with. -/
inductive ConfigFault (type : String) (config : ScheduleConfig) : Fault → Prop
  | schedule (reason : ScheduleFault) : ConfigFault type config (.schedule reason)
  | number {cron : String} (custom : type = "custom") (given : config.cron = some cron)
      (misread : ClockTime.IsMisread cron) (reason : NumberFault) :
      ConfigFault type config (.number reason)

theorem ofConfig_fails (hdump : v = config.form.toValue ∨ v = config.form.withoutNulls) :
    FailsOnly (ConfigFault type config) (ofConfig type v) := by
  obtain ⟨entries, hentries, hgives⟩ := exists_gives hdump
  refine ofConfig_failsOnly hentries hgives .schedule fun hcustom => ?_
  rw [hgives.cron]
  cases hgiven : config.cron with
  | none => exact .ok _
  | some cron =>
      by_cases hcron : cron = ""
      · subst hcron
        exact .ok _
      · have hends := ClockTime.cronEnds_ofCron hcron
        change FailsOnly _ (ClockTime.ofCron (.text cron))
        generalize ClockTime.ofCron (.text cron) = result at hends ⊢
        cases hends with
        | stated => exact .ok _
        | offClock => exact .fault (.schedule _)
        | misread misread reason => exact .fault (.number hcustom hgiven misread reason)
        | unread => exact .fault (.schedule _)

/-- A configuration that requests can give has a next run, or a fault of the schedule, whatever the
type; only where the fields of a cron expression are misread it fails like a number. A cron
expression gives a next run exactly where its first fields are numerals of a minute and an hour. -/
theorem nextRun_ends (hdump : v = config.form.toValue ∨ v = config.form.withoutNulls)
    (hdate : clock.date.IsValid) (htime : clock.time.IsValid)
    (hyear : clock.date.year < Date.lastYear) :
    ((∃ next, nextRun type v clock = .ok next ∧ next.date.IsValid ∧ next.time.IsValid) ∨
      ∃ fault, nextRun type v clock = .error fault ∧ ConfigFault type config fault) ∧
    ∀ cron, type = "custom" → config.cron = some cron → cron ≠ "" →
      ((∃ next, nextRun type v clock = .ok next) ↔
        ∃ time, ClockTime.IsStatedBy cron time ∧ time.hour ≤ 23 ∧ time.minute ≤ 59) ∧
      ((∃ reason, nextRun type v clock = .error (.number reason)) ↔
        ClockTime.IsMisread cron) := by
  refine ⟨?_, ?_⟩
  · cases hconfig : ofConfig type v with
    | ok recurrence =>
        obtain ⟨next, hnext, hslot⟩ := exists_nextRun hdate htime hyear hconfig
        have hclock : recurrence.clockTime.isOnClock = true := (fits_of_ofConfig hconfig).isOnClock
        refine .inl ⟨next, hnext, hslot.date, ?_⟩
        rw [hslot.time]
        exact ClockTime.isValid_toTimeOfDay hclock
    | error fault =>
        exact .inr ⟨fault, nextRun_eq_error hconfig clock, ofConfig_fails hdump fault hconfig⟩
  · rintro cron rfl hgiven hcron
    simp only [← ClockTime.isOnClock_iff, ← ClockTime.ofCron_eq_ok_iff hcron,
      ← ClockTime.ofCron_eq_number_iff hcron]
    rcases nextRun_of_daily (ofConfig_custom hdump hgiven) hdate htime hyear with
      ⟨time, next, hread, hnext, -⟩ | ⟨fault, hread, herror⟩
    · rw [hread, hnext]
      refine ⟨⟨fun _ => ⟨time, rfl⟩, fun _ => ⟨next, rfl⟩⟩, ?_, ?_⟩
      · rintro ⟨reason, ⟨⟩⟩
      · rintro ⟨reason, ⟨⟩⟩
    · rw [hread, herror]
      refine ⟨⟨?_, ?_⟩, ?_, ?_⟩
      · rintro ⟨next, ⟨⟩⟩
      · rintro ⟨time, ⟨⟩⟩
      · rintro ⟨reason, ⟨⟩⟩
        exact ⟨reason, rfl⟩
      · rintro ⟨reason, ⟨⟩⟩
        exact ⟨reason, rfl⟩

/-- Five minutes past four, on Mondays as far as the expression goes. -/
theorem nextRun_ends_of_cron :
    let config : ScheduleConfig := ⟨some "05 4 * * 1", none, none, none⟩
    let clock : DateTime := ⟨⟨2024, 2, 29⟩, ⟨4, 5, 0, 0⟩, .naive⟩
    (∃ next, nextRun "custom" config.form.withoutNulls clock = .ok next) ∧
      ¬ ClockTime.IsMisread "05 4 * * 1" := by
  intro config clock
  have hstated : ClockTime.IsStatedBy "05 4 * * 1" ⟨4, 5⟩ :=
    @ClockTime.IsStatedBy.mk "05 4 * * 1" ['0', '5'] ['4'] [['*'], ['*'], ['1']] (by decide +kernel)
      ⟨by decide, List.all_eq_true.mp (by decide), by decide⟩
      ⟨by decide, List.all_eq_true.mp (by decide), by decide⟩
  obtain ⟨-, hcron⟩ := @nextRun_ends clock "custom" config _ (.inr rfl) (by decide) (by decide)
    (by decide)
  obtain ⟨hfound, -⟩ := hcron "05 4 * * 1" rfl rfl (by decide)
  refine ⟨hfound.mpr ⟨⟨4, 5⟩, hstated, by decide⟩, fun hmisread => ?_⟩
  exact hmisread.2 _ hstated

/-- A raised two passes for a number and is read as none. -/
theorem nextRun_misreads_raised_digit :
    let config : ScheduleConfig := ⟨some "² 9", none, none, none⟩
    let clock : DateTime := ⟨⟨2024, 3, 13⟩, ⟨8, 59, 0, 0⟩, .offset 0⟩
    ScheduleConfig.read config.form.toValue = .valid config ∧
      nextRun "custom" config.form.toValue clock =
        .error (.number (.notWhole (.text "²"))) := by
  intro config clock
  exact ⟨rfl, by rfl⟩

end Recurrence

end TenantReports
