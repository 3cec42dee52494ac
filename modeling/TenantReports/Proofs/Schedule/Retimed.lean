import TenantReports.Proofs.Api.Acting
import TenantReports.Proofs.Schedule.Batch
import TenantReports.Proofs.Schedule.Timed

/-!
What changes and batches do to the next runs of schedules: those of some schedules are found anew,
by one clock, and all others stay. What can keep a schedule from moving on is the end of the
calendar.
-/

namespace TenantReports

open Action (Reads)
open Recurrence (ofCalendar_eq_error ofConfig pastEnd slotDay)
open Relation (ReflTransGen)

namespace Schedules

/-- The next run that a schedule moves on to: after a point in time by its own clock, or from now
on. -/
def nextRunFrom (settings : Settings) (now : DateTime) (time : Option DateTime)
    (schedule : Schedule) : Result DateTime :=
  match time with
  | some time => do ofCalendar (← nextRun schedule.type schedule.config time).inUniversal?
  | none => nextRunBy settings now schedule.type schedule.config

variable {schedule : Schedule} {p : Platform}

/-- A stored schedule moves on to the next run that is found for it, and everything stays as it was
where none is. -/
inductive Advances (schedule : Schedule) (time : Option DateTime) (p : Platform) :
    Except Fault Schedule → Platform → Prop
  | moved {last next : DateTime} (found : nextRunFrom p.settings p.now time schedule = .ok next) :
      Advances schedule time p (.ok (schedule.ranAt last next))
        (p.onDatabase (·.updateSchedule schedule.id fun _ => schedule.ranAt last next))
  | missing {fault : Fault} (missing : nextRunFrom p.settings p.now time schedule = .error fault) :
      Advances schedule time p (.error fault) p
  | outside (unended : (time.getD p.now).inUniversal? = none) :
      Advances schedule time p (.error (.calendar .outsideCalendar)) p

/-- What follows once the next run is found. -/
theorem run_moving {next : DateTime} (time : Option DateTime)
    (hfound : nextRunFrom p.settings p.now time schedule = .ok next) :
    ∃ result q, (do
      let last ← Work.require (.calendar .outsideCalendar) (time.getD (← Work.now)).inUniversal?
      let advanced := schedule.ranAt last next
      Work.updateDatabase (·.updateSchedule schedule.id fun _ => advanced)
      return advanced : Work Schedule).run p = (result, q) ∧ Advances schedule time p result q := by
  have hclock : Work.now.run p = (.ok p.now, p) := rfl
  have hlast := Work.run_require (.calendar .outsideCalendar) (time.getD p.now).inUniversal? p
  rw [Action.run_bind_of_ok hclock]
  cases huniversal : (time.getD p.now).inUniversal? with
  | none =>
      rw [huniversal] at hlast
      rw [Action.run_bind_of_error hlast]
      exact ⟨_, _, rfl, .outside huniversal⟩
  | some last =>
      rw [huniversal] at hlast
      rw [Action.run_bind_of_ok hlast]
      exact ⟨_, _, rfl, .moved hfound⟩

theorem run_advance_of_stored (hstored : p.database.schedule? schedule.id = some schedule)
    (time : Option DateTime) :
    ∃ result q, (advance schedule.id time).run p = (result, q) ∧
      Advances schedule time p result q := by
  unfold advance
  rw [Action.run_bind_of_ok (Batch.run_get hstored)]
  cases hfound : nextRunFrom p.settings p.now time schedule with
  | error fault =>
      refine ⟨.error fault, p, ?_, .missing hfound⟩
      cases time with
      | none => exact Action.run_bind_of_error (hfound ▸ run_nextRunFromNow _ _ p)
      | some time => exact Action.run_bind_of_error (hfound ▸ run_nextRunAfter _ _ time p)
  | ok next =>
      obtain ⟨result, q, hrun, hadvances⟩ := run_moving time hfound
      refine ⟨result, q, ?_, hadvances⟩
      rw [← hrun]
      cases time with
      | none => exact Action.run_bind_of_ok (hfound ▸ run_nextRunFromNow _ _ p)
      | some time => exact Action.run_bind_of_ok (hfound ▸ run_nextRunAfter _ _ time p)

end Schedules

namespace Schedule

variable {settings : Settings} {schedule : Schedule}

theorem IsTimed.nextRunFrom_eq_error {now : DateTime} {time : Option DateTime} {fault : Fault}
    (h : schedule.IsTimed settings)
    (hmissing : Schedules.nextRunFrom settings now time schedule = .error fault) :
    (∃ reason, fault = .calendar reason) ∧ (time = none → ¬ now.IsWellWithin) := by
  cases time with
  | none =>
      change Schedules.nextRunBy settings now schedule.type schedule.config = _ at hmissing
      refine ⟨?_, fun _ hwithin => ?_⟩
      · rcases h.next now with ⟨next, hnext⟩ | ⟨reason, hreason⟩
        · exact nomatch hmissing.symm.trans hnext
        · exact ⟨reason, Except.error.inj (hmissing.symm.trans hreason)⟩
      · obtain ⟨next, hnext⟩ := h.nextRunBy_of_isWellWithin hwithin
        exact nomatch hmissing.symm.trans hnext
  | some time =>
      refine ⟨?_, fun h => (nomatch h)⟩
      obtain ⟨recurrence, hrecurrence⟩ := h.recurrence
      unfold Schedules.nextRunFrom nextRun at hmissing
      rw [hrecurrence] at hmissing
      change (recurrence.next time >>= fun slot => ofCalendar slot.inUniversal?) = _ at hmissing
      cases hslot : recurrence.next time with
      | error other =>
          rw [hslot] at hmissing
          cases hmissing
          exact Recurrence.next_eq_error hslot
      | ok slot =>
          rw [hslot] at hmissing
          exact ⟨_, ofCalendar_eq_error hmissing⟩

/-- A stored schedule moves on unless the calendar ends. -/
theorem IsTimed.advances_eq_error {p q : Platform} {time : Option DateTime} {fault : Fault}
    (h : schedule.IsTimed p.settings)
    (hadvances : Schedules.Advances schedule time p (.error fault) q) :
    (∃ reason, fault = .calendar reason) ∧ (time = none → ¬ p.now.IsWellWithin) := by
  cases hadvances with
  | missing missing => exact h.nextRunFrom_eq_error missing
  | outside unended =>
      refine ⟨⟨_, rfl⟩, ?_⟩
      rintro rfl hwithin
      exact nomatch unended.symm.trans hwithin.universal

/-- Whether the type and the configuration of a schedule give times, of which there is a next one
after any clock, unless it would be past the end of the calendar. -/
def Recurs (schedule : Schedule) : Prop :=
  ∃ recurrence, ofConfig schedule.type schedule.config = .ok recurrence ∧
    ∀ clock, slotDay clock recurrence < pastEnd.ordinal →
      ∃ slot, nextRun schedule.type schedule.config clock = .ok slot ∧
        slot.date.ordinal = slotDay clock recurrence

theorem IsTimed.recurs (h : schedule.IsTimed settings) : schedule.Recurs := by
  obtain ⟨recurrence, hrecurrence⟩ := h.recurrence
  refine ⟨recurrence, hrecurrence, fun clock hday => ?_⟩
  obtain ⟨slot, hslot, hordinal, -⟩ :=
    Recurrence.next_of_slotDay (Recurrence.fits_of_ofConfig hrecurrence) hday
  refine ⟨slot, ?_, hordinal⟩
  unfold nextRun
  rw [hrecurrence]
  exact hslot

end Schedule

namespace Schedule

/-- Schedules of the same identifier that do not differ in anything about their next runs. -/
structure SameTimes (a b : Schedule) : Prop where
  id : a.id = b.id
  type : a.type = b.type
  config : a.config = b.config
  nextRunAt : a.nextRunAt = b.nextRunAt

theorem SameTimes.refl (schedule : Schedule) : schedule.SameTimes schedule := ⟨rfl, rfl, rfl, rfl⟩

theorem SameTimes.trans {a b c : Schedule} (h : a.SameTimes b) (h' : b.SameTimes c) :
    a.SameTimes c :=
  ⟨h.id.trans h'.id, h.type.trans h'.type, h.config.trans h'.config, h.nextRunAt.trans h'.nextRunAt⟩

theorem SameTimes.isInStep {a b : Schedule} {settings : Settings} {time : DateTime}
    (h : a.SameTimes b) (hb : b.IsInStep settings time) : a.IsInStep settings time := by
  unfold IsInStep
  rw [h.type, h.config, h.nextRunAt]
  exact hb

/-- What becomes of schedules when the next runs of some are found anew at a point in time: these
are in step with it, and the others have the next runs that they had. -/
def Retimed (settings : Settings) (time : DateTime) (IsAnew : Uuid → Prop)
    (old new : List Schedule) : Prop :=
  ∀ row ∈ new, (IsAnew row.id ∧ row.IsInStep settings time) ∨
    (¬ IsAnew row.id ∧ ∃ before ∈ old, row.SameTimes before)

namespace Retimed

variable {settings : Settings} {time : DateTime} {IsAnew IsAnewToo : Uuid → Prop}
  {old mid new : List Schedule}

theorem of_subset (h : ∀ row ∈ new, row ∈ old) (hnone : ∀ id, ¬ IsAnew id) :
    Retimed settings time IsAnew old new :=
  fun row hrow => .inr ⟨hnone row.id, row, h row hrow, .refl row⟩

theorem trans (h : Retimed settings time IsAnew old mid)
    (h' : Retimed settings time IsAnewToo mid new) :
    Retimed settings time (fun id => IsAnew id ∨ IsAnewToo id) old new := by
  intro row hrow
  rcases h' row hrow with ⟨hanew, hstep⟩ | ⟨hsame, before, hbefore, htimes⟩
  · exact .inl ⟨.inr hanew, hstep⟩
  · rcases h before hbefore with ⟨hanew, hstep⟩ | ⟨hkept, first, hfirst, htimes'⟩
    · exact .inl ⟨.inl (htimes.id ▸ hanew), htimes.isInStep hstep⟩
    · refine .inr ⟨?_, first, hfirst, htimes.trans htimes'⟩
      rintro (hanew | hanew)
      · exact hkept (htimes.id ▸ hanew)
      · exact hsame hanew

theorem congr (h : Retimed settings time IsAnew old new) (hiff : ∀ id, IsAnew id ↔ IsAnewToo id) :
    Retimed settings time IsAnewToo old new := by
  intro row hrow
  rw [← hiff]
  exact h row hrow

end Retimed

end Schedule

/-! Changes -/

namespace Schedules

variable {tenant id : Uuid} {patch : SchedulePatch} {given : Value} {p : Platform}

theorem get_eq_error {owner : Option Uuid} {fault : Fault}
    (h : (get id owner).run p = (.error fault, p)) : fault = .notFound .schedule id := by
  have hrun : (get id owner).run p =
      (((p.database.schedule? id).filter fun schedule => owner.all (· == schedule.tenant)).elim
        (.error (.notFound .schedule id)) .ok, p) := Work.run_require _ _ p
  cases hfound : (p.database.schedule? id).filter fun schedule =>
      owner.all (· == schedule.tenant) with
  | none =>
      rw [hfound] at hrun
      cases hrun.symm.trans h
      rfl
  | some schedule =>
      rw [hfound] at hrun
      cases hrun.symm.trans h

/-- Why an update stops, before it changes anything. -/
inductive UpdateStops (id : Uuid) (changes : Entries) (p : Platform) : Fault → Prop
  | missing : UpdateStops id changes p (.notFound .schedule id)
  | untimed {schedule : Schedule} {fault : Fault}
      (stored : p.database.schedule? id = some schedule)
      (timed : (nextRunAfterChanges schedule changes).run p = (.error fault, p)) :
      UpdateStops id changes p fault
  | unmade {schedule : Schedule} (stored : p.database.schedule? id = some schedule)
      (made : schedule.change? changes = none) : UpdateStops id changes p .integrity

/-- An update stops and leaves everything as it was, or it changes the one schedule. -/
theorem update_cases (tenant id : Uuid) (patch : SchedulePatch) (given : Value) (p : Platform) :
    (∃ fault, UpdateStops id (changesOf patch given) p fault ∧
      (update tenant id patch given).run p = (.error fault, p)) ∨
    ∃ schedule changed nextRunAt, p.database.schedule? id = some schedule ∧
      (nextRunAfterChanges schedule (changesOf patch given)).run p = (.ok nextRunAt, p) ∧
      schedule.change? (changesOf patch given) = some changed ∧
      ∃ row, row = { changed with
          type := typeAfter schedule (changesOf patch given), nextRunAt := nextRunAt } ∧
        (update tenant id patch given).run p =
          (.ok row, p.onDatabase (·.updateSchedule id fun _ => row)) := by
  unfold update
  rcases (reads_get id (some tenant)).cases p with ⟨fault, hget⟩ | ⟨schedule, hget⟩
  · cases get_eq_error hget
    exact .inl ⟨_, .missing, Action.run_bind_of_error hget⟩
  rw [Action.run_bind_of_ok hget]
  obtain ⟨-, -, hstored, -⟩ := (get_meets (S := fun _ _ => True) id (some tenant)).answers
    schedule (congrArg Prod.fst hget)
  rcases (reads_nextRunAfterChanges schedule (changesOf patch given)).cases p with
    ⟨fault, htimed⟩ | ⟨nextRunAt, htimed⟩
  · exact .inl ⟨fault, .untimed hstored htimed, Action.run_bind_of_error htimed⟩
  dsimp only
  rw [Action.run_bind_of_ok htimed]
  cases hmade : schedule.change? (changesOf patch given) with
  | none => exact .inl ⟨.integrity, .unmade hstored hmade, rfl⟩
  | some changed => exact .inr ⟨schedule, changed, nextRunAt, hstored, htimed, hmade, _, rfl, rfl⟩

/-- An update finds the next run anew where it sets what that is found by. -/
theorem retimed_of_update (tenant id : Uuid) (patch : SchedulePatch) (given : Value)
    (p : Platform) :
    Schedule.Retimed p.settings p.now
      (fun other => id = other ∧ setsTimes (changesOf patch given) = true ∧
        ((update tenant id patch given).run p).1.toOption.isSome)
      p.database.schedules ((update tenant id patch given).run p).2.database.schedules := by
  rcases update_cases tenant id patch given p with
    ⟨fault, -, hrun⟩ | ⟨schedule, changed, nextRunAt, hstored, htimed, hmade, row, hrow, hrun⟩
  · rw [hrun]
    exact .of_subset (fun _ hrow => hrow) fun _ h => nomatch h.2.2
  · have hid := List.find?_some hstored
    obtain ⟨hchanged, -, -, hconfig⟩ := Schedule.change?_keeps hmade
    rw [hrun]
    intro other hother
    obtain ⟨old, hold, rfl⟩ := List.mem_map.mp hother
    by_cases hown : old.id = id
    · rw [if_pos hown]
      have hrowId : row.id = id := by
        rw [hrow]
        exact hchanged.trans (eq_of_beq hid)
      rcases nextRunAfterChanges_eq_ok htimed with
        ⟨hsets, next, hnext, hfound⟩ | ⟨hunset, hkept, htype, hdocument⟩
      · refine .inl ⟨⟨hrowId.symm, hsets, rfl⟩, next, ?_, ?_⟩
        · rw [hrow]
          dsimp only
          rw [hconfig]
          exact hnext
        · rw [hrow]
          exact hfound
      · refine .inr ⟨fun h => ?_, schedule, List.mem_of_find?_eq_some hstored, ?_⟩
        · exact absurd h.2.1 (by rw [hunset]; decide)
        · rw [hrow]
          exact ⟨hchanged, htype, hconfig.trans hdocument, hkept⟩
    · rw [if_neg hown]
      exact .inr ⟨fun h => hown h.1.symm, old, hold, .refl old⟩

end Schedules

/-! Turns -/

namespace Batch

variable {request : ApiRequest} {p : Platform} {id : Uuid}

/-- How one turn in a batch ends, whatever becomes of the run: its schedule moves on, or all of them
stay as they were. -/
inductive TurnEnds (id : Uuid) (p : Platform) : Except Fault RunOutcome → Platform → Prop
  | moved {schedule : Schedule} {last next : DateTime} {outcome : RunOutcome} {q : Platform}
      (stored : p.database.schedule? id = some schedule)
      (found : Schedules.nextRunBy p.settings p.now schedule.type schedule.config = .ok next)
      (rows : q.database.schedules = p.database.schedules.map fun row =>
        if row.id = id then schedule.ranAt last next else row) : TurnEnds id p (.ok outcome) q
  | stayed {fault : Fault} {q : Platform} (rows : q.database.schedules = p.database.schedules)
      (why : p.database.schedule? id = none ∨ fault = .cancelled ∨ ∃ schedule moved,
        p.database.schedule? id = some schedule ∧
          Schedules.Advances schedule none p (.error fault) moved) :
      TurnEnds id p (.error fault) q

theorem processOne_ends (asked : request.Asks .processSchedules) (id : Uuid) (p : Platform) :
    ∃ result q, (processOne id).run p = (result, q) ∧ TurnEnds id p result q ∧
      q.settings = p.settings ∧ q.now = p.now := by
  unfold processOne
  cases hstored : p.database.schedule? id with
  | none =>
      have hget : (Schedules.get id none).run p = (.error (.notFound .schedule id), p) := by
        have hrun : (Schedules.get id none).run p =
            (Work.require (.notFound .schedule id)
              ((p.database.schedule? id).filter fun _ => true)).run p := rfl
        rw [hrun, hstored, Work.run_require]
        rfl
      rw [Action.run_bind_of_error hget]
      exact ⟨_, _, rfl, .stayed rfl (.inl hstored), rfl, rfl⟩
  | some schedule =>
      have hid := List.find?_some hstored
      obtain rfl : schedule.id = id := eq_of_beq hid
      obtain ⟨⟨result, r⟩, hrun⟩ : ∃ ended, (runSchedule schedule).run p = ended := ⟨_, rfl⟩
      have hsteps := (runSchedule_meets asked (.refl p.database)
        (List.mem_of_find?_eq_some hstored)).steps
      rw [hrun] at hsteps
      have hreported := Reported.of_steps hsteps
      rw [Action.run_bind_of_ok (run_get hstored)]
      by_cases hcancelled : result = .error .cancelled
      · have hattempt : (Action.attemptUncancelled (runSchedule schedule)).run p =
            (.error .cancelled, r) := by
          unfold Action.attemptUncancelled
          rw [Action.run_bind_of_ok (Action.run_attempt _ _), hrun, hcancelled]
          rfl
        rw [Action.run_bind_of_error hattempt]
        exact ⟨_, _, rfl, .stayed hreported.schedules (.inr (.inl rfl)), hreported.settings,
          hreported.now⟩
      · obtain ⟨ended, q, hadvance, hadvances⟩ :=
          Schedules.run_advance_of_stored (hreported.schedule? hstored) none
        rw [Action.run_bind_of_ok (Action.run_attemptUncancelled hrun hcancelled)]
        cases hadvances with
        | @moved last next found =>
            have hrows : (r.onDatabase (·.updateSchedule schedule.id fun _ =>
                schedule.ranAt last next)).database.schedules = p.database.schedules.map fun row =>
                  if row.id = schedule.id then schedule.ranAt last next else row := by
              rw [← hreported.schedules]
              rfl
            rw [Action.run_bind_of_ok hadvance]
            change Schedules.nextRunBy r.settings r.now _ _ = _ at found
            rw [hreported.settings, hreported.now] at found
            exact ⟨_, _, rfl, .moved hstored found hrows, hreported.settings, hreported.now⟩
        | missing missing =>
            rw [Action.run_bind_of_error hadvance]
            change Schedules.nextRunBy r.settings r.now _ _ = _ at missing
            rw [hreported.settings, hreported.now] at missing
            exact ⟨_, _, rfl, .stayed hreported.schedules
              (.inr (.inr ⟨_, p, hstored, .missing missing⟩)), hreported.settings, hreported.now⟩
        | outside unended =>
            rw [Action.run_bind_of_error hadvance]
            change r.now.inUniversal? = none at unended
            rw [hreported.now] at unended
            exact ⟨_, _, rfl, .stayed hreported.schedules
              (.inr (.inr ⟨_, p, hstored, .outside unended⟩)), hreported.settings, hreported.now⟩

/-- Whether the turn of a schedule in a batch comes and moves it on. -/
inductive HasTurn (id : Uuid) : List Schedule → Platform → Prop
  | now {schedule : Schedule} {schedules : List Schedule} {outcome : RunOutcome} {p q : Platform}
      (own : schedule.id = id) (ended : (processOne schedule.id).run p = (.ok outcome, q)) :
      HasTurn id (schedule :: schedules) p
  | later {schedule : Schedule} {schedules : List Schedule} {outcome : RunOutcome} {p q : Platform}
      (ended : (processOne schedule.id).run p = (.ok outcome, q)) (rest : HasTurn id schedules q) :
      HasTurn id (schedule :: schedules) p

theorem TurnEnds.retimed {result : Except Fault RunOutcome} {q : Platform}
    (h : TurnEnds id p result q) :
    Schedule.Retimed p.settings p.now (fun other => id = other ∧ result.toOption.isSome)
      p.database.schedules q.database.schedules := by
  cases h with
  | @moved schedule last next outcome _ stored found rows =>
      have hid := List.find?_some stored
      intro row hrow
      rw [rows] at hrow
      obtain ⟨old, hold, rfl⟩ := List.mem_map.mp hrow
      by_cases hown : old.id = id
      · rw [if_pos hown]
        exact .inl ⟨⟨(eq_of_beq hid).symm, rfl⟩, next, found, rfl⟩
      · rw [if_neg hown]
        exact .inr ⟨fun h => hown h.1.symm, old, hold, .refl old⟩
  | stayed rows why => exact .of_subset (fun row hrow => rows ▸ hrow) fun _ h => nomatch h.2

/-- The schedules that have turns are in step with the time of the batch. -/
theorem retimed_of_turns (asked : request.Asks .processSchedules) (schedules : List Schedule)
    (p : Platform) :
    Schedule.Retimed p.settings p.now (HasTurn · schedules p) p.database.schedules
      ((schedules.mapM fun schedule => processOne schedule.id).run p).2.database.schedules := by
  induction schedules generalizing p with
  | nil => exact .of_subset (fun _ hrow => hrow) fun _ h => nomatch h
  | cons schedule schedules ih =>
      obtain ⟨result, q, hrun, hends, hsettings, hnow⟩ := processOne_ends asked schedule.id p
      have hfirst := hends.retimed
      rw [List.mapM_cons]
      cases result with
      | error fault =>
          rw [Action.run_bind_of_error hrun]
          refine hfirst.congr fun id => ⟨fun h => (nomatch h.2), fun h => ?_⟩
          cases h with
          | now own ended => exact nomatch hrun.symm.trans ended
          | later ended rest => exact nomatch hrun.symm.trans ended
      | ok outcome =>
          have hrest := ih q
          rw [hsettings, hnow] at hrest
          rw [Action.run_bind_of_ok hrun, Action.left_bind fun _ => .answer _]
          refine (hfirst.trans hrest).congr fun id => ⟨?_, fun h => ?_⟩
          · rintro (⟨hown, -⟩ | hlater)
            · exact .now hown hrun
            · exact .later hrun hlater
          · cases h with
            | now own ended => exact .inl ⟨own, rfl⟩
            | later ended rest =>
                cases hrun.symm.trans ended
                exact .inr rest

/-- Nothing stops the turns of stored schedules but a cancellation and the end of the calendar. -/
theorem turns_eq_error (asked : request.Asks .processSchedules) {schedules : List Schedule}
    {p q : Platform} {fault : Fault} (timed : ∀ row ∈ p.database.schedules, row.IsTimed p.settings)
    (stored : ∀ schedule ∈ schedules, schedule.id ∈ p.database.schedules.map (·.id))
    (h : (schedules.mapM fun schedule => processOne schedule.id).run p = (.error fault, q)) :
    fault = .cancelled ∨ (∃ reason, fault = .calendar reason) ∧ ¬ p.now.IsWellWithin := by
  induction schedules generalizing p with
  | nil => cases h
  | cons schedule schedules ih =>
      obtain ⟨result, r, hrun, hends, hsettings, hnow⟩ := processOne_ends asked schedule.id p
      rw [List.mapM_cons] at h
      cases hends with
      | @moved advanced last next outcome _ found _ rows =>
          have hid := List.find?_some found
          have hadvanced := timed advanced (List.mem_of_find?_eq_some found)
          have hids : r.database.schedules.map (·.id) = p.database.schedules.map (·.id) := by
            rw [rows, List.map_map]
            refine List.map_congr_left fun row _ => ?_
            rw [Function.comp_apply]
            split
            · next hown => exact (eq_of_beq hid).trans hown.symm
            · rfl
          rw [Action.run_bind_of_ok hrun] at h
          rcases hrest : (schedules.mapM fun schedule => processOne schedule.id).run r with
            ⟨result, s⟩
          cases result with
          | ok outcomes =>
              rw [Action.run_bind_of_ok hrest] at h
              cases h
          | error other =>
              rw [Action.run_bind_of_error hrest] at h
              cases h
              rw [← hnow]
              refine ih (fun row hrow => ?_) (fun other hother => ?_) hrest
              · rw [rows] at hrow
                obtain ⟨old, hold, rfl⟩ := List.mem_map.mp hrow
                rw [hsettings]
                split
                · exact ⟨hadvanced.region, hadvanced.recurrence⟩
                · exact timed old hold
              · rw [hids]
                exact stored other (List.mem_cons_of_mem _ hother)
      | stayed rows why =>
          rw [Action.run_bind_of_error hrun] at h
          cases h
          rcases why with hnone | hcancelled | ⟨row, moved, hrow, hadvances⟩
          · obtain ⟨row, hrow, hid⟩ := List.mem_map.mp (stored schedule (List.mem_cons_self ..))
            exact absurd (beq_iff_eq.mpr hid) (List.find?_eq_none.mp hnone row hrow)
          · exact .inl hcancelled
          · obtain ⟨hcalendar, hends⟩ :=
              (timed row (List.mem_of_find?_eq_some hrow)).advances_eq_error hadvances
            exact .inr ⟨hcalendar, hends rfl⟩

end Batch

end TenantReports
