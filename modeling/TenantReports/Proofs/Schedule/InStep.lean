import TenantReports.Proofs.Schedule.Retimed

/-!
Stored schedules are in step with their types and configurations: each has a next run as far as the
calendar goes, and the one that it is stored with was found when it was last created, changed or
run.
-/

namespace TenantReports

open Action (Reads)

namespace Api

variable {request : ApiRequest} {p q : Platform}

/-- A patch that reaches its work. -/
theorem run_updateSchedule {argument : String} {context : TenantContext} {id : Uuid}
    {patch : SchedulePatch} (hacts : Guard.ActsFor request p context)
    (hid : scheduleId argument = .valid id)
    (hpatch : request.readBody SchedulePatch.read = .valid patch) :
    (updateSchedule request argument).run p =
      (do
        let schedule ← Guard.refusing (Guard.firstOf [Guard.missingRefusal?, Guard.inputRefusal?])
          (Schedules.update context.tenant id patch (request.body.getD .null))
        return .ok (← shownSchedule schedule) : Work Answer).run p := by
  have hpassed : Guard.noGuard.run p = (.ok (), p) := rfl
  unfold updateSchedule
  rw [Guard.run_serveTenant hacts hpassed (Guard.valid_pair hid hpatch)]

/-- Where a schedule comes from that a request leaves: it was there, or the request creates it. -/
inductive Origin (request : ApiRequest) (p : Platform) (row : Schedule) : Prop
  | kept (stored : row ∈ p.database.schedules)
  | created (asked : request.Asks .createSchedule)
      (later : Table.IsLater p.database .schedules row.id)
      (timed : row.IsInStep p.settings p.now)
  | other (asked : request.Asks .updateSchedule ∨ request.Asks .processSchedules)

theorem Steps.schedule_origin (h : Steps request p.database p q) (hsound : Sound p.database) :
    ∀ row ∈ q.database.schedules, Origin request p row := by
  induction h with
  | refl => exact fun row hrow => .kept hrow
  | @tail r _ hsteps hstep ih =>
      obtain ⟨owner, hstep⟩ := hstep
      have hfollows := Steps.follows hsteps hsound
      intro row hrow
      rcases (hstep.schedules hfollows.sound).origin hrow with
        ⟨old, hold, -, -, rfl | ⟨-, asked, -⟩⟩ | ⟨hid, -, asked, timed, -⟩
      · exact ih row hold
      · exact .other asked
      · have hlater := Table.isLater_nextId (hfollows.attempts .schedules)
        have hid : row.id = r.database.nextId .schedules := hid
        rw [← hid] at hlater
        rw [hfollows.settings, Steps.now hsteps] at timed
        exact .created asked hlater timed

end Api

namespace Exchange

/-- Whether an exchange finds the next run of a schedule anew: it creates the schedule, it sets its
type or its configuration, or it is a batch in which the schedule has its turn. -/
inductive Times (e : Exchange) (id : Uuid) : Prop
  | creates (asked : e.request.Asks .createSchedule)
      (absent : id ∉ e.met.database.schedules.map (·.id))
      (present : id ∈ e.left.database.schedules.map (·.id))
  | changes {argument : String} {context : TenantContext} {patch : SchedulePatch}
      {changed : Schedule}
      (target : Route.targetOf e.request.method e.request.path =
        .endpoint .updateSchedule argument)
      (acts : Guard.ActsFor e.request e.met context)
      (named : Api.scheduleId argument = .valid id)
      (written : e.request.readBody SchedulePatch.read = .valid patch)
      (sets : Schedules.setsTimes (Schedules.changesOf patch (e.request.body.getD .null)) = true)
      (made : ((Schedules.update context.tenant id patch (e.request.body.getD .null)).run e.met).1 =
        .ok changed)
  | turns {limit : Option Int} {selected : List Schedule}
      (asked : e.request.Asks .processSchedules) (stores : e.met.store.isSome)
      (read : e.request.optionalParameter "limit" (Read.wholeIn (some 1) (some Api.largestBatch)) =
        .valid limit)
      (due : (Schedules.due (Batch.limitOf e.met.settings limit) e.met.now).run e.met =
        (.ok selected, e.met))
      (turn : Batch.HasTurn id selected e.met)

variable {e : Exchange}

/-- What a patch leaves that reaches its work. -/
theorem left_of_update {argument : String} {context : TenantContext} {id : Uuid}
    {patch : SchedulePatch}
    (htarget : Route.targetOf e.request.method e.request.path =
      .endpoint .updateSchedule argument)
    (hacts : Guard.ActsFor e.request e.met context) (hid : Api.scheduleId argument = .valid id)
    (hpatch : e.request.readBody SchedulePatch.read = .valid patch) :
    e.left = ((Schedules.update context.tenant id patch (e.request.body.getD .null)).run
      e.met).2 := by
  have hleft : e.left = ((Api.updateSchedule e.request argument).run e.met).2 :=
    left_of_target htarget
  rw [hleft, Api.run_updateSchedule hacts hid hpatch]
  refine (Action.left_bind (fun schedule => ?_) e.met).trans (Guard.left_refusing _ _ _)
  refine Reads.bind ?_ fun _ => .answer _
  unfold Api.shownSchedule
  split
  · exact .answer _
  · exact .fail _

theorem retimed_of_update {argument : String}
    (htarget : Route.targetOf e.request.method e.request.path =
      .endpoint .updateSchedule argument) :
    Schedule.Retimed e.met.settings e.met.now e.Times e.met.database.schedules
      e.left.database.schedules := by
  have hleft : e.left = ((Api.updateSchedule e.request argument).run e.met).2 :=
    left_of_target htarget
  unfold Api.updateSchedule at hleft
  by_cases hacts : ∃ context id patch, Guard.ActsFor e.request e.met context ∧
      Api.scheduleId argument = .valid id ∧ e.request.readBody SchedulePatch.read = .valid patch
  · obtain ⟨context, id, patch, hacts, hid, hpatch⟩ := hacts
    rw [left_of_update htarget hacts hid hpatch]
    refine (Schedules.retimed_of_update _ _ _ _ _).congr fun other => ⟨?_, fun h => ?_⟩
    · rintro ⟨rfl, hsets, hok⟩
      obtain ⟨changed, hmade⟩ := isSome_toOption_iff.mp hok
      exact .changes htarget hacts hid hpatch hsets hmade
    · cases h with
      | creates asked absent present => cases asked.eq ⟨_, htarget⟩
      | turns asked stores read due turn => cases asked.eq ⟨_, htarget⟩
      | changes target acts named written sets made =>
          cases htarget.symm.trans target
          cases hid.symm.trans named
          cases hpatch.symm.trans written
          have htenant := Validated.valid.inj (hacts.named.symm.trans acts.named)
          rw [← htenant] at made
          exact ⟨rfl, sets, isSome_toOption_iff.mpr ⟨_, made⟩⟩
  · rcases Guard.serveTenant_cases Guard.reads_noGuard _ with
      hsame | ⟨context, given, hfor, -, hgiven⟩
    · rw [hleft, hsame]
      refine .of_subset (fun _ hrow => hrow) fun other h => ?_
      cases h with
      | creates asked absent present => cases asked.eq ⟨_, htarget⟩
      | turns asked stores read due turn => cases asked.eq ⟨_, htarget⟩
      | changes target acts named written sets made =>
          cases htarget.symm.trans target
          exact hacts ⟨_, _, _, acts, named, written⟩
    · obtain ⟨hid, hpatch⟩ := Guard.valid_of_pair hgiven
      exact absurd ⟨context, given.1, given.2, hfor, hid, hpatch⟩ hacts

theorem retimed_of_batch (asked : e.request.Asks .processSchedules) :
    Schedule.Retimed e.met.settings e.met.now e.Times e.met.database.schedules
      e.left.database.schedules := by
  obtain ⟨argument, htarget⟩ := asked
  have hleft : e.left = ((Api.processSchedules e.request).run e.met).2 := left_of_target htarget
  unfold Api.processSchedules at hleft
  have hnone : ∀ id, ¬ (∃ limit, e.met.store.isSome ∧ e.request.optionalParameter "limit"
      (Read.wholeIn (some 1) (some Api.largestBatch)) = .valid limit) → ¬ e.Times id := by
    intro id hread htimes
    cases htimes with
    | creates asked absent present => cases asked.eq ⟨_, htarget⟩
    | changes target acts named written sets made => cases htarget.symm.trans target
    | turns asked stores read due turn => exact hread ⟨_, stores, read⟩
  by_cases hread : ∃ limit, e.met.store.isSome ∧ e.request.optionalParameter "limit"
      (Read.wholeIn (some 1) (some Api.largestBatch)) = .valid limit
  · obtain ⟨limit, hstore, hlimit⟩ := hread
    obtain ⟨selected, hdue, -⟩ := Batch.run_due (Batch.limitOf e.met.settings limit) e.met
    have hturned : e.left = ((selected.mapM fun schedule =>
        Batch.processOne schedule.id).run e.met).2 := by
      rw [hleft, Guard.run_serve (Guard.run_requireStore.mpr hstore) hlimit,
        Action.left_bind fun _ => .answer _, Batch.run_processDue hdue]
    rw [hturned]
    refine (Batch.retimed_of_turns ⟨_, htarget⟩ selected e.met).congr fun id =>
      ⟨fun hturn => .turns ⟨_, htarget⟩ hstore hlimit hdue hturn, fun h => ?_⟩
    cases h with
    | creates asked absent present => cases asked.eq ⟨_, htarget⟩
    | changes target acts named written sets made => cases htarget.symm.trans target
    | turns asked stores read due turn =>
        cases hlimit.symm.trans read
        cases hdue.symm.trans due
        exact turn
  · rcases Guard.serve_cases Guard.reads_requireStore _ with hsame | ⟨limit, hpassed, hlimit⟩
    · rw [hleft, hsame]
      exact .of_subset (fun _ hrow => hrow) fun id => hnone id hread
    · exact absurd ⟨limit, Guard.run_requireStore.mp hpassed, hlimit⟩ hread

/-- An exchange that finds next runs anew does so by its own clock, and keeps all others. -/
theorem retimed (e : Exchange) (hsound : Api.Sound e.met.database) :
    Schedule.Retimed e.met.settings e.met.now e.Times e.met.database.schedules
      e.left.database.schedules := by
  by_cases hupdates : e.request.Asks .updateSchedule
  · obtain ⟨argument, htarget⟩ := hupdates
    exact retimed_of_update htarget
  by_cases hprocesses : e.request.Asks .processSchedules
  · exact retimed_of_batch hprocesses
  intro row hrow
  cases e.steps.schedule_origin hsound row hrow with
  | kept stored =>
      refine .inr ⟨fun htimes => ?_, row, stored, .refl row⟩
      cases htimes with
      | creates asked absent present => exact absent (List.mem_map_of_mem stored)
      | changes target acts named written sets made => exact hupdates ⟨_, target⟩
      | turns asked stores read due turn => exact hprocesses asked
  | created asked later timed =>
      refine .inl ⟨.creates asked (fun hmem => ?_) (List.mem_map_of_mem hrow), timed⟩
      obtain ⟨old, hold, hid⟩ := List.mem_map.mp hmem
      exact hsound.schedules.id_ne_of_isLater later hold hid
  | other asked => exact absurd asked (not_or.mpr ⟨hupdates, hprocesses⟩)

end Exchange

namespace History

variable {settings : Settings} {exchanges : List Exchange} {db : Database}

/-- The next run that a schedule is stored with was found by the last exchange that found it
anew. -/
theorem lastTimed (h : History settings exchanges db) {row : Schedule} (hrow : row ∈ db.schedules) :
    ∃ before e after, exchanges = before ++ e :: after ∧ e.Times row.id ∧
      (∀ later ∈ after, ¬ later.Times row.id) ∧ row.IsInStep settings e.met.now := by
  have hmakes : ∀ e : Exchange, Api.Sound e.met.database → e.Remakes Table.schedules Exchange.Times
      (fun _ row e => row.IsInStep e.met.settings e.met.now) := by
    intro e hsound row hrow
    refine (e.retimed hsound row hrow).imp_right ?_
    rintro ⟨hkept, old, hold, hsame⟩
    exact ⟨hkept, old, hold, hsame.id, fun _ => hsame.isInStep⟩
  obtain ⟨before, e, after, hsplit, htimes, hlater, hstep⟩ :=
    h.lastMade rfl hmakes hrow
  rw [(h.split hsplit).2] at hstep
  exact ⟨before, e, after, hsplit, htimes, hlater, hstep⟩

/-- Every stored schedule recurs, and its next run is the one after the exchange that was the last
to find it anew, by the type and the configuration that it now has. It moves on, and a batch goes
on, unless the calendar ends; in a batch a run may also be cancelled. -/
theorem schedules_in_step (h : History settings exchanges db) :
    (∀ row ∈ db.schedules, row.Recurs ∧
      (∃ before e after, exchanges = before ++ e :: after ∧ e.Times row.id ∧
        (∀ later ∈ after, ¬ later.Times row.id) ∧ row.IsInStep settings e.met.now) ∧
      ∀ (p : Platform) (time : Option DateTime) (fault : Fault),
        p.database = db → p.settings = settings →
        ((Schedules.advance row.id time).run p).1 = .error fault →
        (∃ reason, fault = .calendar reason) ∧ (time = none → ¬ p.now.IsWellWithin)) ∧
    ∀ (p : Platform) (limit : Option Int) (fault : Fault),
      p.database = db → p.settings = settings →
      ((Batch.processDue limit).run p).1 = .error fault →
      fault = .cancelled ∨ (∃ reason, fault = .calendar reason) ∧ ¬ p.now.IsWellWithin := by
  have hall := h.timed
  refine ⟨fun row hrow => ⟨(hall row hrow).recurs, h.lastTimed hrow, ?_⟩, ?_⟩
  · rintro p time fault rfl rfl hfault
    have hstored := Database.schedule?_of_mem h.sound.schedules hrow
    obtain ⟨result, q, hrun, hadvances⟩ := Schedules.run_advance_of_stored hstored time
    rw [hrun] at hfault
    change result = _ at hfault
    rw [hfault] at hadvances
    exact (hall row hrow).advances_eq_error hadvances
  · rintro p limit fault rfl rfl hfault
    obtain ⟨selected, hdue, hselects⟩ := Batch.run_due (Batch.limitOf p.settings limit) p
    rw [Batch.run_processDue hdue] at hfault
    exact Batch.turns_eq_error ApiRequest.asks_toProcess hall
      (fun schedule hmem => List.mem_map_of_mem (hselects.mem hmem).1) (Prod.ext hfault rfl)

/-- A schedule that was daily is made weekly without a configuration, and a batch runs it on a
Tuesday: it is next due on the Monday after. -/
theorem schedules_in_step_of_weekly :
    ∃ exchanges db, History (.ofMigrations "migrations") exchanges db ∧
      db.schedules.map (·.type) = ["weekly"] ∧
      db.schedules.map (·.nextRunAt) = [some ⟨⟨2024, 5, 13⟩, ⟨9, 0, 0, 0⟩, .offset 0⟩] ∧
      ∀ row ∈ db.schedules, row.Recurs ∧ ∃ before e after, exchanges = before ++ e :: after ∧
        e.Times row.id ∧ row.IsInStep (.ofMigrations "migrations") e.met.now := by
  let tenant := TableName.rowId .tenants 1
  let schedule := TableName.rowId .schedules 1
  let requests := [.toProvision "North", .toDefine "SELECT 1",
    .toSchedule tenant (TableName.rowId .definitions 1),
    ApiRequest.toReschedule tenant schedule "weekly" .null]
  let start := Platform.new (.ofMigrations "migrations") ⟨⟨2024, 5, 1⟩, ⟨9, 0, 0, 0⟩, .offset 0⟩
  obtain ⟨p, hp, hpast, hsettings⟩ :=
    exists_afterAll (.ofMigrations "migrations") start rfl rfl requests
  let later := p.atTime ⟨⟨2024, 5, 7⟩, ⟨10, 0, 0, 0⟩, .offset 0⟩
  obtain ⟨htypes, htimes⟩ :
      (later.afterAll [.toProcess]).database.schedules.map (·.type) = ["weekly"] ∧
      (later.afterAll [.toProcess]).database.schedules.map (·.nextRunAt) =
        [some ⟨⟨2024, 5, 13⟩, ⟨9, 0, 0, 0⟩, .offset 0⟩] := by
    unfold later
    rw [hp]
    decide +kernel
  have h := inTurn (p := later) hpast hsettings [.toProcess]
  refine ⟨_, _, h, htypes, htimes, fun row hrow => ?_⟩
  obtain ⟨hrecurs, ⟨before, e, after, hsplit, htimes, -, hstep⟩, -⟩ :=
    (schedules_in_step h).1 row hrow
  exact ⟨hrecurs, before, e, after, hsplit, htimes, hstep⟩

end History

end TenantReports
