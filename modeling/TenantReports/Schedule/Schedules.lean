import TenantReports.Report.Definitions
import TenantReports.Schedule.Recurrence

/-!
The collection of schedules. Whenever a schedule is created, run, or given another recurrence, its
next run is found anew, by the clock of the region that reports go by.
-/

namespace TenantReports.Schedules

/-- The clock of the reports' region. -/
def regionalNow : Work DateTime := do
  let p ← get
  let region := p.settings.reports.timezone
  let _ ← Work.require (.unknownRegion region) (Region.ofName? region)
  Work.require (.calendar .outsideCalendar) (p.now.inRegion? region)

/-- The next run after a point in time, by the clock that the point is told by, as it is stored. -/
def nextRunAfter (type : String) (config : Value) (time : DateTime) : Work DateTime := do
  let next ← Action.ofResult (nextRun type config time)
  Work.require (.calendar .outsideCalendar) next.inUniversal?

/-- The next run from now on. -/
def nextRunFromNow (type : String) (config : Value) : Work DateTime := do
  nextRunAfter type config (← regionalNow)

def create (tenant : Uuid) (draft : ScheduleDraft) (user : Option Uuid) : Work Schedule := do
  let _ ← Definitions.get draft.definition (some tenant)
  let next ← nextRunFromNow draft.type draft.config.form.withoutNulls
  Work.insertSchedule (Schedule.ofDraft draft tenant user next (← Work.now))

def get (id : Uuid) (tenant : Option Uuid) : Work Schedule := do
  let found := ((← Work.database).schedule? id).filter fun schedule =>
    tenant.all (· == schedule.tenant)
  Work.require (.notFound .schedule id) found

def inOrder (schedules : List Schedule) : List Schedule := schedules.mergeSort Schedule.isBefore

/-- The schedules of a tenant in the order of their next runs. -/
def list (tenant : Uuid) : Work (List Schedule) := do
  return inOrder ((← Work.database).schedules.filter (·.tenant == tenant))

/-! Changes -/

def configName : String := "schedule_config"

def typeName : String := "schedule_type"

/-- The changes that a patch makes: the fields that were given for it. A configuration is stored
without the parts that are null. -/
def changesOf (patch : SchedulePatch) (given : Value) : Entries :=
  let changes := Form.entriesOf (patch.form.givenIn given)
  match patch.config with
  | some config => changes.put (.text configName) config.form.withoutNulls
  | none => changes

/-- The type that a schedule has after changes. -/
def typeAfter (schedule : Schedule) (changes : Entries) : String :=
  match changes.field? typeName with
  | some type => type.plainText
  | none => schedule.type

/-- The next run that a schedule has after changes. -/
def nextRunAfterChanges (schedule : Schedule) (changes : Entries) : Work (Option DateTime) := do
  if changes.has (.text typeName) || changes.has (.text configName) then
    let config := Change.documentColumn changes configName schedule.config
    return some (← nextRunFromNow (typeAfter schedule changes) config)
  else return schedule.nextRunAt

def update (tenant id : Uuid) (patch : SchedulePatch) (given : Value) : Work Schedule := do
  let schedule ← get id (some tenant)
  let changes := changesOf patch given
  let nextRunAt ← nextRunAfterChanges schedule changes
  let changed ← Work.require .integrity (schedule.change? changes)
  let changed := { changed with type := typeAfter schedule changes, nextRunAt }
  Work.updateDatabase (·.updateSchedule id fun _ => changed)
  return changed

def delete (tenant id : Uuid) : Work Unit := do
  let schedule ← get id (some tenant)
  Work.updateDatabase (·.removeSchedule schedule.id)

/-! Due schedules -/

/-- At most `limit` of the schedules that are due at a point in time, the longest due first; a
negative limit is none. -/
def due (limit : Int) (time : DateTime) : Work (List Schedule) := do
  let found := inOrder ((← Work.database).schedules.filter (·.isDueAt time))
  return if limit < 0 then found else found.take limit.toNat

/-- Records that a schedule was run and finds its next run: after the given point in time by its
own clock, or from now on. -/
def advance (id : Uuid) (time : Option DateTime) : Work Schedule := do
  let schedule ← get id none
  let next ←
    match time with
    | some time => nextRunAfter schedule.type schedule.config time
    | none => nextRunFromNow schedule.type schedule.config
  let last ← Work.require (.calendar .outsideCalendar) (time.getD (← Work.now)).inUniversal?
  let advanced := { schedule with lastRunAt := some last, nextRunAt := some next }
  Work.updateDatabase (·.updateSchedule id fun _ => advanced)
  return advanced

end TenantReports.Schedules
