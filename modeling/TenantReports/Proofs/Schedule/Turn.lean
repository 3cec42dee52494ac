import TenantReports.Proofs.Schedule.Run

/-!
One schedule's turn in a batch: its run, and then its next run.
-/

namespace TenantReports

open Action (IsUninterrupted)
open Api (ReportStep Sound)
open Relation (ReflTransGen)

/-- The schedule once it was run. -/
def Schedule.ranAt (schedule : Schedule) (now next : DateTime) : Schedule :=
  { schedule with lastRunAt := some now, nextRunAt := some next }

theorem Database.schedule?_of_mem {db : Database} {schedule : Schedule}
    (hnum : Table.schedules.Numbered db) (h : schedule ∈ db.schedules) :
    db.schedule? schedule.id = some schedule :=
  hnum.find?_of_mem h

namespace Batch

variable {request : ApiRequest} {past : Database} {tenant : Uuid} {schedule : Schedule}
  {next : DateTime} {p q r : Platform}

/-- What steps of reports keep. -/
structure Reported (request : ApiRequest) (past : Database) (tenant : Uuid) (p q : Platform) :
    Prop where
  steps : ReflTransGen (Api.Step request past (some tenant)) p q
  continues : p.database.Continues q.database
  schedules : q.database.schedules = p.database.schedules
  settings : q.settings = p.settings
  now : q.now = p.now

theorem Reported.of_steps (h : ReflTransGen (ReportStep request past tenant) p q) :
    Reported request past tenant p q := by
  induction h with
  | refl => exact ⟨.refl, .refl _, rfl, rfl, rfl⟩
  | tail _ hstep ih =>
      exact ⟨ih.steps.tail hstep.step, ih.continues.trans hstep.continues,
        hstep.schedules.trans ih.schedules, hstep.step.settings.trans ih.settings,
        hstep.step.now.trans ih.now⟩

theorem Reported.schedule? {id : Uuid} (h : Reported request past tenant p q)
    (hstored : p.database.schedule? id = some schedule) :
    q.database.schedule? id = some schedule := by
  unfold Database.schedule?
  rw [h.schedules]
  exact hstored

theorem run_get (hstored : p.database.schedule? schedule.id = some schedule) :
    (Schedules.get schedule.id none).run p = (.ok schedule, p) := by
  have hrun : (Schedules.get schedule.id none).run p =
      (Work.require (.notFound .schedule schedule.id)
        ((p.database.schedule? schedule.id).filter fun _ => true)).run p := rfl
  rw [hrun, hstored, Work.run_require]
  rfl

/-- A schedule's turn in a batch, from `p` to `q`. -/
structure Turn (schedule : Schedule) (next : DateTime) (outcome : RunOutcome) (p q : Platform) :
    Prop where
  told : outcome.schedule = schedule.id
  status : outcome.status = "success" ∨ outcome.status = "failed"
  run : ∃ events, q.connection.log = p.connection.log ++ events ∧
    RunEvents p.database schedule events ∧
    (outcome.status = "success" → ∃ execution, outcome.execution = some execution ∧
      Delivered schedule execution events p q) ∧
    ∀ execution, Delivered schedule execution events p q → outcome.status = "success"
  spares : Api.Spares schedule.tenant p.database q.database
  continues : p.database.Continues q.database
  advanced : q.database.schedules = p.database.schedules.map fun row =>
    if row.id = schedule.id then row.ranAt p.now next else row

/-- A schedule's run from `p` to `q` after which no schedule moves on. -/
structure Stays (schedule : Schedule) (p q : Platform) : Prop where
  spares : Api.Spares schedule.tenant p.database q.database
  schedules : q.database.schedules = p.database.schedules

end Batch

end TenantReports
