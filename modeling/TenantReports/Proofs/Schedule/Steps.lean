import TenantReports.Proofs.Api.Guard
import TenantReports.Proofs.Api.Services
import TenantReports.Schedule.Batch

/-!
Running the schedules that are due, as a chain of steps for their tenants.
-/

namespace TenantReports

open Action (Meets Reads)
open Api (Cause Step ReportStep RunStep)
open Relation (ReflTransGen)

variable {request : ApiRequest} {past : Database} {p : Platform}

theorem Runs.exported_sameTables {tenant : Uuid} {source : ReportSource} (execution : Uuid)
    (q r : Platform) (h : q.SameTables r) (hexported : Exported past tenant source execution q) :
    Exported past tenant source execution r := by
  unfold Exported at hexported ⊢
  rw [h.database, h.store]
  exact hexported

namespace Batch

/-- A step of a batch, for the tenant of some schedule. -/
def BatchStep (request : ApiRequest) (past : Database) (p q : Platform) : Prop :=
  ∃ tenant, Step request past (some tenant) p q ∧ p.database.Continues q.database

theorem BatchStep.continues {p q : Platform} (h : ReflTransGen (BatchStep request past) p q) :
    p.database.Continues q.database := by
  induction h with
  | refl => exact .refl _
  | tail _ hstep ih =>
      obtain ⟨tenant, hstep⟩ := hstep
      exact ih.trans hstep.2

/-- A run for a schedule leaves its export. -/
theorem report_meets {schedule : Schedule} {schemaName : String} {definition : Definition}
    (asked : request.Asks .processSchedules) (kept : past.Continues p.database)
    (stored : past.definition? definition.id = some definition)
    (offered : Definitions.isOffered (some schedule.tenant) definition = true)
    (ready : past.HasReady schedule.tenant schemaName)
    (cause : Cause request past p.database.schedules (.definition definition.id)) :
    Meets (ReportStep request past schedule.tenant) (report schedule schemaName definition) p
      fun execution q =>
        Runs.Exported past schedule.tenant (.definition definition.id) execution q := by
  have hrunning : Meets (ReportStep request past schedule.tenant)
      (Runs.runDefinition schemaName definition (Form.entriesOf schedule.parameters)
        (some schedule.tenant) schedule.createdBy) p fun result q =>
        past.HasRun q.database schedule.tenant (.definition definition.id) result.execution :=
    (Runs.runDefinition_meets kept stored offered ready cause _).mono
      fun _ _ => RunStep.toReportStep
  refine hrunning.bind fun result q _ hrun => ?_
  have hexporting := Runs.exportResult_meets (.inr asked) hrun schedule.exportFormat
  exact hexporting.bind fun _ r _ hexported => .answer hexported

theorem runSchedule_meets (asked : request.Asks .processSchedules)
    (kept : past.Continues p.database) {schedule : Schedule}
    (scheduled : schedule ∈ p.database.schedules) :
    Meets (ReportStep request past schedule.tenant) (runSchedule schedule) p
      fun execution q =>
        Runs.Exported past schedule.tenant (.definition schedule.definition) execution q := by
  unfold runSchedule
  refine (Directory.resolveSchema_meets schedule.tenant).bind ?_
  rintro schemaName q - ⟨rfl, hready, -⟩
  refine (Definitions.get_meets schedule.definition (some schedule.tenant)).bind ?_
  rintro definition r - ⟨rfl, hid, hstored, hoffered⟩
  have hpast : past.definition? definition.id = some definition := by
    unfold Database.definition? at hstored ⊢
    rw [← kept.definitions, hid]
    exact hstored
  have hready : past.HasReady schedule.tenant schemaName := by
    unfold Database.HasReady Database.tenant? at hready ⊢
    rw [← kept.tenants]
    exact hready
  refine Meets.inSession ReportStep.aside Runs.exported_sameTables (fun s hsame => ?_) _
  have hkept : past.Continues s.database := kept.trans (.of_eq hsame.database)
  have hcause : Cause request past s.database.schedules (.definition definition.id) := by
    rw [hid]
    exact .schedule asked (hsame.database ▸ scheduled)
  rw [← hid]
  exact report_meets asked hkept hpast hoffered hready hcause

theorem advance_meets (asked : request.Asks .processSchedules) (id : Uuid) :
    Meets (BatchStep request past) (Schedules.advance id none) p fun _ _ => True := by
  unfold Schedules.advance
  refine (Schedules.get_meets id none).bind ?_
  rintro schedule q - ⟨rfl, rfl, hstored, -⟩
  refine ((Schedules.reads_nextRunFromNow _ _).meets q).bind ?_
  rintro next r - ⟨rfl, htimed⟩
  refine .read (a := r.now) rfl ((Work.require_meets _ _).bind ?_)
  rintro last s - ⟨rfl, hlast⟩
  have hstep : Meets (BatchStep request past)
      (Work.updateDatabase (·.updateSchedule schedule.id fun _ =>
        { schedule with lastRunAt := some last, nextRunAt := some next })) s fun _ _ => True :=
    .step ⟨schedule.tenant, .advance asked hstored rfl htimed hlast,
      ⟨rfl, rfl, rfl, fun _ => Nat.le_refl _⟩⟩ trivial
  exact hstep.bind fun _ _ _ _ => .answer trivial

theorem processOne_meets (asked : request.Asks .processSchedules)
    (kept : past.Continues p.database) (id : Uuid) :
    Meets (BatchStep request past) (processOne id) p fun _ _ => True := by
  unfold processOne
  refine (Schedules.get_meets id none).bind ?_
  rintro schedule q - ⟨rfl, -, hstored, -⟩
  have hrunning : Meets (BatchStep request past) (runSchedule schedule) q fun execution r =>
      Runs.Exported past schedule.tenant (.definition schedule.definition) execution r :=
    (runSchedule_meets asked kept (List.mem_of_find?_eq_some hstored)).mono fun _ _ hstep =>
      ⟨schedule.tenant, hstep.step, hstep.continues⟩
  refine hrunning.attemptUncancelled.bind fun outcome r _ _ => ?_
  exact (advance_meets asked id).bind fun _ _ _ _ => .answer trivial

theorem processDue_meets (asked : request.Asks .processSchedules)
    (kept : past.Continues p.database) (limit : Option Int) :
    Meets (BatchStep request past) (processDue limit) p fun _ _ => True := by
  have hall : ∀ (schedules : List Schedule) (q : Platform), past.Continues q.database →
      Meets (BatchStep request past) (schedules.mapM fun schedule => processOne schedule.id) q
        fun _ _ => True := by
    intro schedules
    induction schedules with
    | nil => exact fun _ _ => .answer trivial
    | cons schedule schedules ih =>
        intro q hkept
        rw [List.mapM_cons]
        refine (processOne_meets asked hkept schedule.id).bind fun _ r hsteps _ => ?_
        refine (ih r (hkept.trans (BatchStep.continues hsteps))).bind fun _ s _ _ => ?_
        exact .answer trivial
  unfold processDue
  exact .read (a := p) rfl (.read (a := p.now) rfl (.read rfl (hall _ p kept)))

end Batch

end TenantReports
