import TenantReports.Proofs.Api.Acting
import TenantReports.Proofs.Report.Hidden

/-!
What a viewer may ask of custom reports does not depend on the reports that are hidden from the
viewer, and leaves those alone.
-/

namespace TenantReports

open Action (IsUnaware)

variable {viewer : Viewer} {id wanted : Uuid} {report : CustomReport} {p q : Platform}

namespace Work

theorem eq_of_run_require {α : Type} {fault : Fault} {found : Option α} {a : α}
    (h : (require fault found).run p = (.ok a, q)) : found = some a := by
  rw [run_require] at h
  cases found with
  | none => cases h
  | some b =>
      cases h
      rfl

end Work

namespace CustomReports

/-- What the viewer may read. -/
abbrev seen (viewer : Viewer) (report : CustomReport) : Bool :=
  report.tenant == viewer.tenant && report.isVisibleTo (some viewer.user)

/-- What the viewer may change. -/
abbrev owned (viewer : Viewer) (report : CustomReport) : Bool :=
  report.tenant == viewer.tenant && report.isOwnedBy (some viewer.user)

theorem seen_eq_false (h : report.IsHiddenFrom viewer) : seen viewer report = false := by
  rw [seen, h.isVisibleTo, Bool.and_false]

theorem owned_eq_false (h : report.createdBy ≠ some viewer.user) :
    owned viewer report = false := by
  rw [owned, CustomReport.isOwnedBy_eq_false h, Bool.and_false]

theorem run_get (viewer : Viewer) (wanted : Uuid) (p : Platform) :
    (get wanted viewer.tenant (some viewer.user)).run p =
      (Work.require (.notFound .customReport wanted)
        ((p.database.customReport? wanted).filter (seen viewer))).run p := rfl

theorem run_getOwned (viewer : Viewer) (wanted : Uuid) (p : Platform) :
    (getOwned wanted viewer.tenant (some viewer.user)).run p =
      (Work.require (.notFound .customReport wanted)
        ((p.database.customReport? wanted).filter (owned viewer))).run p := rfl

/-- A report that was found is not one that is not meant. -/
theorem id_ne_of_filter {f : CustomReport → Bool} (h : p.database.Hides viewer id)
    (hf : ∀ report, report.IsHiddenFrom viewer → f report = false)
    (hfound : (p.database.customReport? wanted).filter f = some report) :
    report.id = wanted ∧ wanted ≠ id := by
  have hid : report.id = wanted :=
    eq_of_beq (List.find?_some (Option.filter_eq_some_iff.mp hfound).1 :)
  refine ⟨hid, ?_⟩
  rintro rfl
  have hnone := Database.filter_customReport?_eq_none fun report hreport hid =>
    hf report (h report hreport hid)
  cases hnone.symm.trans hfound

theorem isUnaware_find {action : Work CustomReport} {fault : Fault} {f : CustomReport → Bool}
    (hrun : ∀ p : Platform, action.run p =
      (Work.require fault ((p.database.customReport? wanted).filter f)).run p)
    (hf : ∀ report, report.IsHiddenFrom viewer → f report = false) :
    IsUnaware viewer id action := by
  intro p hp
  have hsame : ((p.without id).database.customReport? wanted).filter f =
      (p.database.customReport? wanted).filter f :=
    Database.filter_customReport?_removeCustomReport hp hf wanted
  rw [hrun, hrun, hsame]
  exact Work.isUnaware_require _ _ p hp

theorem isUnaware_get (wanted : Uuid) :
    IsUnaware viewer id (get wanted viewer.tenant (some viewer.user)) :=
  isUnaware_find (run_get viewer wanted) fun _ => seen_eq_false

theorem isUnaware_getOwned (wanted : Uuid) :
    IsUnaware viewer id (getOwned wanted viewer.tenant (some viewer.user)) :=
  isUnaware_find (run_getOwned viewer wanted) fun _ h => owned_eq_false h.unowned

theorem isUnaware_list : IsUnaware viewer id (list viewer.tenant (some viewer.user)) := by
  refine .read (f := fun p => (p.database.customReports.filter (seen viewer)).mergeSort
    fun a b => b.createdAt.instant ≤ a.createdAt.instant) (fun _ => rfl) fun p hp => ?_
  exact congrArg (List.mergeSort · _)
    (Database.filter_customReports_removeCustomReport hp fun _ => seen_eq_false)

theorem isUnaware_validate (schemaName : String) (spec : ReportSpec) :
    IsUnaware viewer id (validate schemaName spec) := by
  have htable (table : String) : IsUnaware viewer id (requireTable schemaName true table) := by
    refine (Directory.isUnaware_tableExists _ _ _).bind fun isThere => ?_
    split
    · exact .answer ()
    · exact .fail _
  exact (IsUnaware.ofResult _).bind fun sql =>
    (IsUnaware.forM htable spec.tables).bind fun _ => .answer sql

theorem isUnaware_validateChange (schemaName : String) (report : CustomReport)
    (changes : Entries) : IsUnaware viewer id (validateChange schemaName report changes) :=
  (IsUnaware.ofResult _).bind fun _ => (IsUnaware.ofResult _).bind fun spec =>
    (isUnaware_validate schemaName spec).bind fun _ => .answer ()

theorem isUnaware_update (schemaName : String) (wanted : Uuid) (patch : CustomReportPatch)
    (given : Value) :
    IsUnaware viewer id (update schemaName viewer.tenant wanted patch given
      (some viewer.user)) := by
  refine (isUnaware_getOwned wanted).bind_of fun p report q hp hrun => ?_
  rw [run_getOwned] at hrun
  obtain ⟨hid, hne⟩ := id_ne_of_filter hp (fun _ h => owned_eq_false h.unowned)
    (Work.eq_of_run_require hrun)
  have hchange : IsUnaware viewer id (do
      let changed ← Work.require .integrity (report.change? (changesOf patch given))
      Work.updateDatabase (·.updateCustomReport wanted fun _ => changed)
      return changed : Work CustomReport) := by
    refine (Work.isUnaware_require _ _).bind_of fun _ changed _ _ hrun => ?_
    have hmade := (Work.eq_of_run_require hrun)
    have hkept : changed.id = wanted := (CustomReport.change?_keeps hmade).1.trans hid
    refine IsUnaware.bind (.updateDatabase ?_ ?_) fun _ => .answer changed
    · exact fun db => Database.updateCustomReport_removeCustomReport hkept
    · exact fun db => Database.sparesReport_updateCustomReport hne hkept
  dsimp only
  split
  · exact (isUnaware_validateChange schemaName report _).bind fun _ => hchange
  · exact hchange

theorem isUnaware_delete (wanted : Uuid) :
    IsUnaware viewer id (delete viewer.tenant wanted (some viewer.user)) := by
  refine (isUnaware_getOwned wanted).bind_of fun p report q hp hrun => ?_
  rw [run_getOwned] at hrun
  obtain ⟨hid, hne⟩ := id_ne_of_filter hp (fun _ h => owned_eq_false h.unowned)
    (Work.eq_of_run_require hrun)
  refine .updateDatabase (fun db => Database.removeCustomReport_comm db id report.id) fun db => ?_
  exact Database.sparesReport_removeCustomReport (hid ▸ hne)

end CustomReports

namespace Runs

theorem isUnaware_record {order : Order} (h : order.source ≠ .custom (some id)) (sql : String) :
    IsUnaware viewer id (record order sql) := by
  have hstart : IsUnaware viewer id (start order) :=
    (IsUnaware.ofResult _).bind fun _ => Work.isUnaware_now.bind fun _ =>
      Work.isUnaware_insertExecution fun _ => h
  have hfinish (execution : Uuid) (state : ExecutionState) :
      IsUnaware viewer id (finish execution state) :=
    .updateDatabase (fun db => Database.updateExecution_removeCustomReport db id execution state)
      fun db => Database.sparesReport_updateExecution db id execution state
  refine hstart.bind fun execution => (Work.isUnaware_query sql).attempt.bind fun outcome => ?_
  rcases outcome with fault | ⟨keys, rows⟩
  · exact Work.isUnaware_now.bind fun _ => (hfinish _ _).bind fun _ => .fail _
  · exact Work.isUnaware_now.bind fun _ => (hfinish _ _).bind fun _ => .answer _

theorem isUnaware_runCustom (schemaName : String) (wanted : Uuid) :
    IsUnaware viewer id (runCustom schemaName viewer.tenant wanted (some viewer.user)) := by
  refine (CustomReports.isUnaware_get wanted).bind_of fun p report q hp hrun => ?_
  rw [CustomReports.run_get] at hrun
  obtain ⟨hid, hne⟩ := CustomReports.id_ne_of_filter hp (fun _ => CustomReports.seen_eq_false)
    (Work.eq_of_run_require hrun)
  have hsource : ReportSource.custom (some report.id) ≠ .custom (some id) := by
    rw [hid]
    exact fun heq => hne (by cases heq; rfl)
  exact (IsUnaware.ofResult _).bind fun _ => (IsUnaware.ofResult _).bind fun sql =>
    (isUnaware_record hsource sql).bind fun _ => .ofResult _

end Runs

namespace Guard

variable {α : Type} {request : ApiRequest}

theorem isUnaware_refusing {action : Work α} (h : IsUnaware viewer id action)
    (refusal? : Fault → Option Refusal) : IsUnaware viewer id (refusing refusal? action) := by
  refine h.attempt.bind fun outcome => ?_
  cases outcome with
  | ok a => exact .answer a
  | error fault => exact .fail _

theorem isUnaware_inSchema {action : Work α} (h : IsUnaware viewer id action)
    (context : TenantContext) : IsUnaware viewer id (inSchema context action) := by
  refine (h.inSession _).attempt.bind fun outcome => ?_
  split
  · exact .answer _
  · exact .fail _
  · exact .fail _
  · exact .fail _

theorem isUnaware_serveInSchema {given : Validated α} {act : TenantContext → α → Work Answer}
    (hnamed : request.tenant = .valid viewer.tenant)
    (h : ∀ context a, context.tenant = viewer.tenant → given = .valid a →
      IsUnaware viewer id (act context a)) :
    IsUnaware viewer id (serveInSchema request noGuard given act) := by
  have htenant : IsUnaware viewer id (tenantOf request) := by
    unfold tenantOf
    rw [hnamed]
    exact (isUnaware_refusing (Directory.isUnaware_resolveSchema viewer.tenant) _).bind
      fun _ => .answer _
  refine htenant.bind_of fun p named q _ hrun => ?_
  cases named with
  | invalid issues => exact IsUnaware.bind (.answer ()) fun _ => .fail _
  | valid context =>
      have hacts : ActsFor request p context := by
        have hleft : q = p := by
          have hreads := reads_tenantOf request p
          rw [hrun] at hreads
          exact hreads
        rw [hleft] at hrun
        exact actsFor_of_tenantOf hrun
      have hown : context.tenant = viewer.tenant := by
        have hsame := hnamed.symm.trans hacts.named
        injection hsame with htenant
        exact htenant.symm
      refine isUnaware_inSchema (IsUnaware.bind (.answer ()) fun _ => ?_) context
      have hreadable : IsUnaware viewer id (requireReadable given) := by
        cases given with
        | invalid issues => exact .fail _
        | valid a => exact .answer a
      refine hreadable.bind_of fun p a q _ hrun => h context a hown ?_
      cases given with
      | invalid issues => cases hrun
      | valid a =>
          cases hrun
          rfl

end Guard

end TenantReports
