import TenantReports.Proofs.Api.Runs
import TenantReports.Proofs.Sql.Basic

/-!
The services behind the endpoints, as chains of steps.
-/

namespace TenantReports

open Action (Meets IsAside Reads)
open Api (Step)

variable {request : ApiRequest} {past : Database} {tenant : Uuid} {p : Platform}
  {S : Platform → Platform → Prop}

namespace Definitions

theorem get_meets (id : Uuid) (tenant : Option Uuid) :
    Meets S (get id tenant) p fun definition q =>
      q = p ∧ definition.id = id ∧ p.database.definition? id = some definition ∧
        isOffered tenant definition = true := by
  refine .read (a := (p.database.definition? id).filter (isOffered tenant)) rfl ?_
  refine (Work.require_meets _ _).weaken fun definition q _ h => ?_
  obtain ⟨hstored, hoffered⟩ := Option.filter_eq_some_iff.mp h.2
  have hid := List.find?_some hstored
  exact ⟨h.1, eq_of_beq hid, hstored, hoffered⟩

theorem reads_get (id : Uuid) (tenant : Option Uuid) : Reads (get id tenant) :=
  Reads.bind (fun _ => rfl) fun _ => Work.reads_require _ _

theorem create_meets {draft : DefinitionDraft} (user : Option Uuid)
    (manager : p.settings.reports.isManager request.role = true)
    (written : request.readBody DefinitionDraft.read = .valid draft) :
    Meets (Step request past none) (create draft user) p fun _ _ => True := by
  unfold create
  refine .pass fun _ _ => .read (a := p.now) rfl ?_
  refine (Work.insert_meets (.refused _) ?_).weaken fun _ _ _ _ => trivial
  exact .define manager written

theorem deactivate_meets (id : Uuid) :
    Meets (Step request past (some tenant)) (deactivate id (some tenant)) p fun _ _ => True := by
  unfold deactivate
  refine (get_meets id _).bind ?_
  rintro definition q - ⟨rfl, rfl, hstored, hoffered⟩
  have hstep : Meets (Step request past (some tenant))
      (Work.updateDatabase (·.updateDefinition definition.id fun d => { d with isActive := false }))
      q fun _ _ => True :=
    .step (.deactivate hstored hoffered) trivial
  exact hstep.bind fun _ _ _ _ => .answer trivial

end Definitions

namespace CustomReports

theorem isAside_requireTable (schemaName : String) (usesCache : Bool) (table : String) :
    IsAside (requireTable schemaName usesCache table) := by
  refine (Directory.isAside_tableExists _ _ _).bind fun isThere => ?_
  split
  · exact .answer ()
  · exact .fail _

theorem validate_meets (hS : ∀ p q, p.SameTables q → S p q) (schemaName : String)
    (spec : ReportSpec) :
    Meets S (validate schemaName spec) p fun sql q =>
      p.SameTables q ∧ compile schemaName spec = .ok sql := by
  unfold validate
  refine .pass fun sql hsql => ?_
  have htables := IsAside.forM (isAside_requireTable schemaName true) spec.tables
  exact (htables.meets hS p).bind fun _ q _ hq => .answer ⟨hq.1, hsql⟩

theorem authorize_meets (spec : ReportSpec) (role : Option String) :
    Meets S (authorize spec role) p fun trusted q =>
      q = p ∧ trusted = spec.trustJoins ∧
        (spec.joins = [] ∨ p.settings.reports.isManager role = true) := by
  unfold authorize
  refine .read (a := p) rfl (.ofResult fun trusted htrusted => ?_)
  unfold ReportSpec.authorizeJoins at htrusted
  split at htrusted
  · next hallowed =>
      refine ⟨rfl, (Except.ok.inj htrusted).symm, ?_⟩
      rcases Bool.or_eq_true_iff.mp hallowed with hnone | hmanager
      · exact .inl (List.isEmpty_iff.mp hnone)
      · cases role with
        | none => exact nomatch hmanager
        | some role => exact .inr hmanager
  · cases htrusted

theorem create_meets {draft : CustomReportDraft} (asked : request.Asks .createCustomReport)
    (schemaName : String) (user : Option Uuid)
    (written : request.readBody CustomReportDraft.read = .valid draft) :
    Meets (Step request past (some tenant)) (create schemaName tenant draft user request.role) p
      fun report q => report ∈ q.database.customReports ∧ report.tenant = tenant := by
  unfold create
  refine (authorize_meets draft.spec request.role).bind ?_
  rintro _ q - ⟨rfl, -, hauthored⟩
  refine (validate_meets (fun _ _ => Step.aside) schemaName _).bind ?_
  rintro _ r - ⟨hsame, -⟩
  rw [← hsame.settings] at hauthored
  refine .read (a := r.now) rfl ?_
  refine (Work.insert_meets (.refused _) ?_).weaken ?_
  · exact .create asked hauthored written
  · rintro report _ - ⟨rfl, rfl⟩
    exact ⟨List.mem_append_right _ (List.mem_singleton_self _), rfl⟩

theorem preview_meets (hS : ∀ p q, p.SameTables q → S p q) (schemaName : String)
    (spec : ReportSpec) (role : Option String) :
    Meets S (preview schemaName spec role) p fun sql q =>
      p.SameTables q ∧ compile schemaName spec.trustJoins = .ok sql ∧
        (spec.joins = [] ∨ p.settings.reports.isManager role = true) := by
  unfold preview
  refine (authorize_meets spec role).bind ?_
  rintro _ q - ⟨rfl, rfl, hauthored⟩
  exact (validate_meets hS schemaName _).weaken fun sql r _ h => ⟨h.1, h.2, hauthored⟩

theorem getOwned_meets (id tenant : Uuid) (user : Option Uuid) :
    Meets S (getOwned id tenant user) p fun report q =>
      q = p ∧ report.id = id ∧ p.database.customReport? id = some report ∧
        report.tenant = tenant := by
  refine .read (a := p.database) rfl ?_
  refine (Work.require_meets _ _).weaken fun report q _ h => ?_
  obtain ⟨hstored, hmatches⟩ := Option.filter_eq_some_iff.mp h.2
  have hid := List.find?_some hstored
  have htenant := (Bool.and_eq_true_iff.mp hmatches).1
  exact ⟨h.1, eq_of_beq hid, hstored, eq_of_beq htenant⟩

theorem validateChange_meets (hS : ∀ p q, p.SameTables q → S p q) (schemaName : String)
    (report : CustomReport) (changes : Entries) :
    Meets S (validateChange schemaName report changes) p fun _ q => p.SameTables q := by
  unfold validateChange
  refine .pass fun _ _ => .pass fun spec _ => ?_
  exact (validate_meets hS schemaName spec).bind fun _ q _ hq => .answer hq.1

theorem update_meets (asked : request.Asks .updateCustomReport) (schemaName : String) (id : Uuid)
    (patch : CustomReportPatch) (given : Value) (user : Option Uuid) :
    Meets (Step request past (some tenant)) (update schemaName tenant id patch given user) p
      fun report q => report ∈ q.database.customReports ∧ report.tenant = tenant := by
  unfold update
  refine (getOwned_meets id tenant user).bind ?_
  rintro report q - ⟨rfl, rfl, hstored, howned⟩
  dsimp only
  have hchange : ∀ r, q.SameTables r → Meets (Step request past (some tenant))
      (do
        let changed ← Work.require .integrity (report.change? (changesOf patch given))
        Work.updateDatabase (·.updateCustomReport report.id fun _ => changed)
        return changed)
      r fun report q => report ∈ q.database.customReports ∧ report.tenant = tenant := by
    intro r hsame
    rw [← hsame.database] at hstored
    refine (Work.require_meets _ _).bind ?_
    rintro changed s - ⟨rfl, hmade⟩
    have hstep : Meets (Step request past (some tenant))
        (Work.updateDatabase (·.updateCustomReport report.id fun _ => changed)) s
        fun _ q => changed ∈ q.database.customReports := by
      refine .step (.change asked hstored howned hmade) ?_
      have hmem := List.mem_of_find?_eq_some hstored
      exact List.mem_map.mpr ⟨report, hmem, if_pos rfl⟩
    refine hstep.bind fun _ _ _ hmem => .answer ⟨hmem, ?_⟩
    exact (CustomReport.change?_keeps hmade).2.1.trans howned
  split
  · exact (validateChange_meets (fun _ _ => Step.aside) _ _ _).bind fun _ r _ hr => hchange r hr
  · exact hchange q (.refl q)

theorem delete_meets (asked : request.Asks .deleteCustomReport) (id : Uuid) (user : Option Uuid)
    (first : p.database = past) :
    Meets (Step request past (some tenant)) (delete tenant id user) p fun _ _ => True := by
  unfold delete
  refine (getOwned_meets id tenant user).bind ?_
  rintro report q - ⟨rfl, rfl, hstored, howned⟩
  exact .step (.remove asked first hstored howned) trivial

end CustomReports

namespace Schedules

theorem reads_regionalNow : Reads regionalNow := by
  refine Reads.bind (fun _ => rfl) fun p => ?_
  exact (Work.reads_require _ _).bind fun _ => Work.reads_require _ _

theorem reads_nextRunAfter (type : String) (config : Value) (time : DateTime) :
    Reads (nextRunAfter type config time) := by
  exact (Reads.ofResult _).bind fun next => Work.reads_require _ _

theorem reads_nextRunFromNow (type : String) (config : Value) :
    Reads (nextRunFromNow type config) :=
  reads_regionalNow.bind fun time => reads_nextRunAfter type config time

theorem reads_nextRunAfterChanges (schedule : Schedule) (changes : Entries) :
    Reads (nextRunAfterChanges schedule changes) := by
  unfold nextRunAfterChanges
  split
  · exact (reads_nextRunFromNow _ _).bind fun next => .answer (some next)
  · exact .answer _

theorem get_meets (id : Uuid) (tenant : Option Uuid) :
    Meets S (get id tenant) p fun schedule q =>
      q = p ∧ schedule.id = id ∧ p.database.schedule? id = some schedule ∧
        ∀ owner, tenant = some owner → schedule.tenant = owner := by
  refine .read (a := p.database) rfl ?_
  refine (Work.require_meets _ _).weaken fun schedule q _ h => ?_
  obtain ⟨hstored, howned⟩ := Option.filter_eq_some_iff.mp h.2
  have hid := List.find?_some hstored
  refine ⟨h.1, eq_of_beq hid, hstored, fun owner howner => ?_⟩
  rw [howner] at howned
  exact (eq_of_beq howned).symm

theorem reads_get (id : Uuid) (tenant : Option Uuid) : Reads (get id tenant) :=
  Reads.bind (fun _ => rfl) fun _ => Work.reads_require _ _

theorem create_meets {draft : ScheduleDraft} (asked : request.Asks .createSchedule)
    (written : request.readBody ScheduleDraft.read = .valid draft) (user : Option Uuid) :
    Meets (Step request past (some tenant)) (create tenant draft user) p
      fun schedule q => schedule ∈ q.database.schedules ∧ schedule.tenant = tenant := by
  unfold create
  refine (Definitions.get_meets draft.definition (some tenant)).bind ?_
  rintro _ q - ⟨rfl, -⟩
  refine ((reads_nextRunFromNow _ _).meets q).bind ?_
  rintro next r - ⟨rfl, htimed⟩
  refine .read (a := r.now) rfl ?_
  refine (Work.insert_meets (.refused _) ?_).weaken ?_
  · exact .schedule asked written htimed
  · rintro schedule _ - ⟨rfl, rfl⟩
    exact ⟨List.mem_append_right _ (List.mem_singleton_self _), rfl⟩

theorem update_meets {id : Uuid} {patch : SchedulePatch} {given : Value}
    (patched : request.Patches id patch) (sent : given = request.body.getD .null) :
    Meets (Step request past (some tenant)) (update tenant id patch given) p
      fun schedule q => schedule ∈ q.database.schedules ∧ schedule.tenant = tenant := by
  unfold update
  refine (get_meets id (some tenant)).bind ?_
  rintro schedule q - ⟨rfl, rfl, hstored, howned⟩
  refine ((reads_nextRunAfterChanges schedule (changesOf patch given)).meets q).bind ?_
  rintro nextRunAt _ - ⟨rfl, htimed⟩
  refine (Work.require_meets _ _).bind ?_
  rintro changed r - ⟨rfl, hmade⟩
  have hstep : Meets (Step request past (some tenant))
      (Work.updateDatabase (·.updateSchedule schedule.id fun _ =>
        { changed with
          type := typeAfter schedule (changesOf patch given), nextRunAt := nextRunAt })) r
      fun _ q => { changed with
          type := typeAfter schedule (changesOf patch given), nextRunAt := nextRunAt } ∈
        q.database.schedules := by
    refine .step (.reschedule patched (congrArg _ sent) hstored (howned tenant rfl) htimed hmade) ?_
    exact List.mem_map.mpr ⟨schedule, List.mem_of_find?_eq_some hstored, if_pos rfl⟩
  refine hstep.bind fun _ _ _ hmem => .answer ⟨hmem, ?_⟩
  exact (Schedule.change?_keeps hmade).2.1.trans (howned tenant rfl)

theorem delete_meets (asked : request.Asks .deleteSchedule) (id : Uuid) :
    Meets (Step request past (some tenant)) (delete tenant id) p fun _ _ => True := by
  unfold delete
  refine (get_meets id (some tenant)).bind ?_
  rintro schedule q - ⟨rfl, rfl, hstored, howned⟩
  exact .step (.unschedule asked hstored (howned tenant rfl)) trivial

end Schedules

namespace Directory

theorem isAside_prepare (schemaName : String) : IsAside (prepare schemaName) := by
  have hcreate : IsAside (createSchema schemaName) :=
    ((IsAside.execute _).bind fun _ => .commit).unscoped
  refine hcreate.bind fun _ => IsAside.get.bind fun p => ?_
  refine IsAside.bind ?_ fun _ => .answer ()
  refine (IsAside.ofResult _).bind fun name => ?_
  split
  · exact .answer 0
  · next files _ =>
      refine IsAside.scopedTo ?_ _
      exact (IsAside.forM IsAside.migrate _).bind fun _ => .answer _

theorem settle_meets (t : Tenant) (status : TenantStatus) (error : Option String) :
    Meets (Step request past none) (settle t status error) p fun _ _ => True := by
  unfold settle
  have hstep : Meets (Step request past none)
      (Work.updateDatabase (·.updateTenant t.id fun t =>
        { t with status, preparationError := error })) p fun _ _ => True :=
    .step (.settle t.id status error) trivial
  exact hstep.bind fun _ _ _ _ => .answer trivial

theorem schemaNameFor_ne_empty (name : String) (schemaName : Option String) :
    schemaNameFor name schemaName ≠ "" := by
  unfold schemaNameFor
  cases hgiven : schemaName.filter (· ≠ "") with
  | none =>
      intro hempty
      have hlist := congrArg String.toList hempty
      simp [schemaSlug] at hlist
  | some given => simpa using (Option.filter_eq_some_iff.mp hgiven).2

/-- The name that is made for a tenant is kept when it is asked for. -/
theorem schemaNameFor_some_self (name : String) (schemaName : Option String) :
    schemaNameFor name (some (schemaNameFor name schemaName)) = schemaNameFor name schemaName := by
  have hfilter : (some (schemaNameFor name schemaName)).filter (· ≠ "") =
      some (schemaNameFor name schemaName) := by
    simp [schemaNameFor_ne_empty]
  rw [schemaNameFor, hfilter, Option.getD_some]

theorem provision_meets {draft : TenantDraft} (asked : request.Asks .provisionTenant)
    (written : request.readBody TenantDraft.read = .valid draft) :
    Meets (Step request past none)
      (provision draft.name (some (schemaNameFor draft.name draft.schemaName)) draft.domain) p
      fun _ _ => True := by
  unfold provision
  rw [schemaNameFor_some_self]
  refine .pass fun _ hvalid => .read (a := p.now) rfl ?_
  refine (Work.insert_meets_of_accepts (.refused _) fun haccepts => ?_).bind ?_
  · exact .enter asked written rfl (Sql.requireIdentifier_eq_ok.mp hvalid) rfl haccepts
  rintro t q - -
  have haside : ∀ p q, Platform.SameTables p q → Step request past none p q := fun _ _ => .aside
  have hprepare :=
    (isAside_prepare (schemaNameFor draft.name draft.schemaName)).meets haside q
  refine hprepare.attemptUncancelled.bind fun outcome r _ _ => ?_
  split
  · exact settle_meets t _ _
  · exact (settle_meets t _ _).bind fun _ _ _ _ => .fail

end Directory

end TenantReports
