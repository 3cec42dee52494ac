import TenantReports.Proofs.Api.Acting
import TenantReports.Proofs.Report.AsChecked
import TenantReports.Proofs.Report.Patch
import TenantReports.Proofs.Schedule.Readable

/-!
Stored custom reports could be created as they are, and patches of them end in answers, but for
empty names and for nulls that patches give where they must not.
-/

namespace TenantReports

open Validated

/-! Reports that could be created -/

/-- The name of a new record is the text that was given, and not the empty one. -/
theorem recordName_eq_valid {v : Value} {name : String} :
    recordName v = .valid name ↔ Read.text v = .valid name ∧ name ≠ "" := by
  have hread : recordName v = (Read.text v).andThen fun s =>
      if s.length < 1 then issue .textTooShort else .valid s := rfl
  rw [hread]
  cases Read.text v with
  | invalid issues => exact ⟨fun h => (nomatch h), fun h => (nomatch h.1)⟩
  | valid s =>
      change (if s.length < 1 then issue .textTooShort else .valid s) = _ ↔ _
      split
      · next hshort =>
          refine ⟨fun h => (nomatch h), ?_⟩
          rintro ⟨⟨⟩, hsome⟩
          exact absurd (String.length_eq_zero_iff.mp (Nat.lt_one_iff.mp hshort)) hsome
      · next hlong =>
          refine ⟨fun h => ⟨h, ?_⟩, fun h => h.1⟩
          rintro rfl
          cases h
          exact hlong (by decide)

theorem Read.list_texts (texts : List String) : list text (.texts texts) = .valid texts := by
  refine items_of_forall₂ ?_ 0
  rw [List.forall₂_map_left_iff, List.forall₂_same]
  exact fun s _ => rfl

namespace CustomReport

variable {report : CustomReport}

/-- A stored report, read back field by field, could be created if it holds a specification, has a
name, and has a visualization that there is. -/
theorem readBack_iff (style : ClockStyle) :
    (∃ draft, CustomReportDraft.read (report.toValue style) = .valid draft) ↔
      (∃ spec, report.spec.Holds spec) ∧ report.name ≠ "" ∧
        report.visualization ∈ visualizations := by
  constructor
  · rintro ⟨draft, h⟩
    obtain ⟨g₅, isShared, h₅, -, rfl⟩ := seq_eq_valid.mp h
    obtain ⟨g₄, roles, h₄, -, rfl⟩ := seq_eq_valid.mp h₅
    obtain ⟨g₃, visualization, h₃, hvisualization, rfl⟩ := seq_eq_valid.mp h₄
    obtain ⟨g₂, description, h₂, -, rfl⟩ := seq_eq_valid.mp h₃
    obtain ⟨g₁, name, h₁, hname, rfl⟩ := seq_eq_valid.mp h₂
    obtain ⟨spec, hspec, rfl⟩ := map_eq_valid.mp h₁
    have hvisualization := Read.choice_eq_valid.mp (under_eq_valid.mp hvisualization)
    have hname := (recordName_eq_valid.mp (under_eq_valid.mp hname) :)
    have hread : ReportSpec.read (.mapping report.spec.entries) = .valid spec := hspec
    have hname : report.name ≠ "" := by
      rw [Validated.valid.inj hname.1]
      exact hname.2
    refine ⟨⟨spec, SpecDocument.read_eq_valid.mp hread⟩, hname, ?_⟩
    rw [Value.text.inj hvisualization.1]
    exact hvisualization.2
  · rintro ⟨⟨spec, hspec⟩, hname, hvisualization⟩
    have hread : ReportSpec.read (.mapping report.spec.entries) = .valid spec :=
      SpecDocument.read_eq_valid.mpr hspec
    have hname : recordName (.text report.name) = .valid report.name :=
      recordName_eq_valid.mpr ⟨rfl, hname⟩
    have hvisualization :
        Read.choice visualizations (.text report.visualization) = .valid report.visualization :=
      Read.choice_eq_valid.mpr ⟨rfl, hvisualization⟩
    have hdescription : Read.nullable Read.text (.orNull .text report.description) =
        .valid report.description := by
      cases report.description <;> rfl
    have hroles : Read.list Read.text (.texts report.rolePermissions) =
        .valid report.rolePermissions := Read.list_texts _
    refine ⟨⟨spec, report.name, report.description, report.visualization, report.rolePermissions,
      report.isShared⟩, ?_⟩
    exact seq_eq_valid.mpr ⟨_, _, seq_eq_valid.mpr ⟨_, _, seq_eq_valid.mpr ⟨_, _,
      seq_eq_valid.mpr ⟨_, _, seq_eq_valid.mpr ⟨_, _, map_eq_valid.mpr ⟨_, hread, rfl⟩,
        under_eq_valid.mpr hname, rfl⟩, under_eq_valid.mpr hdescription, rfl⟩,
        under_eq_valid.mpr hvisualization, rfl⟩, under_eq_valid.mpr hroles, rfl⟩, rfl, rfl⟩

end CustomReport

/-! Where stored reports come from -/

/-- Whether a request patches a custom report. -/
structure ApiRequest.Revises (request : ApiRequest) (id : Uuid) (patch : CustomReportPatch) :
    Prop where
  target : ∃ argument, Route.targetOf request.method request.path =
    .endpoint .updateCustomReport argument ∧ Api.customReportId argument = .valid id
  written : request.readBody CustomReportPatch.read = .valid patch

/-- Whether a request gives a custom report the empty name. -/
def ApiRequest.Unnames (request : ApiRequest) (id : Uuid) : Prop :=
  ∃ patch, request.Revises id patch ∧ patch.name = some ""

theorem ApiRequest.Revises.setsColumns {request : ApiRequest} {id : Uuid}
    {patch : CustomReportPatch} (h : request.Revises id patch) :
    CustomReportPatch.SetsColumns (Form.entriesOf (request.body.getD .null))
      (CustomReports.changesOf patch (request.body.getD .null)) := by
  obtain ⟨v, hbody, hread⟩ := readBody_eq_valid h.written
  rw [hbody]
  exact CustomReportPatch.setsColumns hread

namespace CustomReportPatch

/-- A patch that sets a name sets the one that was read. -/
theorem name_of_changesOf {patch : CustomReportPatch} {v : Value} {s : String}
    (h : (CustomReports.changesOf patch v).field? "name" = some (.text s)) :
    patch.name = some s := by
  cases v with
  | mapping given =>
      rw [field?_changesOf rfl] at h
      obtain ⟨v, -, hset⟩ := Option.map_eq_some_iff.mp h
      cases hname : patch.name with
      | none =>
          rw [hname] at hset
          cases hset
      | some name =>
          rw [hname] at hset
          cases hset
          rfl
  | _ => cases h

end CustomReportPatch

namespace Exchange

variable {e : Exchange} {argument : String}

/-- Where a custom report comes from that an exchange leaves. -/
inductive CustomReportOrigin (e : Exchange) (row : CustomReport) : Prop
  | kept (stored : row ∈ e.met.database.customReports)
  | created {draft : CustomReportDraft} {tenant id : Uuid} {user : Option Uuid} {now : DateTime}
      (written : e.request.readBody CustomReportDraft.read = .valid draft)
      (made : row = .ofDraft draft tenant user now id)
  | revised {patch : CustomReportPatch} {old : CustomReport}
      (stored : old ∈ e.met.database.customReports) (same : row.id = old.id)
      (revises : e.request.Revises old.id patch) (made : old.change? (e.changes patch) = some row)

theorem customReport_origin_of_create
    (htarget : Route.targetOf e.request.method e.request.path =
      .endpoint .createCustomReport argument) :
    ∀ row ∈ e.left.database.customReports, e.CustomReportOrigin row := by
  intro row hrow
  have hleft : e.left = ((Api.createCustomReport e.request).run e.met).2 := left_of_target htarget
  unfold Api.createCustomReport at hleft
  rcases Guard.serveInSchema_cases Guard.reads_noGuard _ with
    hsame | ⟨context, given, henters, -, hgiven⟩
  · rw [← hleft] at hsame
    exact .kept (hsame.database ▸ hrow)
  obtain ⟨user, draft⟩ := given
  obtain ⟨huser, hdraft⟩ := Guard.valid_of_pair hgiven
  have hstart := (Action.sameTables_entered context.schemaName e.met).database
  rw [database_of_create htarget henters huser hdraft] at hrow
  rcases CustomReports.create_cases context.schemaName context.tenant draft user e.request.role
    (Action.entered context.schemaName e.met) with
    ⟨fault, q, hrun, hkept⟩ | ⟨sql, made, q, -, -, hmade, hrun, hadded⟩
  · rw [hrun] at hrow
    dsimp only at hrow
    rw [hkept, hstart] at hrow
    exact .kept hrow
  · rw [hrun] at hrow
    dsimp only at hrow
    rw [hadded, hstart] at hrow
    rcases List.mem_append.mp hrow with hold | hnew
    · exact .kept hold
    · rw [List.mem_singleton.mp hnew]
      exact .created hdraft hmade

theorem customReport_origin_of_update
    (htarget : Route.targetOf e.request.method e.request.path =
      .endpoint .updateCustomReport argument) :
    ∀ row ∈ e.left.database.customReports, e.CustomReportOrigin row := by
  intro row hrow
  have hleft : e.left = ((Api.updateCustomReport e.request argument).run e.met).2 :=
    left_of_target htarget
  unfold Api.updateCustomReport at hleft
  rcases Guard.serveInSchema_cases Guard.reads_noGuard _ with
    hsame | ⟨context, given, henters, -, hgiven⟩
  · rw [← hleft] at hsame
    exact .kept (hsame.database ▸ hrow)
  obtain ⟨⟨user, id⟩, patch⟩ := given
  obtain ⟨hnamed, hpatch⟩ := Guard.valid_of_pair hgiven
  have hstart := (Action.sameTables_entered context.schemaName e.met).database
  rw [database_of_update htarget henters hnamed hpatch] at hrow
  rcases CustomReports.update_cases context.schemaName context.tenant id patch
    (e.request.body.getD .null) user (Action.entered context.schemaName e.met) with
    ⟨fault, q, hrun, hkept⟩ | ⟨report, changed, q, hstored, -, hmade, -, hrun, hchanged⟩
  · rw [hrun] at hrow
    dsimp only at hrow
    rw [hkept, hstart] at hrow
    exact .kept hrow
  · rw [hrun] at hrow
    dsimp only at hrow
    rw [hstart] at hstored hchanged
    have hid : report.id = id := eq_of_beq (List.find?_some hstored :)
    rw [hchanged] at hrow
    obtain ⟨old, hold, rfl⟩ := List.mem_map.mp hrow
    split
    · have hrevises : e.request.Revises report.id patch := by
        rw [hid]
        exact ⟨⟨argument, htarget, (Guard.valid_of_pair hnamed).2⟩, hpatch⟩
      exact .revised (List.mem_of_find?_eq_some hstored) (CustomReport.change?_keeps hmade).1
        hrevises hmade
    · exact .kept hold

theorem customReport_origin (e : Exchange) (hsound : Api.Sound e.met.database) :
    ∀ row ∈ e.left.database.customReports, e.CustomReportOrigin row := by
  by_cases hcreates : e.request.Asks .createCustomReport
  · obtain ⟨argument, htarget⟩ := hcreates
    exact customReport_origin_of_create htarget
  by_cases hupdates : e.request.Asks .updateCustomReport
  · obtain ⟨argument, htarget⟩ := hupdates
    exact customReport_origin_of_update htarget
  exact fun row hrow => .kept (e.steps.customReports_kept hsound hcreates hupdates row hrow)

end Exchange

theorem CustomReportDraft.columns_of_read {v : Value} {draft : CustomReportDraft}
    (h : read v = .valid draft) : draft.name ≠ "" ∧ draft.visualization ∈ visualizations := by
  obtain ⟨given, h⟩ := record_eq_valid h
  obtain ⟨g₅, isShared, h₅, -, rfl⟩ := seq_eq_valid.mp h
  obtain ⟨g₄, roles, h₄, -, rfl⟩ := seq_eq_valid.mp h₅
  obtain ⟨g₃, visualization, h₃, hvisualization, rfl⟩ := seq_eq_valid.mp h₄
  obtain ⟨g₂, description, h₂, -, rfl⟩ := seq_eq_valid.mp h₃
  obtain ⟨g₁, name, h₁, hname, rfl⟩ := seq_eq_valid.mp h₂
  obtain ⟨spec, -, rfl⟩ := map_eq_valid.mp h₁
  refine ⟨?_, ?_⟩
  · unfold Read.required at hname
    split at hname
    · exact (recordName_eq_valid.mp (under_eq_valid.mp hname)).2
    · cases hname
  · unfold Read.optional at hvisualization
    split at hvisualization
    · exact (Read.choice_eq_valid.mp (under_eq_valid.mp hvisualization)).2
    · cases hvisualization
      exact (by decide : "table" ∈ visualizations)

/-- A patch leaves a visualization that there is, and a name unless it takes it. -/
theorem CustomReport.columns_of_change {e : Exchange} {old row : CustomReport}
    {patch : CustomReportPatch} (hrevises : e.request.Revises old.id patch)
    (hmade : old.change? (e.changes patch) = some row) (hold : old.visualization ∈ visualizations) :
    row.visualization ∈ visualizations ∧
      (row.name = "" → old.name = "" ∨ e.request.Unnames old.id) := by
  have hsets := hrevises.setsColumns
  obtain ⟨hname, hvisualization⟩ := change?_columns hmade
  refine ⟨?_, fun hempty => ?_⟩
  · rcases Change.textColumn_cases hsets.visualization hvisualization with
      ⟨heq, -⟩ | ⟨-, s, hmem, heq⟩
    · rw [heq]
      exact hold
    · rw [Value.text.inj heq]
      exact hmem
  · rcases Change.textColumn_cases hsets.name hname with ⟨heq, -⟩ | ⟨hset, -⟩
    · exact .inl (heq.symm.trans hempty)
    · rw [hempty] at hset
      exact .inr ⟨patch, hrevises, CustomReportPatch.name_of_changesOf hset⟩

namespace History

variable {settings : Settings} {exchanges : List Exchange} {db : Database}

/-- A stored report has a visualization that there is, and a name unless a patch took it. -/
theorem customReport_columns (h : History settings exchanges db) :
    ∀ row ∈ db.customReports, row.visualization ∈ visualizations ∧
      (row.name = "" → ∃ cause ∈ exchanges, cause.request.Unnames row.id) := by
  induction h with
  | start => exact fun _ hrow => nomatch hrow
  | @next exchanges db past e met configured ih =>
      subst met
      intro row hrow
      have hlater : ∀ {id : Uuid}, (∃ cause ∈ exchanges, cause.request.Unnames id) →
          ∃ cause ∈ exchanges ++ [e], cause.request.Unnames id :=
        fun ⟨cause, hmem, hunnames⟩ => ⟨cause, List.mem_append_left _ hmem, hunnames⟩
      cases e.customReport_origin past.sound row hrow with
      | kept stored => exact (ih row stored).imp_right fun hnamed hempty => hlater (hnamed hempty)
      | created written made =>
          obtain ⟨v, -, hread⟩ := ApiRequest.readBody_eq_valid written
          obtain ⟨hname, hvisualization⟩ := CustomReportDraft.columns_of_read hread
          rw [made]
          exact ⟨hvisualization, fun hempty => absurd hempty hname⟩
      | revised stored same revises made =>
          obtain ⟨hvisualization, hnamed⟩ := ih _ stored
          obtain ⟨hvisualization, hempty⟩ :=
            CustomReport.columns_of_change revises made hvisualization
          rw [same]
          refine ⟨hvisualization, fun hunnamed => ?_⟩
          rcases hempty hunnamed with hold | hunnames
          · exact hlater (hnamed hold)
          · exact ⟨e, List.mem_append_right _ (List.mem_singleton_self e), hunnames⟩

theorem customReport_holds (h : History settings exchanges db) {row : CustomReport}
    (hrow : row ∈ db.customReports) : ∃ spec, row.spec.Holds spec := by
  obtain ⟨before, e, after, sql, -, -, -, t, spec, -, hread, -⟩ := h.lastChecked hrow
  obtain ⟨raw, hholds, -⟩ := SpecDocument.toSpec_eq_ok.mp hread
  exact ⟨raw, hholds⟩

end History

/-! How patches end -/

/-- How a patch of a custom report for a tenant ends. -/
inductive Exchange.RevisionEnds (e : Exchange) (tenant : Uuid) : Prop
  | answered (h : e.AnswersIn [200, 400, 404])
  | notReady (h : e.AnswersIn [404, 409])
      (none : ∀ schemaName, ¬ e.met.database.HasReady tenant schemaName)
  /-- The request gave null for a column that must not be null. -/
  | refused (h : e.answer = .error .integrity) {name : String}
      (filled : name ∈ CustomReport.filledNames)
      (null : (Form.entriesOf (e.request.body.getD .null)).field? name = some .null)
  /-- The connection is not led into the schema of the tenant. -/
  | unconnected (h : e.AnswersIn [503]) {schemaName : String}
      (ready : e.met.database.HasReady tenant schemaName)
      (fails : e.met.connection.borrow.PathFails (Action.tenantPath schemaName))
  /-- The connection is not led back, which shows only when the answer was given. -/
  | lost (h : e.answer = .error .lateFailure) {schemaName : String}
      (ready : e.met.database.HasReady tenant schemaName)
      (fails : (Action.startOf schemaName e.met.connection).ResetFails)
  /-- The lookup of a table would be kept beyond the calendar. -/
  | late {reason : CalendarFault} (h : e.answer = .error (.calendar reason))
      (ends : TimedAnswer.expiryAfter e.met.settings.cache.ttl e.met.now =
        .error (.calendar reason))

namespace Api

theorem shownCustomReport_answers {row : CustomReport} {spec : ReportSpec} (h : row.spec.Holds spec)
    (p : Platform) : ∃ v, (shownCustomReport row).run p = (.ok v, p) := by
  unfold shownCustomReport
  rw [SpecDocument.read_eq_valid.mpr h]
  exact ⟨_, rfl⟩

end Api

namespace Guard.Enters

variable {request : ApiRequest} {p q : Platform} {context : TenantContext} {argument : String}
  {user : Option Uuid} {id : Uuid} {patch : CustomReportPatch} {fault : Fault}

/-- An update that fails is refused, or ends the request. -/
theorem updateCustomReport_of_error (h : Enters request p context)
    (hnamed : Api.withUser request argument = .valid (user, id))
    (hpatch : request.readBody CustomReportPatch.read = .valid patch)
    (hrun : (CustomReports.update context.schemaName context.tenant id patch
      (request.body.getD .null) user).run (Action.entered context.schemaName p) =
        (.error fault, q)) :
    ((Api.updateCustomReport request argument).run p).1 = sessionTold (.error
      ((firstOf [missingRefusal?, inputRefusal?] fault).elim fault .refused)) := by
  refine h.outcome_of_error rfl (valid_pair hnamed hpatch) ?_
  exact congrArg Prod.fst (Action.run_bind_of_error (run_refusing_of_error hrun))

/-- An update that succeeds is answered with the changed report, unless the connection cannot be
led back. -/
theorem updateCustomReport_of_ok (h : Enters request p context)
    (hnamed : Api.withUser request argument = .valid (user, id))
    (hpatch : request.readBody CustomReportPatch.read = .valid patch) {changed : CustomReport}
    (hrun : (CustomReports.update context.schemaName context.tenant id patch
      (request.body.getD .null) user).run (Action.entered context.schemaName p) = (.ok changed, q))
    {spec : ReportSpec} (hholds : changed.spec.Holds spec) :
    ∃ v, ((Api.updateCustomReport request argument).run p).1 = .ok (.ok v) ∨
      ((Api.updateCustomReport request argument).run p).1 = .error .lateFailure ∧
        q.connection.ResetFails := by
  obtain ⟨v, hshown⟩ := Api.shownCustomReport_answers hholds q
  have hworked : (do
      let report ← refusing (firstOf [missingRefusal?, inputRefusal?])
        (CustomReports.update context.schemaName context.tenant id patch
          (request.body.getD .null) user)
      return .ok (← Api.shownCustomReport report) : Work Answer).run
        (Action.entered context.schemaName p) = (.ok (.ok v), q) := by
    rw [Action.run_bind_of_ok (run_refusing_of_ok hrun), Action.run_bind_of_ok hshown]
    rfl
  unfold Api.updateCustomReport
  refine ⟨v, Or.imp_right ?_
    (h.outcome_of_ok rfl (valid_pair hnamed hpatch) (congrArg Prod.fst hworked))⟩
  rintro ⟨hlate, hlost⟩
  rw [hworked] at hlost
  exact ⟨hlate, hlost⟩

end Guard.Enters

namespace Exchange

variable {e : Exchange} {tenant id : Uuid} {patch : CustomReportPatch} {fault : Fault}

/-- How a patch ends whose update failed. -/
theorem revisionEnds_of_fails (hrevises : e.request.Revises id patch)
    (hfails : CustomReports.UpdateFails id (e.changes patch) e.met fault)
    (hanswer : e.answer = Api.answered e.request (Guard.sessionTold (.error ((Guard.firstOf
      [Guard.missingRefusal?, Guard.inputRefusal?] fault).elim fault .refused)))) :
    e.RevisionEnds tenant := by
  cases hfails with
  | missing => exact .answered (answersIn_of_refused hanswer (by decide))
  | unmade made =>
      obtain ⟨name, hfilled, hnull⟩ :=
        CustomReport.asked_of_change?_eq_none hrevises.setsColumns made
      exact .refused hanswer hfilled hnull
  | check fails =>
      cases fails with
      | input isInput =>
          obtain ⟨refusal, hrefusal, hstatus⟩ := Guard.refused_of_isInput isInput
          rw [hrefusal] at hanswer
          exact .answered (answersIn_of_refused hanswer hstatus)
      | @late reason ends =>
          cases reason with
          | year n =>
              refine .answered (answersIn_of_refused hanswer ?_)
              exact List.mem_cons_of_mem _ List.mem_cons_self
          | outsideCalendar => exact .late hanswer ends
          | span days => exact .late hanswer ends

end Exchange

/-! Requests for patches -/

namespace ApiRequest

theorem revises_first {tenant : Uuid} {patch : CustomReportPatch}
    {changes : List (String × Value)}
    (hread : CustomReportPatch.read (.record changes) = .valid patch) :
    (toRevise tenant (TableName.rowId .customReports 1) changes).Revises
      (TableName.rowId .customReports 1) patch := by
  refine ⟨⟨(TableName.rowId .customReports 1).toText, ?_, rfl⟩, ?_⟩
  · dsimp only [toRevise]
    decide +kernel
  · unfold ApiRequest.readBody toRevise
    dsimp only
    rw [hread]

theorem tenant_toRevise (report : Uuid) (changes : List (String × Value)) :
    (toRevise (TableName.rowId .tenants 1) report changes).tenant =
      .valid (TableName.rowId .tenants 1) := by rfl

theorem user_toRevise (tenant report : Uuid) (changes : List (String × Value)) :
    (toRevise tenant report changes).user = .valid none := by
  have hname : (lowerCase "x-tenant-id" == "x-user-id") = false := by decide +kernel
  have hheader : (toRevise tenant report changes).header? "x-user-id" = none := by
    unfold toRevise header? headerIn?
    rw [List.find?_cons, hname]
    rfl
  unfold user optionalHeader
  rw [hheader]

end ApiRequest

namespace History

variable {settings : Settings} {exchanges before : List Exchange} {db : Database} {e : Exchange}
  {tenant id : Uuid} {patch : CustomReportPatch} {user : Option Uuid}

theorem revisionEnds_of_enters (h : History settings before e.met.database)
    (configured : e.met.settings = settings) {context : TenantContext}
    (henters : Guard.Enters e.request e.met context) (huser : e.request.user = .valid user)
    (hrevises : e.request.Revises id patch) : e.RevisionEnds context.tenant := by
  obtain ⟨argument, htarget, hid⟩ := hrevises.target
  have hnamed : Api.withUser e.request argument = .valid (user, id) := Guard.valid_pair huser hid
  have hanswer : e.answer =
      Api.answered e.request ((Api.updateCustomReport e.request argument).run e.met).1 :=
    Exchange.answer_of_target htarget
  have hleft := Exchange.database_of_update htarget henters hnamed hrevises.written
  have hstart := Action.sameTables_entered context.schemaName e.met
  have hconnection := (Action.run_setPath_borrowed henters.path).2
  obtain ⟨hkept, hfails⟩ := CustomReports.update_ends context.schemaName context.tenant id patch
    (e.request.body.getD .null) user (Action.entered context.schemaName e.met)
  rcases CustomReports.update_cases context.schemaName context.tenant id patch
    (e.request.body.getD .null) user (Action.entered context.schemaName e.met) with
    ⟨fault, q, hrun, -⟩ | ⟨report, changed, q, hstored, -, -, -, hrun, hchanged⟩
  · rw [hrun] at hfails
    rw [henters.updateCustomReport_of_error hnamed hrevises.written hrun] at hanswer
    exact Exchange.revisionEnds_of_fails hrevises ((hfails fault rfl).of_same hstart) hanswer
  · rw [hrun] at hkept hleft
    have hrow : changed ∈ e.left.database.customReports := by
      rw [hleft, hchanged]
      exact List.mem_map.mpr ⟨report, List.mem_of_find?_eq_some hstored,
        if_pos (eq_of_beq (List.find?_some hstored :))⟩
    -- The answer shows the changed report, which it can since the report is one of those stored.
    obtain ⟨spec, hholds⟩ := (h.next e rfl configured).customReport_holds hrow
    obtain ⟨v, hended | ⟨hended, hlost⟩⟩ :=
      henters.updateCustomReport_of_ok hnamed hrevises.written hrun hholds
    · rw [hended] at hanswer
      exact .answered (Exchange.answersIn_of_ok hanswer List.mem_cons_self)
    · rw [hended] at hanswer
      dsimp only at hkept
      rw [hkept, hconnection] at hlost
      exact .lost hanswer henters.hasReady.1 hlost

theorem revisionEnds (h : History settings before e.met.database)
    (configured : e.met.settings = settings) (hnamed : e.request.tenant = .valid tenant)
    (huser : e.request.user = .valid user) (hrevises : e.request.Revises id patch) :
    e.RevisionEnds tenant := by
  obtain ⟨argument, htarget, -⟩ := hrevises.target
  have hanswer : e.answer =
      Api.answered e.request ((Api.updateCustomReport e.request argument).run e.met).1 :=
    Exchange.answer_of_target htarget
  rcases Guard.tenantOf_cases hnamed h.schemasApart.identifiers with
    ⟨schemaName, hacts⟩ | ⟨hnone, refusal, hrun, hstatus⟩
  · by_cases hfails : e.met.connection.borrow.PathFails (Action.tenantPath schemaName)
    · unfold Api.updateCustomReport at hanswer
      rw [Guard.run_serveInSchema hacts, Guard.outcome_inSchema_of_fails hacts hfails] at hanswer
      exact .unconnected (Exchange.answersIn_of_refused hanswer List.mem_cons_self)
        hacts.hasReady.1 hfails
    · exact h.revisionEnds_of_enters configured ⟨hacts, hfails⟩ huser hrevises
  · unfold Api.updateCustomReport Guard.serveInSchema at hanswer
    rw [Action.run_bind_of_error hrun] at hanswer
    exact .notReady (Exchange.answersIn_of_refused hanswer hstatus) hnone

/-- Stored custom reports, read back field by field, could be created, and patches of a tenant's
custom reports end in answers, but for empty names and for nulls that were given for columns which
must not be null, and for a connection that fails and the end of the calendar. -/
theorem customReports_creatable (h : History settings exchanges db) :
    (∀ row ∈ db.customReports,
      (∀ style, (∃ draft, CustomReportDraft.read (row.toValue style) = .valid draft) ↔
        row.name ≠ "") ∧
      (row.name = "" → ∃ cause ∈ exchanges, cause.request.Unnames row.id)) ∧
    ∀ before e after tenant user id patch, exchanges = before ++ e :: after →
      e.request.tenant = .valid tenant → e.request.user = .valid user →
      e.request.Revises id patch → e.RevisionEnds tenant := by
  refine ⟨fun row hrow => ?_, ?_⟩
  · obtain ⟨hvisualization, hnamed⟩ := h.customReport_columns row hrow
    refine ⟨fun style => ?_, hnamed⟩
    rw [CustomReport.readBack_iff]
    exact ⟨fun hall => hall.2.1, fun hname => ⟨h.customReport_holds hrow, hname, hvisualization⟩⟩
  · intro before e after tenant user id patch hsplit hnamed huser hrevises
    obtain ⟨hbefore, hconfigured⟩ := h.split hsplit
    exact hbefore.revisionEnds hconfigured hnamed huser hrevises

/-- A report is renamed and shared. -/
theorem customReports_creatable_of_rename :
    let tenant := TableName.rowId .tenants 1
    let report := TableName.rowId .customReports 1
    let requests := [.toProvision "North", ApiRequest.toCompose tenant "invoices" "amount"]
    let start := Platform.invoicesOnly
    let rename : Exchange := ⟨.toRevise tenant report
      [("name", .text "Fees"), ("is_shared", .bool true)], start.afterAll requests⟩
    (rename.answer.toOption.map (·.status) = some 200 ∧ rename.RevisionEnds tenant) ∧
      rename.left.database.customReports.map (·.name) = ["Fees"] ∧
      ∀ row ∈ rename.left.database.customReports,
        ∃ draft, CustomReportDraft.read (row.toValue .short) = .valid draft := by
  intro tenant report requests start rename
  have hpast : History start.settings (Exchange.inTurn start requests)
      rename.met.database := .ofRequests start rfl rfl requests
  have h := hpast.next rename rfl (Platform.afterAll_settings sound_empty requests)
  obtain ⟨patch, hread⟩ : ∃ patch, CustomReportPatch.read
      (.record [("name", .text "Fees"), ("is_shared", .bool true)]) = .valid patch := ⟨_, rfl⟩
  obtain ⟨hstatus, hnames⟩ : rename.answer.toOption.map (·.status) = some 200 ∧
      rename.left.database.customReports.map (·.name) = ["Fees"] := by decide +kernel
  obtain ⟨hrows, hends⟩ := customReports_creatable h
  refine ⟨⟨hstatus, ?_⟩, hnames, fun row hrow => ?_⟩
  · exact hends _ rename [] tenant none report patch rfl (ApiRequest.tenant_toRevise _ _)
      (ApiRequest.user_toRevise _ _ _) (ApiRequest.revises_first hread)
  · refine ((hrows row hrow).1 .short).mpr fun hempty => ?_
    have hname := List.mem_map_of_mem (f := (·.name)) hrow
    rw [hnames, hempty] at hname
    exact absurd (List.mem_singleton.mp hname) (by decide)

/-- Null for the name of a custom report is refused by no answer, and the empty name is stored: the
report could not be created as it then is. -/
theorem customReports_uncreatable_of_name :
    let tenant := TableName.rowId .tenants 1
    let report := TableName.rowId .customReports 1
    let requests := [.toProvision "North", ApiRequest.toCompose tenant "invoices" "amount"]
    let start := Platform.invoicesOnly
    let unname : Exchange := ⟨.toRevise tenant report [("name", .null)], start.afterAll requests⟩
    let clear : Exchange := ⟨.toRevise tenant report [("name", .text "")], unname.left⟩
    History start.settings (Exchange.inTurn start requests ++ [unname] ++ [clear])
        clear.left.database ∧
      ((∃ patch, unname.request.Revises report patch) ∧ unname.answer = .error .integrity) ∧
      ((∃ patch, clear.request.Revises report patch) ∧
        clear.answer.toOption.map (·.status) = some 200) ∧
      ∃ row ∈ clear.left.database.customReports, row.name = "" ∧
        ∀ style, ¬ ∃ draft, CustomReportDraft.read (row.toValue style) = .valid draft := by
  intro tenant report requests start unname clear
  have hpast : History start.settings (Exchange.inTurn start requests)
      unname.met.database := .ofRequests start rfl rfl requests
  have hsettings : unname.met.settings = start.settings :=
    Platform.afterAll_settings sound_empty requests
  have h := (hpast.next unname rfl hsettings).next clear rfl
    ((unname.steps.follows hpast.sound).settings.trans hsettings)
  obtain ⟨hrefused, hstatus, hnames⟩ : breaksTable unname.answer = true ∧
      clear.answer.toOption.map (·.status) = some 200 ∧
      clear.left.database.customReports.map (·.name) = [""] := by decide +kernel
  have hempty : "" ∈ clear.left.database.customReports.map (·.name) := by
    rw [hnames]
    exact List.mem_singleton_self ""
  obtain ⟨row, hrow, hname⟩ := List.mem_map.mp hempty
  refine ⟨h, ⟨⟨_, ApiRequest.revises_first rfl⟩, eq_error_of_breaksTable hrefused⟩,
    ⟨⟨_, ApiRequest.revises_first rfl⟩, hstatus⟩, row, hrow, hname, fun style => ?_⟩
  rw [CustomReport.readBack_iff]
  exact fun hall => hall.2.1 hname

end History

end TenantReports
