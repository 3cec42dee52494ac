import TenantReports.Proofs.Api.Audit
import TenantReports.Proofs.Report.RoundTrip
import TenantReports.Proofs.Report.Words

/-!
Who wrote the text that enters SQL as it is: the templates of definitions and the predicates of
joins are the work of managers of reports, whoever runs them.
-/

namespace TenantReports

open Action (Meets)
open Table (IsLater)
open Api (AnyStep Ledger)

namespace Exchange

/-- The exchange made a definition, from a draft with the same template. -/
structure Defined (e : Exchange) (row : Definition) : Prop where
  managed : e.IsManaged
  absent : ∀ old ∈ e.met.database.definitions, old.id ≠ row.id
  stored : ∃ new ∈ e.left.database.definitions, new.id = row.id
  written : ∃ draft, e.request.readBody DefinitionDraft.read = .valid draft ∧
    draft.queryTemplate = row.queryTemplate

/-- The exchange made a custom report, from a draft with the same joins. -/
structure Created (e : Exchange) (row : CustomReport) : Prop where
  managed : row.spec.joins ≠ .list [] → e.IsManaged
  absent : ∀ old ∈ e.met.database.customReports, old.id ≠ row.id
  stored : ∃ new ∈ e.left.database.customReports, new.id = row.id
  written : ∃ draft, e.request.readBody CustomReportDraft.read = .valid draft ∧
    row.spec.joins = (SpecDocument.ofSpec draft.spec).joins

/-- The report queries that the exchange sent. -/
def sent (e : Exchange) : List String :=
  e.left.connection.queries.drop e.met.connection.queries.length

/-- Whether the exchange answers a request for a preview with a text. -/
def Previews (e : Exchange) (sql : String) : Prop :=
  (∃ argument, Route.targetOf e.request.method e.request.path =
    .endpoint .previewCustomReport argument) ∧
    e.answer = .ok (.ok (.record [("sql", .text sql)]))

end Exchange

/-- A query in words, whose texts that enter it as they are satisfy `P`. All its other words are
from the vocabulary, are names, or show values. -/
def InWords (P : String → Prop) (sql : String) : Prop :=
  ∃ (schemaName : String) (words : List Word),
    sql.toList = words.flatMap (Word.chars schemaName) ∧ (∀ word ∈ words, word.Sound) ∧
      ∀ text ∈ words.flatMap Word.predicates, P text

theorem compile_inWords {schemaName sql : String} {spec : ReportSpec} {P : String → Prop}
    (h : compile schemaName spec = .ok sql) (htexts : ∀ text ∈ JoinSpec.texts spec.joins, P text) :
    InWords P sql := by
  obtain ⟨_, -, h⟩ := bind_eq_ok.mp h
  cases hquery : spec.toQuery with
  | error fault =>
      rw [hquery] at h
      cases h
  | ok q =>
      rw [hquery] at h
      cases h
      have hq := ReportSpec.toQuery_describes hquery
      refine ⟨schemaName, q.words, q.toList_text schemaName, hq.words_sound, ?_⟩
      have hon : JoinSpec.texts spec.joins = q.joins.map (·.on) :=
        (map_eq_of_forall₂ hq.joins fun _ _ hjoin => by rw [hjoin.on]; rfl).symm
      rw [q.predicates_words, ← hon]
      exact htexts

/-- A query that is made from a stored row, every text of which that enters the query as it is was
written by a manager of reports in an exchange before. -/
inductive Authored (before : List Exchange) (db : Database) : String → Prop
  | template {row : Definition} {parameters : Entries} {schemaName sql : String}
      (stored : row ∈ db.definitions) (author : ∃ e ∈ before, e.Defined row)
      (rendered : Template.render (.trusted row.queryTemplate) parameters (.text schemaName) =
        .ok sql) :
      Authored before db sql
  | spec {row : CustomReport} {spec : ReportSpec} {schemaName sql : String}
      (stored : row ∈ db.customReports) (read : row.spec.toSpec = .ok spec)
      (compiled : compile schemaName spec = .ok sql)
      (author : InWords (fun text => ∃ e ∈ before, e.IsManaged ∧ e.Created row ∧
        ∃ draft, e.request.readBody CustomReportDraft.read = .valid draft ∧
          text ∈ JoinSpec.texts draft.spec.joins) sql) :
      Authored before db sql

namespace History

variable {settings : Settings} {exchanges before after : List Exchange} {db : Database}
  {e : Exchange}

theorem defined (h : History settings exchanges db) :
    ∀ row ∈ db.definitions, ∃ e ∈ exchanges, e.Defined row := by
  have hmakes : ∀ e : Exchange, Api.Sound e.met.database → ∀ row ∈ e.left.database.definitions,
      (∃ old ∈ e.met.database.definitions, ∀ first : Exchange, first.Defined old →
        first.Defined row) ∨ e.Defined row := by
    intro e hsound row hrow
    rcases e.steps.definitions hsound row hrow with ⟨old, hold, hid, htemplate⟩ |
      ⟨hlater, hmanaged, draft, hdraft, htemplate⟩
    · refine .inl ⟨old, hold, fun first hdefined => ?_⟩
      exact ⟨hdefined.managed, hid ▸ hdefined.absent, hid ▸ hdefined.stored,
        htemplate ▸ hdefined.written⟩
    · refine .inr ⟨hmanaged, fun old hold => ?_, ⟨row, hrow, rfl⟩, draft, hdraft, htemplate.symm⟩
      exact hsound.definitions.id_ne_of_isLater hlater hold
  intro row hrow
  obtain ⟨before, e, after, hsplit, hdefined⟩ := h.origin (t := .definitions) rfl hmakes row hrow
  exact ⟨e, hsplit ▸ List.mem_append_right _ List.mem_cons_self, hdefined⟩

theorem created (h : History settings exchanges db) :
    ∀ row ∈ db.customReports, ∃ e ∈ exchanges, e.Created row := by
  have hmakes : ∀ e : Exchange, Api.Sound e.met.database → ∀ row ∈ e.left.database.customReports,
      (∃ old ∈ e.met.database.customReports, ∀ first : Exchange, first.Created old →
        first.Created row) ∨ e.Created row := by
    intro e hsound row hrow
    rcases e.steps.customReports hsound row hrow with ⟨old, hold, hid, hjoins⟩ |
      ⟨hlater, draft, hdraft, hjoins, hauthored⟩
    · refine .inl ⟨old, hold, fun first hcreated => ?_⟩
      exact ⟨hjoins ▸ hcreated.managed, hid ▸ hcreated.absent, hid ▸ hcreated.stored,
        hjoins ▸ hcreated.written⟩
    · refine .inr ⟨fun hsome => ?_, fun old hold => ?_, ⟨row, hrow, rfl⟩, draft, hdraft, hjoins⟩
      · rcases hauthored with hnone | hmanaged
        · rw [hjoins] at hsome
          unfold SpecDocument.ofSpec at hsome
          rw [hnone] at hsome
          exact absurd rfl hsome
        · exact hmanaged
      · exact hsound.customReports.id_ne_of_isLater hlater hold
  intro row hrow
  obtain ⟨before, e, after, hsplit, hcreated⟩ := h.origin (t := .customReports) rfl hmakes row hrow
  exact ⟨e, hsplit ▸ List.mem_append_right _ List.mem_cons_self, hcreated⟩

/-- The texts of a stored report's joins were written by the manager who made the report. -/
theorem joins_authored (h : History settings exchanges db) {row : CustomReport} {spec : ReportSpec}
    (hrow : row ∈ db.customReports) (hread : row.spec.toSpec = .ok spec) :
    ∀ text ∈ JoinSpec.texts spec.joins, ∃ e ∈ exchanges, e.IsManaged ∧ e.Created row ∧
      ∃ draft, e.request.readBody CustomReportDraft.read = .valid draft ∧
        text ∈ JoinSpec.texts draft.spec.joins := by
  intro text htext
  obtain ⟨e, he, hcreated⟩ := h.created row hrow
  obtain ⟨draft, hdraft, hjoins⟩ := hcreated.written
  rw [SpecDocument.texts_of_toSpec hread hjoins] at htext
  have hsome : row.spec.joins ≠ .list [] := by
    intro hnone
    let bare : ReportSpec := { draft.spec with joins := [] }
    have hbare : row.spec.joins = (SpecDocument.ofSpec bare).joins := hnone
    rw [← SpecDocument.texts_of_toSpec hread hjoins,
      SpecDocument.texts_of_toSpec hread hbare] at htext
    exact nomatch htext
  exact ⟨e, he, hcreated.managed hsome, hcreated, draft, hdraft, htext⟩

/-- What a run of a history is made from was there when the exchange began. -/
theorem authored_of_sources (h : History settings exchanges db) {tenant : Uuid}
    {source : ReportSource} {sql : String} (hsource : Api.Sources tenant db source sql) :
    Authored exchanges db sql := by
  cases hsource with
  | template stored offered ready rendered =>
      have hmem := List.mem_of_find?_eq_some stored
      exact .template hmem (h.defined _ hmem) rendered
  | spec stored owned ready read compiled =>
      have hmem := List.mem_of_find?_eq_some stored
      exact .spec hmem read compiled (compile_inWords compiled (h.joins_authored hmem read))

end History

/-! Previews -/

namespace Api

variable {request : ApiRequest} {p : Platform}

theorem previewCustomReport_meets :
    Meets (AnyStep request p.database) (previewCustomReport request) p fun answer _ =>
      ∃ spec schemaName sql, request.readBody ReportSpec.read = .valid spec ∧
        compile schemaName spec.trustJoins = .ok sql ∧
        (spec.joins = [] ∨ p.settings.reports.isManager request.role = true) ∧
        answer = .ok (.record [("sql", .text sql)]) := by
  refine Guard.serveInSchema_meets AnyStep.aside (fun _ _ _ _ h => h) Guard.reads_noGuard ?_
  intro context spec q _ _ hspec hsame
  refine (Guard.refusing_meets (CustomReports.preview_meets AnyStep.aside _ _ _)).bind ?_
  rintro sql r - ⟨-, hcompiled, hauthored⟩
  refine .answer ?_
  rw [hsame.settings] at hauthored
  exact ⟨spec, context.schemaName, sql, hspec, hcompiled, hauthored, rfl⟩

/-- An answer with a record is what the endpoint answered. -/
theorem answered_eq_ok {outcome : Except Fault Answer} {fields : List (String × Value)}
    (h : answered request outcome = .ok (.ok (.record fields))) :
    outcome = .ok (.ok (.record fields)) := by
  cases outcome with
  | ok answer =>
      have hsent : answer.sentTo request.method = .ok (.record fields) := Except.ok.inj h
      unfold Answer.sentTo at hsent
      split at hsent
      · have hbody := congrArg Answer.body hsent
        cases hbody
      · rw [hsent]
  | error fault =>
      cases fault with
      | refused refusal =>
          have hsent : refusal.answer.sentTo request.method = .ok (.record fields) :=
            Except.ok.inj h
          have hstatus := status_sentTo refusal.answer request.method
          rw [hsent] at hstatus
          cases refusal with
          | _ => cases hstatus
      | _ => cases h

end Api

theorem Exchange.preview_authored {e : Exchange} {sql : String} (h : e.Previews sql) :
    ∃ spec, e.request.readBody ReportSpec.read = .valid spec ∧
      (spec.joins = [] ∨ e.IsManaged) ∧ InWords (· ∈ JoinSpec.texts spec.joins) sql := by
  obtain ⟨⟨argument, htarget⟩, hanswer⟩ := h
  unfold answer at hanswer
  rw [Api.run_serve] at hanswer
  have hdispatch := Api.answered_eq_ok hanswer
  have hact : Api.dispatch e.request = Api.previewCustomReport e.request := by
    unfold Api.dispatch
    rw [htarget]
    rfl
  rw [hact] at hdispatch
  obtain ⟨spec, schemaName, sql', hspec, hcompiled, hauthored, heq⟩ :=
    Api.previewCustomReport_meets.answers _ hdispatch
  cases heq
  refine ⟨spec, hspec, hauthored, compile_inWords hcompiled fun text htext => ?_⟩
  rw [ReportSpec.texts_trustJoins] at htext
  exact htext

namespace History

variable {settings : Settings} {exchanges before after : List Exchange} {db : Database}
  {e : Exchange}

theorem templates_kept (h : History settings before e.met.database) :
    ∀ old ∈ e.met.database.definitions, ∀ new ∈ e.left.database.definitions,
      new.id = old.id → new.queryTemplate = old.queryTemplate := by
  intro old hold new hnew hid
  rcases e.steps.definitions h.sound new hnew with ⟨old', hold', hid', htemplate⟩ | ⟨hlater, -⟩
  · have hsame := h.sound.definitions.eq_of_id_eq hold hold' (hid.symm.trans hid')
    rw [htemplate, hsame]
  · exact absurd hid.symm (h.sound.definitions.id_ne_of_isLater hlater hold)

theorem joins_kept (h : History settings before e.met.database) :
    ∀ old ∈ e.met.database.customReports, ∀ new ∈ e.left.database.customReports,
      new.id = old.id → new.spec.joins = old.spec.joins := by
  intro old hold new hnew hid
  rcases e.steps.customReports h.sound new hnew with ⟨old', hold', hid', hjoins⟩ | ⟨hlater, -⟩
  · have hsame := h.sound.customReports.eq_of_id_eq hold hold' (hid.symm.trans hid')
    rw [hjoins, hsame]
  · exact absurd hid.symm (h.sound.customReports.id_ne_of_isLater hlater hold)

theorem sent_authored (h : History settings before e.met.database) :
    ∀ sql ∈ e.sent, Authored before e.met.database sql := by
  obtain ⟨sendings, hledger⟩ := Ledger.of_steps e.steps h.sound
  intro sql hsql
  unfold Exchange.sent at hsql
  rw [hledger.course.queries, List.drop_left] at hsql
  obtain ⟨sending, hsending, rfl⟩ := List.mem_map.mp hsql
  obtain ⟨tenant, -, hsource⟩ := hledger.sources sending hsending
  exact h.authored_of_sources hsource

/-- Nothing that enters a query as it is was written by anyone but a manager of reports, who made
the definition or the custom report that it is from, or asks for the preview. -/
theorem verbatim_authored (h : History settings exchanges db) :
    (∀ row ∈ db.definitions, ∃ e ∈ exchanges, e.Defined row) ∧
    (∀ row ∈ db.customReports, ∃ e ∈ exchanges, e.Created row) ∧
    ∀ before e after, exchanges = before ++ e :: after →
      (∀ old ∈ e.met.database.definitions, ∀ new ∈ e.left.database.definitions,
        new.id = old.id → new.queryTemplate = old.queryTemplate) ∧
      (∀ old ∈ e.met.database.customReports, ∀ new ∈ e.left.database.customReports,
        new.id = old.id → new.spec.joins = old.spec.joins) ∧
      (∀ sql ∈ e.sent, Authored before e.met.database sql) ∧
      ∀ sql, e.Previews sql → ∃ spec, e.request.readBody ReportSpec.read = .valid spec ∧
        (spec.joins = [] ∨ e.IsManaged) ∧ InWords (· ∈ JoinSpec.texts spec.joins) sql := by
  refine ⟨h.defined, h.created, fun before e after hsplit => ?_⟩
  obtain ⟨hmet, -⟩ := h.split hsplit
  exact ⟨hmet.templates_kept, hmet.joins_kept, hmet.sent_authored, fun _ => e.preview_authored⟩

/-- A manager's definition that a tenant runs who has no role. -/
theorem verbatim_authored_of_run :
    let tenant := TableName.rowId .tenants 1
    let requests := [.toProvision "North", .toDefine "SELECT 1",
      ApiRequest.toRun tenant (TableName.rowId .definitions 1)]
    let start := Platform.new (.ofMigrations "migrations") ⟨⟨2024, 5, 1⟩, ⟨9, 0, 0, 0⟩, .offset 0⟩
    ∃ before e, Exchange.inTurn start requests = before ++ [e] ∧ e.request.role = none ∧
      e.sent = ["SELECT 1"] ∧ Authored before e.met.database "SELECT 1" := by
  intro tenant requests start
  have h := History.inTurn (p := start) .start rfl requests
  obtain ⟨-, -, hall⟩ := verbatim_authored h
  let first : Exchange := ⟨.toProvision "North", start⟩
  let second : Exchange := ⟨.toDefine "SELECT 1", first.left⟩
  let third : Exchange := ⟨.toRun tenant (TableName.rowId .definitions 1), second.left⟩
  have hsent : third.sent = ["SELECT 1"] := by decide +kernel
  refine ⟨[first, second], third, rfl, by decide +kernel, hsent, ?_⟩
  refine (hall [first, second] third [] rfl).2.2.1 _ ?_
  rw [hsent]
  exact List.mem_singleton_self _

end History

end TenantReports
