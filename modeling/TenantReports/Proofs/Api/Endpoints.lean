import TenantReports.Proofs.Api.Guard
import TenantReports.Proofs.Api.Services

/-!
The endpoints that act for a tenant: their steps are steps for that tenant, and what they show
are rows of that tenant.
-/

namespace TenantReports

open Action (Meets IsAside Reads)

namespace Api

/-- What an answer to a request for a tenant can be made of. -/
inductive Shown (db : Database) (tenant : Uuid) : Value → Prop
  | definition {row : Definition} (stored : row ∈ db.definitions)
      (visible : ∀ other, row.tenant = some other → other = tenant) :
      Shown db tenant (shownDefinition row)
  | execution {row : Execution} (stored : row ∈ db.executions) (own : row.tenant = some tenant) :
      Shown db tenant (shownExecution row)
  | snapshot {row : Snapshot} (stored : row ∈ db.snapshots) (own : row.tenant = tenant) :
      Shown db tenant (shownSnapshot row)
  | customReport {row : CustomReport} {spec : ReportSpec} (stored : row ∈ db.customReports)
      (own : row.tenant = tenant)
      (read : ReportSpec.read (.mapping row.spec.entries) = .valid spec) :
      Shown db tenant (.record (row.metaFields .short ++
        spec.fields.map fun field => (field.1, field.2.toValue)))
  | schedule {row : Schedule} (stored : row ∈ db.schedules) (own : row.tenant = tenant) :
      Shown db tenant (.record (row.fields .short))
  /-- The result of a run that was just recorded. -/
  | result {row : Execution} {result : ReportResult} (stored : row ∈ db.executions)
      (own : row.tenant = some tenant) (of : result.execution = row.id) :
      Shown db tenant (shownResult result)
  /-- Such a result and its comparison with a snapshot, or with no history. -/
  | comparison {row : Execution} {result : ReportResult} {comparison : Snapshots.Comparison}
      (stored : row ∈ db.executions) (own : row.tenant = some tenant)
      (of : result.execution = row.id)
      (previous : comparison.previous = Snapshots.noHistory ∨
        ∃ snapshot ∈ db.snapshots, snapshot.tenant = tenant ∧
          comparison.previous = snapshot.metrics) :
      Shown db tenant
        (.record [("current", shownResult result), ("comparison", comparison.toValue)])
  /-- The text of a preview, which is made from no row. -/
  | preview (sql : String) : Shown db tenant (.record [("sql", .text sql)])
  | list {values : List Value} (h : ∀ v ∈ values, Shown db tenant v) :
      Shown db tenant (.list values)
  | nothing : Shown db tenant .null

def Shows (db : Database) (tenant : Uuid) (answer : Answer) : Prop :=
  ∃ v, Shown db tenant v ∧ answer.body = Answer.bodyOf v

/-- What the answer to a request for a tenant is made of, with what lets the request see the rows
of a run. Snapshots are only shown as a trend, whatever the role. -/
inductive Served (request : ApiRequest) (past db : Database) (tenant : Uuid) : Value → Prop
  | definition {row : Definition} (stored : row ∈ db.definitions)
      (visible : ∀ other, row.tenant = some other → other = tenant) :
      Served request past db tenant (shownDefinition row)
  | execution {row : Execution} (stored : row ∈ db.executions) (own : row.tenant = some tenant) :
      Served request past db tenant (shownExecution row)
  | snapshot {row : Snapshot} (asked : request.Asks .showTrend) (stored : row ∈ db.snapshots)
      (own : row.tenant = tenant) : Served request past db tenant (shownSnapshot row)
  | customReport {row : CustomReport} {spec : ReportSpec} (stored : row ∈ db.customReports)
      (own : row.tenant = tenant)
      (read : ReportSpec.read (.mapping row.spec.entries) = .valid spec) :
      Served request past db tenant (.record (row.metaFields .short ++
        spec.fields.map fun field => (field.1, field.2.toValue)))
  | schedule {row : Schedule} (stored : row ∈ db.schedules) (own : row.tenant = tenant) :
      Served request past db tenant (.record (row.fields .short))
  | result {row : Execution} {result : ReportResult} (stored : row ∈ db.executions)
      (own : row.tenant = some tenant) (of : result.execution = row.id)
      (mayRun : request.MayRun past row.source) :
      Served request past db tenant (shownResult result)
  | comparison {row : Execution} {result : ReportResult} {comparison : Snapshots.Comparison}
      (stored : row ∈ db.executions) (own : row.tenant = some tenant)
      (of : result.execution = row.id) (mayRun : request.MayRun past row.source)
      (previous : comparison.previous = Snapshots.noHistory ∨
        ∃ snapshot ∈ db.snapshots, snapshot.tenant = tenant ∧
          row.source = .definition snapshot.definition ∧
          comparison.previous = snapshot.metrics) :
      Served request past db tenant
        (.record [("current", shownResult result), ("comparison", comparison.toValue)])
  | preview (sql : String) : Served request past db tenant (.record [("sql", .text sql)])
  | list {values : List Value} (h : ∀ v ∈ values, Served request past db tenant v) :
      Served request past db tenant (.list values)
  | nothing : Served request past db tenant .null

theorem Served.shown {request : ApiRequest} {past db : Database} {tenant : Uuid} {v : Value}
    (h : Served request past db tenant v) : Shown db tenant v := by
  induction h with
  | definition stored visible => exact .definition stored visible
  | execution stored own => exact .execution stored own
  | snapshot asked stored own => exact .snapshot stored own
  | customReport stored own read => exact .customReport stored own read
  | schedule stored own => exact .schedule stored own
  | result stored own of mayRun => exact .result stored own of
  | comparison stored own of mayRun previous =>
      refine .comparison stored own of (previous.imp_right ?_)
      rintro ⟨snapshot, hstored, hown, -, heq⟩
      exact ⟨snapshot, hstored, hown, heq⟩
  | preview sql => exact .preview sql
  | list _ ih => exact .list ih
  | nothing => exact .nothing

def Serving (request : ApiRequest) (past db : Database) (tenant : Uuid) (answer : Answer) : Prop :=
  ∃ v, Served request past db tenant v ∧ answer.body = Answer.bodyOf v

section Answers

variable {request : ApiRequest} {past db : Database} {tenant : Uuid} {v : Value}

theorem serving_ok (h : Served request past db tenant v) :
    Serving request past db tenant (.ok v) := ⟨v, h, rfl⟩

theorem serving_created (h : Served request past db tenant v) :
    Serving request past db tenant (.created v) := ⟨v, h, rfl⟩

theorem serving_noContent (request : ApiRequest) (past db : Database) (tenant : Uuid) :
    Serving request past db tenant .noContent :=
  ⟨.null, .nothing, rfl⟩

theorem serving_sameTables (answer : Answer) (q r : Platform) (h : q.SameTables r)
    (hserving : Serving request past q.database tenant answer) :
    Serving request past r.database tenant answer := by
  rw [h.database]
  exact hserving

end Answers

section Endpoints

open Guard

variable {request : ApiRequest} {past : Database} {tenant : Uuid} {p : Platform}
  {S : Platform → Platform → Prop}

/-- What the endpoint of a request for a tenant does and shows. -/
abbrev Serves (request : ApiRequest) (past : Database) (tenant : Uuid) (p : Platform)
    (endpoint : Work Answer) : Prop :=
  Meets (Step request past (some tenant)) endpoint p fun answer q =>
    Serving request past q.database tenant answer

theorem tenant_eq {named : Uuid} (h : request.tenant = .valid tenant)
    (hnamed : request.tenant = .valid named) : named = tenant :=
  Validated.valid.inj (hnamed.symm.trans h)

/-! Definitions -/

theorem visible_of_isOffered {row : Definition}
    (h : Definitions.isOffered (some tenant) row = true) (other : Uuid)
    (hother : row.tenant = some other) : other = tenant := by
  have hvisible := (Bool.and_eq_true_iff.mp h).2
  rw [Definition.isVisibleTo, hother] at hvisible
  exact eq_of_beq hvisible

theorem listDefinitions_serves (h : request.tenant = .valid tenant) :
    Serves request past tenant p (listDefinitions request) := by
  refine serveTenant_meets reads_noGuard fun context type hnamed _ _ => ?_
  rw [tenant_eq h hnamed]
  refine .read rfl (.answer (serving_ok (.list fun v hv => ?_)))
  obtain ⟨row, hrow, rfl⟩ := List.mem_map.mp hv
  obtain ⟨hstored, hmatching⟩ := List.mem_filter.mp (List.mem_mergeSort.mp hrow)
  exact .definition hstored (visible_of_isOffered (Bool.and_eq_true_iff.mp hmatching).1)

theorem getDefinition_serves (h : request.tenant = .valid tenant) (argument : String) :
    Serves request past tenant p (getDefinition request argument) := by
  refine serveTenant_meets reads_noGuard fun context id hnamed _ _ => ?_
  rw [tenant_eq h hnamed]
  refine (refusing_meets (Definitions.get_meets id (some tenant))).bind ?_
  rintro row q - ⟨rfl, -, hstored, hoffered⟩
  exact .answer (serving_ok (.definition (List.mem_of_find?_eq_some hstored)
    (visible_of_isOffered hoffered)))

theorem deactivateDefinition_serves (h : request.tenant = .valid tenant) (argument : String) :
    Serves request past tenant p (deactivateDefinition request argument) := by
  refine serveTenant_meets reads_requireManager fun context id hnamed _ _ => ?_
  rw [tenant_eq h hnamed]
  exact (refusing_meets (Definitions.deactivate_meets id)).bind fun _ q _ _ =>
    .answer (serving_noContent _ _ _ _)

/-! Runs -/

theorem runFor_meets {context : TenantContext} (id : Uuid) (parameters : Entries)
    (user : Option Uuid) (kept : past.Continues p.database)
    (ready : past.HasReady context.tenant context.schemaName) :
    Meets (RunStep request past context.tenant) (runFor context id parameters user request.role) p
      fun result q => request.MayRun past (.definition id) ∧
        past.HasRun q.database context.tenant (.definition id) result.execution := by
  unfold runFor
  refine (refusing_meets (Definitions.get_meets id (some context.tenant))).bind ?_
  rintro definition q - ⟨rfl, rfl, hstored, hoffered⟩
  refine refusing_meets (.pass fun _ hopen => ?_)
  have hpast : past.definition? definition.id = some definition := by
    unfold Database.definition?
    rw [← kept.definitions]
    exact hstored
  have hmayRun : request.MayRun past (.definition definition.id) := .definition hpast hopen
  exact (Runs.runDefinition_meets kept hpast hoffered ready (.own hmayRun) parameters).weaken
    fun _ _ _ hrun => ⟨hmayRun, hrun⟩

theorem served_of_hasRun {source : ReportSource} {result : ReportResult} {db : Database}
    (mayRun : request.MayRun past source)
    (h : past.HasRun db tenant source result.execution) :
    Served request past db tenant (shownResult result) := by
  obtain ⟨-, row, hrow, hid, htenant, rfl, -⟩ := h
  exact .result hrow htenant hid.symm mayRun

theorem exported_meets {context : TenantContext} {source : ReportSource} {result : ReportResult}
    (asked : request.MayExport)
    (hrun : past.HasRun p.database context.tenant source result.execution)
    (format : Option String) :
    Meets (ReportStep request past context.tenant) (exported context format result) p
      fun result q => past.HasRun q.database context.tenant source result.execution := by
  unfold exported
  cases format with
  | none => exact .answer hrun
  | some format =>
      refine (refusing_meets (Runs.exportResult_meets asked hrun format)).bind ?_
      intro url q _ hexported
      obtain ⟨hlater, row, hrow, hid, htenant, hsource, hstate, -⟩ := hexported
      exact .answer ⟨hlater, row, hrow, hid, htenant, hsource, hstate⟩

theorem runDefinition_serves (h : request.tenant = .valid tenant)
    (asked : request.Asks .runDefinition) (first : p.database = past) (argument : String) :
    Serves request past tenant p (runDefinition request argument) := by
  refine serveInSchema_meets (fun _ _ => Step.aside) serving_sameTables reads_requireStore ?_
  rintro context ⟨user, id, options⟩ q hnamed hready - hsame
  obtain rfl := tenant_eq h hnamed
  have hkept : past.Continues q.database := .of_eq (hsame.database.trans first)
  have hrunning : Meets (Step request past (some context.tenant))
      (runFor context id options.parameters user request.role) q fun result r =>
        request.MayRun past (.definition id) ∧
          past.HasRun r.database context.tenant (.definition id) result.execution :=
    (runFor_meets id options.parameters user hkept (first ▸ hready)).mono
      fun _ _ hstep => hstep.step
  refine hrunning.bind ?_
  rintro result r - ⟨hmayRun, hrun⟩
  have hexporting : Meets (Step request past (some context.tenant))
      (exported context options.exportFormat result) r fun result s =>
        past.HasRun s.database context.tenant (.definition id) result.execution :=
    (exported_meets (.inl asked) hrun options.exportFormat).mono fun _ _ hstep => hstep.step
  exact hexporting.bind fun result s _ hrun =>
    .answer (serving_ok (served_of_hasRun hmayRun hrun))

theorem trend_meets (definition : Uuid) (days : Int) (date : Option Date) :
    Meets S (Snapshots.trend tenant definition days date) p fun snapshots q =>
      q = p ∧ ∀ snapshot ∈ snapshots, snapshot ∈ p.database.snapshots ∧
        snapshot.tenant = tenant ∧ snapshot.definition = definition := by
  unfold Snapshots.trend
  refine ((Snapshots.reads_date date).meets p).bind ?_
  rintro date q - ⟨rfl, -⟩
  refine .pass fun cutoff _ => .read rfl (.answer ⟨rfl, fun snapshot hsnapshot => ?_⟩)
  obtain ⟨hstored, htrend⟩ := List.mem_filter.mp (List.mem_mergeSort.mp hsnapshot)
  unfold Snapshots.isTrend at htrend
  obtain ⟨htenant, hdefinition⟩ := Bool.and_eq_true_iff.mp (Bool.and_eq_true_iff.mp htrend).1
  exact ⟨hstored, eq_of_beq htenant, eq_of_beq hdefinition⟩

theorem compare_meets (definition : Uuid) (rows : List Entries) (days : Int) (date : Option Date) :
    Meets S (Snapshots.compare tenant definition rows days date) p fun comparison q =>
      q = p ∧ (comparison.previous = Snapshots.noHistory ∨
        ∃ snapshot ∈ p.database.snapshots, snapshot.tenant = tenant ∧
          snapshot.definition = definition ∧ comparison.previous = snapshot.metrics) := by
  unfold Snapshots.compare
  refine ((Snapshots.reads_date date).meets p).bind ?_
  rintro date _ - ⟨rfl, -⟩
  refine ((Snapshots.reads_summarize rows).meets _).bind ?_
  rintro ⟨rows, current⟩ q - ⟨rfl, -⟩
  refine (trend_meets definition days (some date)).bind ?_
  rintro snapshots _ - ⟨rfl, hsnapshots⟩
  dsimp only
  split
  · exact .answer ⟨rfl, .inl rfl⟩
  · next snapshot hlast =>
      refine .pass fun change _ => .answer ⟨rfl, .inr ⟨snapshot, ?_⟩⟩
      have hmem := (List.mem_filter.mp (List.mem_of_getLast? hlast)).1
      obtain ⟨hstored, htenant, hdefinition⟩ := hsnapshots snapshot hmem
      exact ⟨hstored, htenant, hdefinition, rfl⟩

theorem compareWithHistory_serves (h : request.tenant = .valid tenant) (first : p.database = past)
    (argument : String) : Serves request past tenant p (compareWithHistory request argument) := by
  refine serveInSchema_meets (fun _ _ => Step.aside) serving_sameTables reads_noGuard ?_
  rintro context ⟨user, id, options⟩ q hnamed hready - hsame
  obtain rfl := tenant_eq h hnamed
  have hkept : past.Continues q.database := .of_eq (hsame.database.trans first)
  have hrunning : Meets (Step request past (some context.tenant))
      (runFor context id options.parameters user request.role) q fun result r =>
        request.MayRun past (.definition id) ∧
          past.HasRun r.database context.tenant (.definition id) result.execution :=
    (runFor_meets id options.parameters user hkept (first ▸ hready)).mono
      fun _ _ hstep => hstep.step
  refine hrunning.bind ?_
  rintro result r - ⟨hmayRun, -, row, hrow, hid, htenant, hsource, -⟩
  refine (compare_meets id result.rows options.days none).bind ?_
  rintro comparison _ - ⟨rfl, hprevious⟩
  rw [← hsource] at hmayRun
  refine .answer (serving_ok (.comparison hrow htenant hid.symm hmayRun (hprevious.imp_right ?_)))
  rintro ⟨snapshot, hstored, hown, rfl, heq⟩
  exact ⟨snapshot, hstored, hown, hsource, heq⟩

theorem showTrend_serves (h : request.tenant = .valid tenant) (asked : request.Asks .showTrend)
    (argument : String) :
    Serves request past tenant p (showTrend request argument) := by
  unfold showTrend
  refine .read (a := p.settings) rfl (serveTenant_meets reads_noGuard ?_)
  rintro context ⟨id, days⟩ hnamed - -
  obtain rfl := tenant_eq h hnamed
  refine (trend_meets id days none).bind ?_
  rintro snapshots q - ⟨rfl, hsnapshots⟩
  refine .answer (serving_ok (.list fun v hv => ?_))
  obtain ⟨snapshot, hsnapshot, rfl⟩ := List.mem_map.mp hv
  obtain ⟨hstored, htenant, -⟩ := hsnapshots snapshot hsnapshot
  exact .snapshot asked hstored htenant

/-! Executions -/

theorem mem_of_mem_page {α : Type} {skip limit : Int} {items : List α} {item : α}
    (h : item ∈ Runs.page skip limit items) : item ∈ items := by
  unfold Runs.page at h
  dsimp only at h
  split at h
  · exact List.mem_of_mem_drop h
  · exact List.mem_of_mem_drop (List.mem_of_mem_take h)

theorem listExecutions_serves (h : request.tenant = .valid tenant) :
    Serves request past tenant p (listExecutions request) := by
  unfold listExecutions
  refine serveTenant_meets reads_noGuard ?_
  rintro context ⟨id, skip, limit⟩ hnamed - -
  obtain rfl := tenant_eq h hnamed
  refine .read rfl (.answer (serving_ok (.list fun v hv => ?_)))
  obtain ⟨row, hrow, rfl⟩ := List.mem_map.mp hv
  obtain ⟨hstored, hmatching⟩ :=
    List.mem_filter.mp (List.mem_mergeSort.mp (mem_of_mem_page hrow))
  exact .execution hstored (eq_of_beq (Bool.and_eq_true_iff.mp hmatching).1)

theorem getExecution_serves (h : request.tenant = .valid tenant) (argument : String) :
    Serves request past tenant p (getExecution request argument) := by
  refine serveTenant_meets reads_noGuard fun context id hnamed _ _ => ?_
  obtain rfl := tenant_eq h hnamed
  have hget : Meets (Step request past (some context.tenant))
      (Runs.getExecution id (some context.tenant)) p fun row q =>
        q = p ∧ row ∈ p.database.executions ∧ row.tenant = some context.tenant := by
    refine .read (a := p.database) rfl ((Work.require_meets _ _).weaken fun row q _ hfound => ?_)
    obtain ⟨hstored, howned⟩ := Option.filter_eq_some_iff.mp hfound.2
    exact ⟨hfound.1, List.mem_of_find?_eq_some hstored, eq_of_beq howned⟩
  refine (refusing_meets hget).bind ?_
  rintro row _ - ⟨rfl, hstored, howned⟩
  exact .answer (serving_ok (.execution hstored howned))

/-! Custom reports -/

theorem shownCustomReport_meets (request : ApiRequest) (past : Database) {row : CustomReport}
    (hstored : row ∈ p.database.customReports) (howned : row.tenant = tenant) :
    Meets S (shownCustomReport row) p fun v q =>
      q = p ∧ Served request past p.database tenant v := by
  unfold shownCustomReport
  split
  · exact .fail
  · next spec hread => exact .answer ⟨rfl, .customReport hstored howned hread⟩

theorem createCustomReport_serves (h : request.tenant = .valid tenant)
    (asked : request.Asks .createCustomReport) :
    Serves request past tenant p (createCustomReport request) := by
  refine serveInSchema_meets (fun _ _ => Step.aside) serving_sameTables reads_noGuard ?_
  rintro context ⟨user, draft⟩ q hnamed - hgiven hsame
  obtain rfl := tenant_eq h hnamed
  have hdraft := (valid_of_pair hgiven).2
  refine (refusing_meets (CustomReports.create_meets asked context.schemaName user hdraft)).bind ?_
  rintro row r - ⟨hstored, howned⟩
  refine (shownCustomReport_meets request past hstored howned).bind ?_
  rintro v _ - ⟨rfl, hshown⟩
  exact .answer (serving_created hshown)

theorem previewCustomReport_serves :
    Serves request past tenant p (previewCustomReport request) := by
  refine serveInSchema_meets (fun _ _ => Step.aside) serving_sameTables reads_noGuard ?_
  intro context spec q _ _ _ _
  refine (refusing_meets (CustomReports.preview_meets (fun _ _ => Step.aside) _ _ _)).bind ?_
  exact fun sql r _ _ => .answer (serving_ok (.preview sql))

theorem listCustomReports_serves (h : request.tenant = .valid tenant) :
    Serves request past tenant p (listCustomReports request) := by
  refine serveInSchema_meets (fun _ _ => Step.aside) serving_sameTables reads_noGuard ?_
  intro context user q hnamed _ _ _
  obtain rfl := tenant_eq h hnamed
  refine .read (a := _) rfl ?_
  refine (Meets.mapM (P := Served request past q.database context.tenant) fun row hrow => ?_).bind ?_
  · obtain ⟨hstored, hmatches⟩ := List.mem_filter.mp (List.mem_mergeSort.mp hrow)
    have howned := (Bool.and_eq_true_iff.mp hmatches).1
    exact shownCustomReport_meets request past hstored (eq_of_beq howned)
  · rintro values _ - ⟨rfl, hvalues⟩
    exact .answer (serving_ok (.list hvalues))

theorem getCustomReport_serves (h : request.tenant = .valid tenant) (argument : String) :
    Serves request past tenant p (getCustomReport request argument) := by
  refine serveInSchema_meets (fun _ _ => Step.aside) serving_sameTables reads_noGuard ?_
  rintro context ⟨user, id⟩ q hnamed - - -
  obtain rfl := tenant_eq h hnamed
  refine (refusing_meets (CustomReports.get_meets id context.tenant user)).bind ?_
  rintro row _ - ⟨rfl, -, hstored, howned⟩
  refine (shownCustomReport_meets request past (List.mem_of_find?_eq_some hstored) howned).bind ?_
  rintro v _ - ⟨rfl, hshown⟩
  exact .answer (serving_ok hshown)

theorem updateCustomReport_serves (h : request.tenant = .valid tenant)
    (asked : request.Asks .updateCustomReport) (argument : String) :
    Serves request past tenant p (updateCustomReport request argument) := by
  refine serveInSchema_meets (fun _ _ => Step.aside) serving_sameTables reads_noGuard ?_
  rintro context ⟨⟨user, id⟩, patch⟩ q hnamed - - -
  obtain rfl := tenant_eq h hnamed
  refine (refusing_meets (CustomReports.update_meets asked _ id patch _ user)).bind ?_
  rintro row r - ⟨hstored, howned⟩
  refine (shownCustomReport_meets request past hstored howned).bind ?_
  rintro v _ - ⟨rfl, hshown⟩
  exact .answer (serving_ok hshown)

theorem deleteCustomReport_serves (h : request.tenant = .valid tenant)
    (asked : request.Asks .deleteCustomReport) (first : p.database = past) (argument : String) :
    Serves request past tenant p (deleteCustomReport request argument) := by
  refine serveInSchema_meets (fun _ _ => Step.aside) serving_sameTables reads_noGuard ?_
  rintro context ⟨user, id⟩ q hnamed - - hsame
  obtain rfl := tenant_eq h hnamed
  have hfirst := hsame.database.trans first
  refine (refusing_meets (CustomReports.delete_meets asked id user hfirst)).bind ?_
  exact fun _ r _ _ => .answer (serving_noContent _ _ _ _)

theorem runCustomReport_serves (h : request.tenant = .valid tenant) (first : p.database = past)
    (argument : String) : Serves request past tenant p (runCustomReport request argument) := by
  refine serveInSchema_meets (fun _ _ => Step.aside) serving_sameTables reads_noGuard ?_
  rintro context ⟨user, id⟩ q hnamed hready - hsame
  obtain rfl := tenant_eq h hnamed
  have hkept : past.Continues q.database := .of_eq (hsame.database.trans first)
  have hrunning : Meets (Step request past (some context.tenant))
      (Runs.runCustom context.schemaName context.tenant id user) q fun result r =>
        past.HasRun r.database context.tenant (.custom (some id)) result.execution :=
    (Runs.runCustom_meets hkept (first ▸ hready)).mono fun _ _ hstep => hstep.step
  refine (refusing_meets hrunning).bind fun result r _ hrun => ?_
  exact .answer (serving_ok (served_of_hasRun (.custom (some id)) hrun))

/-! Schedules -/

theorem shownSchedule_meets (request : ApiRequest) (past : Database) {row : Schedule}
    (hstored : row ∈ p.database.schedules) (howned : row.tenant = tenant) :
    Meets S (shownSchedule row) p fun v q => q = p ∧ Served request past p.database tenant v := by
  unfold shownSchedule
  split
  · exact .answer ⟨rfl, .schedule hstored howned⟩
  · exact .fail

theorem createSchedule_serves (h : request.tenant = .valid tenant)
    (asked : request.Asks .createSchedule) :
    Serves request past tenant p (createSchedule request) := by
  unfold createSchedule
  refine serveTenant_meets reads_noGuard ?_
  rintro context ⟨user, draft⟩ hnamed - hgiven
  obtain rfl := tenant_eq h hnamed
  have hwritten := (valid_of_pair hgiven).2
  refine (refusing_meets (Schedules.create_meets asked hwritten user)).bind ?_
  rintro row q - ⟨hstored, howned⟩
  refine (shownSchedule_meets request past hstored howned).bind ?_
  rintro v _ - ⟨rfl, hshown⟩
  exact .answer (serving_created hshown)

theorem listSchedules_serves (h : request.tenant = .valid tenant) :
    Serves request past tenant p (listSchedules request) := by
  refine serveTenant_meets reads_noGuard ?_
  intro context _ hnamed _ _
  obtain rfl := tenant_eq h hnamed
  refine .read (a := _) rfl ?_
  refine (Meets.mapM (P := Served request past p.database context.tenant) fun row hrow => ?_).bind ?_
  · obtain ⟨hstored, hmatches⟩ := List.mem_filter.mp (List.mem_mergeSort.mp hrow)
    exact shownSchedule_meets request past hstored (eq_of_beq hmatches)
  · rintro values _ - ⟨rfl, hvalues⟩
    exact .answer (serving_ok (.list hvalues))

theorem updateSchedule_serves (h : request.tenant = .valid tenant) {argument : String}
    (htarget : Route.targetOf request.method request.path = .endpoint .updateSchedule argument) :
    Serves request past tenant p (updateSchedule request argument) := by
  unfold updateSchedule
  refine serveTenant_meets reads_noGuard ?_
  rintro context ⟨id, patch⟩ hnamed - hgiven
  obtain rfl := tenant_eq h hnamed
  obtain ⟨hid, hwritten⟩ := valid_of_pair hgiven
  have hpatched : request.Patches id patch := ⟨⟨argument, htarget, hid⟩, hwritten⟩
  refine (refusing_meets (Schedules.update_meets hpatched rfl)).bind ?_
  rintro row q - ⟨hstored, howned⟩
  refine (shownSchedule_meets request past hstored howned).bind ?_
  rintro v _ - ⟨rfl, hshown⟩
  exact .answer (serving_ok hshown)

theorem deleteSchedule_serves (h : request.tenant = .valid tenant)
    (asked : request.Asks .deleteSchedule) (argument : String) :
    Serves request past tenant p (deleteSchedule request argument) := by
  refine serveTenant_meets reads_noGuard ?_
  intro context id hnamed _ _
  obtain rfl := tenant_eq h hnamed
  refine (refusing_meets (Schedules.delete_meets asked id)).bind ?_
  exact fun _ q _ _ => .answer (serving_noContent _ _ _ _)

end Endpoints

end Api

end TenantReports
