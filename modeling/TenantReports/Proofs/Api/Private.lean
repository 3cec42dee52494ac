import TenantReports.Proofs.Report.AsChecked
import TenantReports.Proofs.Report.Unaware

/-!
Custom reports are private to their authors until they are shared: what a viewer is answered does
not depend on the reports that are hidden from the viewer, and only the author changes a report.
-/

namespace TenantReports

open Action (IsUnaware)

variable {viewer : Viewer} {id wanted : Uuid} {request : ApiRequest} {p : Platform}

/-- Whether an endpoint lists, shows, changes or runs custom reports. -/
def Endpoint.isOnReports : Endpoint → Bool
  | .listCustomReports | .getCustomReport | .updateCustomReport | .deleteCustomReport
  | .runCustomReport => true
  | _ => false

namespace Api

open Guard

theorem isUnaware_shownCustomReport (report : CustomReport) :
    IsUnaware viewer id (shownCustomReport report) := by
  unfold shownCustomReport
  split
  · exact .fail _
  · exact .answer _

theorem user_of_withUser {argument : String} {user : Option Uuid}
    (huser : request.user = .valid (some viewer.user))
    (hgiven : withUser request argument = .valid (user, wanted)) : user = some viewer.user := by
  have hsame := huser.symm.trans (valid_of_pair hgiven).1
  injection hsame with huser
  exact huser.symm

theorem isUnaware_act {argument : String} {endpoint : Endpoint}
    (hreports : endpoint.isOnReports = true) (hnamed : request.tenant = .valid viewer.tenant)
    (huser : request.user = .valid (some viewer.user)) :
    IsUnaware viewer id (act request argument endpoint) := by
  cases endpoint with
  | listCustomReports =>
      refine isUnaware_serveInSchema hnamed fun context user hown hgiven => ?_
      have hsame := huser.symm.trans hgiven
      injection hsame with hviewer
      rw [hown, ← hviewer]
      exact CustomReports.isUnaware_list.bind fun reports =>
        (IsUnaware.mapM isUnaware_shownCustomReport reports).bind fun _ => .answer _
  | getCustomReport =>
      refine isUnaware_serveInSchema hnamed ?_
      rintro context ⟨user, wanted⟩ hown hgiven
      rw [hown, user_of_withUser huser hgiven]
      exact (isUnaware_refusing (CustomReports.isUnaware_get wanted) _).bind fun report =>
        (isUnaware_shownCustomReport report).bind fun _ => .answer _
  | updateCustomReport =>
      refine isUnaware_serveInSchema hnamed ?_
      rintro context ⟨⟨user, wanted⟩, patch⟩ hown hgiven
      rw [hown, user_of_withUser huser (valid_of_pair hgiven).1]
      exact (isUnaware_refusing (CustomReports.isUnaware_update _ wanted patch _) _).bind
        fun report => (isUnaware_shownCustomReport report).bind fun _ => .answer _
  | deleteCustomReport =>
      refine isUnaware_serveInSchema hnamed ?_
      rintro context ⟨user, wanted⟩ hown hgiven
      rw [hown, user_of_withUser huser hgiven]
      exact (isUnaware_refusing (CustomReports.isUnaware_delete wanted) _).bind fun _ => .answer _
  | runCustomReport =>
      refine isUnaware_serveInSchema hnamed ?_
      rintro context ⟨user, wanted⟩ hown hgiven
      rw [hown, user_of_withUser huser hgiven]
      exact (isUnaware_refusing (Runs.isUnaware_runCustom _ wanted) _).bind fun _ => .answer _
  | _ => cases hreports

end Api

/-- The platform as it is once custom reports were removed. -/
def Platform.withoutAll (p : Platform) (ids : List Uuid) : Platform := ids.foldl Platform.without p

theorem Database.Hides.removeCustomReport {db : Database} (h : db.Hides viewer wanted) (id : Uuid) :
    (db.removeCustomReport id).Hides viewer wanted :=
  fun report hreport => h report (List.mem_filter.mp hreport).1

theorem Action.IsUnaware.run_withoutAll {α : Type} {action : Work α}
    (h : ∀ id, IsUnaware viewer id action) {ids : List Uuid}
    (hids : ∀ id ∈ ids, p.database.Hides viewer id) :
    action.run (p.withoutAll ids) = ((action.run p).1, (action.run p).2.withoutAll ids) := by
  induction ids generalizing p with
  | nil => rfl
  | cons id ids ih =>
      have hfirst := (h id p (hids id List.mem_cons_self)).1
      have hrest := ih (p := p.without id) fun other hother =>
        (hids other (List.mem_cons_of_mem _ hother)).removeCustomReport id
      rw [hfirst] at hrest
      exact hrest

namespace Exchange

variable {e : Exchange}

/-- The same request, met by the platform without some custom reports. -/
def without (e : Exchange) (ids : List Uuid) : Exchange := ⟨e.request, e.met.withoutAll ids⟩

/-- Whether the exchange is a viewer's, at one of the endpoints of custom reports. -/
structure IsBy (e : Exchange) (viewer : Viewer) : Prop where
  target : ∃ endpoint argument, Route.targetOf e.request.method e.request.path =
    .endpoint endpoint argument ∧ endpoint.isOnReports = true
  tenant : e.request.tenant = .valid viewer.tenant
  user : e.request.user = .valid (some viewer.user)

theorem IsBy.isUnaware (h : e.IsBy viewer) (id : Uuid) :
    IsUnaware viewer id (Api.serve e.request) := by
  obtain ⟨endpoint, argument, htarget, hreports⟩ := h.target
  have hdispatch : Api.dispatch e.request = Api.act e.request argument endpoint := by
    unfold Api.dispatch
    rw [htarget]
  have hact : IsUnaware viewer id (Api.dispatch e.request) := by
    rw [hdispatch]
    exact Api.isUnaware_act hreports h.tenant h.user
  refine hact.attempt.bind fun outcome => ?_
  split
  · exact .answer _
  · exact .answer _
  · exact .fail _
  · exact .fail _

theorem IsBy.unseen (h : e.IsBy viewer) {ids : List Uuid}
    (hids : ∀ id ∈ ids, e.met.database.Hides viewer id) :
    (e.without ids).answer = e.answer ∧ (e.without ids).left = e.left.withoutAll ids := by
  have hrun := Action.IsUnaware.run_withoutAll h.isUnaware hids
  exact ⟨(congrArg Prod.fst hrun :), (congrArg Prod.snd hrun :)⟩

theorem IsBy.spared (h : e.IsBy viewer) (hid : e.met.database.Hides viewer id) :
    e.met.database.SparesReport id e.left.database :=
  (h.isUnaware id e.met hid).2

end Exchange

/-! Reports that the viewer does not find -/

namespace CustomReports

theorem run_get_of_hides (h : p.database.Hides viewer wanted) :
    (get wanted viewer.tenant (some viewer.user)).run p =
      (.error (.notFound .customReport wanted), p) := by
  rw [run_get, Database.filter_customReport?_eq_none fun report hreport hid =>
    seen_eq_false (h report hreport hid)]
  rfl

theorem run_getOwned_of_unowned
    (h : ∀ report ∈ p.database.customReports, report.id = wanted →
      report.createdBy ≠ some viewer.user) :
    (getOwned wanted viewer.tenant (some viewer.user)).run p =
      (.error (.notFound .customReport wanted), p) := by
  have hnone : (p.database.customReport? wanted).filter (owned viewer) = none :=
    Database.filter_customReport?_eq_none fun report hreport hid =>
      owned_eq_false (h report hreport hid)
  rw [run_getOwned, hnone]
  rfl

end CustomReports

namespace Guard

variable {α β : Type} {given : Validated α} {act : TenantContext → α → Work Answer}
  {context : TenantContext} {a : α}

/-- What the work of a request that is let in gives, the session passes on. -/
theorem Enters.answer_eq (h : Enters request p context) (read : given = .valid a)
    {outcome : Except Fault Answer} {s : Platform}
    (hrun : (act context a).run (Action.entered context.schemaName p) = (outcome, s))
    (htold : Action.told context.schemaName s.connection.clear outcome = outcome)
    (hpath : ∀ step name, outcome ≠ .error (.searchPath step name)) :
    ((serveInSchema request noGuard given act).run p).1 = outcome := by
  have hserve : (serve noGuard given (act context)).run (Action.entered context.schemaName p) =
      (act context a).run (Action.entered context.schemaName p) := run_serve rfl read
  obtain ⟨q, hsession, -, -⟩ := Action.run_inSession_of_not_fails h.hasReady.2 h.path
    (serve noGuard given (act context))
  rw [hserve, hrun, htold] at hsession
  unfold serveInSchema
  rw [Action.run_bind_of_ok (run_tenantOf h.toActsFor)]
  change ((inSchema context (serve noGuard given (act context))).run p).1 = _
  unfold inSchema
  rw [Action.run_bind_of_ok (Action.run_attempt _ p), hsession]
  cases outcome with
  | ok answer => rfl
  | error fault =>
      cases fault with
      | searchPath step name => exact absurd rfl (hpath step name)
      | _ => rfl

/-- A refusal is told even where the session cannot be reset. -/
theorem Enters.refused (h : Enters request p context) (read : given = .valid a) {refusal : Refusal}
    (hrun : (act context a).run (Action.entered context.schemaName p) =
      (.error (.refused refusal), Action.entered context.schemaName p)) :
    ((serveInSchema request noGuard given act).run p).1 = .error (.refused refusal) :=
  h.answer_eq read hrun rfl (by simp)

/-- Requests whose work is refused where it begins leave the tables as they were. -/
theorem serveInSchema_refused {refusal : Refusal}
    (h : ∀ context a, Enters request p context → given = .valid a →
      (act context a).run (Action.entered context.schemaName p) =
        (.error (.refused refusal), Action.entered context.schemaName p)) :
    ((serveInSchema request noGuard given act).run p).2.database = p.database ∧
      ∀ context a, Enters request p context → given = .valid a →
        ((serveInSchema request noGuard given act).run p).1 = .error (.refused refusal) := by
  refine ⟨?_, fun context a henters read => henters.refused read (h context a henters read)⟩
  rcases serveInSchema_cases reads_noGuard act with hsame | ⟨context, a, henters, -, read⟩
  · exact hsame.database
  · have hsame : ((act context a).run (Action.entered context.schemaName p)).2.SameTables
        ((serveInSchema request noGuard given act).run p).2 := henters.sameTables rfl read
    rw [h context a henters read] at hsame
    exact hsame.database.trans (Action.sameTables_entered _ p).database

theorem run_missing {refusal? : Fault → Option Refusal} {action : Work β} {next : β → Work Answer}
    (hrun : action.run p = (.error (.notFound .customReport wanted), p))
    (hfirst : refusal? (.notFound .customReport wanted) = some (.missing .customReport)) :
    (refusing refusal? action >>= next).run p =
      (.error (.refused (.missing .customReport)), p) := by
  rw [Action.run_bind_of_error (run_refusing_of_error hrun), hfirst]
  rfl

end Guard

namespace Exchange

variable {e : Exchange} {endpoint : Endpoint} {context : TenantContext}

/-- Whether the exchange is about a report, at an endpoint. -/
def Opens (e : Exchange) (endpoint : Endpoint) (id : Uuid) : Prop :=
  ∃ argument, Route.targetOf e.request.method e.request.path = .endpoint endpoint argument ∧
    Api.customReportId argument = .valid id

/-- Whether what a patch of a report says can be read. -/
def IsReadable (e : Exchange) : Prop :=
  ∃ patch, e.request.readBody CustomReportPatch.read = .valid patch

/-- The exchange leaves the tables as they were, and if it is let in, it is answered that there is
no such report. -/
structure Misses (e : Exchange) (endpoint : Endpoint) : Prop where
  database : e.left.database = e.met.database
  answer : ∀ context, Guard.Enters e.request e.met context →
    (endpoint = .updateCustomReport → e.IsReadable) →
    e.answer = .ok ((Refusal.missing .customReport).answer.sentTo e.request.method)

theorem misses_of_served {α : Type} {argument : String} {given : Validated α}
    (htarget : Route.targetOf e.request.method e.request.path = .endpoint endpoint argument)
    (hserved : ((Api.act e.request argument endpoint).run e.met).2.database = e.met.database ∧
      ∀ context a, Guard.Enters e.request e.met context → given = .valid a →
        ((Api.act e.request argument endpoint).run e.met).1 =
          .error (.refused (.missing .customReport)))
    (hread : (endpoint = .updateCustomReport → e.IsReadable) → ∃ a, given = .valid a) :
    e.Misses endpoint := by
  refine ⟨?_, fun context henters hreadable => ?_⟩
  · rw [left_of_target htarget]
    exact hserved.1
  · obtain ⟨a, hgiven⟩ := hread hreadable
    rw [answer_of_target htarget, hserved.2 context a henters hgiven]
    rfl

theorem IsBy.context_eq (h : e.IsBy viewer) (henters : Guard.ActsFor e.request e.met context) :
    context.tenant = viewer.tenant := by
  have hsame := h.tenant.symm.trans henters.named
  injection hsame with htenant
  exact htenant.symm

theorem IsBy.given (h : e.IsBy viewer) {argument : String}
    (hid : Api.customReportId argument = .valid wanted) :
    Api.withUser e.request argument = .valid (some viewer.user, wanted) := by
  unfold Api.withUser
  rw [h.user, hid]
  rfl

theorem hides_entered (h : e.met.database.Hides viewer wanted) (schemaName : String) :
    (Action.entered schemaName e.met).database.Hides viewer wanted := by
  rw [(Action.sameTables_entered schemaName e.met).database]
  exact h

theorem IsBy.eq_of_given (h : e.IsBy viewer) {argument : String} {user : Option Uuid}
    (hid : Api.customReportId argument = .valid wanted)
    (hgiven : Api.withUser e.request argument = .valid (user, id)) :
    user = some viewer.user ∧ id = wanted := by
  have hsame := (h.given hid).symm.trans hgiven
  injection hsame with hpair
  cases hpair
  exact ⟨rfl, rfl⟩

/-- A report that the work of an endpoint does not find is missing there. -/
theorem IsBy.misses_of_refused (h : e.IsBy viewer)
    {act : TenantContext → Option Uuid × Uuid → Work Answer}
    (hact : ∀ argument, Api.act e.request argument endpoint =
      Guard.serveInSchema e.request Guard.noGuard (Api.withUser e.request argument) act)
    (hopens : e.Opens endpoint wanted)
    (hrefused : ∀ context, Guard.Enters e.request e.met context →
      (act context (some viewer.user, wanted)).run (Action.entered context.schemaName e.met) =
        (.error (.refused (.missing .customReport)),
          Action.entered context.schemaName e.met)) : e.Misses endpoint := by
  obtain ⟨argument, htarget, hargument⟩ := hopens
  refine misses_of_served htarget ?_ fun _ => ⟨_, h.given hargument⟩
  rw [hact]
  refine Guard.serveInSchema_refused ?_
  rintro context ⟨user, id⟩ henters hgiven
  obtain ⟨rfl, rfl⟩ := h.eq_of_given hargument hgiven
  exact hrefused context henters

/-- A report that is hidden from the viewer is missing, and so is one that there is not. -/
theorem IsBy.misses_of_hides (h : e.IsBy viewer) (hid : e.met.database.Hides viewer wanted)
    (hendpoint : endpoint ∈ [.getCustomReport, .runCustomReport])
    (hopens : e.Opens endpoint wanted) : e.Misses endpoint := by
  have hget (context : TenantContext) (henters : Guard.Enters e.request e.met context) :
      (CustomReports.get wanted context.tenant (some viewer.user)).run
        (Action.entered context.schemaName e.met) =
          (.error (.notFound .customReport wanted), Action.entered context.schemaName e.met) := by
    rw [h.context_eq henters.toActsFor]
    exact CustomReports.run_get_of_hides (hides_entered hid context.schemaName)
  rcases List.mem_pair.mp hendpoint with rfl | rfl
  · exact h.misses_of_refused (fun _ => rfl) hopens fun context henters =>
      Guard.run_missing (hget context henters) rfl
  · exact h.misses_of_refused (fun _ => rfl) hopens fun context henters =>
      Guard.run_missing (Action.run_bind_of_error (hget context henters)) rfl

/-- A report that is not the viewer's own cannot be changed or removed. -/
theorem IsBy.misses_of_unowned (h : e.IsBy viewer)
    (hnone : ∀ report ∈ e.met.database.customReports, report.id = wanted →
      report.createdBy ≠ some viewer.user)
    (hendpoint : endpoint ∈ [.updateCustomReport, .deleteCustomReport])
    (hopens : e.Opens endpoint wanted) : e.Misses endpoint := by
  have hget (context : TenantContext) (henters : Guard.Enters e.request e.met context) :
      (CustomReports.getOwned wanted context.tenant (some viewer.user)).run
        (Action.entered context.schemaName e.met) =
          (.error (.notFound .customReport wanted), Action.entered context.schemaName e.met) := by
    rw [h.context_eq henters.toActsFor]
    refine CustomReports.run_getOwned_of_unowned ?_
    rw [(Action.sameTables_entered context.schemaName e.met).database]
    exact hnone
  rcases List.mem_pair.mp hendpoint with rfl | rfl
  -- An update reads a patch, too.
  · obtain ⟨argument, htarget, hargument⟩ := hopens
    refine misses_of_served htarget (Guard.serveInSchema_refused ?_) fun hreadable => ?_
    · rintro context ⟨⟨user, id⟩, patch⟩ henters hgiven
      obtain ⟨rfl, rfl⟩ := h.eq_of_given hargument (Guard.valid_of_pair hgiven).1
      exact Guard.run_missing (Action.run_bind_of_error (hget context henters)) rfl
    · obtain ⟨patch, hpatch⟩ := hreadable rfl
      rw [h.given hargument, hpatch]
      exact ⟨_, rfl⟩
  · exact h.misses_of_refused (fun _ => rfl) hopens fun context henters =>
      Guard.run_missing (Action.run_bind_of_error (hget context henters)) rfl

end Exchange

/-! Reports that are shared with the viewer -/

namespace Connection

/-- Whether nothing fails on a connection. -/
structure IsReliable (c : Connection) : Prop where
  statements : ∀ n sql, c.plan.failure? n sql = none
  commits : ∀ n, c.plan.commit n = none

variable {c : Connection}

theorem IsReliable.congr {c' : Connection} (h : c.IsReliable) (hplan : c'.plan = c.plan) :
    c'.IsReliable := by
  refine ⟨fun n sql => ?_, fun n => ?_⟩
  · rw [hplan]
    exact h.statements n sql
  · rw [hplan]
    exact h.commits n

theorem IsReliable.not_pathFails (h : c.IsReliable) (path : String) : ¬ c.PathFails path := by
  rintro (hfails | hfails)
  · exact hfails (h.statements _ _)
  · exact hfails (h.commits _)

theorem plan_changePath (path : String) (c : Connection) : (c.changePath path).2.plan = c.plan := by
  rcases changePath_cases path c with ⟨failure, -, heq⟩ | ⟨failure, -, heq⟩ | ⟨-, heq⟩
  · rw [heq]
  · rw [heq]
  · rw [heq]

theorem plan_clear (c : Connection) : c.clear.plan = c.plan := by
  unfold clear
  split
  · rfl
  · rfl

end Connection

namespace Guard

variable {α : Type} {given : Validated α} {act : TenantContext → α → Work Answer}
  {context : TenantContext} {a : α}

theorem ActsFor.enters (h : ActsFor request p context) (hreliable : p.connection.IsReliable) :
    Enters request p context := by
  have hborrowed : p.connection.borrow.IsReliable := hreliable.congr rfl
  exact ⟨h, hborrowed.not_pathFails _⟩

theorem isReliable_entered (h : Enters request p context) (hreliable : p.connection.IsReliable) :
    (Action.entered context.schemaName p).connection.IsReliable := by
  rw [(Action.run_setPath_borrowed h.path).2]
  exact hreliable.congr (Connection.plan_changePath _ _)

theorem Enters.answers (h : Enters request p context) (read : given = .valid a) {answer : Answer}
    {s : Platform}
    (hrun : (act context a).run (Action.entered context.schemaName p) = (.ok answer, s))
    (hreliable : s.connection.IsReliable) :
    ((serveInSchema request noGuard given act).run p).1 = .ok answer := by
  have hreset : ¬ s.connection.clear.ResetFails :=
    (hreliable.congr (Connection.plan_clear _)).not_pathFails _
  exact h.answer_eq read hrun (Action.told_of_not_resetFails _ hreset) (by simp)

end Guard

/-- A custom report as it is shown. -/
def CustomReport.shown (report : CustomReport) : Value :=
  match ReportSpec.read (.mapping report.spec.entries) with
  | .valid spec => .record (report.metaFields .short ++
      spec.fields.map fun field => (field.1, field.2.toValue))
  | .invalid _ => .null

namespace Api

theorem run_shownCustomReport {report : CustomReport} {spec : ReportSpec}
    (h : report.spec.toSpec = .ok spec) (p : Platform) :
    (shownCustomReport report).run p = (.ok report.shown, p) := by
  unfold SpecDocument.toSpec at h
  unfold shownCustomReport CustomReport.shown
  cases hread : ReportSpec.read (.mapping report.spec.entries) with
  | invalid issues =>
      rw [hread] at h
      cases h
  | valid spec => rfl

theorem run_shownCustomReports {reports : List CustomReport}
    (h : ∀ report ∈ reports, ∃ spec, report.spec.toSpec = .ok spec) (p : Platform) :
    (reports.mapM shownCustomReport).run p = (.ok (reports.map CustomReport.shown), p) := by
  induction reports with
  | nil => rfl
  | cons report reports ih =>
      obtain ⟨spec, hread⟩ := h report List.mem_cons_self
      have hrest := ih fun other hother => h other (List.mem_cons_of_mem _ hother)
      rw [List.mapM_cons, Action.run_bind_of_ok (run_shownCustomReport hread p),
        Action.run_bind_of_ok hrest]
      rfl

end Api

namespace Exchange

variable {e : Exchange} {context : TenantContext}

/-- The reports that a viewer may see, the latest first. -/
def listed (e : Exchange) (viewer : Viewer) : List CustomReport :=
  (e.met.database.customReports.filter (CustomReports.seen viewer)).mergeSort
    fun a b => b.createdAt.instant ≤ a.createdAt.instant

theorem IsBy.answer_of_list (h : e.IsBy viewer)
    (hread : ∀ report ∈ e.met.database.customReports, ∃ spec, report.spec.toSpec = .ok spec)
    (hacts : Guard.ActsFor e.request e.met context) (hreliable : e.met.connection.IsReliable)
    (hasks : e.request.Asks .listCustomReports) :
    e.answer = .ok ((Answer.ok (.list ((e.listed viewer).map CustomReport.shown))).sentTo
      e.request.method) := by
  obtain ⟨argument, htarget⟩ := hasks
  have henters := hacts.enters hreliable
  have hdatabase := (Action.sameTables_entered context.schemaName e.met).database
  have hlist : (CustomReports.list context.tenant (some viewer.user)).run
      (Action.entered context.schemaName e.met) =
        (.ok (e.listed viewer), Action.entered context.schemaName e.met) := by
    rw [h.context_eq hacts]
    unfold listed
    rw [← hdatabase]
    rfl
  have hreadable : ∀ report ∈ e.listed viewer, ∃ spec, report.spec.toSpec = .ok spec :=
    fun report hreport => hread report (List.mem_filter.mp (List.mem_mergeSort.mp hreport)).1
  have hshown := Api.run_shownCustomReports hreadable (Action.entered context.schemaName e.met)
  have hserved : ((Api.listCustomReports e.request).run e.met).1 =
      .ok (Answer.ok (.list ((e.listed viewer).map CustomReport.shown))) := by
    refine henters.answers h.user ?_ (Guard.isReliable_entered henters hreliable)
    rw [Action.run_bind_of_ok hlist, Action.run_bind_of_ok hshown]
    rfl
  rw [answer_of_target htarget, Api.act, hserved]
  rfl

theorem IsBy.answer_of_get (h : e.IsBy viewer) {report : CustomReport} {spec : ReportSpec}
    (hstored : (e.met.database.customReport? report.id).filter (CustomReports.seen viewer) =
      some report) (hread : report.spec.toSpec = .ok spec)
    (hacts : Guard.ActsFor e.request e.met context) (hreliable : e.met.connection.IsReliable)
    (hopens : e.Opens .getCustomReport report.id) :
    e.answer = .ok ((Answer.ok report.shown).sentTo e.request.method) := by
  obtain ⟨argument, htarget, hargument⟩ := hopens
  have henters := hacts.enters hreliable
  have hdatabase := (Action.sameTables_entered context.schemaName e.met).database
  have hget : (CustomReports.get report.id context.tenant (some viewer.user)).run
      (Action.entered context.schemaName e.met) =
        (.ok report, Action.entered context.schemaName e.met) := by
    rw [h.context_eq hacts, CustomReports.run_get, hdatabase, hstored]
    rfl
  have hserved : ((Api.getCustomReport e.request argument).run e.met).1 =
      .ok (Answer.ok report.shown) := by
    refine henters.answers (h.given hargument) ?_ (Guard.isReliable_entered henters hreliable)
    dsimp only
    rw [Action.run_bind_of_ok (Guard.run_refusing_of_ok hget),
      Action.run_bind_of_ok (Api.run_shownCustomReport hread _)]
    rfl
  rw [answer_of_target htarget, Api.act, hserved]
  rfl

end Exchange

theorem Work.run_query_of_isReliable (sql : String) (h : p.connection.IsReliable) :
    ((Work.query sql).run p).1 = p.reply.outcome ∧
      ((Work.query sql).run p).2.connection.IsReliable := by
  rw [Work.run_query]
  rcases Connection.send_cases (.query sql) p.connection with ⟨failure, hfails, -⟩ | ⟨-, heq⟩
  · cases (h.statements _ _).symm.trans hfails
  · rw [heq]
    exact ⟨rfl, h.congr rfl⟩

namespace Runs

/-- The order to run a custom report for a viewer. -/
def orderOf (report : CustomReport) (viewer : Viewer) : Order :=
  ⟨.custom (some report.id), some viewer.tenant, some viewer.user, []⟩

def sendingOf (report : CustomReport) (viewer : Viewer) (sql : String) (p : Platform) : Sending :=
  ⟨orderOf report viewer, [], sql, p⟩

theorem run_record_orderOf {report : CustomReport} (sql : String)
    (hstored : p.database.hasCustomReport report.id = true)
    (htenant : p.database.hasTenant viewer.tenant = true) :
    (record (orderOf report viewer) sql).run p =
      ((sendingOf report viewer sql p).told, (sendingOf report viewer sql p).left) := by
  refine run_record_of_start sql ?_
  let row := (sendingOf report viewer sql p).row
  have haccepts : (p.database.attempt .executions).acceptsExecution row = true :=
    Bool.and_eq_true_iff.mpr ⟨hstored, htenant⟩
  have hinsert := Work.run_insert .executions Database.acceptsExecution Database.addExecution
    (fun id => { row with id }) p
  exact hinsert.trans (if_pos haccepts)

theorem run_runCustom_of_visible {report : CustomReport} {spec : ReportSpec}
    {schemaName sql : String} (stored : p.database.customReport? report.id = some report)
    (owned : report.tenant = viewer.tenant)
    (visible : report.isVisibleTo (some viewer.user) = true) (read : report.spec.toSpec = .ok spec)
    (compiled : compile schemaName spec = .ok sql)
    (known : p.database.hasTenant viewer.tenant = true) :
    (runCustom schemaName viewer.tenant report.id (some viewer.user)).run p =
      ((sendingOf report viewer sql p).told >>= fun output =>
        output.toResult output.derivedColumns, (sendingOf report viewer sql p).left) := by
  have hreport : p.database.hasCustomReport report.id = true := by
    rw [Database.hasCustomReport, stored]
    rfl
  have hrecord := run_record_orderOf sql hreport known
  rw [← owned, run_runCustom stored visible read compiled]
  unfold runText
  rw [owned]
  change (record (orderOf report viewer) sql >>= fun output =>
    Action.ofResult (output.toResult output.derivedColumns)).run p = _
  rw [Action.run_bind, hrecord]
  cases (sendingOf report viewer sql p).told with
  | error fault => rfl
  | ok output => exact Action.run_ofResult _ _

theorem told_sendingOf (report : CustomReport) (viewer : Viewer) (sql : String)
    (h : p.connection.IsReliable) :
    (sendingOf report viewer sql p).outcome = p.reply.outcome ∧
      (sendingOf report viewer sql p).left.connection.IsReliable := by
  let sending := sendingOf report viewer sql p
  exact Work.run_query_of_isReliable (p := sending.begun) sql h

end Runs

namespace Exchange

variable {e : Exchange} {context : TenantContext}

/-- The exchange runs a custom report for a viewer by an SQL text. -/
structure RunsFor (e : Exchange) (viewer : Viewer) (report : CustomReport) (sql : String)
    (run : Execution) : Prop where
  recorded : e.left.database.executions = e.met.database.executions ++ [run]
  sent : e.left.connection.queries = e.met.connection.queries ++ [sql]
  source : run.source = .custom (some report.id)
  tenant : run.tenant = some viewer.tenant
  user : run.executedBy = some viewer.user
  state : run.state = Runs.endState e.met.now e.met.reply.outcome
  answer : ∀ keys rows plain, e.met.reply = .result keys rows → rowsToPlain rows = .ok plain →
    e.answer = .ok ((Answer.ok (Api.shownResult
      ⟨run.id, plain, rows.length, 0, ReportColumn.derive keys rows, none⟩)).sentTo
        e.request.method)

theorem IsBy.runsFor (h : e.IsBy viewer) (hsound : Api.Sound e.met.database)
    {report : CustomReport} {spec : ReportSpec} {sql : String}
    (hstored : e.met.database.customReport? report.id = some report)
    (howned : report.tenant = viewer.tenant)
    (hvisible : report.isVisibleTo (some viewer.user) = true)
    (hread : report.spec.toSpec = .ok spec) (hcompiled : compile context.schemaName spec = .ok sql)
    (hacts : Guard.ActsFor e.request e.met context) (hreliable : e.met.connection.IsReliable)
    (hopens : e.Opens .runCustomReport report.id) : ∃ run, e.RunsFor viewer report sql run := by
  obtain ⟨argument, htarget, hargument⟩ := hopens
  have henters := hacts.enters hreliable
  have hsame := Action.sameTables_entered context.schemaName e.met
  let sending := Runs.sendingOf report viewer sql (Action.entered context.schemaName e.met)
  obtain ⟨houtcome, hleft⟩ := Runs.told_sendingOf report viewer sql
    (Guard.isReliable_entered henters hreliable)
  have hreply : sending.outcome = e.met.reply.outcome :=
    houtcome.trans (congrArg (QueryReply.outcome <| List.headD · (.result [] [])) hsame.replies)
  have hrun : (Runs.runCustom context.schemaName context.tenant report.id
      (some viewer.user)).run (Action.entered context.schemaName e.met) =
        (sending.told >>= fun output => output.toResult output.derivedColumns, sending.left) := by
    obtain ⟨t, htenant, -⟩ := hacts.hasReady.1
    rw [h.context_eq hacts] at htenant ⊢
    refine Runs.run_runCustom_of_visible ?_ howned hvisible hread hcompiled ?_
    · rw [hsame.database]
      exact hstored
    · rw [hsame.database, Database.hasTenant, htenant]
      rfl
  have htables : sending.left.SameTables e.left := by
    rw [left_of_target htarget]
    refine Platform.SameTables.trans ?_ (henters.sameTables rfl (h.given hargument))
    dsimp only
    rw [Action.left_bind fun _ => .answer _, Guard.left_refusing, hrun]
    exact .refl _
  refine ⟨sending.ended, ?_, ?_, rfl, rfl, rfl, ?_, ?_⟩
  · have hnum : Table.executions.Numbered sending.before.database :=
      hsame.database.symm ▸ hsound.executions
    rw [htables.database, sending.executions_left hnum]
    exact congrArg (· ++ _) (congrArg Database.executions hsame.database)
  · have hsent := sending.sent.queries
    rw [htables.queries]
    refine hsent.trans (congrArg (· ++ _) ?_)
    exact hsame.queries
  · have hnow : sending.after.now = e.met.now := sending.sent.now.trans hsame.now
    change Runs.endState sending.after.now sending.outcome = _
    rw [hnow, hreply]
  · intro keys rows plain hresult hplain
    let result : ReportResult :=
      ⟨sending.ended.id, plain, rows.length, 0, ReportColumn.derive keys rows, none⟩
    have htold : sending.told = .ok ⟨sending.row.id, keys, rows⟩ := by
      rw [Runs.Sending.told, hreply, hresult]
      rfl
    have hoks : (sending.told >>= fun output => output.toResult output.derivedColumns) =
        .ok result := by
      rw [htold]
      change Runs.Output.toResult _ _ = _
      unfold Runs.Output.toResult
      rw [hplain]
      rfl
    rw [hoks] at hrun
    have hserved : ((Api.runCustomReport e.request argument).run e.met).1 =
        .ok (Answer.ok (Api.shownResult result)) := by
      refine henters.answers (h.given hargument) ?_ hleft
      dsimp only
      rw [Action.run_bind_of_ok (Guard.run_refusing_of_ok hrun)]
      rfl
    rw [answer_of_target htarget, Api.act, hserved]
    rfl

end Exchange

/-! Authors -/

namespace Database

/-- Custom reports stay under their authors, and no identifier is given out again. -/
structure KeepsAuthors (db db' : Database) : Prop where
  attempts : db.attempts.count .customReports ≤ db'.attempts.count .customReports
  origin : ∀ row ∈ db'.customReports,
    (∃ old ∈ db.customReports, row.id = old.id ∧ row.createdBy = old.createdBy) ∨
      Table.IsLater db .customReports row.id

variable {db db' db'' : Database}

theorem KeepsAuthors.refl (db : Database) : KeepsAuthors db db :=
  ⟨Nat.le_refl _, fun row hrow => .inl ⟨row, hrow, rfl, rfl⟩⟩

theorem KeepsAuthors.trans (h : KeepsAuthors db db') (h' : KeepsAuthors db' db'') :
    KeepsAuthors db db'' := by
  refine ⟨Nat.le_trans h.attempts h'.attempts, fun row hrow => ?_⟩
  rcases h'.origin row hrow with ⟨mid, hmid, hid, hauthor⟩ | ⟨n, hn, hid⟩
  · rw [hid, hauthor]
    exact h.origin mid hmid
  · exact .inr ⟨n, Nat.lt_of_le_of_lt h.attempts hn, hid⟩

theorem KeepsAuthors.eq (h : KeepsAuthors db db') (hnum : Table.customReports.Numbered db)
    {old new : CustomReport} (hold : old ∈ db.customReports) (hnew : new ∈ db'.customReports)
    (hid : new.id = old.id) : new.createdBy = old.createdBy := by
  rcases h.origin new hnew with ⟨other, hother, hsame, hauthor⟩ | hlater
  · rw [hauthor, hnum.eq_of_id_eq hother hold (hsame.symm.trans hid)]
  · exact absurd hid.symm (hnum.id_ne_of_isLater hlater hold)

end Database

theorem Exchange.keepsAuthors (e : Exchange) (hsound : Api.Sound e.met.database) :
    e.met.database.KeepsAuthors e.left.database := by
  refine ⟨(e.steps.follows hsound).attempts _, fun row hrow => ?_⟩
  -- Nothing need be known of reports that are made.
  let Made (_ : CustomReport) : Prop := True
  have horigin : (∃ old ∈ e.met.database.customReports,
      row.id = old.id ∧ row.createdBy = old.createdBy) ∨
        Table.IsLater e.met.database .customReports row.id ∧ Made row := by
    refine Api.Steps.origin (t := .customReports) CustomReport.createdBy e.steps hsound ?_
      (fun hsteps hstep row hrow => ?_) row hrow
    · exact fun _ hmade => hmade
    have hfollows := Api.Steps.follows hsteps hsound
    rcases (hstep.customReports hfollows.sound).origin hrow with
      ⟨mid, hmid, hid, -, rfl | ⟨-, -, -, hauthor⟩⟩ | ⟨hid, -⟩
    · exact .inl ⟨row, hmid, rfl, rfl⟩
    · exact .inl ⟨mid, hmid, hid, hauthor⟩
    · exact .inr ⟨hid, trivial⟩
  exact horigin.imp_right And.left

namespace History

variable {settings : Settings} {exchanges before after : List Exchange} {db : Database}
  {e : Exchange}

theorem keepsAuthors (h : History settings exchanges db)
    (hsplit : exchanges = before ++ e :: after) : e.left.database.KeepsAuthors db := by
  induction h generalizing after with
  | start => exact absurd hsplit (by simp)
  | next past e' met configured ih =>
      rcases List.eq_nil_or_concat after with rfl | ⟨rest, last, rfl⟩
      · obtain ⟨-, hlast⟩ := List.append_inj' hsplit rfl
        cases hlast
        exact .refl _
      · have hlast : before ++ e :: rest.concat last = (before ++ e :: rest) ++ [last] := by simp
        have hbefore := ih (List.append_inj' (hsplit.trans hlast) rfl).1
        subst met
        exact hbefore.trans (e'.keepsAuthors past.sound)

theorem author_kept (h : History settings exchanges db)
    (hsplit : exchanges = before ++ e :: after) {old new : CustomReport}
    (hold : old ∈ e.left.database.customReports) (hnew : new ∈ db.customReports)
    (hid : new.id = old.id) : new.createdBy = old.createdBy := by
  obtain ⟨hmet, hsettings⟩ := h.split hsplit
  have hleft := (hmet.next e rfl hsettings).sound
  exact (h.keepsAuthors hsplit).eq hleft.customReports hold hnew hid

end History

/-- What a viewer's request at an endpoint of custom reports has to do with reports of others: it
goes as if there were no hidden ones, and shared ones can be read and run but not changed. -/
structure Exchange.KeepsPrivate (e : Exchange) (viewer : Viewer) : Prop where
  /-- Without reports that are hidden from the viewer, all is the same but for these reports. -/
  unseen : ∀ ids, (∀ id ∈ ids, e.met.database.Hides viewer id) →
    (e.without ids).answer = e.answer ∧ (e.without ids).left = e.left.withoutAll ids
  spared : ∀ id, e.met.database.Hides viewer id → e.met.database.SparesReport id e.left.database
  missing : ∀ id endpoint, e.met.database.Hides viewer id →
    endpoint ∈ [.getCustomReport, .runCustomReport, .updateCustomReport, .deleteCustomReport] →
      e.Opens endpoint id → e.Misses endpoint
  /-- Shared or not, a report of someone else, or of nobody, cannot be changed or removed. -/
  unowned : ∀ report ∈ e.met.database.customReports, report.createdBy ≠ some viewer.user →
    ∀ endpoint ∈ [.updateCustomReport, .deleteCustomReport],
      e.Opens endpoint report.id → e.Misses endpoint
  listed : ∀ context, Guard.ActsFor e.request e.met context → e.met.connection.IsReliable →
    e.request.Asks .listCustomReports →
      e.answer = .ok ((Answer.ok (.list ((e.listed viewer).map CustomReport.shown))).sentTo
        e.request.method)
  shared : ∀ report ∈ e.met.database.customReports, report.tenant = viewer.tenant →
    report.isShared = true → report ∈ e.listed viewer ∧
      ∀ context, Guard.ActsFor e.request e.met context → e.met.connection.IsReliable →
        (e.Opens .getCustomReport report.id →
          e.answer = .ok ((Answer.ok report.shown).sentTo e.request.method)) ∧
        (e.Opens .runCustomReport report.id → ∃ sql run,
          e.met.database.CompilesTo report sql ∧ e.RunsFor viewer report sql run)

namespace History

variable {settings : Settings} {exchanges : List Exchange} {db : Database} {e : Exchange}

theorem keepsPrivate (h : History settings exchanges e.met.database) (hby : e.IsBy viewer) :
    e.KeepsPrivate viewer where
  unseen ids := hby.unseen
  spared id := hby.spared
  missing id endpoint hhides hendpoint hopens := by
    have hunowned : ∀ report ∈ e.met.database.customReports, report.id = id →
        report.createdBy ≠ some viewer.user :=
      fun report hreport hid => (hhides report hreport hid).unowned
    simp only [List.mem_cons, List.not_mem_nil, or_false] at hendpoint
    rcases hendpoint with hget | hrun | hupdate | hdelete
    · exact hby.misses_of_hides hhides (by simp [hget]) hopens
    · exact hby.misses_of_hides hhides (by simp [hrun]) hopens
    · exact hby.misses_of_unowned hunowned (by simp [hupdate]) hopens
    · exact hby.misses_of_unowned hunowned (by simp [hdelete]) hopens
  unowned report hreport hauthor endpoint hendpoint hopens := by
    refine hby.misses_of_unowned (fun other hother hid => ?_) hendpoint hopens
    rw [h.sound.customReports.eq_of_id_eq hother hreport hid]
    exact hauthor
  listed context hacts hreliable hasks := by
    refine hby.answer_of_list (fun report hreport => ?_) hacts hreliable hasks
    obtain ⟨-, -, -, -, -, -, -, t, spec, -, hread, -⟩ := h.lastChecked hreport
    exact ⟨spec, hread⟩
  shared report hreport htenant hshared := by
    have hvisible : report.isVisibleTo (some viewer.user) = true := by
      simp [CustomReport.isVisibleTo, hshared]
    have hseen : CustomReports.seen viewer report = true := by
      rw [CustomReports.seen, hvisible, htenant, beq_self_eq_true]
      rfl
    have hstored : e.met.database.customReport? report.id = some report :=
      h.sound.customReports.find?_of_mem hreport
    obtain ⟨-, -, -, sql, -, -, -, t, spec, hknown, hread, hcompiled⟩ := h.lastChecked hreport
    refine ⟨List.mem_mergeSort.mpr (List.mem_filter.mpr ⟨hreport, hseen⟩), ?_⟩
    intro context hacts hreliable
    refine ⟨fun hopens => ?_, fun hopens => ?_⟩
    · refine hby.answer_of_get ?_ hread hacts hreliable hopens
      rw [hstored]
      exact Option.filter_eq_some_iff.mpr ⟨rfl, hseen⟩
    · have hschema : t.schemaName = context.schemaName := by
        obtain ⟨t', hready, -, hname⟩ := hacts.hasReady.1
        rw [hby.context_eq hacts, ← htenant, hknown] at hready
        cases hready
        exact hname
      obtain ⟨run, hrun⟩ := hby.runsFor h.sound hstored htenant hvisible hread
        (hschema ▸ hcompiled) hacts hreliable hopens
      exact ⟨sql, run, ⟨t, spec, hknown, hread, hcompiled⟩, hrun⟩

/-- In every exchange of a history, custom reports are private to their authors until they are
shared, and they keep their authors ever after. -/
theorem customReports_private (h : History settings exchanges db) :
    ∀ before e after, exchanges = before ++ e :: after →
      (∀ viewer, e.IsBy viewer → e.KeepsPrivate viewer) ∧
      ∀ old ∈ e.left.database.customReports, ∀ new ∈ db.customReports,
        new.id = old.id → new.createdBy = old.createdBy := by
  intro before e after hsplit
  refine ⟨fun viewer hby => (h.split hsplit).1.keepsPrivate hby, fun old hold new hnew hid => ?_⟩
  exact h.author_kept hsplit hold hnew hid

/-- A user lists the custom reports of a tenant of which another user has composed one. -/
theorem customReports_private_of_list :
    let tenant := TableName.rowId .tenants 1
    let report := TableName.rowId .customReports 1
    let author : Uuid := ⟨1⟩
    let viewer : Viewer := ⟨tenant, ⟨2⟩⟩
    let requests := [.toProvision "North",
      ApiRequest.byUser (.toCompose tenant "invoices" "amount") author]
    let start : Platform :=
      { Platform.new (.ofMigrations "migrations") ⟨⟨2024, 5, 1⟩, ⟨9, 0, 0, 0⟩, .offset 0⟩ with
        catalog := [⟨"tenant_north", "invoices"⟩] }
    let e : Exchange := ⟨.byUser (.toListReports tenant) viewer.user, start.afterAll requests⟩
    e.met.database.customReports.map (fun row => (row.id, row.createdBy)) =
        [(report, some author)] ∧
      e.IsBy viewer ∧ e.met.database.Hides viewer report ∧
      (e.without [report]).answer = e.answer := by
  intro tenant report author viewer requests start e
  have hpast : History start.settings (Exchange.inTurn start requests) e.met.database :=
    .ofRequests start rfl rfl requests
  have hsettings : e.met.settings = start.settings :=
    Platform.afterAll_settings sound_empty requests
  have hrows : e.met.database.customReports.map
      (fun row => (row.id, row.tenant, row.isShared, row.createdBy)) =
        [(report, tenant, false, some author)] := by decide +kernel
  have htarget : Route.targetOf e.request.method e.request.path =
      .endpoint .listCustomReports "" := by decide +kernel
  have hby : e.IsBy viewer := ⟨⟨_, _, htarget, rfl⟩, by decide +kernel, by decide +kernel⟩
  have hhides : e.met.database.Hides viewer report := by
    intro row hrow _
    have hmem := List.mem_map_of_mem (f := fun row : CustomReport =>
      (row.id, row.tenant, row.isShared, row.createdBy)) hrow
    rw [hrows, List.mem_singleton] at hmem
    simp only [Prod.mk.injEq] at hmem
    obtain ⟨-, htenant, hshared, hauthor⟩ := hmem
    refine ⟨htenant, hshared, ?_⟩
    rw [hauthor]
    decide
  have hprivate := (customReports_private (hpast.next e rfl hsettings) _ e [] rfl).1 viewer hby
  have hunseen := hprivate.unseen [report] fun id hid => List.mem_singleton.mp hid ▸ hhides
  exact ⟨by decide +kernel, hby, hhides, hunseen.1⟩

end History

end TenantReports
