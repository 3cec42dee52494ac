import TenantReports.Proofs.Api.History

/-!
Requests for one tenant leave the rows of all others alone, and show none of them.
-/

namespace TenantReports

open Action (Meets)
open Relation (ReflTransGen)
open Api (Step Sound)

namespace Table

variable {Row : Type} {t : Table Row} {tenant : Uuid} {db db' db'' : Database}

/-- What work for a tenant may do to a table: the rows of other tenants stay as they are, and new
rows are the tenant's own. -/
structure Spares (t : Table Row) (tenant : Uuid) (db db' : Database) : Prop where
  others : ∀ other, other ≠ tenant →
    (t.rows db').filter (t.tenant · == some other) = (t.rows db).filter (t.tenant · == some other)
  added : ∀ row ∈ t.rows db', t.tenant row = some tenant ∨
    ∃ old ∈ t.rows db, t.id old = t.id row ∧ t.tenant old = t.tenant row

theorem Spares.refl (t : Table Row) (tenant : Uuid) (db : Database) : t.Spares tenant db db :=
  ⟨fun _ _ => rfl, fun row hrow => .inr ⟨row, hrow, rfl, rfl⟩⟩

theorem Spares.trans (h : t.Spares tenant db db') (h' : t.Spares tenant db' db'') :
    t.Spares tenant db db'' := by
  refine ⟨fun other hother => (h'.others other hother).trans (h.others other hother), ?_⟩
  intro row hrow
  rcases h'.added row hrow with hown | ⟨mid, hmid, hid, htenant⟩
  · exact .inl hown
  · rcases h.added mid hmid with hown | ⟨old, hold, hid', htenant'⟩
    · exact .inl (htenant.symm.trans hown)
    · exact .inr ⟨old, hold, hid'.trans hid, htenant'.trans htenant⟩

theorem Change.spares {New Open : Row → Prop} {Keeps : Row → Row → Prop}
    (h : t.Change New Keeps Open db db') (hnew : ∀ row, New row → t.tenant row = some tenant)
    (hopen : ∀ row, Open row → ∀ other, t.tenant row = some other → other = tenant) :
    t.Spares tenant db db' := by
  refine ⟨fun other hother => ?_, fun row hrow => ?_⟩
  · refine h.filter_tenant_eq (fun row hrow htenant => hother (hopen row hrow other htenant)) ?_
    intro row hrow htenant
    exact hother (Option.some.inj (htenant.symm.trans (hnew row hrow)))
  · rcases h.origin hrow with ⟨old, hold, hid, htenant, -⟩ | ⟨-, hadded⟩
    · exact .inr ⟨old, hold, hid.symm, htenant.symm⟩
    · exact .inl (hnew row hadded)

end Table

namespace Api

/-- What work for a tenant may do to the shared tables. -/
structure Spares (tenant : Uuid) (db db' : Database) : Prop where
  definitions : Table.definitions.Spares tenant db db'
  executions : Table.executions.Spares tenant db db'
  snapshots : Table.snapshots.Spares tenant db db'
  customReports : Table.customReports.Spares tenant db db'
  schedules : Table.schedules.Spares tenant db db'

theorem Spares.refl (tenant : Uuid) (db : Database) : Spares tenant db db :=
  ⟨.refl _ _ _, .refl _ _ _, .refl _ _ _, .refl _ _ _, .refl _ _ _⟩

theorem Spares.trans {tenant : Uuid} {db db' db'' : Database} (h : Spares tenant db db')
    (h' : Spares tenant db' db'') : Spares tenant db db'' :=
  ⟨h.definitions.trans h'.definitions, h.executions.trans h'.executions,
    h.snapshots.trans h'.snapshots, h.customReports.trans h'.customReports,
    h.schedules.trans h'.schedules⟩

variable {request : ApiRequest} {past : Database} {tenant : Uuid} {p q : Platform}

theorem Step.spares (h : Step request past (some tenant) p q) (hsound : Sound p.database) :
    Spares tenant p.database q.database where
  definitions := by
    refine (h.definitions hsound.definitions).spares ?_ ?_
    · rintro row ⟨hnone, -⟩
      cases hnone
    · rintro row ⟨_, ⟨⟩, hvisible⟩
      exact hvisible
  executions := by
    refine (h.executions hsound).spares ?_ ?_
    · rintro row ⟨_, ⟨⟩, howned, -⟩
      exact howned
    · rintro row ⟨_, ⟨⟩, howned⟩ other hother
      exact Option.some.inj (hother.symm.trans howned)
  snapshots := by
    refine h.snapshots.spares (fun row hown => hown.symm) fun row hown other hother => ?_
    exact Option.some.inj (hother.symm.trans hown.symm)
  customReports := by
    refine (h.customReports hsound).spares (fun row hnew => hnew.1.symm) ?_
    exact fun row hown other hother => Option.some.inj (hother.symm.trans hown.symm)
  schedules := by
    refine (h.schedules hsound).spares (fun row hnew => hnew.1.symm) fun row hown other hother => ?_
    exact Option.some.inj (hother.symm.trans hown.symm)

theorem spares_of_steps (h : ReflTransGen (Step request past (some tenant)) p q)
    (hsound : Sound p.database) : Sound q.database ∧ Spares tenant p.database q.database := by
  induction h with
  | refl => exact ⟨hsound, .refl _ _⟩
  | tail _ hstep ih =>
      obtain ⟨hmid, hspares⟩ := ih
      exact ⟨hstep.sound hmid, hspares.trans (hstep.spares hmid)⟩

theorem Shows.sentTo {db : Database} {answer : Answer} (h : Shows db tenant answer)
    (method : String) : Shows db tenant (answer.sentTo method) := by
  unfold Answer.sentTo
  split
  · exact ⟨.null, .nothing, rfl⟩
  · exact h

theorem serve_shows {endpoint : Endpoint} {argument : String} {answer : Answer}
    (hdispatch : dispatch request = act request argument endpoint)
    (hserves : Serves request past tenant p (act request argument endpoint))
    (h : ((serve request).run p).1 = .ok answer) :
    Shows ((serve request).run p).2.database tenant answer ∨ IsRefusal request answer := by
  rw [run_serve, hdispatch] at h ⊢
  dsimp only at h ⊢
  have hanswers := hserves.answers
  cases houtcome : ((act request argument endpoint).run p).1 with
  | ok given =>
      rw [houtcome] at h
      cases h
      obtain ⟨v, hserved, hbody⟩ := hanswers given houtcome
      exact .inl (Shows.sentTo ⟨v, hserved.shown, hbody⟩ request.method)
  | error fault =>
      rw [houtcome] at h
      cases fault with
      | refused refusal =>
          cases h
          exact .inr ⟨refusal, rfl⟩
      | _ => cases h

end Api

namespace Exchange

variable {e : Exchange} {tenant : Uuid}

/-- Whether the request goes to an endpoint that acts for the tenant whom the request names. -/
def IsFor (e : Exchange) (tenant : Uuid) : Prop :=
  (∃ endpoint argument, Route.targetOf e.request.method e.request.path =
    .endpoint endpoint argument ∧ endpoint.isForTenant = true) ∧
  e.request.tenant = .valid tenant

theorem IsFor.dispatch (h : e.IsFor tenant) :
    ∃ endpoint argument,
      Route.targetOf e.request.method e.request.path = .endpoint endpoint argument ∧
      endpoint.isForTenant = true ∧
      Api.dispatch e.request = Api.act e.request argument endpoint := by
  obtain ⟨⟨endpoint, argument, htarget, hfor⟩, -⟩ := h
  refine ⟨endpoint, argument, htarget, hfor, ?_⟩
  unfold Api.dispatch
  rw [htarget]

/-- Nothing is changed for a tenant that is unknown or not ready. -/
theorem IsFor.stopped (h : e.IsFor tenant)
    (hnone : ∀ schemaName, ¬ e.met.database.HasReady tenant schemaName) : e.left = e.met := by
  obtain ⟨endpoint, argument, -, hfor, hdispatch⟩ := h.dispatch
  have hnotReady : Api.NotReady e.request e.met := by
    intro named schemaName hnamed
    rw [Api.tenant_eq h.2 hnamed]
    exact hnone schemaName
  have hstops := (Api.act_stops hfor hnotReady argument).steps
  unfold left
  rw [Api.run_serve, hdispatch]
  rcases hstops.cases_head with hsame | ⟨_, hstep, -⟩
  · exact hsame.symm
  · exact hstep.elim

end Exchange

namespace History

variable {settings : Settings} {exchanges : List Exchange} {e : Exchange} {tenant : Uuid}

/-- A request for a tenant spares all other tenants and shows rows of this tenant alone, or
definitions for all; for a tenant that is unknown or not ready nothing is changed. -/
theorem tenant_isolated (h : History settings exchanges e.met.database) (hfor : e.IsFor tenant) :
    Api.Spares tenant e.met.database e.left.database ∧
    (∀ answer, e.answer = .ok answer →
      Api.Shows e.left.database tenant answer ∨ Api.IsRefusal e.request answer) ∧
    ((∀ schemaName, ¬ e.met.database.HasReady tenant schemaName) →
      e.left.database = e.met.database) := by
  obtain ⟨endpoint, argument, htarget, hendpoint, hdispatch⟩ := hfor.dispatch
  have hserves := Api.act_serves (p := e.met) htarget hendpoint hfor.2 rfl
  refine ⟨?_, fun answer => Api.serve_shows hdispatch hserves, fun hnone => ?_⟩
  · have hleft : e.left = ((Api.act e.request argument endpoint).run e.met).2 := by
      unfold Exchange.left
      rw [Api.run_serve, hdispatch]
    rw [hleft]
    exact (Api.spares_of_steps hserves.steps h.sound).2
  · rw [hfor.stopped hnone]

/-- A tenant runs a report that another tenant has run before. -/
theorem tenant_isolated_of_run :
    let north := TableName.rowId .tenants 1
    let south := TableName.rowId .tenants 2
    let definition := TableName.rowId .definitions 1
    let requests := [.toProvision "North", .toProvision "South", .toDefine "SELECT 1",
      ApiRequest.toRun north definition]
    let start := Platform.new (.ofMigrations "migrations") ⟨⟨2024, 5, 1⟩, ⟨9, 0, 0, 0⟩, .offset 0⟩
    let e : Exchange := ⟨.toRun south definition, start.afterAll requests⟩
    e.met.database.executions.map (·.tenant) = [some north] ∧
      e.left.database.executions.map (·.tenant) = [some north, some south] ∧
      e.IsFor south ∧ Api.Spares south e.met.database e.left.database := by
  intro north south definition requests start e
  have h : History start.settings ([] ++ Exchange.inTurn start requests) e.met.database :=
    History.inTurn .start rfl requests
  have htarget : Route.targetOf e.request.method e.request.path =
      .endpoint .runDefinition definition.toText := by decide +kernel
  have hread : (match e.request.tenant with
      | .valid named => named == south
      | .invalid _ => false) = true := by decide +kernel
  have hfor : e.IsFor south := by
    refine ⟨⟨_, _, htarget, rfl⟩, ?_⟩
    split at hread
    · next named hnamed => rw [hnamed, eq_of_beq hread]
    · cases hread
  have hspares := (tenant_isolated (e := e) h hfor).1
  exact ⟨by decide +kernel, by decide +kernel, hfor, hspares⟩

end History

end TenantReports
