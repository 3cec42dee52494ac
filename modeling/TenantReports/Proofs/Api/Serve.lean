import TenantReports.Proofs.Api.Endpoints
import TenantReports.Proofs.Schedule.Steps

/-!
Requests as chains of steps: those of an endpoint that acts for a tenant are steps for that tenant,
and a tenant that is not ready stops them all.
-/

namespace TenantReports

open Action (Meets IsAside Reads)
open Relation (ReflTransGen)

/-- Whether requests to an endpoint name the tenant that they are for. -/
def Endpoint.isForTenant : Endpoint → Bool
  | listDefinitions | getDefinition | deactivateDefinition | runDefinition | showTrend
  | compareWithHistory | listExecutions | getExecution | createCustomReport | previewCustomReport
  | listCustomReports | getCustomReport | updateCustomReport | deleteCustomReport | runCustomReport
  | createSchedule | listSchedules | updateSchedule | deleteSchedule => true
  | _ => false

namespace Api

open Guard

variable {request : ApiRequest} {past : Database} {tenant : Uuid} {p : Platform}

theorem act_serves {endpoint : Endpoint} {argument : String}
    (htarget : Route.targetOf request.method request.path = .endpoint endpoint argument)
    (hfor : endpoint.isForTenant = true) (h : request.tenant = .valid tenant)
    (first : p.database = past) :
    Serves request past tenant p (act request argument endpoint) := by
  have asked : request.Asks endpoint := ⟨argument, htarget⟩
  cases endpoint with
  | listDefinitions => exact listDefinitions_serves h
  | getDefinition => exact getDefinition_serves h argument
  | deactivateDefinition => exact deactivateDefinition_serves h argument
  | runDefinition => exact runDefinition_serves h asked first argument
  | showTrend => exact showTrend_serves h asked argument
  | compareWithHistory => exact compareWithHistory_serves h first argument
  | listExecutions => exact listExecutions_serves h
  | getExecution => exact getExecution_serves h argument
  | createCustomReport => exact createCustomReport_serves h asked
  | previewCustomReport => exact previewCustomReport_serves
  | listCustomReports => exact listCustomReports_serves h
  | getCustomReport => exact getCustomReport_serves h argument
  | updateCustomReport => exact updateCustomReport_serves h asked argument
  | deleteCustomReport => exact deleteCustomReport_serves h asked first argument
  | runCustomReport => exact runCustomReport_serves h first argument
  | createSchedule => exact createSchedule_serves h asked
  | listSchedules => exact listSchedules_serves h
  | updateSchedule => exact updateSchedule_serves h htarget
  | deleteSchedule => exact deleteSchedule_serves h asked argument
  | _ => cases hfor

/-! Tenants that are not ready -/

/-- No tenant that the request names is ready. -/
def NotReady (request : ApiRequest) (p : Platform) : Prop :=
  ∀ tenant schemaName, request.tenant = .valid tenant → ¬ p.database.HasReady tenant schemaName

/-- An action that does nothing and has no answer. -/
abbrev Stops {α : Type} (action : Work α) (p : Platform) : Prop :=
  Meets (fun _ _ => False) action p fun _ _ => False

theorem serveTenant_stops {α : Type} {guard : Work Unit} {given : Validated α}
    {act : TenantContext → α → Work Answer} (h : NotReady request p) (hguard : Reads guard) :
    Stops (serveTenant request guard given act) p :=
  serveTenant_meets hguard fun context _ hnamed hready _ =>
    absurd hready (h context.tenant context.schemaName hnamed)

theorem serveInSchema_stops {α : Type} {guard : Work Unit} {given : Validated α}
    {act : TenantContext → α → Work Answer} (h : NotReady request p) (hguard : Reads guard) :
    Stops (serveInSchema request guard given act) p := by
  unfold serveInSchema
  refine tenantOf_meets.bind ?_
  rintro named q - ⟨rfl, hnamed⟩
  cases named with
  | valid context =>
      obtain ⟨htenant, hready⟩ := hnamed context rfl
      exact absurd hready (h context.tenant context.schemaName htenant)
  | invalid issues =>
      refine (hguard.meets q).bind ?_
      rintro _ _ - ⟨rfl, -⟩
      exact .fail

theorem act_stops {endpoint : Endpoint} (hfor : endpoint.isForTenant = true)
    (h : NotReady request p) (argument : String) : Stops (act request argument endpoint) p := by
  cases endpoint with
  | listDefinitions =>
      unfold act listDefinitions
      exact serveTenant_stops h reads_noGuard
  | getDefinition =>
      unfold act getDefinition
      exact serveTenant_stops h reads_noGuard
  | listExecutions =>
      unfold act listExecutions
      exact serveTenant_stops h reads_noGuard
  | getExecution =>
      unfold act getExecution
      exact serveTenant_stops h reads_noGuard
  | createSchedule =>
      unfold act createSchedule
      exact serveTenant_stops h reads_noGuard
  | listSchedules =>
      unfold act listSchedules
      exact serveTenant_stops h reads_noGuard
  | updateSchedule =>
      unfold act updateSchedule
      exact serveTenant_stops h reads_noGuard
  | deleteSchedule =>
      unfold act deleteSchedule
      exact serveTenant_stops h reads_noGuard
  | deactivateDefinition =>
      unfold act deactivateDefinition
      exact serveTenant_stops h reads_requireManager
  | showTrend =>
      unfold act showTrend
      exact .read (a := p.settings) rfl (serveTenant_stops h reads_noGuard)
  | runDefinition =>
      unfold act runDefinition
      exact serveInSchema_stops h reads_requireStore
  | compareWithHistory =>
      unfold act compareWithHistory
      exact serveInSchema_stops h reads_noGuard
  | createCustomReport =>
      unfold act createCustomReport
      exact serveInSchema_stops h reads_noGuard
  | previewCustomReport =>
      unfold act previewCustomReport
      exact serveInSchema_stops h reads_noGuard
  | listCustomReports =>
      unfold act listCustomReports
      exact serveInSchema_stops h reads_noGuard
  | getCustomReport =>
      unfold act getCustomReport
      exact serveInSchema_stops h reads_noGuard
  | updateCustomReport =>
      unfold act updateCustomReport
      exact serveInSchema_stops h reads_noGuard
  | deleteCustomReport =>
      unfold act deleteCustomReport
      exact serveInSchema_stops h reads_noGuard
  | runCustomReport =>
      unfold act runCustomReport
      exact serveInSchema_stops h reads_noGuard
  | _ => cases hfor

/-! All requests -/

/-- What the answer to a request for no tenant is made of, which is nothing that a run gave. -/
inductive Plain : Value → Prop
  | tenant (row : Tenant) : Plain (shownTenant row)
  | definition (row : Definition) : Plain (shownDefinition row)
  | batch (outcomes : List RunOutcome) :
      Plain (.record ((Batch.summary outcomes).fields ++
        [("results", .list (outcomes.map shownOutcome))]))
  | texts (fields : List (String × String)) :
      Plain (.record (fields.map fun field => (field.1, .text field.2)))
  | list {values : List Value} (h : ∀ v ∈ values, Plain v) : Plain (.list values)
  | nothing : Plain .null

/-- What the answer to a request is made of that met the tables `past` and left `db`. -/
def Answers (request : ApiRequest) (past db : Database) (answer : Answer) : Prop :=
  ∃ v, (Plain v ∨ ∃ tenant, request.tenant = .valid tenant ∧ Served request past db tenant v) ∧
    answer.body = Answer.bodyOf v

section Answers

variable {db : Database} {v : Value}

theorem answers_ok (h : Plain v) : Answers request past db (.ok v) := ⟨v, .inl h, rfl⟩

theorem answers_created (h : Plain v) : Answers request past db (.created v) := ⟨v, .inl h, rfl⟩

theorem answers_texts (fields : List (String × String)) :
    Answers request past db (textAnswer fields) := answers_ok (.texts fields)

theorem Answers.sentTo {answer : Answer} (h : Answers request past db answer) (method : String) :
    Answers request past db (answer.sentTo method) := by
  unfold Answer.sentTo
  split
  · exact ⟨.null, .inl .nothing, rfl⟩
  · exact h

end Answers

/-- What an endpoint does and answers. -/
abbrev Acts (request : ApiRequest) (past : Database) (p : Platform) (endpoint : Work Answer) :
    Prop :=
  Meets (AnyStep request past) endpoint p fun answer q => Answers request past q.database answer

theorem AnyStep.aside (p q : Platform) (h : p.SameTables q) : AnyStep request past p q :=
  ⟨none, .aside h⟩

theorem serve_meets {α : Type} {S : Platform → Platform → Prop} {guard : Work Unit}
    {given : Validated α} {act : α → Work Answer} {Q : Answer → Platform → Prop}
    (hguard : Reads guard)
    (h : ∀ a, guard.run p = (.ok (), p) → given = .valid a → Meets S (act a) p Q) :
    Meets S (Guard.serve guard given act) p Q := by
  unfold Guard.serve
  refine (hguard.meets p).bind ?_
  rintro ⟨⟩ q - ⟨rfl, hpassed⟩
  refine (requireReadable_meets given).bind ?_
  rintro a r - ⟨rfl, hgiven⟩
  exact h a hpassed hgiven

theorem createDefinition_acts : Acts request past p (createDefinition request) := by
  refine serve_meets reads_requireManager ?_
  rintro ⟨user, draft⟩ hpassed hgiven
  have hmanager := (requireManager_meets (S := AnyStep request past)).answers ()
    (congrArg Prod.fst hpassed)
  have hcreate : Meets (AnyStep request past) (Definitions.create draft user) p fun _ _ => True :=
    (Definitions.create_meets user hmanager.2 (valid_of_pair hgiven).2).mono
      fun _ _ hstep => ⟨none, hstep⟩
  exact (refusing_meets hcreate).bind fun row _ _ _ => .answer (answers_created (.definition row))

theorem provisionTenant_acts (asked : request.Asks .provisionTenant) :
    Acts request past p (provisionTenant request) := by
  refine serve_meets reads_noGuard fun draft _ hgiven => ?_
  have hbySchema : ∀ schema, Reads (Directory.bySchema? schema) := fun schema =>
    (Reads.ofResult _).bind fun _ _ => rfl
  refine ((hbySchema _).meets p).bind ?_
  rintro found q - ⟨rfl, -⟩
  have hprovision : Meets (AnyStep request past) (Directory.provision draft.name
      (some (Directory.schemaNameFor draft.name draft.schemaName)) draft.domain) q
      fun _ _ => True :=
    (Directory.provision_meets asked hgiven).mono fun _ _ hstep => ⟨none, hstep⟩
  split
  · exact Meets.fail.bind (P := fun _ _ => False) fun _ _ _ h => h.elim
  · exact (refusing_meets hprovision).bind fun row _ _ _ => .answer (answers_created (.tenant row))

theorem listTenants_acts : Acts request past p (listTenants request) := by
  refine serve_meets reads_noGuard fun status _ _ =>
    .read rfl (.answer (answers_ok (.list fun v hv => ?_)))
  obtain ⟨row, -, rfl⟩ := List.mem_map.mp hv
  exact .tenant row

theorem cacheHealth_acts : Acts request past p cacheHealth := by
  unfold cacheHealth
  refine .read (a := p) rfl ?_
  split
  · exact .answer (answers_texts _)
  · exact .answer (answers_texts _)
  · exact .answer (answers_texts _)

theorem getTenant_acts (argument : String) : Acts request past p (getTenant argument) := by
  refine serve_meets reads_noGuard fun id _ _ => .read (a := p.database.tenant? id) rfl ?_
  split
  · next row _ => exact .answer (answers_ok (.tenant row))
  · exact .fail

theorem databaseHealth_acts : Acts request past p databaseHealth := by
  have hpath : IsAside pooledPath :=
    ((IsAside.inspect _).bind fun _ => IsAside.connection.bind fun c => .answer _).unscoped
  refine (hpath.meets AnyStep.aside p).attemptUncancelled.bind fun outcome q _ _ => ?_
  split
  · exact .answer (answers_texts _)
  · exact .answer (answers_texts _)

theorem processSchedules_acts (asked : request.Asks .processSchedules)
    (first : p.database = past) : Acts request past p (processSchedules request) := by
  refine serve_meets reads_requireStore fun limit _ _ => ?_
  have hbatch : Meets (Batch.BatchStep request past) (Batch.processDue limit) p fun _ _ => True :=
    Batch.processDue_meets asked (.of_eq first) limit
  have hsteps : Meets (AnyStep request past) (Batch.processDue limit) p fun _ _ => True := by
    refine hbatch.mono ?_
    rintro _ _ ⟨tenant, hstep⟩
    exact ⟨some tenant, hstep.1⟩
  exact hsteps.bind fun outcomes _ _ _ => .answer (answers_ok (.batch outcomes))

theorem act_acts {endpoint : Endpoint} {argument : String}
    (htarget : Route.targetOf request.method request.path = .endpoint endpoint argument)
    (first : p.database = past) : Acts request past p (act request argument endpoint) := by
  have asked : request.Asks endpoint := ⟨argument, htarget⟩
  by_cases hfor : endpoint.isForTenant = true
  · cases hnamed : request.tenant with
    | valid tenant =>
        have hserves := act_serves htarget hfor hnamed first
        refine (hserves.mono fun _ _ hstep => ⟨_, hstep⟩).weaken ?_
        rintro answer q - ⟨v, hserved, hbody⟩
        exact ⟨v, .inr ⟨tenant, hnamed, hserved⟩, hbody⟩
    | invalid issues =>
        have hunnamed : NotReady request p := fun _ _ h => nomatch hnamed.symm.trans h
        have hstops := act_stops hfor hunnamed argument
        exact (hstops.mono fun _ _ hstep => hstep.elim).weaken fun _ _ _ h => h.elim
  · cases endpoint with
    | documentation => exact .answer (answers_ok .nothing)
    | welcome => exact .read (a := p) rfl (.answer (answers_texts _))
    | health => exact .answer (answers_texts _)
    | databaseHealth => exact databaseHealth_acts
    | cacheHealth => exact cacheHealth_acts
    | provisionTenant => exact provisionTenant_acts asked
    | listTenants => exact listTenants_acts
    | getTenant => exact getTenant_acts argument
    | createDefinition => exact createDefinition_acts
    | processSchedules => exact processSchedules_acts asked first
    | _ => exact absurd rfl hfor

theorem dispatch_acts (first : p.database = past) : Acts request past p (dispatch request) := by
  unfold dispatch
  split
  · next endpoint argument htarget => exact act_acts htarget first
  · exact .fail
  · exact .answer ⟨.null, .inl .nothing, rfl⟩
  · exact .fail

theorem status_sentTo (answer : Answer) (method : String) :
    (answer.sentTo method).status = answer.status := by
  unfold Answer.sentTo
  split
  · rfl
  · rfl

/-- How the outcome of a request is answered. -/
def answered (request : ApiRequest) : Except Fault Answer → Except Fault Answer
  | .ok answer => .ok (answer.sentTo request.method)
  | .error (.refused refusal) => .ok (refusal.answer.sentTo request.method)
  | .error .cancelled => .error .noAnswer
  | .error fault => .error fault

theorem run_serve (request : ApiRequest) (p : Platform) :
    (serve request).run p =
      (answered request ((dispatch request).run p).1, ((dispatch request).run p).2) := by
  unfold serve
  rw [Action.run_bind, Action.run_attempt]
  dsimp only
  rcases (dispatch request).run p with ⟨outcome, q⟩
  cases outcome with
  | ok answer => rfl
  | error fault => cases fault <;> rfl

/-- Every request is a chain of steps from what it met. -/
theorem serve_steps (request : ApiRequest) (p : Platform) :
    Steps request p.database p ((serve request).run p).2 := by
  rw [run_serve]
  exact (dispatch_acts rfl).steps

/-- A refusal's answer, which shows no row. -/
def IsRefusal (request : ApiRequest) (answer : Answer) : Prop :=
  ∃ refusal : Refusal, answer = refusal.answer.sentTo request.method

/-- Every request is refused, or its answer is made of what an endpoint shows. -/
theorem serve_answers {answer : Answer} (h : ((serve request).run p).1 = .ok answer) :
    IsRefusal request answer ∨
      Answers request p.database ((serve request).run p).2.database answer := by
  have hacts : Acts request p.database p (dispatch request) := dispatch_acts rfl
  have hanswers := hacts.answers
  rw [run_serve] at h ⊢
  dsimp only at h ⊢
  cases houtcome : ((dispatch request).run p).1 with
  | ok given =>
      rw [houtcome] at h
      cases h
      exact .inr ((hanswers given houtcome).sentTo request.method)
  | error fault =>
      rw [houtcome] at h
      cases fault with
      | refused refusal =>
          cases h
          exact .inl ⟨refusal, rfl⟩
      | _ => cases h

end Api

end TenantReports
