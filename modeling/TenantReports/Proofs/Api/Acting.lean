import TenantReports.Proofs.Api.History
import TenantReports.Proofs.Platform.Session

/-!
When a request reaches the work of its endpoint, and what it leaves. Requests that are served in
the schema of their tenant end as their work ends, unless the connection cannot be led into the
schema or back.
-/

namespace TenantReports

open Action (Reads)

variable {α β : Type} {p : Platform} {request : ApiRequest}

namespace Action

variable {σ : Type} {s : σ}

theorem run_bind_of_ok {action : Action σ α} {next : α → Action σ β} {a : α} {s' : σ}
    (h : action.run s = (.ok a, s')) : (action >>= next).run s = (next a).run s' := by
  rw [run_bind, h]

theorem run_bind_of_error {action : Action σ α} {next : α → Action σ β} {fault : Fault} {s' : σ}
    (h : action.run s = (.error fault, s')) : (action >>= next).run s = (.error fault, s') := by
  rw [run_bind, h]

/-- Both parts of work that returns return. -/
theorem run_bind_eq_ok {action : Action σ α} {next : α → Action σ β} {b : β} {s'' : σ} :
    (action >>= next).run s = (.ok b, s'') ↔
      ∃ a s', action.run s = (.ok a, s') ∧ (next a).run s' = (.ok b, s'') := by
  rcases hrun : action.run s with ⟨fault | a, s'⟩
  · rw [run_bind_of_error hrun]
    constructor
    · intro h
      cases h
    · rintro ⟨a, _, ha, -⟩
      cases ha
  · rw [run_bind_of_ok hrun]
    constructor
    · exact fun h => ⟨a, s', rfl, h⟩
    · rintro ⟨_, _, ⟨⟩, h⟩
      exact h

/-- What follows without a change of its own leaves what was left to it. -/
theorem left_bind {action : Action σ α} {next : α → Action σ β} (h : ∀ a, Reads (next a))
    (s : σ) : ((action >>= next).run s).2 = (action.run s).2 := by
  rw [run_bind]
  rcases action.run s with ⟨outcome, s'⟩
  cases outcome with
  | error fault => rfl
  | ok a => exact h a s'

end Action

namespace Guard

theorem left_refusing (refusal? : Fault → Option Refusal) (action : Work α) (p : Platform) :
    ((refusing refusal? action).run p).2 = (action.run p).2 := by
  unfold refusing
  rw [Action.run_bind_of_ok (Action.run_attempt action p)]
  cases (action.run p).1 with
  | ok a => rfl
  | error fault => rfl

theorem run_refusing_of_ok {refusal? : Fault → Option Refusal} {action : Work α} {a : α}
    {q : Platform} (h : action.run p = (.ok a, q)) :
    (refusing refusal? action).run p = (.ok a, q) := by
  unfold refusing
  rw [Action.run_bind_of_ok (Action.run_attempt action p), h]
  rfl

theorem run_refusing_of_error {refusal? : Fault → Option Refusal} {action : Work α}
    {fault : Fault} {q : Platform} (h : action.run p = (.error fault, q)) :
    (refusing refusal? action).run p = (.error ((refusal? fault).elim fault .refused), q) := by
  unfold refusing
  rw [Action.run_bind_of_ok (Action.run_attempt action p), h]
  rfl

/-- A request that names a tenant which is ready. -/
structure ActsFor (request : ApiRequest) (p : Platform) (context : TenantContext) : Prop where
  named : request.tenant = .valid context.tenant
  ready : (Directory.resolveSchema context.tenant).run p = (.ok context.schemaName, p)

theorem ActsFor.hasReady {context : TenantContext} (h : ActsFor request p context) :
    p.database.HasReady context.tenant context.schemaName ∧
      Sql.isIdentifier context.schemaName = true :=
  ((Directory.resolveSchema_meets (S := fun _ _ => True) context.tenant).answers
    context.schemaName (congrArg Prod.fst h.ready)).2

theorem ActsFor.unique {context other : TenantContext} (h : ActsFor request p context)
    (h' : ActsFor request p other) : context = other := by
  obtain ⟨tenant, schemaName⟩ := context
  obtain ⟨tenant', schemaName'⟩ := other
  cases h.named.symm.trans h'.named
  cases h.ready.symm.trans h'.ready
  rfl

theorem run_tenantOf {context : TenantContext} (h : ActsFor request p context) :
    (tenantOf request).run p = (.ok (.valid context), p) := by
  unfold tenantOf
  rw [h.named]
  dsimp only
  rw [Action.run_bind_of_ok (run_refusing_of_ok h.ready)]
  rfl

theorem reads_tenantOf (request : ApiRequest) : Reads (tenantOf request) := by
  unfold tenantOf
  split
  · exact .answer _
  · next id _ =>
      have hschema : Reads (refusing tenantRefusal? (Directory.resolveSchema id)) := fun p =>
        (left_refusing _ _ p).trans (Directory.reads_resolveSchema id p)
      exact hschema.bind fun _ => .answer _

theorem actsFor_of_tenantOf {context : TenantContext}
    (h : (tenantOf request).run p = (.ok (.valid context), p)) : ActsFor request p context := by
  unfold tenantOf at h
  cases hnamed : request.tenant with
  | invalid issues =>
      rw [hnamed] at h
      cases h
  | valid id =>
      rw [hnamed] at h
      dsimp only at h
      rcases (Directory.reads_resolveSchema id).cases p with
        ⟨fault, hschema⟩ | ⟨schemaName, hschema⟩
      · unfold refusing at h
        rw [Action.run_bind, Action.run_bind_of_ok (Action.run_attempt _ _), hschema] at h
        cases h
      · rw [Action.run_bind_of_ok (run_refusing_of_ok hschema)] at h
        cases h
        exact ⟨hnamed, hschema⟩

section Serving

variable {guard : Work Unit} {given : Validated α}

theorem run_requireStore :
    requireStore.run p = (.ok (), p) ↔ p.store.isSome = true := by
  have hrun : requireStore.run p =
      ((if p.store.isNone then refuse .noStorage else pure () : Work Unit)).run p := rfl
  rw [hrun]
  cases p.store with
  | none => exact ⟨fun h => (nomatch h), fun h => (nomatch h)⟩
  | some store => exact ⟨fun _ => rfl, fun _ => rfl⟩

theorem run_requireReadable {a : α} (h : given = .valid a) (p : Platform) :
    (requireReadable given).run p = (.ok a, p) := by
  rw [h]
  rfl

theorem run_serve {act : α → Work Answer} {a : α} (passed : guard.run p = (.ok (), p))
    (read : given = .valid a) : (serve guard given act).run p = (act a).run p := by
  unfold serve
  rw [Action.run_bind_of_ok passed, Action.run_bind_of_ok (run_requireReadable read p)]

/-- A request for no tenant leaves everything as it was, or it reaches its work. -/
theorem serve_cases (hguard : Reads guard) (act : α → Work Answer) :
    ((serve guard given act).run p).2 = p ∨
      ∃ a, guard.run p = (.ok (), p) ∧ given = .valid a := by
  rcases hguard.cases p with ⟨fault, hrun⟩ | ⟨⟨⟩, hrun⟩
  · unfold serve
    rw [Action.run_bind_of_error hrun]
    exact .inl rfl
  · cases given with
    | valid a => exact .inr ⟨a, hrun, rfl⟩
    | invalid issues =>
        unfold serve
        rw [Action.run_bind_of_ok hrun]
        exact .inl rfl

theorem run_serveTenant {act : TenantContext → α → Work Answer} {context : TenantContext} {a : α}
    (acts : ActsFor request p context) (passed : guard.run p = (.ok (), p))
    (read : given = .valid a) :
    (serveTenant request guard given act).run p = (act context a).run p := by
  unfold serveTenant
  rw [Action.run_bind_of_ok (run_tenantOf acts), Action.run_bind_of_ok passed,
    Action.run_bind_of_ok (run_requireReadable (valid_pair rfl read) p)]

/-- A request for a tenant leaves everything as it was, or it reaches its work. -/
theorem serveTenant_cases (hguard : Reads guard) (act : TenantContext → α → Work Answer) :
    ((serveTenant request guard given act).run p).2 = p ∨
      ∃ context a, ActsFor request p context ∧ guard.run p = (.ok (), p) ∧ given = .valid a := by
  unfold serveTenant
  rcases (reads_tenantOf request).cases p with ⟨fault, hrun⟩ | ⟨named, hrun⟩
  · rw [Action.run_bind_of_error hrun]
    exact .inl rfl
  · rw [Action.run_bind_of_ok hrun]
    refine (serve_cases hguard fun parts : TenantContext × α => act parts.1 parts.2).imp_right ?_
    rintro ⟨⟨context, a⟩, hpassed, hparts⟩
    obtain ⟨rfl, hgiven⟩ := valid_of_pair hparts
    exact ⟨context, a, actsFor_of_tenantOf hrun, hpassed, hgiven⟩

/-- A request that is let into the schema of its tenant. -/
structure Enters (request : ApiRequest) (p : Platform) (context : TenantContext) : Prop
    extends ActsFor request p context where
  path : ¬ p.connection.borrow.PathFails (Action.tenantPath context.schemaName)

theorem left_inSchema (context : TenantContext) (action : Work Answer) (p : Platform) :
    ((inSchema context action).run p).2 =
      ((Action.inSession (.text context.schemaName) action).run p).2 := by
  unfold inSchema
  refine Action.left_bind (fun outcome => ?_) p
  split
  · exact .answer _
  · exact .fail _
  · exact .fail _
  · exact .fail _

/-- Work in a schema that was entered leaves the tables that it leaves itself. -/
theorem Enters.sameTables_inSchema {context : TenantContext} (h : Enters request p context)
    (action : Work Answer) :
    (action.run (Action.entered context.schemaName p)).2.SameTables
      ((inSchema context action).run p).2 := by
  obtain ⟨q, hrun, hleft, -⟩ :=
    Action.run_inSession_of_not_fails h.hasReady.2 h.path action
  rw [left_inSchema, hrun]
  exact hleft

theorem Enters.sameTables {act : TenantContext → α → Work Answer} {context : TenantContext} {a : α}
    (h : Enters request p context)
    (passed : guard.run (Action.entered context.schemaName p) =
      (.ok (), Action.entered context.schemaName p))
    (read : given = .valid a) :
    ((act context a).run (Action.entered context.schemaName p)).2.SameTables
      ((serveInSchema request guard given act).run p).2 := by
  have hsame := h.sameTables_inSchema (serve guard given (act context))
  rw [run_serve passed read] at hsame
  unfold serveInSchema
  rw [Action.run_bind_of_ok (run_tenantOf h.toActsFor)]
  exact hsame

/-- A request in the schema of a tenant leaves the tables as they were, or it reaches its work. -/
theorem serveInSchema_cases (hguard : Reads guard) (act : TenantContext → α → Work Answer) :
    p.SameTables ((serveInSchema request guard given act).run p).2 ∨
      ∃ context a, Enters request p context ∧
        guard.run (Action.entered context.schemaName p) =
          (.ok (), Action.entered context.schemaName p) ∧ given = .valid a := by
  unfold serveInSchema
  rcases (reads_tenantOf request).cases p with ⟨fault, hrun⟩ | ⟨named, hrun⟩
  · rw [Action.run_bind_of_error hrun]
    exact .inl (.refl p)
  rw [Action.run_bind_of_ok hrun]
  cases named with
  | invalid issues =>
      have hleft : ((do guard; refuse (.unreadable (issues ++ given.issues)) :
          Work Answer).run p).2 = p :=
        (Action.left_bind (fun _ => .fail _) p).trans (hguard p)
      dsimp only
      rw [hleft]
      exact .inl (.refl p)
  | valid context =>
      have hacts := actsFor_of_tenantOf hrun
      dsimp only
      by_cases hfails : p.connection.borrow.PathFails (Action.tenantPath context.schemaName)
      · obtain ⟨q, hrun, hsame, -⟩ := Action.run_inSession_of_fails hacts.hasReady.2 hfails
          (serve guard given (act context))
        refine .inl ?_
        change p.SameTables ((inSchema context (serve guard given (act context))).run p).2
        rw [left_inSchema, hrun]
        exact hsame
      · have henters : Enters request p context := ⟨hacts, hfails⟩
        rcases serve_cases hguard (act context) with hnone | ⟨a, hpassed, hgiven⟩
        · have hsame := henters.sameTables_inSchema (serve guard given (act context))
          rw [hnone] at hsame
          exact .inl ((Action.sameTables_entered _ p).trans hsame)
        · exact .inr ⟨context, a, henters, hpassed, hgiven⟩

end Serving

end Guard

namespace Exchange

variable {e : Exchange} {endpoint : Endpoint} {argument : String}

theorem run_of_target
    (h : Route.targetOf e.request.method e.request.path = .endpoint endpoint argument) :
    (Api.serve e.request).run e.met =
      (Api.answered e.request ((Api.act e.request argument endpoint).run e.met).1,
        ((Api.act e.request argument endpoint).run e.met).2) := by
  rw [Api.run_serve]
  unfold Api.dispatch
  rw [h]

theorem left_of_target
    (h : Route.targetOf e.request.method e.request.path = .endpoint endpoint argument) :
    e.left = ((Api.act e.request argument endpoint).run e.met).2 := by
  unfold left
  rw [run_of_target h]

theorem answer_of_target
    (h : Route.targetOf e.request.method e.request.path = .endpoint endpoint argument) :
    e.answer = Api.answered e.request ((Api.act e.request argument endpoint).run e.met).1 := by
  unfold answer
  rw [run_of_target h]

end Exchange

/-! How requests end -/

namespace Guard

variable {α : Type} {p : Platform} {request : ApiRequest} {context : TenantContext}

/-- How a session in the schema of a tenant is told. -/
def sessionTold {β : Type} : Except Fault β → Except Fault β
  | .error (.searchPath .set _) => .error (.refused .noConnection)
  | .error (.searchPath .reset _) => .error .lateFailure
  | outcome => outcome

theorem outcome_inSchema (context : TenantContext) (action : Work Answer) (p : Platform) :
    ((inSchema context action).run p).1 =
      sessionTold ((Action.inSession (.text context.schemaName) action).run p).1 := by
  unfold inSchema
  rw [Action.run_bind_of_ok (Action.run_attempt _ p)]
  cases ((Action.inSession (.text context.schemaName) action).run p).1 with
  | ok answer => rfl
  | error fault =>
      cases fault with
      | searchPath change schema => cases change <;> rfl
      | _ => rfl

theorem outcome_inSchema_of_fails (acts : ActsFor request p context)
    (fails : p.connection.borrow.PathFails (Action.tenantPath context.schemaName))
    (action : Work Answer) :
    ((inSchema context action).run p).1 = .error (.refused .noConnection) := by
  obtain ⟨q, hrun, -⟩ := Action.run_inSession_of_fails acts.hasReady.2 fails action
  rw [outcome_inSchema, hrun]
  rfl

theorem Enters.outcome_inSchema (h : Enters request p context) (action : Work Answer) :
    ((inSchema context action).run p).1 = sessionTold (Action.told context.schemaName
      (action.run (Action.entered context.schemaName p)).2.connection.clear
      (action.run (Action.entered context.schemaName p)).1) := by
  obtain ⟨q, hrun, -⟩ := Action.run_inSession_of_not_fails h.hasReady.2 h.path action
  rw [Guard.outcome_inSchema, hrun]

section Serving

variable {guard : Work Unit} {given : Validated α} {act : TenantContext → α → Work Answer} {a : α}

theorem run_serveInSchema (acts : ActsFor request p context) :
    (serveInSchema request guard given act).run p =
      (inSchema context (serve guard given (act context))).run p := by
  unfold serveInSchema
  rw [Action.run_bind_of_ok (run_tenantOf acts)]
  rfl

/-- Work that fails makes its request fail, in the same way unless the search path is at fault. -/
theorem Enters.outcome_of_error (h : Enters request p context)
    (passed : guard.run (Action.entered context.schemaName p) =
      (.ok (), Action.entered context.schemaName p))
    (read : given = .valid a) {fault : Fault}
    (failed : ((act context a).run (Action.entered context.schemaName p)).1 = .error fault) :
    ((serveInSchema request guard given act).run p).1 = sessionTold (.error fault) := by
  rw [run_serveInSchema h.toActsFor, h.outcome_inSchema, run_serve passed read, failed]
  rfl

/-- Work that succeeds answers its request, unless the connection cannot be led back. -/
theorem Enters.outcome_of_ok (h : Enters request p context)
    (passed : guard.run (Action.entered context.schemaName p) =
      (.ok (), Action.entered context.schemaName p))
    (read : given = .valid a) {answer : Answer}
    (succeeded : ((act context a).run (Action.entered context.schemaName p)).1 = .ok answer) :
    ((serveInSchema request guard given act).run p).1 = .ok answer ∨
    ((serveInSchema request guard given act).run p).1 = .error .lateFailure ∧
      ((act context a).run (Action.entered context.schemaName p)).2.connection.ResetFails := by
  rw [run_serveInSchema h.toActsFor, h.outcome_inSchema, run_serve passed read, succeeded]
  generalize ((act context a).run (Action.entered context.schemaName p)).2.connection = c
  by_cases hreset : c.clear.ResetFails
  · rw [Action.told_of_resetFails _ hreset]
    exact .inr ⟨rfl, (Connection.clear_resetFails c).mp hreset⟩
  · rw [Action.told_of_not_resetFails _ hreset]
    exact .inl rfl

end Serving

end Guard

end TenantReports
