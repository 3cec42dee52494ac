import TenantReports.Proofs.Tenant.Catalog

/-!
How the preparation of a schema fails: only as the connection does, and not at all where nothing is
planned to fail.
-/

namespace TenantReports

/-- A fault of work on a connection: something that was sent failed, or the search path could not
be changed. -/
inductive Fault.IsOfConnection : Fault → Prop
  | outside (kind : OutsideKind) (text : String) : IsOfConnection (.outside kind text)
  | searchPath (change : PathChange) (schema : String) : IsOfConnection (.searchPath change schema)

namespace FaultPlan

/-- How work may end where a plan says what fails: with an answer that `Q` holds of, or by a fault of
the connection if the plan has any. -/
def Allows {α : Type} (plan : FaultPlan) (Q : α → Prop) : Except Fault α → Prop
  | .ok a => Q a
  | .error fault => fault.IsOfConnection ∧ plan ≠ none

theorem ne_none_of_failure {plan : FaultPlan} {n : Nat} {sql : String} {failure : Failure}
    (h : plan.failure? n sql = some failure) : plan ≠ none := by
  rintro rfl
  cases h

theorem ne_none_of_commit {plan : FaultPlan} {n : Nat} {failure : Failure}
    (h : plan.commit n = some failure) : plan ≠ none := by
  rintro rfl
  cases h

end FaultPlan

namespace Action

variable {α β : Type} {plan : FaultPlan}

/-- Work that goes by the plan of its connection, and keeps it. -/
def Obeys (plan : FaultPlan) (action : Work α) (Q : α → Prop) : Prop :=
  ∀ p, p.connection.plan = plan →
    (action.run p).2.connection.plan = plan ∧ plan.Allows Q (action.run p).1

namespace Obeys

theorem answer {Q : α → Prop} {a : α} (h : Q a) : Obeys plan (pure a) Q := fun _ hplan => ⟨hplan, h⟩

theorem fail {Q : α → Prop} {fault : Fault} (h : fault.IsOfConnection ∧ plan ≠ .none) :
    Obeys plan (throw fault) Q := fun _ hplan => ⟨hplan, h⟩

theorem bind {P : α → Prop} {Q : β → Prop} {action : Work α} {next : α → Work β}
    (h : Obeys plan action P) (hnext : ∀ a, P a → Obeys plan (next a) Q) :
    Obeys plan (action >>= next) Q := by
  intro p hplan
  obtain ⟨hkept, hends⟩ := h p hplan
  rw [run_bind]
  rcases hrun : action.run p with ⟨outcome, q⟩
  rw [hrun] at hkept hends
  cases outcome with
  | ok a => exact hnext a hends q hkept
  | error fault => exact ⟨hkept, hends⟩

theorem attempt {Q : α → Prop} {action : Work α} (h : Obeys plan action Q) :
    Obeys plan (attempt action) (plan.Allows Q) := h

theorem ofAllowed {Q : α → Prop} {outcome : Except Fault α} (h : plan.Allows Q outcome) :
    Obeys plan (ofResult outcome) Q := by
  intro p hplan
  rw [run_ofResult]
  exact ⟨hplan, h⟩

theorem connection : Obeys plan connection fun _ => True := fun _ hplan => ⟨hplan, trivial⟩

theorem get : Obeys plan (MonadState.get : Work Platform) fun _ => True :=
  fun _ hplan => ⟨hplan, trivial⟩

theorem settle (events : List ConnectionEvent) :
    Obeys plan (modify (Connected.settle events)) fun _ => True := fun _ hplan => ⟨hplan, trivial⟩

theorem updateConnection {f : Connection → Connection} (h : ∀ c, (f c).plan = c.plan) :
    Obeys plan (updateConnection f) fun _ => True :=
  fun p hplan => ⟨(h p.connection).trans hplan, trivial⟩

theorem borrow : Obeys plan (Action.updateConnection Connection.borrow) fun _ => True :=
  updateConnection fun _ => rfl

theorem release : Obeys plan (Action.updateConnection Connection.release) fun _ => True :=
  updateConnection fun _ => rfl

theorem onConnection {f : Connection → Except Fault Unit × Connection}
    (h : ∀ c : Connection, c.plan = plan →
      (f c).2.plan = plan ∧ plan.Allows (fun _ => True) (f c).1) :
    Obeys plan (onConnection f) fun _ => True := by
  intro p hplan
  rw [run_onConnection]
  exact h p.connection hplan

theorem send (event : ConnectionEvent) :
    Obeys plan (Action.onConnection (Connection.send event)) fun _ => True := by
  refine onConnection fun c hplan => ?_
  rcases Connection.send_cases event c with ⟨failure, hfails, heq⟩ | ⟨-, heq⟩
  · rw [heq]
    exact ⟨hplan, .outside _ _, hplan ▸ FaultPlan.ne_none_of_failure hfails⟩
  · rw [heq]
    exact ⟨hplan, trivial⟩

theorem commit : Obeys plan commit fun _ => True := by
  have hcommit : Obeys plan (Action.onConnection Connection.commit) fun _ => True := by
    refine onConnection fun c hplan => ?_
    rcases Connection.commit_cases c with ⟨failure, hfails, heq⟩ | ⟨-, heq⟩
    · rw [heq]
      exact ⟨hplan, .outside _ _, hplan ▸ FaultPlan.ne_none_of_commit hfails⟩
    · rw [heq]
      exact ⟨hplan, trivial⟩
  exact connection.bind fun c _ => hcommit.bind fun _ _ => settle c.pending

theorem executed (sql : String) :
    Obeys plan (do execute sql; Action.commit) fun _ => True :=
  bind (send _) fun _ _ => commit

theorem commitIfActive : Obeys plan commitIfActive fun _ => True := by
  refine connection.bind fun c _ => ?_
  split
  · exact commit
  · exact answer trivial

theorem rollbackIfActive : Obeys plan rollbackIfActive fun _ => True := by
  refine connection.bind fun c _ => ?_
  split
  · exact updateConnection fun _ => rfl
  · exact answer trivial

theorem setPath (schemaName : String) : Obeys plan (setPath schemaName) fun _ => True := by
  refine (executed _).attempt.bind fun outcome hends => ?_
  cases outcome with
  | ok => exact answer trivial
  | error fault => exact fail ⟨.searchPath _ _, hends.2⟩

theorem restore : Obeys plan restore fun isReset => isReset = true ∨ plan ≠ .none := by
  have hreset : Obeys plan resetPath fun _ => True :=
    rollbackIfActive.bind fun _ _ => executed _
  refine hreset.attempt.bind fun outcome hends => ?_
  cases outcome with
  | ok => exact answer (.inl rfl)
  | error fault => exact (updateConnection fun _ => rfl).bind fun _ _ => answer (.inr hends.2)

theorem unscoped {action : Work α} {Q : α → Prop} (h : Obeys plan action Q) :
    Obeys plan (unscoped action) Q := by
  refine borrow.bind fun _ _ => h.attempt.bind fun outcome hends => ?_
  refine rollbackIfActive.bind fun _ _ => release.bind fun _ _ => ?_
  exact ofAllowed hends

theorem scopedTo {action : Work α} {Q : α → Prop} {schemaName : String}
    (hname : Sql.isIdentifier schemaName = true) (h : Obeys plan action Q) :
    Obeys plan (scopedTo (.text schemaName) action) Q := by
  have hwork : Obeys plan (work schemaName action) Q :=
    (setPath schemaName).bind fun _ _ => h.bind fun a ha =>
      commitIfActive.bind fun _ _ => answer ha
  unfold Action.scopedTo
  rw [Sql.identifierOf_text hname]
  refine bind (ofAllowed (Q := (· = schemaName)) rfl) ?_
  rintro _ rfl
  refine borrow.bind fun _ _ => hwork.attempt.bind fun outcome hends => ?_
  refine restore.bind fun isReset hreset => release.bind fun _ _ => ?_
  cases outcome with
  | error fault => exact fail hends
  | ok a =>
      cases isReset with
      | true => exact answer hends
      | false => exact fail ⟨.searchPath _ _, hreset.resolve_left Bool.false_ne_true⟩

theorem migrations (statements : List String) :
    Obeys plan (statements.forM migrate) fun _ => True := by
  induction statements with
  | nil => exact answer trivial
  | cons sql rest ih => exact bind (send _) fun _ _ => ih

end Obeys

end Action

namespace Directory

theorem prepare_obeys {schemaName : String} (hname : Sql.isIdentifier schemaName = true)
    (plan : FaultPlan) : Action.Obeys plan (prepare schemaName) fun _ => True := by
  refine (Action.Obeys.executed _).unscoped.bind fun _ _ => Action.Obeys.get.bind fun p _ => ?_
  refine Action.Obeys.bind (P := fun _ => True) ?_ fun _ _ => .answer trivial
  unfold Migration.apply
  rw [Sql.identifierOf_text hname]
  refine .bind (.ofAllowed (Q := fun _ => True) trivial) fun name _ => ?_
  split
  · exact .answer trivial
  · exact .scopedTo hname ((Action.Obeys.migrations _).bind fun _ _ => .answer trivial)

end Directory

end TenantReports
