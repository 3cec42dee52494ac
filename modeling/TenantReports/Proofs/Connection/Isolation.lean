import TenantReports.Proofs.Connection.Scope

/-!
Runs of work over one pooled connection do not see each other: each finds the search path of its
own schema, and none leaves a search path behind.
-/

namespace TenantReports.ScopedRun

open TenantReports.Action (tenantPath)
open TenantReports.Connection (defaultPath)

def HasSchema (run : ScopedRun) (name : String) : Prop :=
  run.schema = .text name ∧ Sql.isIdentifier name = true

/-- What a run keeps to, from the connection `c` that it gets to what is seen of it. -/
structure Isolated (run : ScopedRun) (c : Connection) (report : RunReport) : Prop where
  /-- The run gets a connection with the default path, or one that the pool would not hand out. -/
  handed : c.searchPath = defaultPath ∨ c.invalidated = true
  /-- Where the connection goes back to the pool, its path is the default one, or this run has
  invalidated it. -/
  returned : ∀ name, run.HasSchema name →
    report.connection.searchPath = defaultPath ∨ .invalidate ∈ report.events
  /-- Work that looks first sees its own schema. -/
  seen : ∀ name next, run.HasSchema name → run.work = .look next →
    report = perform { run with work := next (tenantPath name) false } c
  balanced : ∀ name, run.HasSchema name →
    report.connection.borrowed = c.borrowed + 1 ∧ report.connection.released = c.released + 1
  untouched : (∀ name, ¬ run.HasSchema name) →
    report.events = [] ∧ report.connection = { c with log := [] }

/-- Isolation of each of the runs that share a connection, from the reports on them. -/
inductive AllIsolated : List ScopedRun → Connection → List RunReport → Prop
  | nil (c : Connection) : AllIsolated [] c []
  | cons {run : ScopedRun} {runs : List ScopedRun} {c : Connection} {report : RunReport}
      {reports : List RunReport} (first : Isolated run c report)
      (rest : AllIsolated runs report.connection reports) :
      AllIsolated (run :: runs) c (report :: reports)

theorem perform_eq {run : ScopedRun} {name : String} (h : run.HasSchema name) (c : Connection) :
    run.perform c =
      let worked := (Action.work name run.work.act).run { c with log := [] }.borrow
      ⟨Action.told name worked.2 worked.1, worked.2.giveBack.log, worked.2.giveBack⟩ := by
  unfold perform
  rw [h.1, Action.run_scopedTo h.2]

theorem perform_eq_of_not {run : ScopedRun} (h : ∀ name, ¬ run.HasSchema name) (c : Connection) :
    run.perform c = ⟨.error (.invalidIdentifier run.schema), [], { c with log := [] }⟩ := by
  unfold perform
  rw [Action.run_scopedTo_invalid]
  intro name hschema
  have hname := h name
  simpa [HasSchema, hschema] using hname

theorem perform_seen {run : ScopedRun} {name : String} {next : String → Bool → Routine String}
    (h : run.HasSchema name) (hwork : run.work = .look next) (c : Connection) :
    run.perform c = perform { run with work := next (tenantPath name) false } c := by
  have h' : HasSchema { run with work := next (tenantPath name) false } name := h
  rw [perform_eq h, perform_eq h', hwork, Action.run_work_look]

theorem perform_isolated (run : ScopedRun) (c : Connection)
    (h : c.searchPath = defaultPath ∨ c.invalidated = true) :
    Isolated run c (run.perform c) := by
  by_cases hschema : ∃ name, run.HasSchema name
  · obtain ⟨name, hname⟩ := hschema
    have hends := Action.work_ends name run.work.act { c with log := [] }.borrow
    have hback := Connection.giveBack_givenBack hends.tidy
    have hcont := hends.continues
    obtain ⟨events, hlog, _⟩ := hcont.events
    obtain ⟨rest, hevents, hinvalidate⟩ := hback.events
    refine ⟨h, ?_, fun name next hname hwork => perform_seen hname hwork c, ?_,
      fun hnone => absurd hname (hnone name)⟩
    · intro _ _
      rw [perform_eq hname]
      by_cases hreset : Connection.ResetFails
          ((Action.work name run.work.act).run { c with log := [] }.borrow).2
      · refine Or.inr ?_
        have hmem := hinvalidate.mpr hreset
        simp only [hevents]
        simp [hmem]
      · exact Or.inl (hback.searchPath hreset)
    · intro _ _
      rw [perform_eq hname]
      refine ⟨?_, ?_⟩
      · exact hback.borrowed.trans hcont.borrowed
      · exact hback.released.trans (congrArg (· + 1) hcont.released)
  · have hnone : ∀ name, ¬ run.HasSchema name := fun name hname => hschema ⟨name, hname⟩
    rw [perform_eq_of_not hnone]
    exact ⟨h, fun name hname => absurd hname (hnone name),
      fun name _ hname => absurd hname (hnone name),
      fun name hname => absurd hname (hnone name), fun _ => ⟨rfl, rfl⟩⟩

theorem perform_handed (run : ScopedRun) (c : Connection)
    (h : c.searchPath = defaultPath ∨ c.invalidated = true) :
    (run.perform c).connection.searchPath = defaultPath ∨
      (run.perform c).connection.invalidated = true := by
  by_cases hschema : ∃ name, run.HasSchema name
  · obtain ⟨name, hname⟩ := hschema
    have hends := Action.work_ends name run.work.act { c with log := [] }.borrow
    have hback := Connection.giveBack_givenBack hends.tidy
    rw [perform_eq hname]
    by_cases hreset : Connection.ResetFails
        ((Action.work name run.work.act).run { c with log := [] }.borrow).2
    · exact Or.inr (hback.invalidated.mpr (Or.inr hreset))
    · exact Or.inl (hback.searchPath hreset)
  · rw [perform_eq_of_not fun name hname => hschema ⟨name, hname⟩]
    exact h

theorem performAll_isolated_of_handed (runs : List ScopedRun) (c : Connection)
    (h : c.searchPath = defaultPath ∨ c.invalidated = true) :
    AllIsolated runs c (performAll runs c) := by
  induction runs generalizing c with
  | nil => exact .nil c
  | cons run runs ih => exact .cons (perform_isolated run c h) (ih _ (perform_handed run c h))

/-- Runs that share a connection whose search path is the default one are isolated from each
other, whatever their work does and whatever fails. -/
theorem performAll_isolated (runs : List ScopedRun) (c : Connection)
    (h : c.searchPath = defaultPath) : AllIsolated runs c (performAll runs c) :=
  performAll_isolated_of_handed runs c (Or.inl h)

/-- A cancelled run whose work changes the path and whose reset fails, and two runs after it. -/
theorem performAll_isolated_after_failed_reset :
    let plan : FaultPlan := { FaultPlan.none with
      occurrence := fun n => if n = 3 then some (.outside .runtime "connection lost") else none }
    let runs : List ScopedRun :=
      [⟨.text "tenant_a", .ofSteps [.send "SET search_path TO tenant_b", .fail .cancelled]⟩,
       ⟨.text "tenant_b; --", .ofSteps []⟩, ⟨.text "tenant_b", .ofSteps []⟩]
    let c := Connection.fresh plan
    c.searchPath = defaultPath ∧
      (performAll runs c).map (·.connection.searchPath) = ["tenant_b", "tenant_b", "public"] ∧
      AllIsolated runs c (performAll runs c) :=
  ⟨rfl, by decide +kernel, performAll_isolated _ _ rfl⟩

end TenantReports.ScopedRun
