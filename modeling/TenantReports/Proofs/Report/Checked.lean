import TenantReports.Proofs.Api.Acting
import TenantReports.Proofs.Report.RoundTrip

/-!
Custom reports are checked before they are stored or changed: what was compiled for the check, and
what becomes of the stored reports.
-/

namespace TenantReports

open Action (IsAside Reads)

namespace CustomReport

theorem change?_spec {report changed : CustomReport} {changes : Entries}
    (h : report.change? changes = some changed) :
    changed.spec = report.spec.change changes := by
  unfold change? at h
  simp only [Option.bind_eq_bind, Option.bind_eq_some_iff] at h
  obtain ⟨name, -, visualization, -, isShared, -, heq⟩ := h
  cases heq
  rfl

end CustomReport

namespace CustomReports

variable {schemaName sql : String} {spec : ReportSpec} {p q : Platform}

theorem isAside_validate (schemaName : String) (spec : ReportSpec) :
    IsAside (validate schemaName spec) :=
  (IsAside.ofResult _).bind fun sql =>
    (IsAside.forM (isAside_requireTable schemaName true) spec.tables).bind fun _ => .answer sql

theorem compile_of_validate (h : ((validate schemaName spec).run p).1 = .ok sql) :
    compile schemaName spec = .ok sql :=
  ((validate_meets (S := fun _ _ => True) (fun _ _ _ => trivial) schemaName spec).answers sql h).2

theorem reads_authorize (spec : ReportSpec) (role : Option String) : Reads (authorize spec role) :=
  Reads.bind (fun _ => rfl) fun _ => .ofResult _

theorem reads_getOwned (id tenant : Uuid) (user : Option Uuid) : Reads (getOwned id tenant user) :=
  Reads.bind (fun _ => rfl) fun _ => Work.reads_require _ _

/-- A report that is created is read back as the specification that was checked. -/
theorem create_cases (schemaName : String) (tenant : Uuid) (draft : CustomReportDraft)
    (user : Option Uuid) (role : Option String) (p : Platform) :
    (∃ fault q, (create schemaName tenant draft user role).run p = (.error fault, q) ∧
      q.database.customReports = p.database.customReports) ∨
    ∃ sql row q, (authorize draft.spec role).run p = (.ok draft.spec.trustJoins, p) ∧
      ((validate schemaName draft.spec.trustJoins).run p).1 = .ok sql ∧
      row = .ofDraft draft tenant user p.now (p.database.nextId .customReports) ∧
      (create schemaName tenant draft user role).run p = (.ok row, q) ∧
      q.database.customReports = p.database.customReports ++ [row] := by
  unfold create
  rcases (reads_authorize draft.spec role).cases p with ⟨fault, hauthorize⟩ | ⟨spec, hauthorize⟩
  · rw [Action.run_bind_of_error hauthorize]
    exact .inl ⟨fault, p, rfl, rfl⟩
  obtain ⟨-, rfl, -⟩ := (authorize_meets (S := fun _ _ => True) draft.spec role).answers spec
    (congrArg Prod.fst hauthorize)
  rw [Action.run_bind_of_ok hauthorize]
  obtain ⟨q, hsame, ⟨fault, hvalidate⟩ | ⟨sql, hvalidate⟩⟩ :=
    (isAside_validate schemaName draft.spec.trustJoins).cases p
  · rw [Action.run_bind_of_error hvalidate]
    exact .inl ⟨fault, q, rfl, congrArg Database.customReports hsame.database⟩
  have hclock : Work.now.run q = (.ok p.now, q) := by
    rw [← hsame.now]
    rfl
  have hkept := congrArg Database.customReports hsame.database
  rw [Action.run_bind_of_ok hvalidate, Action.run_bind_of_ok hclock]
  have hinsert := Work.run_insert .customReports Database.acceptsCustomReport
    Database.addCustomReport (CustomReport.ofDraft draft tenant user p.now) q
  unfold Work.insertCustomReport
  rw [hinsert, hsame.database]
  split
  · refine .inr ⟨sql, _, _, hauthorize, congrArg Prod.fst hvalidate, rfl, rfl, ?_⟩
    rw [← hkept, ← hsame.database]
    rfl
  · exact .inl ⟨_, _, rfl, hkept⟩

theorem validateChange_cases (schemaName : String) (report : CustomReport) (changes : Entries)
    (p : Platform) :
    ∃ q, p.SameTables q ∧
      ((∃ fault, (validateChange schemaName report changes).run p = (.error fault, q)) ∨
      (validateChange schemaName report changes).run p = (.ok (), q) ∧
        ∃ old spec sql, report.spec.toSpec = .ok old ∧
          ((SpecDocument.ofSpec old).change changes).toSpec = .ok spec ∧
          ((validate schemaName spec).run p).1 = .ok sql) := by
  unfold validateChange
  cases hold : report.spec.toSpec with
  | error fault =>
      rw [Action.run_bind_of_error (Action.run_ofResult _ p)]
      exact ⟨p, .refl p, .inl ⟨fault, rfl⟩⟩
  | ok old =>
      rw [Action.run_bind_of_ok (Action.run_ofResult _ p)]
      cases hspec : ((SpecDocument.ofSpec old).change changes).toSpec with
      | error fault =>
          rw [Action.run_bind_of_error (Action.run_ofResult _ p)]
          exact ⟨p, .refl p, .inl ⟨fault, rfl⟩⟩
      | ok spec =>
          rw [Action.run_bind_of_ok (Action.run_ofResult _ p)]
          obtain ⟨q, hsame, ⟨fault, hvalidate⟩ | ⟨sql, hvalidate⟩⟩ :=
            (isAside_validate schemaName spec).cases p
          · rw [Action.run_bind_of_error hvalidate]
            exact ⟨q, hsame, .inl ⟨fault, rfl⟩⟩
          · rw [Action.run_bind_of_ok hvalidate]
            exact ⟨q, hsame, .inr ⟨rfl, old, spec, sql, rfl, hspec, congrArg Prod.fst hvalidate⟩⟩

/-- What follows once changes are checked. -/
theorem run_changing (report : CustomReport) (changes : Entries) (id : Uuid) (p : Platform) :
    (do
      let changed ← Work.require .integrity (report.change? changes)
      Work.updateDatabase (·.updateCustomReport id fun _ => changed)
      return changed : Work CustomReport).run p = (.error .integrity, p) ∨
    ∃ changed, report.change? changes = some changed ∧ (do
      let changed ← Work.require .integrity (report.change? changes)
      Work.updateDatabase (·.updateCustomReport id fun _ => changed)
      return changed : Work CustomReport).run p =
        (.ok changed, p.onDatabase (·.updateCustomReport id fun _ => changed)) := by
  cases report.change? changes with
  | none => exact .inl rfl
  | some changed => exact .inr ⟨changed, rfl, rfl⟩

/-- A report that is changed is read back as before if no part of its specification is set, and as
the specification that was checked if one is. -/
theorem update_cases (schemaName : String) (tenant id : Uuid) (patch : CustomReportPatch)
    (given : Value) (user : Option Uuid) (p : Platform) :
    (∃ fault q, (update schemaName tenant id patch given user).run p = (.error fault, q) ∧
      q.database.customReports = p.database.customReports) ∨
    ∃ report changed q, p.database.customReport? id = some report ∧ report.tenant = tenant ∧
      report.change? (changesOf patch given) = some changed ∧
      (SpecDocument.isChangedBy (changesOf patch given) = true → ∃ old spec sql,
        report.spec.toSpec = .ok old ∧
        ((SpecDocument.ofSpec old).change (changesOf patch given)).toSpec = .ok spec ∧
        ((validate schemaName spec).run p).1 = .ok sql) ∧
      (update schemaName tenant id patch given user).run p = (.ok changed, q) ∧
      q.database.customReports = p.database.customReports.map fun row =>
        if row.id = id then changed else row := by
  unfold update
  rcases (reads_getOwned id tenant user).cases p with ⟨fault, hget⟩ | ⟨report, hget⟩
  · rw [Action.run_bind_of_error hget]
    exact .inl ⟨fault, p, rfl, rfl⟩
  obtain ⟨-, -, hstored, howned⟩ :=
    (getOwned_meets (S := fun _ _ => True) id tenant user).answers report (congrArg Prod.fst hget)
  rw [Action.run_bind_of_ok hget]
  dsimp only
  split
  · next hsets =>
      obtain ⟨q, hsame, ⟨fault, hcheck⟩ | ⟨hcheck, hchecked⟩⟩ :=
        validateChange_cases schemaName report (changesOf patch given) p
      · rw [Action.run_bind_of_error hcheck]
        exact .inl ⟨fault, q, rfl, congrArg Database.customReports hsame.database⟩
      · rw [Action.run_bind_of_ok hcheck]
        have hkept := congrArg Database.customReports hsame.database
        rcases run_changing report (changesOf patch given) id q with hrun | ⟨changed, hmade, hrun⟩
        · exact .inl ⟨_, q, hrun, hkept⟩
        · refine .inr ⟨report, changed, _, hstored, howned, hmade, fun _ => hchecked, hrun, ?_⟩
          rw [← hkept]
          rfl
  · next hunset =>
      rcases run_changing report (changesOf patch given) id p with hrun | ⟨changed, hmade, hrun⟩
      · exact .inl ⟨_, p, hrun, rfl⟩
      · exact .inr ⟨report, changed, _, hstored, howned, hmade, fun hsets => absurd hsets hunset,
          hrun, rfl⟩

end CustomReports

namespace Runs

variable {schemaName sql : String} {spec : ReportSpec} {row : CustomReport} {user : Option Uuid}
  {p : Platform}

/-- A run of a custom report for a user by the SQL text of the report. -/
def runText (row : CustomReport) (user : Option Uuid) (sql : String) : Work ReportResult := do
  let output ← record ⟨.custom (some row.id), some row.tenant, user, []⟩ sql
  Action.ofResult (output.toResult output.derivedColumns)

theorem run_runCustom (stored : p.database.customReport? row.id = some row)
    (visible : row.isVisibleTo user = true) (read : row.spec.toSpec = .ok spec)
    (compiled : compile schemaName spec = .ok sql) :
    (runCustom schemaName row.tenant row.id user).run p = (runText row user sql).run p := by
  have hfound : (p.database.customReport? row.id).filter (fun report =>
      report.tenant == row.tenant && report.isVisibleTo user) = some row := by
    rw [stored, Option.filter_some, beq_self_eq_true, visible]
    rfl
  have hget : (CustomReports.get row.id row.tenant user).run p = (.ok row, p) := by
    have hrun : (CustomReports.get row.id row.tenant user).run p =
        (Work.require (.notFound .customReport row.id)
          ((p.database.customReport? row.id).filter fun report =>
            report.tenant == row.tenant && report.isVisibleTo user)).run p := rfl
    rw [hrun, hfound]
    rfl
  unfold runCustom
  rw [Action.run_bind_of_ok hget, read, Action.run_bind_of_ok (Action.run_ofResult _ p), compiled,
    Action.run_bind_of_ok (Action.run_ofResult _ p)]
  rfl

end Runs

end TenantReports
