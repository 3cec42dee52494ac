import TenantReports.Proofs.Report.Checked
import TenantReports.Proofs.Result
import TenantReports.Proofs.Schedule.Blame
import TenantReports.Proofs.Tenant.Lookups

/-!
What the check of a custom report fails with: what the caller sent, or the end of the calendar,
beyond which the cache keeps no answer.
-/

namespace TenantReports

/-! Queries -/

namespace QueryFault

/-- A fault that is told as one of what the caller sent. -/
def IsTold (fault : QueryFault) : Prop :=
  ∀ schemaName, (fault.toFault schemaName).isInput = true

theorem isTold_identifier (name : String) : (identifier name).IsTold := fun _ => rfl

theorem isTold_spec (fault : SpecFault ColumnRef) : (spec fault).IsTold := fun _ => rfl

end QueryFault

open QueryFault (IsTold isTold_identifier isTold_spec)

namespace QueryResult

theorem failsOnly_requireIdentifier (name : String) :
    FailsOnly IsTold (requireIdentifier name) := by
  unfold requireIdentifier
  split
  · exact .ok ()
  · exact .fault (isTold_identifier name)

end QueryResult

open QueryResult (failsOnly_requireIdentifier)

theorem ColumnRef.failsOnly_require (ref : ColumnRef) : FailsOnly IsTold ref.require :=
  (failsOnly_requireIdentifier _).bind fun _ => (failsOnly_requireIdentifier _).bind fun _ => .ok _

theorem SelectedColumn.failsOnly_toProjection (selected : SelectedColumn) :
    FailsOnly IsTold selected.toProjection := by
  refine (ColumnRef.failsOnly_require _).bind fun source => ?_
  refine (failsOnly_requireIdentifier _).bind fun _ => FailsOnly.bind ?_ fun _ => .ok _
  unfold aggregateOf
  split
  · exact .fault (isTold_spec _)
  · exact .ok ()

/-- A join with a trusted predicate. -/
theorem JoinSpec.failsOnly_toClause {join : JoinSpec} {text : String}
    (h : join.on = .trusted text) :
    FailsOnly IsTold join.toClause := by
  unfold toClause
  split
  · exact .fault (isTold_spec _)
  · refine (failsOnly_requireIdentifier _).bind fun _ => ?_
    rw [h]
    exact .ok _

theorem failsOnly_operandText (column : ColumnRef) (operator : FilterOperator) (v : Value) :
    FailsOnly IsTold (operandText column operator v) := by
  unfold operandText
  split
  · exact .fault (isTold_spec _)
  · exact .ok _

theorem failsOnly_conditionOn (column : ColumnRef) (operator : FilterOperator) (v : Value) :
    FailsOnly IsTold (conditionOn column operator v) := by
  cases operator with
  | compare comparison => exact .ok _
  | like => exact (failsOnly_operandText _ _ _).bind fun _ => .ok _
  | oneOf =>
      change FailsOnly IsTold (oneOfCondition column v)
      unfold oneOfCondition
      split
      · exact .fault (isTold_spec _)
      · exact .ok _
  | between =>
      change FailsOnly IsTold (betweenCondition column v)
      unfold betweenCondition
      split
      · exact .fault (isTold_spec _)
      · refine (failsOnly_operandText _ _ _).bind fun low => ?_
        exact (failsOnly_operandText _ _ _).bind fun high => .ok _
  | unsupported name => exact .fault (isTold_spec _)

namespace ReportSpec

variable {spec : ReportSpec}

/-- A name is found to mean some column, or it is no identifier, where there is a data source. -/
theorem failsOnly_resolve (h : spec.dataSources ≠ []) (name : String) :
    FailsOnly IsTold (spec.resolve name) := by
  refine FailsOnly.bind ?_ ColumnRef.failsOnly_require
  unfold locate
  split
  · exact .ok _
  · refine (failsOnly_requireIdentifier name).bind fun _ => ?_
    split
    · exact .ok _
    · exact .ok _
    · next hnone => exact absurd hnone h

theorem failsOnly_conditionOf (h : spec.dataSources ≠ []) (filter : FilterSpec) :
    FailsOnly IsTold (spec.conditionOf filter) :=
  (failsOnly_resolve h _).bind fun _ => failsOnly_conditionOn _ _ _

theorem failsOnly_groupsOf (h : spec.dataSources ≠ []) (projections : List Projection) :
    FailsOnly IsTold (spec.groupsOf projections) := by
  unfold groupsOf
  split
  · exact .mapM fun name _ => failsOnly_resolve h name
  · split
    · exact .ok _
    · exact .ok _

theorem failsOnly_sortKey (h : spec.dataSources ≠ []) (order : OrderSpec) :
    FailsOnly IsTold (spec.sortKey order) := by
  unfold sortKey
  split
  · exact .fault (isTold_spec _)
  · refine FailsOnly.bind ?_ fun _ => .ok _
    unfold sortTarget
    split
    · exact .ok _
    · exact (failsOnly_resolve h _).bind fun _ => .ok _

/-- Whether the predicates of all joins are the work of trusted authors. -/
def IsTrusted (spec : ReportSpec) : Prop := ∀ join ∈ spec.joins, ∃ text, join.on = .trusted text

theorem isTrusted_trustJoins (spec : ReportSpec) : spec.trustJoins.IsTrusted := by
  intro join hjoin
  obtain ⟨written, -, rfl⟩ := List.mem_map.mp hjoin
  exact ⟨_, rfl⟩

theorem failsOnly_toQuery (trusted : spec.IsTrusted) : FailsOnly IsTold spec.toQuery := by
  unfold toQuery
  split
  · exact .fault (isTold_spec _)
  · next source rest hsources =>
      have hsome : spec.dataSources ≠ [] := by
        rw [hsources]
        exact List.cons_ne_nil _ _
      dsimp only
      split
      · exact .fault (isTold_spec _)
      · refine (FailsOnly.forM failsOnly_requireIdentifier).bind fun _ => ?_
        refine (FailsOnly.mapM fun selected _ => selected.failsOnly_toProjection).bind fun _ => ?_
        refine (FailsOnly.mapM fun join hjoin => ?_).bind fun _ => ?_
        · obtain ⟨text, htext⟩ := trusted join hjoin
          exact JoinSpec.failsOnly_toClause htext
        refine (FailsOnly.mapM fun filter _ => failsOnly_conditionOf hsome filter).bind fun _ => ?_
        refine (failsOnly_groupsOf hsome _).bind fun _ => ?_
        exact (FailsOnly.mapM fun order _ => failsOnly_sortKey hsome order).bind fun _ => .ok _

end ReportSpec

/-- A specification with trusted joins compiles, unless the caller's input is at fault. -/
theorem compile_failsByInput {schemaName : String} {spec : ReportSpec} (trusted : spec.IsTrusted) :
    FailsByInput (compile schemaName spec) := by
  refine FailsByInput.bind ?_ fun _ => ?_
  · unfold Sql.requireIdentifier
    split
    · exact .ok
    · exact .fault rfl
  · cases hquery : spec.toQuery with
    | ok query => exact .ok
    | error fault => exact .fault (ReportSpec.failsOnly_toQuery trusted fault hquery schemaName)

theorem SpecDocument.toSpec_failsByInput (document : SpecDocument) :
    FailsByInput document.toSpec := by
  unfold toSpec
  split
  · exact .ok
  · exact .fault rfl

theorem SpecDocument.isTrusted_of_toSpec {document : SpecDocument} {spec : ReportSpec}
    (h : document.toSpec = .ok spec) : spec.IsTrusted := by
  obtain ⟨raw, -, rfl⟩ := toSpec_eq_ok.mp h
  exact raw.isTrusted_trustJoins

/-! Checks -/

namespace CustomReports

variable {α β : Type} {p q r : Platform}

/-- What a check fails with: what was sent, or the end of the calendar. -/
inductive CheckFails (p : Platform) : Fault → Prop
  | input {fault : Fault} (isInput : fault.isInput = true) : CheckFails p fault
  | late {reason : CalendarFault}
      (ends : TimedAnswer.expiryAfter p.settings.cache.ttl p.now = .error (.calendar reason)) :
      CheckFails p (.calendar reason)

theorem CheckFails.of_same (hsame : p.SameTables q) {fault : Fault} (h : CheckFails q fault) :
    CheckFails p fault := by
  cases h with
  | input isInput => exact .input isInput
  | late ends =>
      rw [hsame.settings, hsame.now] at ends
      exact .late ends

/-- Whether an action checks something: it leaves the tables and the connection alone, and fails
as checks do. -/
structure IsCheck (action : Work α) : Prop where
  aside : Action.IsAside action
  connection : ∀ p, (action.run p).2.connection = p.connection
  fails : ∀ p, FailsOnly (CheckFails p) (action.run p).1

namespace IsCheck

theorem answer (a : α) : IsCheck (pure a) := ⟨.answer a, fun _ => rfl, fun _ => .ok a⟩

theorem ofResult {result : Result α} (h : FailsByInput result) :
    IsCheck (Action.ofResult result) where
  aside := .ofResult result
  connection p := by rw [Action.run_ofResult]
  fails p := by
    rw [Action.run_ofResult]
    exact fun fault hfault => .input (h fault hfault)

theorem fail {fault : Fault} (h : fault.isInput = true) : IsCheck (throw fault : Work α) :=
  ⟨.fail fault, fun _ => rfl, fun _ => .fault (.input h)⟩

theorem bind {action : Work α} {next : α → Work β} (h : IsCheck action)
    (hnext : ∀ a, IsCheck (next a)) : IsCheck (action >>= next) := by
  refine ⟨h.aside.bind fun a => (hnext a).aside, fun p => ?_, fun p => ?_⟩
  · have hkept := h.connection p
    rw [Action.run_bind]
    rcases hrun : action.run p with ⟨outcome, q⟩
    rw [hrun] at hkept
    cases outcome with
    | error fault => exact hkept
    | ok a => exact ((hnext a).connection q).trans hkept
  · have hfails := h.fails p
    have hsame := h.aside p
    rw [Action.run_bind]
    rcases hrun : action.run p with ⟨outcome, q⟩
    rw [hrun] at hfails hsame
    cases outcome with
    | error fault =>
        rintro _ ⟨⟩
        exact hfails fault rfl
    | ok a => exact fun fault hfault => ((hnext a).fails q fault hfault).of_same hsame

theorem forM {f : α → Work Unit} (h : ∀ a, IsCheck (f a)) (items : List α) :
    IsCheck (items.forM f) := by
  induction items with
  | nil => exact answer ()
  | cons item items ih => exact (h item).bind fun _ => ih

end IsCheck

/-- A lookup of a table through the cache is a check. -/
theorem isCheck_lookup (table : TenantTable) :
    IsCheck (Directory.tableExists (.text table.schemaName) (.text table.table) true) := by
  have haside := Directory.isAside_tableExists (.text table.schemaName) (.text table.table) true
  by_cases hnamed : table.isNamed = true
  · refine ⟨haside, fun p => ?_, fun p fault hfault => ?_⟩
    · change (Lookup.mk table p).run.2.connection = p.connection
      rw [Lookup.run_eq hnamed]
      split
      · split
        · rfl
        · rfl
        · rfl
      · rfl
    · change (Lookup.mk table p).run.1 = _ at hfault
      rw [Lookup.run_eq hnamed] at hfault
      split at hfault
      · split at hfault
        · cases hfault
        · cases hfault
        · next hexpiry =>
            cases hfault
            obtain ⟨reason, rfl⟩ := Lookup.expiry_eq_error hexpiry
            exact .late hexpiry
      · cases hfault
  · obtain ⟨name, -, hrun⟩ := Lookup.run_of_not_isNamed (Bool.eq_false_iff.mpr hnamed)
    refine ⟨haside, fun p => congrArg (·.2.connection) (hrun p), fun p fault hfault => ?_⟩
    cases (congrArg Prod.fst (hrun p)).symm.trans hfault
    exact .input rfl

theorem isCheck_requireTable (schemaName table : String) :
    IsCheck (requireTable schemaName true table) := by
  refine (isCheck_lookup ⟨schemaName, table⟩).bind fun isThere => ?_
  split
  · exact .answer ()
  · exact .fail rfl

theorem isCheck_validate (schemaName : String) {spec : ReportSpec} (trusted : spec.IsTrusted) :
    IsCheck (validate schemaName spec) := by
  refine (IsCheck.ofResult (compile_failsByInput trusted)).bind fun sql => ?_
  exact (IsCheck.forM (isCheck_requireTable schemaName) spec.tables).bind fun _ => .answer sql

theorem isCheck_validateSpec (schemaName : String) {result : Result ReportSpec}
    (hfails : FailsByInput result) (trusted : ∀ spec, result = .ok spec → spec.IsTrusted) :
    IsCheck (Action.ofResult result >>= validate schemaName) := by
  cases result with
  | ok spec => exact isCheck_validate schemaName (trusted spec rfl)
  | error fault => exact IsCheck.fail (hfails fault rfl)

theorem isCheck_validateChange (schemaName : String) (report : CustomReport) (changes : Entries) :
    IsCheck (validateChange schemaName report changes) := by
  refine (IsCheck.ofResult (SpecDocument.toSpec_failsByInput _)).bind fun old => ?_
  let changed := (SpecDocument.ofSpec old).change changes
  have hchecked := isCheck_validateSpec schemaName changed.toSpec_failsByInput
    fun _ => SpecDocument.isTrusted_of_toSpec
  have hall := hchecked.bind fun _ => .answer ()
  rwa [bind_assoc] at hall

/-! Updates -/

/-- What an update of a custom report fails with. -/
inductive UpdateFails (id : Uuid) (changes : Entries) (p : Platform) : Fault → Prop
  | missing : UpdateFails id changes p (.notFound .customReport id)
  | check {fault : Fault} (fails : CheckFails p fault) : UpdateFails id changes p fault
  | unmade {report : CustomReport} (made : report.change? changes = none) :
      UpdateFails id changes p .integrity

theorem UpdateFails.of_same {id : Uuid} {changes : Entries} (hsame : p.SameTables q) {fault : Fault}
    (h : UpdateFails id changes q fault) : UpdateFails id changes p fault := by
  cases h with
  | missing => exact .missing
  | check fails => exact .check (fails.of_same hsame)
  | unmade made => exact .unmade made

theorem getOwned_fails (id tenant : Uuid) (user : Option Uuid) (p : Platform) :
    FailsOnly (· = .notFound .customReport id) ((getOwned id tenant user).run p).1 := by
  let owned := (p.database.customReport? id).filter fun report =>
    report.tenant == tenant && report.isOwnedBy user
  change FailsOnly _ ((Work.require (.notFound .customReport id) owned).run p).1
  cases owned with
  | none => exact .fault rfl
  | some report => exact .ok report

/-- An update leaves the connection alone, and it fails for a reason. -/
theorem update_ends (schemaName : String) (tenant id : Uuid) (patch : CustomReportPatch)
    (given : Value) (user : Option Uuid) (p : Platform) :
    ((update schemaName tenant id patch given user).run p).2.connection = p.connection ∧
      FailsOnly (UpdateFails id (changesOf patch given) p)
        ((update schemaName tenant id patch given user).run p).1 := by
  unfold update
  rcases (reads_getOwned id tenant user).cases p with ⟨fault, hget⟩ | ⟨report, hget⟩
  · rw [Action.run_bind_of_error hget]
    cases getOwned_fails id tenant user p fault (congrArg Prod.fst hget)
    exact ⟨rfl, .fault .missing⟩
  rw [Action.run_bind_of_ok hget]
  dsimp only
  have hchanging : ∀ q : Platform, q.connection = p.connection →
      let changing : Work CustomReport := do
        let changed ← Work.require .integrity (report.change? (changesOf patch given))
        Work.updateDatabase (·.updateCustomReport id fun _ => changed)
        return changed
      (changing.run q).2.connection = p.connection ∧
        FailsOnly (UpdateFails id (changesOf patch given) p) (changing.run q).1 := by
    intro q hkept changing
    cases hmade : report.change? (changesOf patch given) with
    | none =>
        unfold changing
        rw [hmade]
        exact ⟨hkept, .fault (.unmade hmade)⟩
    | some changed =>
        unfold changing
        rw [hmade]
        exact ⟨hkept, .ok changed⟩
  split
  · have hcheck := isCheck_validateChange schemaName report (changesOf patch given)
    have hkept := hcheck.connection p
    have hfails := hcheck.fails p
    rcases hrun : (validateChange schemaName report (changesOf patch given)).run p with ⟨outcome, q⟩
    rw [hrun] at hkept hfails
    cases outcome with
    | error fault =>
        rw [Action.run_bind_of_error hrun]
        exact ⟨hkept, .fault (.check (hfails fault rfl))⟩
    | ok =>
        rw [Action.run_bind_of_ok hrun]
        exact hchanging q hkept
  · exact hchanging p rfl

end CustomReports

end TenantReports
