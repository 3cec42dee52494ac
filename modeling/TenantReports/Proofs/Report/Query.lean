import TenantReports.Proofs.Result
import TenantReports.Report.Compile

/-!
What the query of a specification is made of: each of its parts comes from a part of the
specification, and every name in it is a bare identifier.
-/

namespace TenantReports

open QueryResult

structure ColumnRef.Named (ref : ColumnRef) : Prop where
  table : Sql.isIdentifier ref.table = true
  column : Sql.isIdentifier ref.column = true

structure Projection.Selects (selected : SelectedColumn) (p : Projection) : Prop where
  source : p.source = ⟨selected.table, selected.column⟩
  named : p.source.Named
  output : p.output = selected.outputName
  outputNamed : Sql.isIdentifier p.output = true
  aggregate : p.aggregate = selected.aggregate
  supported : ∀ aggregate ∈ p.aggregate, aggregate.isSupported = true

structure JoinClause.Joins (join : JoinSpec) (clause : JoinClause) : Prop where
  type : clause.type = join.type
  supported : clause.type.isSupported = true
  table : clause.table = join.table
  named : Sql.isIdentifier clause.table = true
  on : join.on = .trusted clause.on

/-- The condition of a filter on the column that the filter's name resolves to. -/
def Condition.Filters (spec : ReportSpec) (filter : FilterSpec) (condition : Condition) : Prop :=
  ∃ column, spec.resolve filter.column = .ok column ∧ column.Named ∧
    conditionOn column filter.operator filter.value = .ok condition

/-- A sort key is the output of an aggregate or a column. -/
structure SortKey.Sorts (spec : ReportSpec) (order : OrderSpec) (key : SortKey) : Prop where
  direction : key.direction = order.direction
  supported : key.direction.isSupported = true
  target : (key.target = .output order.column ∧ ∃ selected ∈ spec.selectedColumns,
      selected.aggregate.isSome = true ∧ selected.outputName = order.column) ∨
    ∃ ref : ColumnRef, key.target = .column ref ∧ ref.Named

structure Query.Describes (spec : ReportSpec) (q : Query) : Prop where
  source : spec.dataSources.head? = some q.source
  sourceNamed : Sql.isIdentifier q.source = true
  projections : List.Forall₂ Projection.Selects spec.selectedColumns q.projections
  joins : List.Forall₂ JoinClause.Joins spec.joins q.joins
  conditions : List.Forall₂ (Condition.Filters spec) spec.filters q.conditions
  groups : ∀ ref ∈ q.groups, ColumnRef.Named ref
  order : List.Forall₂ (SortKey.Sorts spec) spec.orderBy q.order

theorem requireIdentifier_eq_ok {name : String} :
    requireIdentifier name = .ok () ↔ Sql.isIdentifier name = true := by
  unfold requireIdentifier
  split
  · next h => simp [h]
  · next h => simp [h]

theorem ColumnRef.require_eq_ok {ref ref' : ColumnRef} :
    ref.require = .ok ref' ↔ ref' = ref ∧ ref.Named := by
  unfold ColumnRef.require
  rw [bind_eq_ok]
  constructor
  · rintro ⟨_, htable, h⟩
    rw [bind_eq_ok] at h
    obtain ⟨_, hcolumn, h⟩ := h
    cases h
    exact ⟨rfl, requireIdentifier_eq_ok.mp htable, requireIdentifier_eq_ok.mp hcolumn⟩
  · rintro ⟨rfl, hnamed⟩
    refine ⟨(), requireIdentifier_eq_ok.mpr hnamed.table, ?_⟩
    exact bind_eq_ok.mpr ⟨(), requireIdentifier_eq_ok.mpr hnamed.column, rfl⟩

theorem ReportSpec.resolve_named {spec : ReportSpec} {name : String} {ref : ColumnRef}
    (h : spec.resolve name = .ok ref) : ref.Named := by
  unfold ReportSpec.resolve at h
  obtain ⟨located, _, hrequire⟩ := bind_eq_ok.mp h
  obtain ⟨rfl, hnamed⟩ := ColumnRef.require_eq_ok.mp hrequire
  exact hnamed

theorem SelectedColumn.toProjection_selects {selected : SelectedColumn} {p : Projection}
    (h : selected.toProjection = .ok p) : Projection.Selects selected p := by
  unfold SelectedColumn.toProjection at h
  obtain ⟨source, hsource, h⟩ := bind_eq_ok.mp h
  obtain ⟨_, houtput, h⟩ := bind_eq_ok.mp h
  obtain ⟨_, haggregate, h⟩ := bind_eq_ok.mp h
  obtain ⟨rfl, hnamed⟩ := ColumnRef.require_eq_ok.mp hsource
  cases h
  refine ⟨rfl, hnamed, rfl, requireIdentifier_eq_ok.mp houtput, rfl, ?_⟩
  intro aggregate hmem
  change selected.aggregate = some aggregate at hmem
  rw [hmem] at haggregate
  cases aggregate with
  | unsupported name => cases haggregate
  | _ => rfl

theorem JoinSpec.toClause_joins {join : JoinSpec} {clause : JoinClause}
    (h : join.toClause = .ok clause) : JoinClause.Joins join clause := by
  unfold JoinSpec.toClause at h
  split at h
  · cases h
  · next hsupported =>
      obtain ⟨_, htable, h⟩ := bind_eq_ok.mp h
      split at h
      · next hon =>
          cases h
          refine ⟨rfl, ?_, rfl, requireIdentifier_eq_ok.mp htable, hon⟩
          cases htype : join.type with
          | unsupported name => exact absurd htype (hsupported name)
          | _ => simp [JoinType.isSupported]
      · cases h

theorem ReportSpec.conditionOf_filters {spec : ReportSpec} {filter : FilterSpec}
    {condition : Condition} (h : spec.conditionOf filter = .ok condition) :
    Condition.Filters spec filter condition := by
  unfold ReportSpec.conditionOf at h
  obtain ⟨column, hcolumn, h⟩ := bind_eq_ok.mp h
  exact ⟨column, hcolumn, ReportSpec.resolve_named hcolumn, h⟩

theorem ReportSpec.sortTarget_sorts {spec : ReportSpec} {name : String} {target : SortTarget}
    (h : spec.sortTarget name = .ok target) :
    (target = .output name ∧ ∃ selected ∈ spec.selectedColumns,
        selected.aggregate.isSome = true ∧ selected.outputName = name) ∨
      ∃ ref : ColumnRef, target = .column ref ∧ ref.Named := by
  unfold ReportSpec.sortTarget at h
  split at h
  · next hoverall =>
      cases h
      simp only [Bool.and_eq_true, List.any_eq_true, beq_iff_eq] at hoverall
      exact Or.inl ⟨rfl, hoverall.2⟩
  · obtain ⟨ref, href, h⟩ := bind_eq_ok.mp h
    cases h
    exact Or.inr ⟨ref, rfl, ReportSpec.resolve_named href⟩

theorem ReportSpec.sortKey_sorts {spec : ReportSpec} {order : OrderSpec} {key : SortKey}
    (h : spec.sortKey order = .ok key) : SortKey.Sorts spec order key := by
  unfold ReportSpec.sortKey at h
  split at h
  · cases h
  · next hsupported =>
      obtain ⟨target, htarget, h⟩ := bind_eq_ok.mp h
      cases h
      refine ⟨rfl, ?_, ReportSpec.sortTarget_sorts htarget⟩
      cases hdirection : order.direction with
      | unsupported name => exact absurd hdirection (hsupported name)
      | _ => simp [SortDirection.isSupported]

theorem ReportSpec.groupsOf_named {spec : ReportSpec} {projections : List Projection}
    {groups : List ColumnRef} (hprojections : ∀ p ∈ projections, p.source.Named)
    (h : spec.groupsOf projections = .ok groups) : ∀ ref ∈ groups, ref.Named := by
  unfold ReportSpec.groupsOf at h
  split at h
  · intro ref hmem
    obtain ⟨name, _, hname⟩ := exists_of_mem_right (mapM_eq_ok.mp h) hmem
    exact ReportSpec.resolve_named hname
  · split at h
    · cases h
      intro ref hmem
      simp only [bareColumns, List.mem_map, List.mem_filter] at hmem
      obtain ⟨p, ⟨hp, _⟩, rfl⟩ := hmem
      exact hprojections p hp
    · cases h
      intro ref hmem
      cases hmem

/-- Each part of the query is built from a part of the specification. -/
structure ReportSpec.Builds (spec : ReportSpec) (q : Query) : Prop where
  source : spec.dataSources.head? = some q.source
  selected : spec.selectedColumns.isEmpty = false
  sources : ∀ name ∈ spec.dataSources, Sql.isIdentifier name = true
  projections : spec.selectedColumns.mapM SelectedColumn.toProjection = .ok q.projections
  joins : spec.joins.mapM JoinSpec.toClause = .ok q.joins
  conditions : spec.filters.mapM spec.conditionOf = .ok q.conditions
  groups : spec.groupsOf q.projections = .ok q.groups
  order : spec.orderBy.mapM spec.sortKey = .ok q.order

theorem ReportSpec.toQuery_eq_ok {spec : ReportSpec} {q : Query} :
    spec.toQuery = .ok q ↔ spec.Builds q := by
  unfold ReportSpec.toQuery
  constructor
  · intro h
    split at h
    · cases h
    · next source sources hsources =>
        split at h
        · cases h
        · next hselected =>
            obtain ⟨_, hnames, h⟩ := bind_eq_ok.mp h
            obtain ⟨projections, hprojections, h⟩ := bind_eq_ok.mp h
            obtain ⟨joins, hjoins, h⟩ := bind_eq_ok.mp h
            obtain ⟨conditions, hconditions, h⟩ := bind_eq_ok.mp h
            obtain ⟨groups, hgroups, h⟩ := bind_eq_ok.mp h
            obtain ⟨order, horder, h⟩ := bind_eq_ok.mp h
            cases h
            refine ⟨by rw [hsources]; rfl, Bool.eq_false_iff.mpr hselected, ?_, hprojections,
              hjoins, hconditions, hgroups, horder⟩
            intro name hname
            exact requireIdentifier_eq_ok.mp (forM_eq_ok.mp hnames name hname)
  · intro h
    have hnames : spec.dataSources.forM requireIdentifier = .ok () :=
      forM_eq_ok.mpr fun name hname => requireIdentifier_eq_ok.mpr (h.sources name hname)
    obtain ⟨sources, hsources⟩ := List.head?_eq_some_iff.mp h.source
    split
    · next hnil =>
        rw [hnil] at hsources
        cases hsources
    · next source sources' hsources' =>
        rw [hsources'] at hsources
        cases hsources
        rw [if_neg (Bool.eq_false_iff.mp h.selected)]
        refine bind_eq_ok.mpr ⟨(), hnames, ?_⟩
        refine bind_eq_ok.mpr ⟨q.projections, h.projections, ?_⟩
        refine bind_eq_ok.mpr ⟨q.joins, h.joins, ?_⟩
        refine bind_eq_ok.mpr ⟨q.conditions, h.conditions, ?_⟩
        refine bind_eq_ok.mpr ⟨q.groups, h.groups, ?_⟩
        exact bind_eq_ok.mpr ⟨q.order, h.order, rfl⟩

theorem ReportSpec.Builds.describes {spec : ReportSpec} {q : Query} (h : spec.Builds q) :
    q.Describes spec := by
  have hselects := (mapM_eq_ok.mp h.projections).imp
    fun _ _ => SelectedColumn.toProjection_selects
  have hnamed : ∀ p ∈ q.projections, p.source.Named := by
    intro p hp
    obtain ⟨_, _, hselected⟩ := exists_of_mem_right hselects hp
    exact hselected.named
  exact
    { source := h.source
      sourceNamed := h.sources q.source (List.mem_of_mem_head? h.source)
      projections := hselects
      joins := (mapM_eq_ok.mp h.joins).imp fun _ _ => JoinSpec.toClause_joins
      conditions := (mapM_eq_ok.mp h.conditions).imp fun _ _ => ReportSpec.conditionOf_filters
      groups := ReportSpec.groupsOf_named hnamed h.groups
      order := (mapM_eq_ok.mp h.order).imp fun _ _ => ReportSpec.sortKey_sorts }

theorem ReportSpec.toQuery_describes {spec : ReportSpec} {q : Query} (h : spec.toQuery = .ok q) :
    q.Describes spec :=
  (ReportSpec.toQuery_eq_ok.mp h).describes

theorem compile_of_identifier {schemaName : String}
    (hschema : Sql.isIdentifier schemaName = true) (spec : ReportSpec) :
    compile schemaName spec =
      match spec.toQuery with
      | .ok q => .ok (q.text schemaName)
      | .error fault => .error (fault.toFault schemaName) := by
  unfold compile Sql.requireIdentifier
  rw [if_pos hschema]
  cases spec.toQuery with
  | ok q => rfl
  | error fault => rfl

theorem compile_eq_ok {schemaName : String} {spec : ReportSpec} {text : String} :
    compile schemaName spec = .ok text ↔ Sql.isIdentifier schemaName = true ∧
      ∃ q, spec.toQuery = .ok q ∧ text = q.text schemaName := by
  by_cases hschema : Sql.isIdentifier schemaName = true
  · rw [compile_of_identifier hschema]
    cases htoQuery : spec.toQuery with
    | ok q =>
        constructor
        · rintro ⟨⟩
          exact ⟨hschema, q, rfl, rfl⟩
        · rintro ⟨_, _, ⟨⟩, rfl⟩
          rfl
    | error fault =>
        constructor
        · rintro ⟨⟩
        · rintro ⟨_, _, ⟨⟩, _⟩
  · unfold compile Sql.requireIdentifier
    rw [if_neg hschema]
    constructor
    · rintro ⟨⟩
    · rintro ⟨h, _⟩
      exact absurd h hschema

end TenantReports
