import TenantReports.Proofs.Report.Checking
import TenantReports.Proofs.Report.ColumnName
import TenantReports.Proofs.Report.Filter
import TenantReports.Proofs.Report.Patch
import TenantReports.Proofs.Report.RoundTrip

/-!
Which specifications compile: the well-formed ones, whose names are identifiers and whose filters
have the operands that their operators need. All others are refused for a name or for what is not
well-formed in them. What is read as a specification names only aggregates, joins, operators and
directions that there are.
-/

namespace TenantReports

/-! What a specification names -/

open Validated

/-- Aggregates, joins, operators and directions are of the kinds that there are. -/
structure ReportSpec.IsSupported (spec : ReportSpec) : Prop where
  aggregates : ∀ selected ∈ spec.selectedColumns, ∀ aggregate ∈ selected.aggregate,
    aggregate.isSupported = true
  joins : ∀ join ∈ spec.joins, join.type.isSupported = true
  operators : ∀ filter ∈ spec.filters, filter.operator.isSupported = true
  directions : ∀ order ∈ spec.orderBy, order.direction.isSupported = true

namespace Read

variable {α : Type}

/-- Whether all that a reader reads has a property. -/
def Ensures (reader : Reader α) (P : α → Prop) : Prop := ∀ v a, reader v = .valid a → P a

variable {reader : Reader α} {P : α → Prop} {name : String} {given : Entries} {a : α}

theorem Ensures.list (h : Ensures reader P) :
    Ensures (list reader) fun parts => ∀ part ∈ parts, P part := by
  intro v parts hread part hpart
  obtain ⟨values, hvalues⟩ := list_eq_valid hread
  obtain ⟨value, -, hvalue⟩ := exists_of_mem_right hvalues hpart
  exact h value part hvalue

theorem Ensures.nullable (h : Ensures reader P) :
    Ensures (nullable reader) fun found => ∀ a ∈ found, P a := by
  intro v found hread a ha
  unfold Read.nullable at hread
  split at hread
  · cases hread
    cases ha
  · obtain ⟨a', ha', rfl⟩ := map_eq_valid.mp hread
    cases ha
    exact h v a ha'

theorem Ensures.required (h : Ensures reader P) (hread : required name reader given = .valid a) :
    P a := by
  unfold Read.required at hread
  split at hread
  · exact h _ a (under_eq_valid.mp hread)
  · cases hread

theorem Ensures.optional {default : α} (h : Ensures reader P) (hdefault : P default)
    (hread : optional name reader default given = .valid a) : P a := by
  unfold Read.optional at hread
  split at hread
  · exact h _ a (under_eq_valid.mp hread)
  · cases hread
    exact hdefault

end Read

open Read (Ensures)

theorem ensures_readName {α : Type} {ofName : String → α} {names : List String} {P : α → Prop}
    (h : ∀ name ∈ names, P (ofName name)) : Ensures (readName ofName names) P := by
  intro v a hread
  obtain ⟨name, hname, rfl⟩ := map_eq_valid.mp hread
  exact h name (Read.choice_eq_valid.mp hname).2

theorem SelectedColumn.ensures_supported :
    Ensures read fun selected => ∀ aggregate ∈ selected.aggregate,
      aggregate.isSupported = true := by
  intro v selected h
  obtain ⟨given, h⟩ := record_eq_valid h
  obtain ⟨g, aggregate, h₃, haggregate, rfl⟩ := seq_eq_valid.mp h
  obtain ⟨g₂, label, h₂, -, rfl⟩ := seq_eq_valid.mp h₃
  obtain ⟨g₁, column, h₁, -, rfl⟩ := seq_eq_valid.mp h₂
  obtain ⟨table, -, rfl⟩ := map_eq_valid.mp h₁
  have hnames : ∀ name ∈ aggregateNames, (Aggregate.ofName name).isSupported = true := by decide
  have hreader : Ensures (readName Aggregate.ofName aggregateNames) fun aggregate =>
      aggregate.isSupported = true := ensures_readName hnames
  exact hreader.nullable.optional (by simp) haggregate

theorem JoinSpec.ensures_supported : Ensures read fun join => join.type.isSupported = true := by
  intro v join h
  obtain ⟨given, h⟩ := record_eq_valid h
  obtain ⟨g₂, on, h₂, -, rfl⟩ := seq_eq_valid.mp h
  obtain ⟨g₁, table, h₁, -, rfl⟩ := seq_eq_valid.mp h₂
  obtain ⟨type, htype, rfl⟩ := map_eq_valid.mp h₁
  have hnames : ∀ name ∈ typeNames, (JoinType.ofName name).isSupported = true := by decide
  have hreader : Ensures (readName JoinType.ofName typeNames) fun type =>
      type.isSupported = true := ensures_readName hnames
  exact hreader.required htype

theorem FilterSpec.ensures_supported :
    Ensures read fun filter => filter.operator.isSupported = true := by
  intro v filter h
  obtain ⟨given, h⟩ := record_eq_valid h
  obtain ⟨g₂, value, h₂, -, rfl⟩ := seq_eq_valid.mp h
  obtain ⟨g₁, operator, h₁, hoperator, rfl⟩ := seq_eq_valid.mp h₂
  obtain ⟨column, -, rfl⟩ := map_eq_valid.mp h₁
  have hnames : ∀ name ∈ operatorNames, (FilterOperator.ofName name).isSupported = true := by
    decide
  have hreader : Ensures (readName FilterOperator.ofName operatorNames) fun operator =>
      operator.isSupported = true := ensures_readName hnames
  exact hreader.required hoperator

theorem OrderSpec.ensures_supported :
    Ensures read fun order => order.direction.isSupported = true := by
  intro v order h
  obtain ⟨given, h⟩ := record_eq_valid h
  obtain ⟨g₁, direction, h₁, hdirection, rfl⟩ := seq_eq_valid.mp h
  obtain ⟨column, -, rfl⟩ := map_eq_valid.mp h₁
  have hnames : ∀ name ∈ directionNames, (SortDirection.ofName name).isSupported = true := by
    decide
  have hreader : Ensures (readName SortDirection.ofName directionNames) fun direction =>
      direction.isSupported = true := ensures_readName hnames
  exact hreader.optional rfl hdirection

theorem ReportSpec.ensures_supported : Ensures read IsSupported := by
  intro v spec h
  obtain ⟨given, h⟩ := record_eq_valid h
  have hholds := SpecDocument.holds_of_readFields h
  exact
    { aggregates := SelectedColumn.ensures_supported.list _ _ hholds.selectedColumns
      joins := JoinSpec.ensures_supported.list _ _ hholds.joins
      operators := FilterSpec.ensures_supported.list _ _ hholds.filters
      directions := OrderSpec.ensures_supported.list _ _ hholds.orderBy }

theorem ReportSpec.isSupported_trustJoins {spec : ReportSpec} :
    spec.trustJoins.IsSupported ↔ spec.IsSupported := by
  have hjoins : (∀ join ∈ spec.trustJoins.joins, join.type.isSupported = true) ↔
      ∀ join ∈ spec.joins, join.type.isSupported = true := List.forall_mem_map
  exact ⟨fun h => ⟨h.aggregates, hjoins.mp h.joins, h.operators, h.directions⟩,
    fun h => ⟨h.aggregates, hjoins.mpr h.joins, h.operators, h.directions⟩⟩

open QueryResult

/-! Well-formed specifications -/

/-- Whether a value is a list with certain items. -/
def Value.ListsItems (v : Value) (items : List Value) : Prop := v = .list items ∨ v = .tuple items

/-- A filter has the operands that its operator needs: a choice is not empty, a range that is given
by a list has two bounds, and neither a bound nor a pattern is null. -/
structure FilterSpec.HasOperands (filter : FilterSpec) : Prop where
  choice : filter.operator = .oneOf → ¬ filter.value.ListsItems []
  bounds : filter.operator = .between → ∀ items, filter.value.ListsItems items → items.length = 2
  bound : filter.operator = .between →
    filter.value ≠ .null ∧ ∀ items, filter.value.ListsItems items → .null ∉ items
  pattern : filter.operator = .like → filter.value ≠ .null

structure ReportSpec.IsWellFormed (schemaName : String) (spec : ReportSpec) : Prop
    extends spec.IsSelection where
  schema : Sql.isIdentifier schemaName = true
  joins : ∀ join ∈ spec.joins, Sql.isIdentifier join.table = true
  filters : ∀ filter ∈ spec.filters, IsColumnName filter.column
  operands : ∀ filter ∈ spec.filters, filter.HasOperands
  groups : ∀ name ∈ spec.groupBy, IsColumnName name
  order : ∀ order ∈ spec.orderBy, IsColumnName order.column

/-! Parts of a specification -/

theorem SelectedColumn.exists_toProjection_iff {selected : SelectedColumn}
    (hsupported : ∀ aggregate ∈ selected.aggregate, aggregate.isSupported = true) :
    (∃ p, selected.toProjection = .ok p) ↔ selected.IsNamed := by
  constructor
  · rintro ⟨p, hp⟩
    have hselects := SelectedColumn.toProjection_selects hp
    have hnamed := hselects.named
    have houtput := hselects.outputNamed
    rw [hselects.source] at hnamed
    rw [hselects.output] at houtput
    exact .of_outputName hnamed.table hnamed.column houtput
  · intro hnamed
    have haggregate : aggregateOf selected.aggregate = .ok () := by
      unfold aggregateOf
      split
      · next name hname => exact absurd (hsupported _ hname) (by simp [Aggregate.isSupported])
      · rfl
    have hsource : ColumnRef.require ⟨selected.table, selected.column⟩ = .ok _ :=
      ColumnRef.require_eq_ok.mpr ⟨rfl, hnamed.table, hnamed.column⟩
    have houtput := requireIdentifier_eq_ok.mpr hnamed.outputName
    refine ⟨⟨⟨selected.table, selected.column⟩, selected.aggregate, selected.outputName⟩, ?_⟩
    exact bind_eq_ok.mpr ⟨_, hsource, bind_eq_ok.mpr ⟨(), houtput,
      bind_eq_ok.mpr ⟨(), haggregate, rfl⟩⟩⟩

theorem JoinSpec.exists_toClause_iff {join : JoinSpec} {text : String}
    (hsupported : join.type.isSupported = true) (htrusted : join.on = .trusted text) :
    (∃ clause, join.toClause = .ok clause) ↔ Sql.isIdentifier join.table = true := by
  constructor
  · rintro ⟨clause, hclause⟩
    have hjoins := JoinSpec.toClause_joins hclause
    have hnamed := hjoins.named
    rwa [hjoins.table] at hnamed
  · intro hname
    unfold JoinSpec.toClause
    split
    · next name htype => exact absurd hsupported (by simp [htype, JoinType.isSupported])
    · exact ⟨_, bind_eq_ok.mpr ⟨(), requireIdentifier_eq_ok.mpr hname, by rw [htrusted]; rfl⟩⟩

theorem choices_eq_nil {v : Value} : choices v = [] ↔ v.ListsItems [] := by
  unfold choices
  split
  · simp [Value.ListsItems]
  · simp [Value.ListsItems]
  · next hlist htuple =>
      refine iff_of_false (List.cons_ne_nil _ _) ?_
      rintro (rfl | rfl)
      · exact hlist [] rfl
      · exact htuple [] rfl

theorem Value.ListsItems.unique {v : Value} {xs ys : List Value} (h : v.ListsItems xs)
    (h' : v.ListsItems ys) : xs = ys := by
  rcases h with rfl | rfl
  · simpa [Value.ListsItems] using h'
  · simpa [Value.ListsItems] using h'

theorem bounds?_eq_some {v low high : Value} :
    bounds? v = some (low, high) ↔
      v.ListsItems [low, high] ∨ (∀ items, ¬ v.ListsItems items) ∧ low = v ∧ high = v := by
  unfold bounds? Value.ListsItems
  split
  · next items => split <;> simp_all
  · next items => split <;> simp_all
  · next hlist htuple => simp_all [eq_comm]

/-- Bounds that are there and not null, as a filter is asked for them. -/
theorem exists_bounds_iff {v : Value} :
    (∃ low high, bounds? v = some (low, high) ∧ low ≠ .null ∧ high ≠ .null) ↔
      (∀ items, v.ListsItems items → items.length = 2) ∧
        v ≠ .null ∧ ∀ items, v.ListsItems items → .null ∉ items := by
  simp only [bounds?_eq_some]
  constructor
  · rintro ⟨low, high, hlists | ⟨hsingle, rfl, rfl⟩, hlow, hhigh⟩
    · refine ⟨fun items hitems => ?_, ?_, fun items hitems => ?_⟩
      · rw [hitems.unique hlists]
        rfl
      · rintro rfl
        rcases hlists with h | h
        · cases h
        · cases h
      · rw [hitems.unique hlists]
        simp [hlow.symm, hhigh.symm]
    · exact ⟨fun items h => absurd h (hsingle items), hlow, fun items h => absurd h (hsingle items)⟩
  · rintro ⟨hlength, hnull, hitems⟩
    by_cases hlists : ∃ items, v.ListsItems items
    · obtain ⟨items, hlists⟩ := hlists
      obtain ⟨low, high, rfl⟩ := List.length_eq_two.mp (hlength items hlists)
      have hboth := hitems _ hlists
      simp only [List.mem_cons, List.not_mem_nil, or_false, not_or] at hboth
      exact ⟨low, high, .inl hlists, Ne.symm hboth.1, Ne.symm hboth.2⟩
    · exact ⟨v, v, .inr ⟨not_exists.mp hlists, rfl, rfl⟩, hnull, hnull⟩

theorem FilterSpec.exists_conditionOn_iff {filter : FilterSpec}
    (hsupported : filter.operator.isSupported = true) {column : ColumnRef} :
    (∃ condition, conditionOn column filter.operator filter.value = .ok condition) ↔
      filter.HasOperands := by
  obtain ⟨name, operator, v⟩ := filter
  cases operator with
  | compare comparison => exact iff_of_true ⟨_, rfl⟩ ⟨nofun, nofun, nofun, nofun⟩
  | like =>
      constructor
      · rintro ⟨condition, h⟩
        exact ⟨nofun, nofun, nofun, fun _ => (likeCondition_eq_ok.mp h).1⟩
      · intro h
        exact ⟨_, likeCondition_eq_ok.mpr ⟨h.pattern rfl, rfl⟩⟩
  | oneOf =>
      constructor
      · rintro ⟨condition, h⟩
        have hsome := (oneOfCondition_eq_ok.mp h).1
        exact ⟨fun _ => mt choices_eq_nil.mpr hsome, nofun, nofun, nofun⟩
      · intro h
        exact ⟨_, oneOfCondition_eq_ok.mpr ⟨mt choices_eq_nil.mp (h.choice rfl), rfl⟩⟩
  | between =>
      constructor
      · rintro ⟨condition, h⟩
        obtain ⟨low, high, hbounds, hlow, hhigh, -⟩ := betweenCondition_eq_ok.mp h
        have hboth := exists_bounds_iff.mp ⟨low, high, hbounds, hlow, hhigh⟩
        exact ⟨nofun, fun _ => hboth.1, fun _ => hboth.2, nofun⟩
      · intro h
        obtain ⟨low, high, hbounds, hlow, hhigh⟩ :=
          exists_bounds_iff.mpr ⟨h.bounds rfl, h.bound rfl⟩
        exact ⟨_, betweenCondition_eq_ok.mpr ⟨low, high, hbounds, hlow, hhigh, rfl⟩⟩
  | unsupported name => cases hsupported

namespace ReportSpec.IsSelection

variable {spec : ReportSpec}

theorem exists_conditionOf_iff (h : spec.IsSelection) {filter : FilterSpec}
    (hsupported : filter.operator.isSupported = true) :
    (∃ condition, spec.conditionOf filter = .ok condition) ↔
      IsColumnName filter.column ∧ filter.HasOperands := by
  constructor
  · rintro ⟨condition, hcondition⟩
    obtain ⟨column, hcolumn, hcondition⟩ := bind_eq_ok.mp hcondition
    exact ⟨h.exists_resolve_iff.mp ⟨column, hcolumn⟩,
      (FilterSpec.exists_conditionOn_iff hsupported).mp ⟨condition, hcondition⟩⟩
  · rintro ⟨hname, hoperands⟩
    obtain ⟨column, hcolumn⟩ := h.exists_resolve_iff.mpr hname
    obtain ⟨condition, hcondition⟩ :=
      (FilterSpec.exists_conditionOn_iff hsupported).mpr hoperands
    exact ⟨condition, bind_eq_ok.mpr ⟨column, hcolumn, hcondition⟩⟩

theorem exists_groupsOf_iff (h : spec.IsSelection) {projections : List Projection} :
    (∃ groups, spec.groupsOf projections = .ok groups) ↔
      ∀ name ∈ spec.groupBy, IsColumnName name := by
  unfold groupsOf
  split
  · simp only [exists_mapM_eq_ok, h.exists_resolve_iff]
  · next hnil =>
      simp only [Bool.not_eq_true, Bool.not_eq_false', List.isEmpty_iff] at hnil
      rw [hnil]
      refine iff_of_true ?_ (List.forall_mem_nil _)
      split
      · exact ⟨_, rfl⟩
      · exact ⟨_, rfl⟩

/-- A name of an order is that of a column also where it means an output. -/
theorem exists_sortTarget_iff (h : spec.IsSelection) {name : String} :
    (∃ target, spec.sortTarget name = .ok target) ↔ IsColumnName name := by
  unfold sortTarget
  split
  · next houtput =>
      simp only [Bool.and_eq_true, List.any_eq_true, beq_iff_eq] at houtput
      obtain ⟨-, selected, hselected, -, rfl⟩ := houtput
      exact iff_of_true ⟨_, rfl⟩ (.inl (h.selected selected hselected).outputName)
  · rw [← h.exists_resolve_iff]
    constructor
    · rintro ⟨target, htarget⟩
      obtain ⟨ref, href, -⟩ := bind_eq_ok.mp htarget
      exact ⟨ref, href⟩
    · rintro ⟨ref, href⟩
      exact ⟨_, bind_eq_ok.mpr ⟨ref, href, rfl⟩⟩

theorem exists_sortKey_iff (h : spec.IsSelection) {order : OrderSpec}
    (hsupported : order.direction.isSupported = true) :
    (∃ key, spec.sortKey order = .ok key) ↔ IsColumnName order.column := by
  rw [← h.exists_sortTarget_iff]
  unfold sortKey
  split
  · next name hname => exact absurd hsupported (by simp [hname, SortDirection.isSupported])
  · constructor
    · rintro ⟨key, hkey⟩
      obtain ⟨target, htarget, -⟩ := bind_eq_ok.mp hkey
      exact ⟨target, htarget⟩
    · rintro ⟨target, htarget⟩
      exact ⟨_, bind_eq_ok.mpr ⟨target, htarget, rfl⟩⟩

end ReportSpec.IsSelection

/-! Specifications -/

namespace ReportSpec

variable {schemaName : String} {spec : ReportSpec}

theorem Builds.isSelection {query : Query} (h : spec.Builds query) (supported : spec.IsSupported) :
    spec.IsSelection where
  hasSource hnil := by
    have hsource := h.source
    rw [hnil] at hsource
    cases hsource
  sources := h.sources
  hasSelected hnil := by
    have hselected := h.selected
    rw [hnil] at hselected
    cases hselected
  selected selected hmem := by
    have hprojection := exists_mapM_eq_ok.mp ⟨_, h.projections⟩ selected hmem
    have haggregate := supported.aggregates selected hmem
    exact (SelectedColumn.exists_toProjection_iff haggregate).mp hprojection

theorem Builds.isWellFormed {query : Query} (h : spec.Builds query) (supported : spec.IsSupported)
    (trusted : spec.IsTrusted) (hschema : Sql.isIdentifier schemaName = true) :
    spec.IsWellFormed schemaName := by
  have hselection := h.isSelection supported
  have hconditions : ∀ filter ∈ spec.filters,
      IsColumnName filter.column ∧ filter.HasOperands := by
    intro filter hfilter
    have hcondition := exists_mapM_eq_ok.mp ⟨_, h.conditions⟩ filter hfilter
    exact (hselection.exists_conditionOf_iff (supported.operators filter hfilter)).mp hcondition
  refine
    { hselection with
      schema := hschema
      joins := fun join hjoin => ?_
      filters := fun filter hfilter => (hconditions filter hfilter).1
      operands := fun filter hfilter => (hconditions filter hfilter).2
      groups := hselection.exists_groupsOf_iff.mp ⟨_, h.groups⟩
      order := fun order horder => ?_ }
  · obtain ⟨text, htext⟩ := trusted join hjoin
    exact (JoinSpec.exists_toClause_iff (supported.joins join hjoin) htext).mp
      (exists_mapM_eq_ok.mp ⟨_, h.joins⟩ join hjoin)
  · exact (hselection.exists_sortKey_iff (supported.directions order horder)).mp
      (exists_mapM_eq_ok.mp ⟨_, h.order⟩ order horder)

theorem IsWellFormed.exists_builds (h : spec.IsWellFormed schemaName)
    (supported : spec.IsSupported) (trusted : spec.IsTrusted) : ∃ query, spec.Builds query := by
  have hselection := h.toIsSelection
  obtain ⟨source, rest, hsources⟩ := List.exists_cons_of_ne_nil h.hasSource
  obtain ⟨projections, hprojections⟩ := exists_mapM_eq_ok.mpr fun selected hmem =>
    (SelectedColumn.exists_toProjection_iff (supported.aggregates selected hmem)).mpr
      (h.selected selected hmem)
  obtain ⟨joins, hjoins⟩ := exists_mapM_eq_ok.mpr fun join hjoin =>
    have ⟨_, htext⟩ := trusted join hjoin
    (JoinSpec.exists_toClause_iff (supported.joins join hjoin) htext).mpr (h.joins join hjoin)
  obtain ⟨conditions, hconditions⟩ := exists_mapM_eq_ok.mpr fun filter hfilter =>
    (hselection.exists_conditionOf_iff (supported.operators filter hfilter)).mpr
      ⟨h.filters filter hfilter, h.operands filter hfilter⟩
  obtain ⟨groups, hgroups⟩ : ∃ groups, spec.groupsOf projections = .ok groups :=
    hselection.exists_groupsOf_iff.mpr h.groups
  obtain ⟨order, horder⟩ := exists_mapM_eq_ok.mpr fun order horder =>
    (hselection.exists_sortKey_iff (supported.directions order horder)).mpr (h.order order horder)
  exact ⟨⟨projections, source, joins, conditions, groups, order⟩,
    { source := by rw [hsources]; rfl
      selected := Bool.eq_false_iff.mpr (mt List.isEmpty_iff.mp h.hasSelected)
      sources := h.sources
      projections := hprojections
      joins := hjoins
      conditions := hconditions
      groups := hgroups
      order := horder }⟩

/-- Where the joins are trusted, what is supported compiles just if it is well-formed. -/
theorem exists_compile_iff (supported : spec.IsSupported) (trusted : spec.IsTrusted) :
    (∃ text, compile schemaName spec = .ok text) ↔ spec.IsWellFormed schemaName := by
  constructor
  · rintro ⟨text, htext⟩
    obtain ⟨hschema, query, hquery, -⟩ := compile_eq_ok.mp htext
    exact (toQuery_eq_ok.mp hquery).isWellFormed supported trusted hschema
  · intro h
    obtain ⟨query, hquery⟩ := h.exists_builds supported trusted
    exact ⟨_, compile_eq_ok.mpr ⟨h.schema, query, toQuery_eq_ok.mpr hquery, rfl⟩⟩

/-- What is told of a specification that yields no query: a name that is none, or what is not
well-formed. -/
def IsRefusal (fault : Fault) : Prop :=
  (∃ name, fault = .invalidIdentifier (.text name)) ∨ ∃ reason, fault = .spec reason

theorem isRefusal_of_isTold {fault : QueryFault} (h : fault.IsTold) :
    IsRefusal (fault.toFault schemaName) := by
  have hinput := h schemaName
  cases fault with
  | identifier name => exact .inl ⟨name, rfl⟩
  | spec reason => exact .inr ⟨_, rfl⟩
  | untrustedJoin on =>
      cases on with
      | trusted text => cases hinput
      | untrusted given => cases hinput
  | noItem => cases hinput

theorem failsOnly_compile (trusted : spec.IsTrusted) :
    FailsOnly IsRefusal (compile schemaName spec) := by
  refine FailsOnly.bind ?_ fun _ => ?_
  · unfold Sql.requireIdentifier
    split
    · exact .ok ()
    · exact .fault (.inl ⟨schemaName, rfl⟩)
  · cases hquery : spec.toQuery with
    | ok query => exact .ok _
    | error fault => exact .fault (isRefusal_of_isTold (failsOnly_toQuery trusted fault hquery))

theorem isWellFormed_trustJoins :
    spec.trustJoins.IsWellFormed schemaName ↔ spec.IsWellFormed schemaName := by
  have hjoins : (∀ join ∈ spec.trustJoins.joins, Sql.isIdentifier join.table = true) ↔
      ∀ join ∈ spec.joins, Sql.isIdentifier join.table = true := List.forall_mem_map
  exact ⟨fun h => { h with joins := hjoins.mp h.joins },
    fun h => { h with joins := hjoins.mpr h.joins }⟩

/-- A specification that was read from a request, by a role that may write its joins, compiles
just if it is well-formed, and is refused otherwise. -/
theorem compile_accepts_wellFormed {given role : Value} {managers : List String}
    {authorized : ReportSpec} (hread : read given = .valid spec)
    (hauthorized : spec.authorizeJoins managers role = .ok authorized) :
    ((∃ text, compile schemaName authorized = .ok text) ↔ spec.IsWellFormed schemaName) ∧
      (¬ spec.IsWellFormed schemaName →
        ∃ fault, compile schemaName authorized = .error fault ∧ IsRefusal fault) := by
  have hsupported := isSupported_trustJoins.mpr (ensures_supported given spec hread)
  have htrusted := spec.isTrusted_trustJoins
  unfold authorizeJoins at hauthorized
  split at hauthorized
  · cases hauthorized
    have haccepts : (∃ text, compile schemaName spec.trustJoins = .ok text) ↔
        spec.IsWellFormed schemaName :=
      (exists_compile_iff hsupported htrusted).trans isWellFormed_trustJoins
    refine ⟨haccepts, fun hill => ?_⟩
    cases hcompile : compile schemaName spec.trustJoins with
    | ok text => exact absurd (haccepts.mp ⟨text, hcompile⟩) hill
    | error fault => exact ⟨fault, rfl, failsOnly_compile htrusted fault hcompile⟩
  · cases hauthorized

/-- A manager's report of two joined tables compiles if both bounds of its filter are there. -/
theorem compile_accepts_wellFormed_of_bounds :
    let given (high : Value) : Value := .mapping
      [(.text "data_sources", .list [.text "invoices"]),
       (.text "joins", .list [.mapping [(.text "type", .text "left"),
         (.text "table", .text "students"), (.text "on", .text "student_id = students.id")]]),
       (.text "selected_columns", .list [.mapping [(.text "table", .text "invoices"),
         (.text "column", .text "amount"), (.text "aggregate", .text "sum")]]),
       (.text "filters", .list [.mapping [(.text "column", .text "students.age"),
         (.text "operator", .text "BETWEEN"), (.text "value", .list [.int 6, high])]])]
    (∃ spec authorized, read (given (.int 12)) = .valid spec ∧
      spec.authorizeJoins ["admin"] (.text "admin") = .ok authorized ∧
      spec.IsWellFormed "tenant_a" ∧ ∃ text, compile "tenant_a" authorized = .ok text) ∧
    ∃ spec authorized, read (given .null) = .valid spec ∧
      spec.authorizeJoins ["admin"] (.text "admin") = .ok authorized ∧
      ¬ spec.IsWellFormed "tenant_a" ∧
      ∃ fault, compile "tenant_a" authorized = .error fault ∧ IsRefusal fault := by
  intro given
  let spec (high : Value) : ReportSpec :=
    { dataSources := ["invoices"]
      joins := [⟨.left, "students", .untrusted (.text "student_id = students.id")⟩]
      selectedColumns := [⟨"invoices", "amount", none, some .sum⟩]
      filters := [⟨"students.age", .between, .list [.int 6, high]⟩]
      groupBy := []
      orderBy := [] }
  have hread : ∀ high, read (given high) = .valid (spec high) := fun _ => rfl
  have hauthorized : ∀ high, (spec high).authorizeJoins ["admin"] (.text "admin") =
      .ok (spec high).trustJoins := fun _ => rfl
  have hill : ¬ (spec .null).IsWellFormed "tenant_a" := fun h =>
    ((h.operands _ List.mem_cons_self).bound rfl).2 _ (.inl rfl) (by simp)
  have hcompiles : ∃ text, compile "tenant_a" (spec (.int 12)).trustJoins = .ok text := ⟨_, rfl⟩
  obtain ⟨haccepts, -⟩ := compile_accepts_wellFormed (hread (.int 12)) (hauthorized (.int 12))
  obtain ⟨-, hrefuses⟩ := compile_accepts_wellFormed (hread .null) (hauthorized .null)
  exact ⟨⟨_, _, hread _, hauthorized _, haccepts.mp hcompiles, hcompiles⟩,
    _, _, hread _, hauthorized _, hill, hrefuses hill⟩

end ReportSpec

end TenantReports
