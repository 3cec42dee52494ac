import Mathlib.Data.List.Nodup
import TenantReports.Proofs.Report.ColumnName

/-!
Names of outputs in a grouping or an order. The output of an aggregate can be ordered by. The output
of any other column means that column where it has an alias of its own; a name that was made from
table and column is not found again, and means a column of the first data source.
-/

namespace TenantReports

open QueryResult

namespace SelectedColumn

variable {selected : SelectedColumn} {name : String}

theorem hasAlias_iff : selected.hasAlias name = true ↔
    name ≠ "" ∧ selected.outputAlias = some name := by
  unfold hasAlias
  cases selected.outputAlias with
  | none => simp
  | some given =>
      constructor
      · intro h
        obtain ⟨hsome, rfl⟩ : given ≠ "" ∧ given = name := by simpa using h
        exact ⟨hsome, rfl⟩
      · rintro ⟨hsome, ⟨⟩⟩
        simpa using hsome

theorem outputName_of_hasAlias (h : selected.hasAlias name = true) :
    selected.outputName = name := by
  obtain ⟨hsome, halias⟩ := hasAlias_iff.mp h
  unfold outputName
  rw [halias]
  exact if_neg hsome

/-- The column that the name of an output means behind a first data source `source`. -/
def outputRef (source : String) (selected : SelectedColumn) : ColumnRef :=
  if selected.hasAlias selected.outputName then ⟨selected.table, selected.column⟩
  else ⟨source, selected.outputName⟩

/-- What the name of an output is sorted by. -/
def outputTarget (source : String) (selected : SelectedColumn) : SortTarget :=
  if selected.aggregate.isSome then .output selected.outputName
  else .column (selected.outputRef source)

end SelectedColumn

/-- No two outputs have one name, and none has the name of a selected column. -/
structure ReportSpec.HasDistinctOutputs (spec : ReportSpec) : Prop where
  outputs : (spec.selectedColumns.map SelectedColumn.outputName).Nodup
  columns : ∀ selected ∈ spec.selectedColumns, ∀ other ∈ spec.selectedColumns,
    selected.outputName ≠ other.column

/-- The names of outputs in a query: what each of them means in a grouping and in an order, and
whether that is what stands in front of the name where it is selected. -/
structure Query.NamesOutputs (spec : ReportSpec) (q : Query) : Prop where
  order : List.Forall₂ (fun order key => ∀ selected ∈ spec.selectedColumns,
    selected.outputName = order.column → key.target = selected.outputTarget q.source)
    spec.orderBy q.order
  groups : spec.groupBy ≠ [] → List.Forall₂ (fun name ref => ∀ selected ∈ spec.selectedColumns,
    selected.outputName = name → ref = selected.outputRef q.source) spec.groupBy q.groups
  selected : ∀ selected ∈ spec.selectedColumns, ∃ p ∈ q.projections,
    Projection.Selects selected p ∧
      (selected.outputRef q.source = p.source ↔ selected.hasAlias selected.outputName = true)

namespace ReportSpec

variable {spec : ReportSpec} {selected : SelectedColumn} {source : String}

namespace HasDistinctOutputs

theorem eq_of_outputName (h : spec.HasDistinctOutputs) (hmem : selected ∈ spec.selectedColumns)
    {other : SelectedColumn} (hother : other ∈ spec.selectedColumns)
    (hname : other.outputName = selected.outputName) : other = selected :=
  List.inj_on_of_nodup_map h.outputs hother hmem hname

/-- The name of an output is found by its alias or not at all. -/
theorem selected?_outputName (h : spec.HasDistinctOutputs)
    (hmem : selected ∈ spec.selectedColumns) :
    spec.selected? selected.outputName =
      if selected.hasAlias selected.outputName then some selected else none := by
  have hcolumn : (spec.selectedColumns.find? fun other => other.column == selected.outputName) =
      none := by
    rw [List.find?_eq_none]
    intro other hother hsame
    exact h.columns selected hmem other hother (beq_iff_eq.mp hsame).symm
  unfold selected?
  rw [hcolumn, Option.none_or]
  cases hfound : spec.selectedColumns.find? fun other => other.hasAlias selected.outputName with
  | none =>
      rw [if_neg]
      exact List.find?_eq_none.mp hfound selected hmem
  | some other =>
      have halias : other.hasAlias selected.outputName = true :=
        List.find?_some (p := fun o : SelectedColumn => o.hasAlias selected.outputName) hfound
      obtain rfl := h.eq_of_outputName hmem (List.mem_of_find?_eq_some hfound)
        (SelectedColumn.outputName_of_hasAlias halias)
      rw [if_pos halias]

theorem resolve_outputName (h : spec.HasDistinctOutputs) (hmem : selected ∈ spec.selectedColumns)
    (hname : Sql.isIdentifier selected.outputName = true)
    (hsource : spec.dataSources.head? = some source) {ref : ColumnRef}
    (hresolve : spec.resolve selected.outputName = .ok ref) :
    ref = selected.outputRef source := by
  obtain ⟨located, hlocated, hrequire⟩ := bind_eq_ok.mp hresolve
  obtain ⟨rfl, -⟩ := ColumnRef.require_eq_ok.mp hrequire
  obtain ⟨rest, hsources⟩ := List.head?_eq_some_iff.mp hsource
  unfold locate at hlocated
  rw [splitAtDot?_bare (dot_not_mem_identifier hname)] at hlocated
  obtain ⟨_, -, hlocated⟩ := bind_eq_ok.mp hlocated
  rw [h.selected?_outputName hmem, hsources] at hlocated
  unfold SelectedColumn.outputRef
  split
  · next halias =>
      rw [if_pos halias] at hlocated
      cases hlocated
      rfl
  · next halias =>
      rw [if_neg halias] at hlocated
      cases hlocated
      rfl

theorem sortTarget_outputName (h : spec.HasDistinctOutputs)
    (hmem : selected ∈ spec.selectedColumns)
    (hname : Sql.isIdentifier selected.outputName = true)
    (hsource : spec.dataSources.head? = some source) {target : SortTarget}
    (htarget : spec.sortTarget selected.outputName = .ok target) :
    target = selected.outputTarget source := by
  unfold SelectedColumn.outputTarget
  unfold sortTarget at htarget
  rw [splitAtDot?_bare (dot_not_mem_identifier hname)] at htarget
  split at htarget
  · next houtput =>
      cases htarget
      simp only [Bool.and_eq_true, List.any_eq_true, beq_iff_eq] at houtput
      obtain ⟨-, other, hother, haggregate, hsame⟩ := houtput
      obtain rfl := h.eq_of_outputName hmem hother hsame
      rw [if_pos haggregate]
  · next hcolumn =>
      obtain ⟨ref, href, htarget⟩ := bind_eq_ok.mp htarget
      cases htarget
      rw [h.resolve_outputName hmem hname hsource href, if_neg]
      intro haggregate
      refine hcolumn ?_
      simp only [Bool.and_eq_true, List.any_eq_true, beq_iff_eq]
      exact ⟨rfl, selected, hmem, haggregate, rfl⟩

theorem outputRef_eq_iff (h : spec.HasDistinctOutputs) (hmem : selected ∈ spec.selectedColumns) :
    selected.outputRef source = ⟨selected.table, selected.column⟩ ↔
      selected.hasAlias selected.outputName = true := by
  unfold SelectedColumn.outputRef
  split
  · next halias => exact iff_of_true rfl halias
  · next halias =>
      refine iff_of_false (fun hsame => ?_) halias
      exact h.columns selected hmem selected hmem (congrArg ColumnRef.column hsame)

end HasDistinctOutputs

theorem Builds.namesOutputs {query : Query} (h : spec.Builds query)
    (hdistinct : spec.HasDistinctOutputs) : query.NamesOutputs spec := by
  have hdescribes := h.describes
  have hselects : ∀ selected ∈ spec.selectedColumns, ∃ p ∈ query.projections,
      Projection.Selects selected p := fun selected hmem =>
    exists_of_mem_right hdescribes.projections.flip hmem
  have hnames : ∀ selected ∈ spec.selectedColumns,
      Sql.isIdentifier selected.outputName = true := by
    intro selected hmem
    obtain ⟨p, -, hp⟩ := hselects selected hmem
    rw [← hp.output]
    exact hp.outputNamed
  refine ⟨?_, fun hgroups => ?_, fun selected hmem => ?_⟩
  · refine (mapM_eq_ok.mp h.order).imp fun order key hkey selected hmem hname => ?_
    unfold sortKey at hkey
    split at hkey
    · cases hkey
    · obtain ⟨target, htarget, hkey⟩ := bind_eq_ok.mp hkey
      cases hkey
      rw [← hname] at htarget
      exact hdistinct.sortTarget_outputName hmem (hnames selected hmem) h.source htarget
  · have hresolved := h.groups
    unfold groupsOf at hresolved
    rw [if_pos (by simpa using hgroups)] at hresolved
    refine (mapM_eq_ok.mp hresolved).imp fun name ref href selected hmem hname => ?_
    rw [← hname] at href
    exact hdistinct.resolve_outputName hmem (hnames selected hmem) h.source href
  · obtain ⟨p, hp, hselected⟩ := hselects selected hmem
    refine ⟨p, hp, hselected, ?_⟩
    rw [hselected.source]
    exact hdistinct.outputRef_eq_iff hmem

end ReportSpec

/-- Where the outputs of a specification have names of their own, the compiled query means by the
name of an output the output of the aggregate in an order, and the selected column elsewhere, if
it has an alias. -/
theorem compile_namesOutputs {schemaName text : String} {spec : ReportSpec}
    (hcompile : compile schemaName spec = .ok text) (hdistinct : spec.HasDistinctOutputs) :
    ∃ query : Query, text = query.text schemaName ∧ query.Describes spec ∧
      query.NamesOutputs spec := by
  obtain ⟨-, query, hquery, htext⟩ := compile_eq_ok.mp hcompile
  have hbuilds := ReportSpec.toQuery_eq_ok.mp hquery
  exact ⟨query, htext, hbuilds.describes, hbuilds.namesOutputs hdistinct⟩

/-- An alias of its own, an aggregate, and a name that was made from table and column. -/
theorem compile_namesOutputs_of_level :
    let spec : ReportSpec :=
      { dataSources := ["students"]
        joins := []
        selectedColumns := [⟨"students", "grade", some "level", none⟩,
          ⟨"invoices", "amount", none, some .sum⟩, ⟨"classes", "name", none, none⟩]
        filters := []
        groupBy := ["level"]
        orderBy := [⟨"invoices_amount", .descending⟩, ⟨"classes_name", .ascending⟩] }
    let text := "SELECT tenant_a.students.grade AS level, SUM(tenant_a.invoices.amount) AS " ++
      "invoices_amount, tenant_a.classes.name AS classes_name FROM tenant_a.students " ++
      "GROUP BY tenant_a.students.grade " ++
      "ORDER BY invoices_amount DESC, tenant_a.students.classes_name ASC"
    compile "tenant_a" spec = .ok text ∧ spec.HasDistinctOutputs ∧
      ∃ query : Query, text = query.text "tenant_a" ∧ query.Describes spec ∧
        query.NamesOutputs spec := by
  intro spec text
  have hcompile : compile "tenant_a" spec = .ok text := eq_ok_of_toOption (by decide +kernel)
  have hdistinct : spec.HasDistinctOutputs := ⟨by decide, by decide⟩
  exact ⟨hcompile, hdistinct, compile_namesOutputs hcompile hdistinct⟩

/-- The order by an output without an alias is one by a column that nothing selects. -/
theorem unaliased_output_misnamed :
    let spec : ReportSpec :=
      { dataSources := ["invoices"]
        joins := []
        selectedColumns := [⟨"invoices", "amount", none, none⟩]
        filters := []
        groupBy := []
        orderBy := [⟨"invoices_amount", .ascending⟩] }
    let text (column : String) := "SELECT tenant_a.invoices.amount AS invoices_amount " ++
      "FROM tenant_a.invoices ORDER BY tenant_a.invoices." ++ column ++ " ASC"
    spec.HasDistinctOutputs ∧ compile "tenant_a" spec = .ok (text "invoices_amount") ∧
      compile "tenant_a" spec ≠ .ok (text "amount") := by
  intro spec text
  have hcompile : compile "tenant_a" spec = .ok (text "invoices_amount") :=
    eq_ok_of_toOption (by decide +kernel)
  refine ⟨⟨by decide, by decide⟩, hcompile, fun hother => ?_⟩
  rw [hcompile] at hother
  exact absurd (Except.ok.inj hother) (by decide)

end TenantReports
