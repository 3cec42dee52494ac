import TenantReports.Proofs.Report.Query
import TenantReports.Proofs.Sql.Basic

/-!
Names of columns: which texts are one, and that each of them means a column where sources and
selected columns are named.
-/

namespace TenantReports

open QueryResult

/-! Names -/

/-- The name of a column: an identifier, or two of them with a dot in between. -/
def IsColumnName (name : String) : Prop :=
  Sql.isIdentifier name = true ∨ ∃ table column, Sql.isIdentifier table = true ∧
    Sql.isIdentifier column = true ∧ name = table ++ "." ++ column

theorem dot_not_mem_identifier {name : String} (h : Sql.isIdentifier name = true) :
    '.' ∉ name.toList := fun hmem => absurd (Sql.isNameChar_of_mem h hmem) (by decide)

theorem splitAtDot?_bare {name : String} (h : '.' ∉ name.toList) : splitAtDot? name = none := by
  have hall : ∀ c ∈ name.toList, decide (c ≠ '.') = true := fun c hc =>
    decide_eq_true fun heq => h (heq ▸ hc)
  unfold splitAtDot?
  rw [List.dropWhile_eq_nil_iff.mpr hall]

theorem splitAtDot?_qualified {table column : String} (h : '.' ∉ table.toList) :
    splitAtDot? (table ++ "." ++ column) = some (table, column) := by
  have hall : ∀ c ∈ table.toList, decide (c ≠ '.') = true := fun c hc =>
    decide_eq_true fun heq => h (heq ▸ hc)
  have hname : (table ++ "." ++ column).toList = table.toList ++ '.' :: column.toList := by simp
  unfold splitAtDot?
  rw [hname, List.takeWhile_append_of_pos hall, List.dropWhile_append_of_pos hall]
  simp

theorem exists_qualified {name : String} (h : '.' ∈ name.toList) :
    ∃ table column, '.' ∉ table.toList ∧ name = table ++ "." ++ column := by
  obtain ⟨table, column, hname, hdot⟩ := List.eq_append_cons_of_mem h
  refine ⟨String.ofList table, String.ofList column, ?_, String.toList_inj.mp ?_⟩
  · rwa [String.toList_ofList]
  · rw [hname]
    simp

theorem isColumnName_bare {name : String} (h : '.' ∉ name.toList) :
    IsColumnName name ↔ Sql.isIdentifier name = true := by
  refine ⟨fun hname => ?_, .inl⟩
  rcases hname with hname | ⟨table, column, -, -, rfl⟩
  · exact hname
  · simp at h

theorem isColumnName_qualified {table column : String} (h : '.' ∉ table.toList) :
    IsColumnName (table ++ "." ++ column) ↔
      Sql.isIdentifier table = true ∧ Sql.isIdentifier column = true := by
  refine ⟨fun hname => ?_, fun ⟨htable, hcolumn⟩ => .inr ⟨table, column, htable, hcolumn, rfl⟩⟩
  rcases hname with hname | ⟨table', column', htable, hcolumn, heq⟩
  · exact absurd (show '.' ∈ (table ++ "." ++ column).toList by simp)
      (dot_not_mem_identifier hname)
  · have hsplit : splitAtDot? (table ++ "." ++ column) = _ := splitAtDot?_qualified h
    rw [heq, splitAtDot?_qualified (dot_not_mem_identifier htable)] at hsplit
    cases hsplit
    exact ⟨htable, hcolumn⟩

/-! Selected columns -/

/-- Table, column and alias are identifiers; an empty alias is none. -/
structure SelectedColumn.IsNamed (selected : SelectedColumn) : Prop where
  table : Sql.isIdentifier selected.table = true
  column : Sql.isIdentifier selected.column = true
  outputAlias : ∀ given ∈ selected.outputAlias, given ≠ "" → Sql.isIdentifier given = true

theorem isIdentifier_defaultName {table column : String} (htable : Sql.isIdentifier table = true)
    (hcolumn : Sql.isIdentifier column = true) :
    Sql.isIdentifier (table ++ "_" ++ column) = true := by
  refine Sql.isIdentifier_iff.mpr ⟨fun hnil => ?_, fun c hc => ?_⟩
  · have := congrArg String.length hnil
    simp at this
  · simp only [String.toList_append, List.mem_append] at hc
    rcases hc with (hc | hc) | hc
    · exact Sql.isNameChar_of_mem htable hc
    · exact List.all_eq_true.mp (show "_".toList.all Sql.isNameChar = true by decide) c hc
    · exact Sql.isNameChar_of_mem hcolumn hc

theorem SelectedColumn.IsNamed.outputName {selected : SelectedColumn} (h : selected.IsNamed) :
    Sql.isIdentifier selected.outputName = true := by
  have hdefault := isIdentifier_defaultName h.table h.column
  unfold SelectedColumn.outputName
  split
  · next given hgiven =>
      split
      · exact hdefault
      · next hsome => exact h.outputAlias given hgiven hsome
  · exact hdefault

theorem SelectedColumn.IsNamed.of_outputName {selected : SelectedColumn}
    (htable : Sql.isIdentifier selected.table = true)
    (hcolumn : Sql.isIdentifier selected.column = true)
    (houtput : Sql.isIdentifier selected.outputName = true) : selected.IsNamed := by
  refine ⟨htable, hcolumn, fun given hgiven hsome => ?_⟩
  unfold SelectedColumn.outputName at houtput
  rw [hgiven] at houtput
  simpa [hsome] using houtput

/-- A specification reads from named sources and selects named columns. -/
structure ReportSpec.IsSelection (spec : ReportSpec) : Prop where
  hasSource : spec.dataSources ≠ []
  sources : ∀ name ∈ spec.dataSources, Sql.isIdentifier name = true
  hasSelected : spec.selectedColumns ≠ []
  selected : ∀ selected ∈ spec.selectedColumns, selected.IsNamed

/-! What a name means -/

theorem ColumnRef.exists_require_iff {ref : ColumnRef} :
    (∃ ref', ref.require = .ok ref') ↔ ref.Named := by
  simp only [ColumnRef.require_eq_ok, exists_eq_left]

theorem ReportSpec.IsSelection.selected?_named {spec : ReportSpec} (h : spec.IsSelection)
    {name : String} {selected : SelectedColumn} (hselected : spec.selected? name = some selected) :
    selected.IsNamed := by
  rcases Option.or_eq_some_iff.mp hselected with hfound | ⟨-, hfound⟩
  · exact h.selected selected (List.mem_of_find?_eq_some hfound)
  · exact h.selected selected (List.mem_of_find?_eq_some hfound)

/-- What a bare identifier means has a name. -/
theorem ReportSpec.IsSelection.locate_bare {spec : ReportSpec} (h : spec.IsSelection)
    {name : String} (hname : Sql.isIdentifier name = true) :
    ∃ ref, spec.locate name = .ok ref ∧ ref.Named := by
  unfold ReportSpec.locate
  rw [splitAtDot?_bare (dot_not_mem_identifier hname)]
  dsimp only
  rw [requireIdentifier_eq_ok.mpr hname]
  split
  · next selected hselected =>
      have hnamed := h.selected?_named hselected
      exact ⟨_, rfl, hnamed.table, hnamed.column⟩
  · next hsources =>
      refine ⟨_, rfl, h.sources _ ?_, hname⟩
      rw [hsources]
      exact List.mem_cons_self
  · next hnil => exact absurd hnil h.hasSource

theorem ReportSpec.IsSelection.exists_resolve_iff {spec : ReportSpec} (h : spec.IsSelection)
    {name : String} : (∃ ref, spec.resolve name = .ok ref) ↔ IsColumnName name := by
  unfold ReportSpec.resolve
  by_cases hdot : '.' ∈ name.toList
  · obtain ⟨table, column, htable, rfl⟩ := exists_qualified hdot
    unfold ReportSpec.locate
    rw [splitAtDot?_qualified htable, isColumnName_qualified htable]
    exact ColumnRef.exists_require_iff.trans ⟨fun h => ⟨h.table, h.column⟩, fun h => ⟨h.1, h.2⟩⟩
  · rw [isColumnName_bare hdot]
    constructor
    · rintro ⟨ref, href⟩
      obtain ⟨located, hlocated, -⟩ := bind_eq_ok.mp href
      unfold ReportSpec.locate at hlocated
      rw [splitAtDot?_bare hdot] at hlocated
      obtain ⟨_, hname, -⟩ := bind_eq_ok.mp hlocated
      exact requireIdentifier_eq_ok.mp hname
    · intro hname
      obtain ⟨ref, href, hnamed⟩ := h.locate_bare hname
      exact ⟨ref, bind_eq_ok.mpr ⟨ref, href, ColumnRef.require_eq_ok.mpr ⟨rfl, hnamed⟩⟩⟩

end TenantReports
