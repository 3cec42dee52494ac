import TenantReports.Proofs.Metrics.Columns

/-!
The changes between two summaries: of the number of rows, and of each column that is numeric in
both. Nothing is divided by zero on the way, and of the order of the rows only the first one counts.
-/

namespace TenantReports

open Entries (collect foundUnder)

/-! Divisors -/

/-- Any fault but a division by zero. -/
def Fault.IsNoDivision (fault : Fault) : Prop := fault ≠ .number .zeroDivisor

theorem Value.IsNoReal.isNoDivision {fault : Fault} (h : IsNoReal fault) : fault.IsNoDivision := by
  rcases h with rfl | ⟨number, hnumber, rfl⟩
  · exact fun heq => nomatch heq
  · exact fun heq => hnumber (Fault.number.inj heq)

namespace Metrics

variable {rows rows' : List Entries} {now now' : DateTime} {current previous : Entries}
  {name : String} {key : Value}

theorem failsOnly_change (x y : Float) : FailsOnly Fault.IsNoDivision (change x y) := by
  obtain ⟨value, hvalue⟩ := exists_change_eq_ok x y
  rw [hvalue]
  exact .ok value

theorem failsOnly_toReal (v : Value) : FailsOnly Fault.IsNoDivision v.toReal :=
  fun fault h => (v.failsOnly_toReal fault h).isNoDivision

theorem failsOnly_changeOf (x y : Value) : FailsOnly Fault.IsNoDivision (changeOf x y) :=
  (failsOnly_toReal x).bind fun _ => (failsOnly_toReal y).bind fun _ => failsOnly_change _ _

theorem failsOnly_changeOf? (x y : Value) : FailsOnly Fault.IsNoDivision (changeOf? x y) := by
  unfold changeOf?
  split
  · split
    · exact (failsOnly_changeOf _ _).bind fun _ => .ok _
    · exact .ok none
  · split
    · exact (failsOnly_changeOf _ _).bind fun _ => .ok _
    · exact .ok none

theorem failsOnly_compare (current previous : Entries) :
    FailsOnly Fault.IsNoDivision (compare current previous) := by
  refine .foldlM (fun changes metric _ => ?_) []
  unfold addChange
  split
  · exact .ok changes
  · split
    · exact .ok changes
    · refine (failsOnly_changeOf? _ _).bind fun found => ?_
      cases found with
      | some value => exact .ok _
      | none => exact .ok _

/-- The sum of a column that is numeric in the first row is divided by the count of its numbers,
which the first row's is one of. -/
theorem failsOnly_summarize (hrows : ∀ row ∈ rows, row.IsRow) (now : DateTime) :
    FailsOnly Fault.IsNoDivision (summarize rows now) := by
  refine .foldlM (fun metrics column hcolumn => ?_) _
  unfold addColumn
  split
  · next hnumber =>
      refine FailsOnly.bind ?_ fun summary => .ok _
      have hnumbers : FailsOnly Fault.IsNoDivision (numbersOf rows column.1) :=
        .mapM fun v _ => failsOnly_toReal v
      unfold summarizeColumn
      cases hread : numbersOf rows column.1 with
      | error fault => exact .fault (hnumbers fault hread)
      | ok numbers =>
          have hfirst := (Entries.isRow_headD hrows).get?_of_mem hcolumn
          obtain ⟨summary, hsummary⟩ := ColumnSummary.exists_ofNumbers_iff.mpr
            (numbersOf_ne_nil hfirst hnumber hread)
          change FailsOnly _ (ColumnSummary.ofNumbers numbers)
          rw [hsummary]
          exact .ok summary
  · exact .ok metrics

/-! Which rows have a summary -/

/-- The values under a key that count as numbers. -/
def cellsUnder (rows : List Entries) (key : Value) : List Value :=
  rows.filterMap fun row => (row.get? key).filter Value.isNumber

theorem exists_summarizeColumn_iff : (∃ summary, summarizeColumn rows key = .ok summary) ↔
    cellsUnder rows key ≠ [] ∧ ∀ v ∈ cellsUnder rows key, ∃ x, v.toReal = .ok x := by
  rw [← exists_mapM_eq_ok]
  constructor
  · rintro ⟨summary, h⟩
    obtain ⟨numbers, hnumbers, hsummary⟩ := bind_eq_ok.mp h
    have hlength := (mapM_eq_ok.mp hnumbers).length_eq
    have hne := ColumnSummary.exists_ofNumbers_iff.mp ⟨summary, hsummary⟩
    refine ⟨fun hnone => hne ?_, numbers, hnumbers⟩
    exact List.eq_nil_of_length_eq_zero (hlength.symm.trans (congrArg List.length hnone))
  · rintro ⟨hne, numbers, hnumbers⟩
    have hlength := (mapM_eq_ok.mp hnumbers).length_eq
    obtain ⟨summary, hsummary⟩ := ColumnSummary.exists_ofNumbers_iff.mpr fun hnone : numbers = [] =>
      hne (List.eq_nil_of_length_eq_zero (hlength.trans (congrArg List.length hnone)))
    exact ⟨summary, bind_eq_ok.mpr ⟨numbers, hnumbers, hsummary⟩⟩

theorem exists_summarize_iff : (∃ metrics, summarize rows now = .ok metrics) ↔
    ∀ column ∈ rows.headD [], column.2.isNumber = true →
      ∃ summary, summarizeColumn rows column.1 = .ok summary := by
  rw [summarize_eq_collected, Entries.exists_collected_iff]
  refine forall₂_congr fun column _ => ?_
  unfold columnFigures?
  split
  · next hnumber =>
      constructor
      · rintro ⟨found, hfound⟩ -
        obtain ⟨summary, hsummary, -⟩ := bind_eq_ok.mp hfound
        exact ⟨summary, hsummary⟩
      · intro h
        obtain ⟨summary, hsummary⟩ := h hnumber
        exact ⟨_, bind_eq_ok.mpr ⟨summary, hsummary, rfl⟩⟩
  · next hnumber => exact iff_of_true ⟨none, rfl⟩ fun h => absurd h hnumber

/-- The same rows with the same first one, and the others in any order. -/
def IsReordering (rows reordered : List Entries) : Prop :=
  rows.head? = reordered.head? ∧ rows.tail.Perm reordered.tail

namespace IsReordering

variable {reordered : List Entries}

theorem headD_eq (h : IsReordering rows reordered) : rows.headD [] = reordered.headD [] := by
  rw [List.headD_eq_head?_getD, List.headD_eq_head?_getD, h.1]

theorem perm (h : IsReordering rows reordered) : rows.Perm reordered := by
  obtain ⟨hfirst, hrest⟩ := h
  cases rows with
  | nil =>
      cases reordered with
      | nil => exact .nil
      | cons first rest => cases hfirst
  | cons first rest =>
      cases reordered with
      | nil => cases hfirst
      | cons other others =>
          cases hfirst
          exact hrest.cons first

theorem isNumericColumn_eq (h : IsReordering rows reordered) (name : String) :
    isNumericColumn reordered name = isNumericColumn rows name := by
  unfold isNumericColumn
  rw [h.headD_eq]

theorem exists_summarize (h : IsReordering rows reordered) (later : DateTime)
    (hsummary : ∃ metrics, summarize rows now = .ok metrics) :
    ∃ metrics, summarize reordered later = .ok metrics := by
  rw [exists_summarize_iff, ← h.headD_eq]
  intro column hcolumn hnumber
  have hcolumn := exists_summarize_iff.mp hsummary column hcolumn hnumber
  have hcells : (cellsUnder rows column.1).Perm (cellsUnder reordered column.1) :=
    h.perm.filterMap _
  rw [exists_summarizeColumn_iff] at hcolumn ⊢
  refine ⟨fun hnone => hcolumn.1 (List.perm_nil.mp (hnone ▸ hcells)), fun v hv => ?_⟩
  exact hcolumn.2 v (hcells.mem_iff.mpr hv)

end IsReordering

/-! Changes -/

/-- Rows with columns that have names of their own, not those of the header. There are no more of
them than memory holds. -/
structure IsTable (rows : List Entries) : Prop where
  named : ∀ row ∈ rows, row.IsRow
  ownNames : ∀ row ∈ rows,
    row.has (.text "row_count") = false ∧ row.has (.text "timestamp") = false
  length : rows.length < 2 ^ 64

namespace IsTable

theorem not_numeric (h : IsTable rows) :
    isNumericColumn rows "row_count" = false ∧ isNumericColumn rows "timestamp" = false := by
  unfold isNumericColumn
  cases rows with
  | nil => exact ⟨rfl, rfl⟩
  | cons row rows =>
      obtain ⟨hcount, htime⟩ := h.ownNames row List.mem_cons_self
      rw [List.headD_cons, Entries.field?_eq_none hcount, Entries.field?_eq_none htime]
      exact ⟨rfl, rfl⟩

theorem of_isReordering {reordered : List Entries} (h : IsTable rows)
    (hreordered : IsReordering rows reordered) : IsTable reordered where
  named row hrow := h.named row (hreordered.perm.mem_iff.mpr hrow)
  ownNames row hrow := h.ownNames row (hreordered.perm.mem_iff.mpr hrow)
  length := hreordered.perm.length_eq ▸ h.length

theorem field?_row_count (h : IsTable rows) (hsummary : summarize rows now = .ok current) :
    current.field? "row_count" = some (.int rows.length) := by
  rw [field?_summarize_of_not_numeric h.named hsummary h.not_numeric.1, field?_header, if_pos rfl]

/-- A column that is not numeric has no metric. -/
theorem field?_of_not_numeric (h : IsTable rows) (hsummary : summarize rows now = .ok current)
    (hnumeric : isNumericColumn rows name = false) (hcount : "row_count" ≠ name)
    (htime : "timestamp" ≠ name) : current.field? name = none := by
  rw [field?_summarize_of_not_numeric h.named hsummary hnumeric, field?_header, if_neg hcount,
    if_neg htime]

end IsTable

/-- The change of a metric, if the other summary has that metric too. -/
def metricChange? (previous : Entries) (metric : Value × Value) : Result (Option Value) :=
  if metric.1.sameKey (.text "timestamp") then .ok none
  else
    match previous.get? metric.1 with
    | none => .ok none
    | some old => changeOf? metric.2 old

theorem addChange_eq_collect (previous : Entries) :
    addChange previous = collect (metricChange? previous) := by
  funext changes metric
  unfold addChange collect metricChange?
  split
  · rfl
  · cases previous.get? metric.1 with
    | none => rfl
    | some old => rfl

theorem compare_eq_collected (current previous : Entries) :
    compare current previous = current.foldlM (collect (metricChange? previous)) [] := by
  rw [← addChange_eq_collect]
  rfl

/-- What is found for a name: nothing for the time and for what only one of the summaries has. -/
theorem foundUnder_metricChange? (current previous : Entries) (name : String) :
    foundUnder (metricChange? previous) current name =
      if name = "timestamp" then .ok none
      else
        match current.field? name, previous.field? name with
        | some x, some y => changeOf? x y
        | _, _ => .ok none := by
  have hsame : (Value.text name).sameKey (.text "timestamp") = (name == "timestamp") := rfl
  have hprevious : previous.get? (.text name) = previous.field? name := rfl
  unfold foundUnder metricChange?
  cases current.field? name with
  | none => exact (ite_self _).symm
  | some x =>
      dsimp only
      rw [hsame, hprevious]
      simp only [beq_iff_eq]
      cases previous.field? name <;> rfl

theorem changeOf?_counts {m n : Nat} {found : Option Value}
    (h : changeOf? (.int m) (.int n) = .ok found) :
    ∃ value, changeOf (.int m) (.int n) = .ok value ∧ found = some value := by
  change (changeOf _ _ >>= fun value => pure (some value)) = _ at h
  obtain ⟨value, hvalue, heq⟩ := bind_eq_ok.mp h
  exact ⟨value, hvalue, (Except.ok.inj heq).symm⟩

theorem isSome_of_changeOf?_summaries {summary summary' : ColumnSummary} {found : Option Value}
    (h : changeOf? summary.toValue summary'.toValue = .ok found) : found.isSome = true := by
  change (change _ _ >>= fun value => pure (some value)) = _ at h
  obtain ⟨value, -, heq⟩ := bind_eq_ok.mp h
  cases heq
  rfl

/-- The changes between summaries of two tables: one of the numbers of rows, and one for each
column that is numeric in both. -/
structure AreChanges (rows rows' : List Entries) (changes : Entries) : Prop where
  isRow : changes.IsRow
  names : ∀ name, changes.has (.text name) = true ↔ name = "row_count" ∨
    isNumericColumn rows name = true ∧ isNumericColumn rows' name = true
  count : ∃ value, changeOf (.int rows.length) (.int rows'.length) = .ok value ∧
    changes.field? "row_count" = some value

/-- What is found for a column is a change if the column is numeric in both tables. -/
theorem isSome_found_iff (hrows : IsTable rows) (hrows' : IsTable rows')
    (hcurrent : summarize rows now = .ok current) (hprevious : summarize rows' now' = .ok previous)
    (hname : "row_count" ≠ name) {found : Option Value}
    (hfound : foundUnder (metricChange? previous) current name = .ok found) :
    found.isSome = true ↔
      isNumericColumn rows name = true ∧ isNumericColumn rows' name = true := by
  rw [foundUnder_metricChange?] at hfound
  by_cases htime : "timestamp" = name
  · subst htime
    cases hfound
    rw [hrows.not_numeric.2]
    exact iff_of_false Bool.false_ne_true fun h => Bool.false_ne_true h.1
  · rw [if_neg (Ne.symm htime)] at hfound
    cases hnumeric : isNumericColumn rows name with
    | false =>
        rw [hrows.field?_of_not_numeric hcurrent hnumeric hname htime] at hfound
        cases hfound
        exact iff_of_false Bool.false_ne_true fun h => Bool.false_ne_true h.1
    | true =>
        obtain ⟨summary, -, hfield⟩ := field?_summarize_of_numeric hrows.named hcurrent hnumeric
        rw [hfield] at hfound
        cases hnumeric' : isNumericColumn rows' name with
        | false =>
            rw [hrows'.field?_of_not_numeric hprevious hnumeric' hname htime] at hfound
            cases hfound
            exact iff_of_false Bool.false_ne_true fun h => Bool.false_ne_true h.2
        | true =>
            obtain ⟨summary', -, hfield'⟩ :=
              field?_summarize_of_numeric hrows'.named hprevious hnumeric'
            rw [hfield'] at hfound
            exact iff_of_true (isSome_of_changeOf?_summaries hfound) ⟨rfl, rfl⟩

theorem exists_compare (hrows : IsTable rows) (hrows' : IsTable rows')
    (hcurrent : summarize rows now = .ok current)
    (hprevious : summarize rows' now' = .ok previous) :
    ∃ changes, compare current previous = .ok changes ∧ AreChanges rows rows' changes := by
  obtain ⟨changes, hchanges⟩ := compare_eq_ok (isMetric_of_summarize hrows.length hcurrent)
    (isMetric_of_summarize hrows'.length hprevious)
  refine ⟨changes, hchanges, ?_⟩
  rw [compare_eq_collected] at hchanges
  have hmetrics := isRow_summarize hrows.named hcurrent
  have hnames (name : String) : ∃ found,
      foundUnder (metricChange? previous) current name = .ok found ∧
        changes.field? name = found := by
    obtain ⟨found, hfound, hfield⟩ := hmetrics.field?_collected hchanges name
    exact ⟨found, hfound, hfield.trans Option.or_none⟩
  have hcount : ∃ value, changeOf (.int rows.length) (.int rows'.length) = .ok value ∧
      changes.field? "row_count" = some value := by
    obtain ⟨found, hfound, hfield⟩ := hnames "row_count"
    rw [foundUnder_metricChange?, hrows.field?_row_count hcurrent,
      hrows'.field?_row_count hprevious] at hfound
    obtain ⟨value, hvalue, rfl⟩ := changeOf?_counts hfound
    exact ⟨value, hvalue, hfield⟩
  refine ⟨.collected ⟨List.forall_mem_nil _, List.nodup_nil⟩ hmetrics.named hchanges, ?_, hcount⟩
  intro name
  obtain ⟨found, hfound, hfield⟩ := hnames name
  rw [Entries.has_eq_isSome_field?]
  by_cases hname : "row_count" = name
  · subst hname
    obtain ⟨value, -, hvalue⟩ := hcount
    rw [hvalue]
    exact iff_of_true rfl (.inl rfl)
  · rw [hfield, isSome_found_iff hrows hrows' hcurrent hprevious hname hfound,
      or_iff_right (Ne.symm hname)]

/-- Summaries and comparisons divide by nothing that is zero. The summaries of two tables can always
be compared, with a change of the number of rows and of just the columns that are numeric in both.
Other rows than the first one can be reordered, and the tables exchanged. -/
theorem compare_shares :
    (∀ (rows : List Entries) (now : DateTime), (∀ row ∈ rows, row.IsRow) →
      summarize rows now ≠ .error (.number .zeroDivisor)) ∧
    (∀ current previous : Entries, compare current previous ≠ .error (.number .zeroDivisor)) ∧
    ∀ (rows rows' : List Entries) (now now' : DateTime) (current previous : Entries),
      IsTable rows → IsTable rows' →
      summarize rows now = .ok current → summarize rows' now' = .ok previous →
      ∃ changes, compare current previous = .ok changes ∧ changes.IsRow ∧
        (∀ name, changes.has (.text name) = true ↔ name = "row_count" ∨
          isNumericColumn rows name = true ∧ isNumericColumn rows' name = true) ∧
        (∀ (reordered reordered' : List Entries) (later later' : DateTime),
          IsReordering rows reordered → IsReordering rows' reordered' →
          ∃ current' previous' changes', summarize reordered later = .ok current' ∧
            summarize reordered' later' = .ok previous' ∧
            compare current' previous' = .ok changes' ∧ changes'.IsRow ∧
            (∀ name, changes'.has (.text name) = changes.has (.text name)) ∧
            changes'.field? "row_count" = changes.field? "row_count") ∧
        ∃ swapped, compare previous current = .ok swapped ∧ swapped.IsRow ∧
          ∀ name, swapped.has (.text name) = changes.has (.text name) := by
  refine ⟨?_, ?_, ?_⟩
  · intro rows now hrows h
    exact failsOnly_summarize hrows now _ h rfl
  · intro current previous h
    exact failsOnly_compare current previous _ h rfl
  intro rows rows' now now' current previous hrows hrows' hcurrent hprevious
  obtain ⟨changes, hchanges, hare⟩ := exists_compare hrows hrows' hcurrent hprevious
  refine ⟨changes, hchanges, hare.isRow, hare.names, ?_, ?_⟩
  · intro reordered reordered' later later' horder horder'
    obtain ⟨current', hcurrent'⟩ := horder.exists_summarize later ⟨current, hcurrent⟩
    obtain ⟨previous', hprevious'⟩ := horder'.exists_summarize later' ⟨previous, hprevious⟩
    obtain ⟨changes', hchanges', hare'⟩ := exists_compare (hrows.of_isReordering horder)
      (hrows'.of_isReordering horder') hcurrent' hprevious'
    refine ⟨current', previous', changes', hcurrent', hprevious', hchanges', hare'.isRow, ?_, ?_⟩
    · intro name
      rw [Bool.eq_iff_iff, hare.names, hare'.names, horder.isNumericColumn_eq,
        horder'.isNumericColumn_eq]
    · obtain ⟨value, hvalue, hfield⟩ := hare.count
      obtain ⟨value', hvalue', hfield'⟩ := hare'.count
      rw [← horder.perm.length_eq, ← horder'.perm.length_eq, hvalue] at hvalue'
      cases hvalue'
      rw [hfield, hfield']
  · obtain ⟨swapped, hswapped, hare'⟩ := exists_compare hrows' hrows hprevious hcurrent
    refine ⟨swapped, hswapped, hare'.isRow, fun name => ?_⟩
    rw [Bool.eq_iff_iff, hare.names, hare'.names, and_comm]

/-- Today's and yesterday's fees: a column that only one of them has, one that is numeric in only
one first row, and one that both have, though not in every row. -/
theorem compare_shares_of_fees :
    let today : List Entries :=
      [[(.text "total", .int 20), (.text "paid", .bool true), (.text "due", .float 1.5)],
       [(.text "total", .null), (.text "paid", .int 1), (.text "due", .float 0.0)]]
    let yesterday : List Entries :=
      [[(.text "total", .int 0), (.text "paid", .int 3), (.text "class", .text "7A")]]
    let now : DateTime := ⟨⟨2024, 5, 2⟩, ⟨9, 0, 0, 0⟩, .offset 0⟩
    IsTable today ∧ IsTable yesterday ∧ ∃ current previous changes,
      summarize today now = .ok current ∧ summarize yesterday now = .ok previous ∧
      compare current previous = .ok changes ∧ changes.has (.text "total") = true ∧
      changes.has (.text "paid") = false ∧ changes.has (.text "due") = false := by
  intro today yesterday now
  have htoday : IsTable today := by
    refine ⟨List.forall_mem_cons.mpr ⟨⟨?_, ?_⟩, List.forall_mem_singleton.mpr ⟨?_, ?_⟩⟩, ?_, ?_⟩
    · simp [Entries.HasTextKeys]
    · simp
    · simp [Entries.HasTextKeys]
    · simp
    · exact List.forall_mem_cons.mpr ⟨⟨rfl, rfl⟩, List.forall_mem_singleton.mpr ⟨rfl, rfl⟩⟩
    · decide
  have hyesterday : IsTable yesterday := by
    refine ⟨List.forall_mem_singleton.mpr ⟨?_, ?_⟩, ?_, ?_⟩
    · simp [Entries.HasTextKeys]
    · simp
    · exact List.forall_mem_singleton.mpr ⟨rfl, rfl⟩
    · decide
  obtain ⟨current, hcurrent⟩ := isSome_toOption_iff.mp
    (show (summarize today now).toOption.isSome = true by decide +kernel)
  obtain ⟨previous, hprevious⟩ := isSome_toOption_iff.mp
    (show (summarize yesterday now).toOption.isSome = true by decide +kernel)
  obtain ⟨changes, hchanges, -, hnames, -⟩ := compare_shares.2.2 today yesterday now now current
    previous htoday hyesterday hcurrent hprevious
  refine ⟨htoday, hyesterday, current, previous, changes, hcurrent, hprevious, hchanges, ?_, ?_, ?_⟩
  · exact (hnames "total").mpr (.inr ⟨by decide, by decide⟩)
  · exact Bool.eq_false_iff.mpr fun hpaid => absurd ((hnames "paid").mp hpaid) (by decide)
  · exact Bool.eq_false_iff.mpr fun hdue => absurd ((hnames "due").mp hdue) (by decide)

end Metrics

end TenantReports
