import TenantReports.Proofs.Value.Settled

/-!
The entries of a summary. Next to the number of rows and the time stands a summary of each column
that is numeric in the first row, and no other entry. Columns share the mapping with the header, so
a numeric column that is called like an entry of the header takes its place.
-/

namespace TenantReports

namespace Entries

variable {entries made out : Entries} {name : String} {v : Value}

theorem IsRow.put (h : made.IsRow) : (made.put (.text name) v).IsRow :=
  ⟨h.named.put, nodup_put h.distinct⟩

/-- Gives the key of an entry a new value, if one is found for it. -/
def collect (found? : Value × Value → Result (Option Value)) (made : Entries)
    (entry : Value × Value) : Result Entries := do
  match ← found? entry with
  | some v => return made.put entry.1 v
  | none => return made

/-- What is found for the entry of a name, if there is one. -/
def foundUnder (found? : Value × Value → Result (Option Value)) (entries : Entries)
    (name : String) : Result (Option Value) :=
  match entries.field? name with
  | some v => found? (.text name, v)
  | none => .ok none

variable {found? : Value × Value → Result (Option Value)}

theorem collect_cases {entry : Value × Value} (h : collect found? made entry = .ok out) :
    (∃ v, found? entry = .ok (some v) ∧ out = made.put entry.1 v) ∨
      found? entry = .ok none ∧ out = made := by
  obtain ⟨found, hfound, hout⟩ := bind_eq_ok.mp h
  cases found with
  | some v => exact .inl ⟨v, hfound, (Except.ok.inj hout).symm⟩
  | none => exact .inr ⟨hfound, (Except.ok.inj hout).symm⟩

theorem exists_collect_iff {entry : Value × Value} :
    (∃ out, collect found? made entry = .ok out) ↔ ∃ found, found? entry = .ok found := by
  constructor
  · rintro ⟨out, h⟩
    obtain ⟨found, hfound, -⟩ := bind_eq_ok.mp h
    exact ⟨found, hfound⟩
  · rintro ⟨found, hfound⟩
    unfold collect
    rw [hfound]
    cases found with
    | some v => exact ⟨_, rfl⟩
    | none => exact ⟨_, rfl⟩

theorem exists_collected_iff : (∃ out, entries.foldlM (collect found?) made = .ok out) ↔
    ∀ entry ∈ entries, ∃ found, found? entry = .ok found := by
  induction entries generalizing made with
  | nil => exact iff_of_true ⟨made, rfl⟩ (List.forall_mem_nil _)
  | cons entry entries ih =>
      rw [List.forall_mem_cons, List.foldlM_cons]
      constructor
      · rintro ⟨out, h⟩
        obtain ⟨next, hnext, hrest⟩ := bind_eq_ok.mp h
        exact ⟨exists_collect_iff.mp ⟨next, hnext⟩, ih.mp ⟨out, hrest⟩⟩
      · rintro ⟨hentry, hentries⟩
        obtain ⟨next, hnext⟩ : ∃ next, collect found? made entry = .ok next :=
          exists_collect_iff.mpr hentry
        obtain ⟨out, hrest⟩ : ∃ out, entries.foldlM (collect found?) next = .ok out :=
          ih.mpr hentries
        exact ⟨out, bind_eq_ok.mpr ⟨next, hnext, hrest⟩⟩

theorem IsRow.collected (hmade : made.IsRow) (hnamed : entries.HasTextKeys)
    (h : entries.foldlM (collect found?) made = .ok out) : out.IsRow := by
  induction entries generalizing made with
  | nil =>
      cases h
      exact hmade
  | cons entry entries ih =>
      obtain ⟨⟨key, hkey⟩, hnamed⟩ := List.forall_mem_cons.mp hnamed
      obtain ⟨next, hnext, hrest⟩ := bind_eq_ok.mp (List.foldlM_cons.symm.trans h)
      refine ih ?_ hnamed hrest
      rcases collect_cases hnext with ⟨v, -, rfl⟩ | ⟨-, rfl⟩
      · rw [hkey]
        exact hmade.put
      · exact hmade

/-- Under each name stands what was found for its entry, or else what stood there before. -/
theorem IsRow.field?_collected (hentries : entries.IsRow)
    (h : entries.foldlM (collect found?) made = .ok out) (name : String) :
    ∃ found, foundUnder found? entries name = .ok found ∧
      out.field? name = found.or (made.field? name) := by
  induction entries generalizing made with
  | nil =>
      cases h
      exact ⟨none, rfl, rfl⟩
  | cons entry entries ih =>
      obtain ⟨⟨key, hkey⟩, hnamed⟩ := List.forall_mem_cons.mp hentries.named
      obtain ⟨hnew, hdistinct⟩ := List.nodup_cons.mp hentries.distinct
      obtain ⟨_, value⟩ := entry
      cases hkey
      obtain ⟨next, hnext, hrest⟩ := bind_eq_ok.mp (List.foldlM_cons.symm.trans h)
      obtain ⟨found, hfound, hout⟩ := ih ⟨hnamed, hdistinct⟩ hrest
      unfold foundUnder at hfound ⊢
      rw [field?_cons]
      by_cases hname : key = name
      · subst hname
        -- No later entry has this name, so the value that was found for it stays.
        have hnot : has entries (.text key) = false :=
          Bool.eq_false_iff.mpr fun hhas => hnew (has_text_iff.mp hhas)
        rw [field?_eq_none hnot] at hfound
        cases hfound
        rw [if_pos rfl, hout]
        rcases collect_cases hnext with ⟨v, hv, rfl⟩ | ⟨hnone, rfl⟩
        · refine ⟨some v, hv, ?_⟩
          rw [field?_put, if_pos rfl]
          rfl
        · exact ⟨none, hnone, rfl⟩
      · rw [if_neg hname]
        refine ⟨found, hfound, ?_⟩
        rw [hout]
        rcases collect_cases hnext with ⟨v, -, rfl⟩ | ⟨-, rfl⟩
        · rw [field?_put, if_neg hname]
        · rfl

end Entries

/-! Numbers and their summary -/

/-- Of what is chosen from a list step by step, nothing behind it is preferred to it. -/
theorem exists_chosen {α : Type} (prefers : α → α → Prop) [DecidableRel prefers] (first : α)
    (rest : List α) : ∃ before after, first :: rest =
        before ++ rest.foldl (fun best x => if prefers x best then x else best) first :: after ∧
      ∀ x ∈ after,
        ¬ prefers x (rest.foldl (fun best x => if prefers x best then x else best) first) := by
  induction rest generalizing first with
  | nil => exact ⟨[], [], rfl, List.forall_mem_nil _⟩
  | cons x rest ih =>
      rw [List.foldl_cons]
      split
      · obtain ⟨before, after, hsplit, hafter⟩ := ih x
        exact ⟨first :: before, after, congrArg (first :: ·) hsplit, hafter⟩
      · next hkept =>
          obtain ⟨before, after, hsplit, hafter⟩ := ih first
          cases before with
          | nil =>
              obtain ⟨hbest, hrest⟩ := List.cons.inj hsplit
              refine ⟨[], x :: rest, ?_, ?_⟩
              · rw [← hbest]
                rfl
              · rw [← hbest]
                exact List.forall_mem_cons.mpr ⟨hkept, fun y hy => hbest ▸ hafter y (hrest ▸ hy)⟩
          | cons _ before =>
              obtain ⟨rfl, hrest⟩ := List.cons.inj hsplit
              exact ⟨first :: x :: before, after, congrArg (first :: x :: ·) hrest, hafter⟩

namespace ColumnSummary

/-- The sum, the mean and the bounds of numbers: no later number lies beyond a bound. -/
structure Describes (summary : ColumnSummary) (numbers : List Float) : Prop where
  sum : summary.sum = numbers.foldl (· + ·) 0.0
  avg : summary.avg = summary.sum / Float.ofNat numbers.length
  min : ∃ before after, numbers = before ++ summary.min :: after ∧ ∀ x ∈ after, ¬ x < summary.min
  max : ∃ before after, numbers = before ++ summary.max :: after ∧ ∀ x ∈ after, ¬ summary.max < x

theorem describes_of_ofNumbers {numbers : List Float} {summary : ColumnSummary}
    (h : ofNumbers numbers = .ok summary) : summary.Describes numbers := by
  cases numbers with
  | nil => cases h
  | cons first rest =>
      cases h
      refine ⟨rfl, rfl, ?_, ?_⟩
      · have hchosen := exists_chosen (fun x least : Float => x < least) first rest
        simpa only [List.headD_cons, List.foldl_cons, ite_self] using hchosen
      · have hchosen := exists_chosen (fun x greatest : Float => greatest < x) first rest
        simpa only [List.headD_cons, List.foldl_cons, ite_self] using hchosen

end ColumnSummary

namespace Metrics

open Entries (collect foundUnder)

variable {rows : List Entries} {now : DateTime} {metrics : Entries} {name : String}

/-- Whether the first row has a number in a column. -/
def isNumericColumn (rows : List Entries) (name : String) : Bool :=
  ((rows.headD []).field? name).any Value.isNumber

/-- The entry of a column of the first row, if that column is numeric there. -/
def columnFigures? (rows : List Entries) (column : Value × Value) : Result (Option Value) :=
  if column.2.isNumber then do return some (← summarizeColumn rows column.1).toValue
  else .ok none

theorem addColumn_eq_collect (rows : List Entries) :
    addColumn rows = collect (columnFigures? rows) := by
  funext metrics column
  unfold addColumn collect columnFigures?
  split
  · cases summarizeColumn rows column.1 with
    | error fault => rfl
    | ok summary => rfl
  · rfl

theorem foundUnder_columnFigures? (rows : List Entries) (name : String) :
    foundUnder (columnFigures? rows) (rows.headD []) name =
      if isNumericColumn rows name then do
        return some (← summarizeColumn rows (.text name)).toValue
      else .ok none := by
  unfold foundUnder isNumericColumn columnFigures?
  cases (rows.headD []).field? name with
  | none => rfl
  | some first => rfl

/-- What stands in a summary before any column. -/
def header (rows : List Entries) (now : DateTime) : Entries :=
  [(.text "row_count", .int rows.length), (.text "timestamp", .text now.toText)]

theorem isRow_header (rows : List Entries) (now : DateTime) : (header rows now).IsRow where
  named := List.forall_mem_cons.mpr ⟨⟨_, rfl⟩, List.forall_mem_singleton.mpr ⟨_, rfl⟩⟩
  distinct := by simp [header]

theorem field?_header (rows : List Entries) (now : DateTime) (name : String) :
    (header rows now).field? name =
      if "row_count" = name then some (.int rows.length)
      else if "timestamp" = name then some (.text now.toText) else none := by
  unfold header
  rw [Entries.field?_cons, Entries.field?_cons]
  rfl

theorem summarize_eq_collected (rows : List Entries) (now : DateTime) :
    summarize rows now =
      (rows.headD []).foldlM (collect (columnFigures? rows)) (header rows now) := by
  rw [← addColumn_eq_collect]
  rfl

theorem isRow_summarize (hrows : ∀ row ∈ rows, row.IsRow) (h : summarize rows now = .ok metrics) :
    metrics.IsRow :=
  (isRow_header rows now).collected (Entries.isRow_headD hrows).named
    ((summarize_eq_collected rows now).symm.trans h)

/-- Under the name of a numeric column stands its summary. -/
theorem field?_summarize_of_numeric (hrows : ∀ row ∈ rows, row.IsRow)
    (h : summarize rows now = .ok metrics) (hnumeric : isNumericColumn rows name = true) :
    ∃ summary, summarizeColumn rows (.text name) = .ok summary ∧
      metrics.field? name = some summary.toValue := by
  rw [summarize_eq_collected] at h
  obtain ⟨found, hfound, hfield⟩ := (Entries.isRow_headD hrows).field?_collected h name
  rw [foundUnder_columnFigures?, if_pos hnumeric] at hfound
  obtain ⟨summary, hsummary, heq⟩ := bind_eq_ok.mp hfound
  cases heq
  exact ⟨summary, hsummary, hfield⟩

/-- Under every other name stands what the header has there. -/
theorem field?_summarize_of_not_numeric (hrows : ∀ row ∈ rows, row.IsRow)
    (h : summarize rows now = .ok metrics) (hnumeric : isNumericColumn rows name = false) :
    metrics.field? name = (header rows now).field? name := by
  rw [summarize_eq_collected] at h
  obtain ⟨found, hfound, hfield⟩ := (Entries.isRow_headD hrows).field?_collected h name
  rw [foundUnder_columnFigures?, if_neg (Bool.eq_false_iff.mp hnumeric)] at hfound
  cases hfound
  exact hfield

/-- A summary has a summary of the numbers of each numeric column and, unless such a column has
their name, the number of rows and the time. It has nothing else. -/
theorem summarize_entries {rows : List Entries} {now : DateTime} {metrics : Entries}
    (hrows : ∀ row ∈ rows, row.IsRow) (h : summarize rows now = .ok metrics) :
    metrics.IsRow ∧
      (isNumericColumn rows "row_count" = false →
        metrics.field? "row_count" = some (.int rows.length)) ∧
      (isNumericColumn rows "timestamp" = false →
        metrics.field? "timestamp" = some (.text now.toText)) ∧
      (∀ name, isNumericColumn rows name = true → ∃ numbers, ∃ summary : ColumnSummary,
        numbersOf rows (.text name) = .ok numbers ∧ summary.Describes numbers ∧
          metrics.field? name = some summary.toValue) ∧
      ∀ name, metrics.has (.text name) = true →
        name = "row_count" ∨ name = "timestamp" ∨ isNumericColumn rows name = true := by
  refine ⟨isRow_summarize hrows h, ?_, ?_, ?_, ?_⟩
  · intro hnumeric
    rw [field?_summarize_of_not_numeric hrows h hnumeric, field?_header, if_pos rfl]
  · intro hnumeric
    rw [field?_summarize_of_not_numeric hrows h hnumeric, field?_header, if_neg (by decide),
      if_pos rfl]
  · intro name hnumeric
    obtain ⟨summary, hsummary, hfield⟩ := field?_summarize_of_numeric hrows h hnumeric
    obtain ⟨numbers, hnumbers, hof⟩ := bind_eq_ok.mp hsummary
    exact ⟨numbers, summary, hnumbers, ColumnSummary.describes_of_ofNumbers hof, hfield⟩
  · intro name hhas
    cases hnumeric : isNumericColumn rows name with
    | true => exact .inr (.inr rfl)
    | false =>
        rw [Entries.has_eq_isSome_field?, field?_summarize_of_not_numeric hrows h hnumeric,
          field?_header] at hhas
        by_cases hcount : "row_count" = name
        · exact .inl hcount.symm
        · rw [if_neg hcount] at hhas
          by_cases htime : "timestamp" = name
          · exact .inr (.inl htime.symm)
          · rw [if_neg htime] at hhas
            cases hhas

/-- Two rows with a truth value, and with a number that is missing further down in a column that
takes the place of the time. -/
theorem summarize_entries_of_late :
    let rows : List Entries :=
      [[(.text "paid", .bool true), (.text "total", .int 20), (.text "timestamp", .float 1.5)],
       [(.text "paid", .int 1), (.text "total", .null), (.text "timestamp", .null)]]
    let now : DateTime := ⟨⟨2024, 5, 1⟩, ⟨9, 0, 0, 0⟩, .offset 0⟩
    (∀ row ∈ rows, row.IsRow) ∧ ∃ metrics, summarize rows now = .ok metrics ∧
      metrics.field? "row_count" = some (.int 2) ∧ metrics.has (.text "paid") = false ∧
      ∃ numbers, ∃ summary : ColumnSummary, numbersOf rows (.text "timestamp") = .ok numbers ∧
        summary.Describes numbers ∧ metrics.field? "timestamp" = some summary.toValue := by
  intro rows now
  have hrows : ∀ row ∈ rows, row.IsRow := by
    refine List.forall_mem_cons.mpr ⟨⟨?_, ?_⟩, List.forall_mem_singleton.mpr ⟨?_, ?_⟩⟩ <;>
      simp [Entries.HasTextKeys]
  obtain ⟨metrics, hmetrics⟩ := isSome_toOption_iff.mp
    (show (summarize rows now).toOption.isSome = true by decide +kernel)
  obtain ⟨-, hcount, -, hcolumns, hnames⟩ := summarize_entries hrows hmetrics
  refine ⟨hrows, metrics, hmetrics, hcount (by decide), ?_, hcolumns "timestamp" (by decide)⟩
  refine Bool.eq_false_iff.mpr fun hpaid => ?_
  exact absurd (hnames "paid" hpaid) (by decide)

/-- A numeric column called like the number of rows takes its place. -/
theorem row_count_replaced :
    let rows : List Entries := [[(.text "row_count", .int 5)]]
    let now : DateTime := ⟨⟨2024, 5, 1⟩, ⟨9, 0, 0, 0⟩, .offset 0⟩
    (∀ row ∈ rows, row.IsRow) ∧ ∃ metrics, summarize rows now = .ok metrics ∧
      metrics.field? "row_count" ≠ some (.int rows.length) := by
  intro rows now
  have hrows : ∀ row ∈ rows, row.IsRow := by
    refine List.forall_mem_singleton.mpr ⟨?_, List.pairwise_singleton _ _⟩
    exact List.forall_mem_singleton.mpr ⟨_, rfl⟩
  obtain ⟨metrics, hmetrics⟩ := isSome_toOption_iff.mp
    (show (summarize rows now).toOption.isSome = true by decide +kernel)
  obtain ⟨summary, -, hfield⟩ := field?_summarize_of_numeric hrows hmetrics
    (show isNumericColumn rows "row_count" = true by decide)
  refine ⟨hrows, metrics, hmetrics, ?_⟩
  rw [hfield]
  exact fun h => nomatch h

end Metrics

end TenantReports
