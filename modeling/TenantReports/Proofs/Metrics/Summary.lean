import Mathlib.Algebra.Group.Nat.Defs
import TenantReports.Metrics.Summary
import TenantReports.Proofs.Result

/-!
Summaries are made of numbers that can be compared, and the changes between two summaries do not
depend on when they were made.
-/

namespace TenantReports

namespace Entries

variable {key : Value} {xs ys : Entries}

/-- Entries with the same keys, and with the same values under all keys but one. -/
def AlikeBut (key : Value) : Entries → Entries → Prop :=
  List.Forall₂ fun x y => x.1 = y.1 ∧ (x.1.sameKey key = true ∨ x.2 = y.2)

theorem AlikeBut.has_eq (h : AlikeBut key xs ys) (k : Value) : xs.has k = ys.has k := by
  induction h with
  | nil => rfl
  | @cons x y xs ys hxy _ ih =>
      change (x.1.sameKey k || has xs k) = (y.1.sameKey k || has ys k)
      rw [hxy.1, ih]

theorem AlikeBut.put (h : AlikeBut key xs ys) (k v : Value) :
    AlikeBut key (xs.put k v) (ys.put k v) := by
  unfold Entries.put
  rw [h.has_eq k]
  split
  · apply List.forall₂_map_left_iff.mpr
    apply List.forall₂_map_right_iff.mpr
    apply List.Forall₂.imp _ h
    rintro ⟨_, x⟩ ⟨k', y⟩ ⟨rfl, hvalue⟩
    dsimp only
    split
    · exact ⟨rfl, .inr rfl⟩
    · exact ⟨rfl, hvalue⟩
  · exact List.rel_append h (.cons ⟨rfl, .inr rfl⟩ .nil)

theorem length_le_put (xs : Entries) (k v : Value) : xs.length ≤ (xs.put k v).length := by
  unfold Entries.put
  split
  · exact Nat.le_of_eq (List.length_map ..).symm
  · rw [List.length_append]
    exact Nat.le_add_right _ _

theorem forall_put {P : Value → Prop} {k v : Value} (h : ∀ entry ∈ xs, P entry.2) (hv : P v) :
    ∀ entry ∈ xs.put k v, P entry.2 := by
  unfold Entries.put
  split
  · intro entry hentry
    obtain ⟨old, hold, rfl⟩ := List.mem_map.mp hentry
    split
    · exact hv
    · exact h old hold
  · intro entry hentry
    rcases List.mem_append.mp hentry with hold | hnew
    · exact h entry hold
    · rw [List.mem_singleton.mp hnew]
      exact hv

end Entries

namespace Value

/-- What keeps a value from being read as a number: it is none, or no number fits it. -/
def IsNoReal (fault : Fault) : Prop :=
  fault = .mistyped ∨ ∃ number, number ≠ .zeroDivisor ∧ fault = .number number

theorem IsNoReal.of_number {number : NumberFault} (h : number ≠ .zeroDivisor) :
    IsNoReal (.number number) :=
  .inr ⟨number, h, rfl⟩

theorem failsOnly_realOfChars (given : Value) (chars : List Char) :
    FailsOnly IsNoReal (realOfChars given chars) := by
  unfold realOfChars
  split
  · exact .ok _
  · exact .fault (.of_number fun h => nomatch h)

theorem failsOnly_toReal (v : Value) : FailsOnly IsNoReal v.toReal := by
  unfold toReal
  split
  · exact .ok _
  · unfold floatOfWhole
    split
    · exact .ok _
    · exact .fault (.of_number fun h => nomatch h)
  · exact .ok _
  · unfold realOfNumeric
    split
    · exact .ok _
    · exact .fault (.of_number fun h => nomatch h)
  · exact failsOnly_realOfChars _ _
  · split
    · exact failsOnly_realOfChars _ _
    · exact .fault (.of_number fun h => nomatch h)
  · split
    · exact failsOnly_realOfChars _ _
    · exact .fault (.of_number fun h => nomatch h)
  · exact .fault (.inl rfl)

end Value

/-- Numbers have a summary, unless there are none. -/
theorem ColumnSummary.exists_ofNumbers_iff {numbers : List Float} :
    (∃ summary, ofNumbers numbers = .ok summary) ↔ numbers ≠ [] := by
  cases numbers with
  | nil => exact iff_of_false (fun ⟨_, h⟩ => nomatch h) (not_not_intro rfl)
  | cons x numbers => exact iff_of_true ⟨_, rfl⟩ (List.cons_ne_nil x numbers)

namespace Metrics

open Entries (AlikeBut)

/-- A column that is numeric in the first row has a number there to be divided by. -/
theorem numbersOf_ne_nil {rows : List Entries} {key first : Value} {numbers : List Float}
    (hfirst : (rows.headD []).get? key = some first) (hnumber : first.isNumber = true)
    (h : numbersOf rows key = .ok numbers) : numbers ≠ [] := by
  rintro rfl
  cases rows with
  | nil => cases hfirst
  | cons row rows =>
      have hread := List.forall₂_nil_right_iff.mp (mapM_eq_ok.mp h)
      rw [List.filterMap_eq_nil_iff] at hread
      have hnone := hread row List.mem_cons_self
      rw [show row.get? key = some first from hfirst, Option.filter_some, if_pos hnumber] at hnone
      cases hnone

/-- Both fail alike, or both succeed with entries that are alike. -/
def AlikeResults (key : Value) : Result Entries → Result Entries → Prop
  | .ok xs, .ok ys => AlikeBut key xs ys
  | .error fault, .error fault' => fault = fault'
  | _, _ => False

theorem addColumn_alike {key : Value} {xs ys : Entries} (h : AlikeBut key xs ys)
    (rows : List Entries) (column : Value × Value) :
    AlikeResults key (addColumn rows xs column) (addColumn rows ys column) := by
  unfold addColumn
  split
  · cases summarizeColumn rows column.1 with
    | error fault => rfl
    | ok summary => exact h.put _ _
  · exact h

theorem addColumns_alike {key : Value} {xs ys : Entries} (h : AlikeBut key xs ys)
    (rows : List Entries) (columns : Entries) :
    AlikeResults key (columns.foldlM (addColumn rows) xs) (columns.foldlM (addColumn rows) ys) := by
  induction columns generalizing xs ys with
  | nil => exact h
  | cons column columns ih =>
      have hcolumn := addColumn_alike h rows column
      rw [List.foldlM_cons, List.foldlM_cons]
      cases hxs : addColumn rows xs column with
      | error fault =>
          cases hys : addColumn rows ys column with
          | error fault' =>
              rw [hxs, hys] at hcolumn
              exact hcolumn
          | ok ys' =>
              rw [hxs, hys] at hcolumn
              exact hcolumn.elim
      | ok xs' =>
          cases hys : addColumn rows ys column with
          | error fault' =>
              rw [hxs, hys] at hcolumn
              exact hcolumn.elim
          | ok ys' =>
              rw [hxs, hys] at hcolumn
              exact ih hcolumn

/-- Only the time tells summaries of the same rows apart. -/
theorem summarize_alike (rows : List Entries) (now later : DateTime) :
    AlikeResults (.text "timestamp") (summarize rows now) (summarize rows later) := by
  apply addColumns_alike
  exact .cons ⟨rfl, .inr rfl⟩ (.cons ⟨rfl, .inl rfl⟩ .nil)

theorem addChange_alike {previous changes : Entries} {x y : Value × Value}
    (h : x.1 = y.1 ∧ (x.1.sameKey (.text "timestamp") = true ∨ x.2 = y.2)) :
    addChange previous changes x = addChange previous changes y := by
  obtain ⟨key, value⟩ := x
  obtain ⟨_, value'⟩ := y
  obtain ⟨rfl, htime | rfl⟩ := h
  · unfold addChange
    rw [if_pos htime, if_pos htime]
  · rfl

theorem compare_alike {xs ys : Entries} (h : AlikeBut (.text "timestamp") xs ys)
    (previous : Entries) : compare xs previous = compare ys previous := by
  unfold compare
  generalize ([] : Entries) = changes
  induction h generalizing changes with
  | nil => rfl
  | cons hxy _ ih =>
      rw [List.foldlM_cons, List.foldlM_cons, addChange_alike hxy]
      exact congrArg _ (funext ih)

/-- What a summary holds: numbers of rows, texts, and summaries of columns. -/
inductive IsMetric : Value → Prop
  | count {n : Nat} (small : n < 2 ^ 64) : IsMetric (.int n)
  | text (s : String) : IsMetric (.text s)
  | column (summary : ColumnSummary) : IsMetric summary.toValue

/-- What the header has, and summaries of columns keep, a summary has. -/
theorem summarize_keeps {P : Entries → Prop}
    (hput : ∀ metrics key (summary : ColumnSummary), P metrics → P (metrics.put key summary.toValue))
    {rows : List Entries} {columns metrics metrics' : Entries} (h : P metrics)
    (heq : columns.foldlM (addColumn rows) metrics = .ok metrics') : P metrics' := by
  induction columns generalizing metrics with
  | nil =>
      cases heq
      exact h
  | cons column columns ih =>
      rw [List.foldlM_cons, bind_eq_ok] at heq
      obtain ⟨next, hnext, hrest⟩ := heq
      refine ih ?_ hrest
      unfold addColumn at hnext
      split at hnext
      · obtain ⟨summary, -, hmetrics⟩ := bind_eq_ok.mp hnext
        cases hmetrics
        exact hput _ _ _ h
      · cases hnext
        exact h

/-- A summary has more than a number of rows. -/
theorem two_le_length_summarize {rows : List Entries} {now : DateTime} {metrics : Entries}
    (h : summarize rows now = .ok metrics) : 2 ≤ metrics.length := by
  refine summarize_keeps (P := fun metrics => 2 ≤ metrics.length) ?_ ?_ h
  · intro metrics key summary hlength
    exact Nat.le_trans hlength (Entries.length_le_put ..)
  · exact Nat.le_refl 2

theorem isMetric_of_summarize {rows : List Entries} {now : DateTime} {metrics : Entries}
    (hrows : rows.length < 2 ^ 64) (h : summarize rows now = .ok metrics) :
    ∀ entry ∈ metrics, IsMetric entry.2 := by
  refine summarize_keeps (P := fun metrics : Entries => ∀ entry ∈ metrics, IsMetric entry.2)
    (fun _ _ summary hmetrics => Entries.forall_put hmetrics (.column summary)) ?_ h
  intro entry hentry
  rcases List.mem_cons.mp hentry with rfl | hentry
  · exact .count hrows
  · rw [List.mem_singleton.mp hentry]
    exact .text _

theorem floatOfWhole_eq_ok {n : Nat} (h : n < 2 ^ 64) : ∃ x, Value.floatOfWhole n = .ok x := by
  have hbound : 2 ^ 64 < Decimal.Numeral.overflowBound := by decide +kernel
  have hdigits : Decimal.digitCount n ≤ 20 :=
    (Nat.length_toDigits_le_iff (by decide) (by decide)).mpr (Nat.lt_trans h (by decide))
  have hfinite : Decimal.Numeral.isFinite ⟨(n : Int) < 0, (n : Int).natAbs, 0⟩ = true := by
    unfold Decimal.Numeral.isFinite Decimal.Numeral.magnitude
    dsimp only
    rw [Int.natAbs_natCast]
    split
    · rfl
    · rw [if_neg (by omega), if_pos (by decide)]
      change decide (n * 1 < _) = true
      simp only [decide_eq_true_eq]
      omega
  exact ⟨_, if_pos hfinite⟩

/-- Nothing is divided by zero: a change from zero has no percentage. -/
theorem exists_change_eq_ok (current previous : Float) :
    ∃ value, change current previous = .ok value := by
  have hpercentage : ∃ x, percentage (current - previous) previous = .ok x := by
    unfold percentage
    split
    · exact ⟨_, rfl⟩
    · next hnonzero =>
        unfold quotient
        rw [if_neg hnonzero]
        exact ⟨_, rfl⟩
  obtain ⟨x, hx⟩ := hpercentage
  unfold change
  dsimp only
  rw [hx]
  exact ⟨_, rfl⟩

theorem changeOf_eq_ok {m n : Nat} (hm : m < 2 ^ 64) (hn : n < 2 ^ 64) :
    ∃ value, changeOf (.int m) (.int n) = .ok value := by
  obtain ⟨x, hx⟩ := floatOfWhole_eq_ok hm
  obtain ⟨y, hy⟩ := floatOfWhole_eq_ok hn
  unfold changeOf Value.toReal
  dsimp only
  rw [hx, hy]
  exact exists_change_eq_ok x y

theorem changeOf?_eq_ok {current previous : Value} (h : IsMetric current)
    (h' : IsMetric previous) : ∃ found, changeOf? current previous = .ok found := by
  cases h with
  | count hm =>
      cases h' with
      | count hn =>
          obtain ⟨value, hvalue⟩ := changeOf_eq_ok hm hn
          refine ⟨some value, ?_⟩
          change (changeOf _ _ >>= fun value => pure (some value)) = _
          rw [hvalue]
          rfl
      | text s => exact ⟨none, rfl⟩
      | column summary => exact ⟨none, rfl⟩
  | text s =>
      cases h' with
      | count hn => exact ⟨none, rfl⟩
      | text s' => exact ⟨none, rfl⟩
      | column summary => exact ⟨none, rfl⟩
  | column summary =>
      cases h' with
      | count hn => exact ⟨none, rfl⟩
      | text s => exact ⟨none, rfl⟩
      | column summary' =>
          obtain ⟨value, hvalue⟩ := exists_change_eq_ok summary.sum summary'.sum
          refine ⟨some value, ?_⟩
          change (change _ _ >>= fun value => pure (some value)) = _
          rw [hvalue]
          rfl

/-- Any two summaries can be compared. -/
theorem compare_eq_ok {current previous : Entries} (h : ∀ entry ∈ current, IsMetric entry.2)
    (h' : ∀ entry ∈ previous, IsMetric entry.2) :
    ∃ changes, compare current previous = .ok changes := by
  have hadd : ∀ changes : Entries, ∀ metric ∈ current,
      ∃ changes', addChange previous changes metric = .ok changes' := by
    intro changes metric hmetric
    unfold addChange
    split
    · exact ⟨changes, rfl⟩
    · split
      · exact ⟨changes, rfl⟩
      · next old hold =>
          obtain ⟨entry, hentry, rfl⟩ := Option.map_eq_some_iff.mp hold
          obtain ⟨found, hfound⟩ := changeOf?_eq_ok (h metric hmetric)
            (h' entry (List.mem_of_find?_eq_some hentry))
          rw [hfound]
          cases found with
          | none => exact ⟨changes, rfl⟩
          | some value => exact ⟨changes.put metric.1 value, rfl⟩
  have hfold : ∀ metrics : Entries, metrics ⊆ current → ∀ changes,
      ∃ changes', metrics.foldlM (addChange previous) changes = .ok changes' := by
    intro metrics
    induction metrics with
    | nil => exact fun _ changes => ⟨changes, rfl⟩
    | cons metric metrics ih =>
        intro hsub changes
        obtain ⟨next, hnext⟩ := hadd changes metric (hsub List.mem_cons_self)
        rw [List.foldlM_cons, hnext]
        exact ih (fun _ hmem => hsub (List.mem_cons_of_mem _ hmem)) next
  exact hfold current (List.Subset.refl _) []

end Metrics

end TenantReports
