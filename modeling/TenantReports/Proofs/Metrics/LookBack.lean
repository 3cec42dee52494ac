import TenantReports.Proofs.Api.Acting
import TenantReports.Proofs.Calendar.Span
import TenantReports.Proofs.Metrics.Snapshots

/-!
Looks back at the daily snapshots: the trend shows the days' rows in order, and a result is
compared with the last day before, whatever was kept on the day itself.
-/

namespace TenantReports.Snapshots

/-- What a comparison says of the days before. -/
def Comparison.ofHistory (found : Comparison) : Entries × Entries := (found.previous, found.change)

/-- A look back from a day over some days. -/
structure LookBack where
  tenant : Uuid
  definition : Uuid
  today : Date
  days : Nat
  /-- The day that lies so many days before. -/
  cutoff : Date
  today_isValid : today.IsValid
  cutoff_isValid : cutoff.IsValid
  cutoff_eq : cutoff.ordinal + days = today.ordinal

namespace LookBack

variable (look : LookBack)

def trend : Work (List Snapshot) :=
  Snapshots.trend look.tenant look.definition look.days (some look.today)

def compare (rows : List Entries) : Work Comparison :=
  Snapshots.compare look.tenant look.definition rows look.days (some look.today)

/-- Whether a snapshot is of the tenant and definition, and not dated before the cutoff. -/
def Sees (s : Snapshot) : Prop :=
  s.tenant = look.tenant ∧ s.definition = look.definition ∧ look.cutoff.ordinal ≤ s.date.ordinal

def SeesEarlier (s : Snapshot) : Prop := look.Sees s ∧ s.date.ordinal < look.today.ordinal

def points (table : List Snapshot) : List Snapshot :=
  (table.filter (isTrend look.tenant look.definition look.cutoff)).mergeSort
    fun a b => !b.date.lt a.date

def earlier (table : List Snapshot) : List Snapshot :=
  (look.points table).filter fun s => s.date.lt look.today

/-- What a comparison with a snapshot answers, or with none. -/
def comparison (current : Entries) : Option Snapshot → Result Comparison
  | none => .ok ⟨current, noHistory, []⟩
  | some s => (Metrics.compare current s.metrics).map fun change => ⟨current, s.metrics, change⟩

def outcome (rows : List Entries) (now : DateTime) (found : Option Snapshot) :
    Result Comparison := do
  let summary ← summaryOf rows now
  comparison summary.2 found

theorem run_trend (p : Platform) :
    look.trend.run p = (.ok (look.points p.database.snapshots), p) := by
  have hcutoff := Date.daysBefore_eq_ok look.today_isValid look.cutoff_isValid look.cutoff_eq
  unfold trend Snapshots.trend
  rw [Action.run_bind_of_ok (run_given p look.today), hcutoff,
    Action.run_bind_of_ok (Action.run_ofResult _ p), Action.run_bind_of_ok (run_database p)]
  rfl

theorem run_compare (rows : List Entries) (p : Platform) :
    (look.compare rows).run p =
      (outcome rows p.now (look.earlier p.database.snapshots).getLast?, p) := by
  have htrend := look.run_trend p
  unfold trend at htrend
  have hsummary := run_summarize p rows
  unfold compare Snapshots.compare outcome
  rw [Action.run_bind_of_ok (run_given p look.today)]
  cases h : summaryOf rows p.now with
  | error fault =>
      rw [h] at hsummary
      rw [Action.run_bind_of_error hsummary]
      rfl
  | ok summary =>
      obtain ⟨plain, current⟩ := summary
      rw [h] at hsummary
      rw [Action.run_bind_of_ok hsummary]
      dsimp only
      rw [Action.run_bind_of_ok htrend]
      rw [show (look.points p.database.snapshots).filter (fun s => s.date.lt look.today) =
        look.earlier p.database.snapshots from rfl]
      change _ = (comparison current (look.earlier p.database.snapshots).getLast?, p)
      cases (look.earlier p.database.snapshots).getLast? with
      | none => rfl
      | some s =>
          unfold comparison
          dsimp only
          rw [Action.run_bind, Action.run_ofResult]
          cases Metrics.compare current s.metrics <;> rfl

/-- Summaries that only their time tells apart lead to the same previous metrics and changes. -/
theorem map_comparison_eq {current current' : Entries}
    (h : Entries.AlikeBut (.text "timestamp") current current') (found : Option Snapshot) :
    (comparison current found).map Comparison.ofHistory =
      (comparison current' found).map Comparison.ofHistory := by
  cases found with
  | none => rfl
  | some s =>
      unfold comparison
      dsimp only
      rw [Metrics.compare_alike h]
      cases Metrics.compare current' s.metrics <;> rfl

theorem map_outcome_eq (rows : List Entries) (now later : DateTime) (found : Option Snapshot) :
    (outcome rows now found).map Comparison.ofHistory =
      (outcome rows later found).map Comparison.ofHistory := by
  unfold outcome summaryOf
  cases rowsToPlain rows with
  | error fault => rfl
  | ok plain =>
      have halike := Metrics.summarize_alike plain now later
      simp only [bind, Except.bind]
      cases hnow : Metrics.summarize plain now with
      | error fault =>
          cases hlater : Metrics.summarize plain later with
          | error fault' =>
              rw [hnow, hlater] at halike
              rw [show fault = fault' from halike]
          | ok current' =>
              rw [hnow, hlater] at halike
              exact halike.elim
      | ok current =>
          cases hlater : Metrics.summarize plain later with
          | error fault' =>
              rw [hnow, hlater] at halike
              exact halike.elim
          | ok current' =>
              rw [hnow, hlater] at halike
              exact map_comparison_eq halike found

variable {table : List Snapshot}

theorem isTrend_iff {s : Snapshot} :
    isTrend look.tenant look.definition look.cutoff s = true ↔ look.Sees s := by
  simp [isTrend, Sees, Date.lt, and_assoc]

theorem mem_points {s : Snapshot} : s ∈ look.points table ↔ s ∈ table ∧ look.Sees s := by
  unfold points
  rw [List.mem_mergeSort, List.mem_filter, isTrend_iff]

theorem mem_earlier {s : Snapshot} : s ∈ look.earlier table ↔ s ∈ table ∧ look.SeesEarlier s := by
  unfold earlier SeesEarlier
  rw [List.mem_filter, mem_points, and_assoc]
  simp [Date.lt]

/-- Of one tenant and definition no two rows have one day. -/
theorem points_sorted (hnodup : (table.map (·.key)).Nodup) (hvalid : ∀ s ∈ table, s.date.IsValid) :
    (look.points table).Pairwise (·.date.ordinal < ·.date.ordinal) := by
  have hle : (look.points table).Pairwise fun a b => (!b.date.lt a.date) = true := by
    apply List.pairwise_mergeSort
    · intro a b c
      simp only [Date.lt, Bool.not_eq_true', decide_eq_false_iff_not]
      omega
    · intro a b
      simp only [Date.lt, Bool.or_eq_true, Bool.not_eq_true', decide_eq_false_iff_not]
      omega
  have hne : (look.points table).Pairwise (·.key ≠ ·.key) := by
    have hperm := List.mergeSort_perm (table.filter (isTrend look.tenant look.definition look.cutoff))
      fun a b => !b.date.lt a.date
    apply List.pairwise_map.mp
    change ((look.points table).map (·.key)).Nodup
    unfold points
    rw [(hperm.map _).nodup_iff]
    exact hnodup.sublist (List.filter_sublist.map _)
  apply (hle.and hne).imp_of_mem
  rintro a b ha hb ⟨hle, hne⟩
  obtain ⟨hin, htenant, hdefinition, -⟩ := look.mem_points.mp ha
  obtain ⟨hin', htenant', hdefinition', -⟩ := look.mem_points.mp hb
  have hdate : a.date.ordinal ≠ b.date.ordinal := by
    intro heq
    apply hne
    unfold Snapshot.key
    rw [htenant, htenant', hdefinition, hdefinition', (hvalid a hin).ordinal_inj (hvalid b hin') heq]
  simp only [Date.lt, Bool.not_eq_true', decide_eq_false_iff_not] at hle
  omega

theorem earlier_sorted (hnodup : (table.map (·.key)).Nodup)
    (hvalid : ∀ s ∈ table, s.date.IsValid) :
    (look.earlier table).Pairwise (·.date.ordinal < ·.date.ordinal) :=
  (look.points_sorted hnodup hvalid).sublist List.filter_sublist

/-- The last of sorted rows has the greatest date. -/
theorem le_getLast {rows : List Snapshot} (h : rows.Pairwise (·.date.ordinal < ·.date.ordinal))
    {last : Snapshot} (hlast : rows.getLast? = some last) :
    ∀ s ∈ rows, s.date.ordinal ≤ last.date.ordinal := by
  obtain ⟨before, rfl⟩ := List.getLast?_eq_some_iff.mp hlast
  intro s hs
  rcases List.mem_append.mp hs with hbefore | hsame
  · exact Nat.le_of_lt ((List.pairwise_append.mp h).2.2 s hbefore last (List.mem_singleton_self _))
  · rw [List.mem_singleton.mp hsame]

/-- What a comparison sees of a table does not depend on the rows of its own day. -/
theorem earlier_eq {table' : List Snapshot} (hnodup : (table.map (·.key)).Nodup)
    (hvalid : ∀ s ∈ table, s.date.IsValid) (hnodup' : (table'.map (·.key)).Nodup)
    (hvalid' : ∀ s ∈ table', s.date.IsValid)
    (heq : table'.filter (·.date ≠ look.today) = table.filter (·.date ≠ look.today)) :
    look.earlier table' = look.earlier table := by
  have hperm (rows : List Snapshot) : (look.earlier rows).Perm
      ((rows.filter (·.date ≠ look.today)).filter fun s =>
        isTrend look.tenant look.definition look.cutoff s && s.date.lt look.today) := by
    have hsame : (rows.filter (·.date ≠ look.today)).filter (fun s =>
        isTrend look.tenant look.definition look.cutoff s && s.date.lt look.today) =
          (rows.filter (isTrend look.tenant look.definition look.cutoff)).filter
            (·.date.lt look.today) := by
      rw [List.filter_filter, List.filter_filter]
      apply List.filter_congr
      intro s _
      by_cases hdate : s.date = look.today
      · simp [hdate, Date.lt]
      · simp [hdate, Bool.and_comm]
    rw [hsame]
    exact (List.mergeSort_perm _ _).filter _
  apply List.Perm.eq_of_pairwise _ (look.earlier_sorted hnodup' hvalid')
    (look.earlier_sorted hnodup hvalid)
  · exact (hperm table').trans (heq ▸ (hperm table).symm)
  · intro a b _ _ hab hba
    omega

end LookBack

/-- What holds of the snapshots in `table`, which the calls have left, and of looks back at
them. -/
structure Daily (calls : List Keeping) (table : List Snapshot) : Prop where
  single : (table.map (·.key)).Nodup
  last : ∀ key, (table.find? (·.key = key)).map (·.content) = lastKept? key calls
  untouched : ∀ call : Keeping, call.met.database.snapshots = table →
    call.left.filter (·.key ≠ call.key) = table.filter (·.key ≠ call.key)
  /-- A call whose rows can be summarized, and that refers to nothing that is not there,
  succeeds. -/
  answered : ∀ (call : Keeping) (plain : List Entries) (metrics : Entries),
    rowsToPlain call.rows = .ok plain → Metrics.summarize plain call.met.now = .ok metrics →
    call.Refers → call.run.1 = .ok metrics
  trend : ∀ (look : LookBack) (p : Platform), p.database.snapshots = table →
    ∃ points, look.trend.run p = (.ok points, p) ∧
      (∀ s, s ∈ points ↔ s ∈ table ∧ look.Sees s) ∧
      points.Pairwise (·.date.ordinal < ·.date.ordinal)
  compared : ∀ (look : LookBack) (p : Platform) (rows plain : List Entries) (current : Entries),
    p.database.snapshots = table → rowsToPlain rows = .ok plain →
    Metrics.summarize plain p.now = .ok current →
    (∀ s ∈ table, ¬ look.SeesEarlier s) ∧
        (look.compare rows).run p = (.ok ⟨current, noHistory, []⟩, p) ∨
    ∃ s ∈ table, look.SeesEarlier s ∧
      (∀ s' ∈ table, look.SeesEarlier s' → s'.date.ordinal ≤ s.date.ordinal) ∧
      s.metrics ≠ noHistory ∧
      (look.compare rows).run p =
        ((Metrics.compare current s.metrics).map fun change => ⟨current, s.metrics, change⟩, p)
  /-- Where no result is longer than a machine can hold, metrics can be compared. -/
  comparable : (∀ call ∈ calls, call.rows.length < 2 ^ 64) → ∀ s ∈ table,
    ∀ (rows plain : List Entries) (now : DateTime) (current : Entries), rows.length < 2 ^ 64 →
      rowsToPlain rows = .ok plain → Metrics.summarize plain now = .ok current →
      ∃ change, Metrics.compare current s.metrics = .ok change
  /-- Whatever calls of the day keep, and whenever it is asked for, a comparison on that day is
  with the same metrics and finds the same changes. -/
  steady : ∀ (look : LookBack) (p p' : Platform) (later : List Keeping) (table' : List Snapshot)
    (rows : List Entries), p.database.snapshots = table → Kept table later table' →
    (∀ call ∈ later, call.day = look.today) → p'.database.snapshots = table' →
    ((look.compare rows).run p').1.map Comparison.ofHistory =
      ((look.compare rows).run p).1.map Comparison.ofHistory

namespace Kept

variable {table : List Snapshot} {calls : List Keeping}

theorem isMetric (h : Kept [] calls table) (hcalls : ∀ call ∈ calls, call.rows.length < 2 ^ 64)
    {s : Snapshot} (hs : s ∈ table) : ∀ entry ∈ s.metrics, Metrics.IsMetric entry.2 := by
  obtain ⟨call, hcall, hsummary⟩ := h.origin hs
  obtain ⟨hplain, hmetrics⟩ := summaryOf_eq_ok.mp hsummary
  refine Metrics.isMetric_of_summarize ?_ hmetrics
  rw [← (mapM_eq_ok.mp hplain).length_eq]
  exact hcalls call hcall

theorem compared (h : Kept [] calls table) (look : LookBack) {p : Platform}
    {rows plain : List Entries} {current : Entries} (hp : p.database.snapshots = table)
    (hplain : rowsToPlain rows = .ok plain)
    (hcurrent : Metrics.summarize plain p.now = .ok current) :
    (∀ s ∈ table, ¬ look.SeesEarlier s) ∧
        (look.compare rows).run p = (.ok ⟨current, noHistory, []⟩, p) ∨
    ∃ s ∈ table, look.SeesEarlier s ∧
      (∀ s' ∈ table, look.SeesEarlier s' → s'.date.ordinal ≤ s.date.ordinal) ∧
      s.metrics ≠ noHistory ∧
      (look.compare rows).run p =
        ((Metrics.compare current s.metrics).map fun change => ⟨current, s.metrics, change⟩, p) := by
  have hrun := look.run_compare rows p
  unfold LookBack.outcome at hrun
  rw [summaryOf_eq_ok.mpr ⟨hplain, hcurrent⟩, hp] at hrun
  change _ = (LookBack.comparison current (look.earlier table).getLast?, p) at hrun
  cases hlast : (look.earlier table).getLast? with
  | none =>
      rw [hlast] at hrun
      refine .inl ⟨?_, hrun⟩
      intro s hs hsees
      have hmem := look.mem_earlier.mpr ⟨hs, hsees⟩
      rw [List.getLast?_eq_none_iff.mp hlast] at hmem
      cases hmem
  | some s =>
      rw [hlast] at hrun
      obtain ⟨hs, hsees⟩ := look.mem_earlier.mp (List.mem_of_getLast? hlast)
      have hsorted := look.earlier_sorted (h.nodup List.nodup_nil) h.isValid
      refine .inr ⟨s, hs, hsees, ?_, ?_, hrun⟩
      · intro s' hs' hsees'
        exact LookBack.le_getLast hsorted hlast s' (look.mem_earlier.mpr ⟨hs', hsees'⟩)
      · intro hnone
        obtain ⟨call, -, hsummary⟩ := h.origin hs
        have hlength := Metrics.two_le_length_summarize (summaryOf_eq_ok.mp hsummary).2
        rw [hnone] at hlength
        cases Nat.le_of_succ_le_succ hlength

theorem steady (h : Kept [] calls table) (look : LookBack) {p p' : Platform}
    {later : List Keeping} {table' : List Snapshot} (rows : List Entries)
    (hp : p.database.snapshots = table) (hlater : Kept table later table')
    (hday : ∀ call ∈ later, call.day = look.today) (hp' : p'.database.snapshots = table') :
    ((look.compare rows).run p').1.map Comparison.ofHistory =
      ((look.compare rows).run p).1.map Comparison.ofHistory := by
  have hall : Kept [] (calls ++ later) table' := h.append hlater
  have hearlier := look.earlier_eq (h.nodup List.nodup_nil) h.isValid
    (hall.nodup List.nodup_nil) hall.isValid (hlater.filter_eq hday)
  rw [look.run_compare, look.run_compare, hp, hp', hearlier]
  exact LookBack.map_outcome_eq rows p'.now p.now _

end Kept

/-- However often results are kept, one row stands for each tenant, definition and day, with what
the last call for it stored. Looks back see the rows of their days in order, and compare with the
last day before. -/
theorem kept_daily {calls : List Keeping} {table : List Snapshot} (h : Kept [] calls table) :
    Daily calls table where
  single := h.nodup List.nodup_nil
  last := h.find?
  untouched := by
    rintro call rfl
    exact call.filter_left
  answered := fun call _ _ hplain hmetrics => call.run_eq_ok (summaryOf_eq_ok.mpr ⟨hplain, hmetrics⟩)
  trend := by
    rintro look p rfl
    exact ⟨_, look.run_trend p, fun _ => look.mem_points,
      look.points_sorted (h.nodup List.nodup_nil) h.isValid⟩
  compared := fun look _ _ _ _ => h.compared look
  comparable := by
    intro hcalls s hs rows plain now current hrows hplain hcurrent
    refine Metrics.compare_eq_ok (Metrics.isMetric_of_summarize ?_ hcurrent) (h.isMetric hcalls hs)
    rwa [← (mapM_eq_ok.mp hplain).length_eq]
  steady := fun look _ _ _ _ rows => h.steady look rows

/-- A result is kept twice on one day. -/
theorem kept_daily_of_rerun :
    ∃ calls table, Kept [] calls table ∧ calls.length = 2 ∧
      table.map (·.date) = [⟨2024, 5, 1⟩] ∧ Daily calls table := by
  let now : DateTime := ⟨⟨2024, 5, 1⟩, ⟨9, 0, 0, 0⟩, .offset 0⟩
  let tenant : Tenant :=
    { id := TableName.rowId .tenants 1, name := "North", domain := none
      schemaName := "tenant_north", status := .ready, preparationError := none, createdAt := now }
  let definition : Definition :=
    { id := TableName.rowId .definitions 1, tenant := none, name := "Fees", description := none
      reportType := "fees", dataSource := "invoices", queryTemplate := "SELECT 1"
      parameters := [], columns := [], filters := [], rolePermissions := [], isActive := true
      createdBy := none, createdAt := now }
  let start : Platform :=
    { Platform.new (.ofMigrations "migrations") now with
      database := (Database.empty.addTenant tenant).addDefinition definition }
  let keeping (met : Platform) : Keeping :=
    { tenant := tenant.id, definition := definition.id, execution := none, rows := []
      date := some ⟨2024, 5, 1⟩, met }
  have hfirst : Kept [] [keeping start] (keeping start).left :=
    Kept.none.next rfl (by decide)
  have hkept : Kept [] [keeping start, keeping (keeping start).run.2]
      (keeping (keeping start).run.2).left :=
    hfirst.next rfl (by decide)
  exact ⟨_, _, hkept, rfl, by decide +kernel, kept_daily hkept⟩

end TenantReports.Snapshots
