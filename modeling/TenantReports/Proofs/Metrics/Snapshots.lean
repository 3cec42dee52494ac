import TenantReports.Metrics.Snapshots
import TenantReports.Proofs.Api.Runs
import TenantReports.Proofs.Metrics.Summary

/-!
The daily snapshots that calls leave behind: one row for each tenant, definition and day, with what
the last call for it stored.
-/

namespace TenantReports

namespace Snapshot

/-- What tells the rows apart. -/
def key (s : Snapshot) : Uuid × Uuid × Date := (s.tenant, s.definition, s.date)

/-- What a later call of the day replaces. -/
def content (s : Snapshot) : Option Uuid × List Entries × Entries := (s.execution, s.rows, s.metrics)

theorem sameDay_iff {s t : Snapshot} : s.sameDay t = true ↔ s.key = t.key := by
  simp [sameDay, key, and_assoc]

theorem key_replacedBy (old new : Snapshot) : (old.replacedBy new).key = old.key := rfl

theorem content_replacedBy (old new : Snapshot) : (old.replacedBy new).content = new.content := rfl

/-- The snapshots of a database that a snapshot is put into. -/
def put (s : Snapshot) (table : List Snapshot) : List Snapshot :=
  if s.key ∈ table.map key then
    table.map fun old => if old.key = s.key then old.replacedBy s else old
  else table ++ [s]

theorem snapshots_putSnapshot (db : Database) (s : Snapshot) :
    (db.putSnapshot s).snapshots = s.put db.snapshots := by
  have hany : db.snapshots.any (·.sameDay s) = true ↔ s.key ∈ db.snapshots.map key := by
    simp [sameDay_iff]
  unfold Database.putSnapshot put
  simp only [hany, sameDay_iff]
  split <;> rfl

variable (s : Snapshot) (table : List Snapshot)

theorem keys_put :
    (s.put table).map key =
      if s.key ∈ table.map key then table.map key else table.map key ++ [s.key] := by
  unfold put
  split
  · rw [List.map_map]
    apply List.map_congr_left
    intro old _
    dsimp only [Function.comp_apply]
    split
    · rfl
    · rfl
  · rw [List.map_append]
    rfl

theorem nodup_put (h : (table.map key).Nodup) : ((s.put table).map key).Nodup := by
  rw [keys_put]
  split
  · exact h
  · next hnew => exact List.nodup_append.mpr ⟨h, by simp, by simpa using hnew⟩

/-- The row that a snapshot replaces keeps what tells it apart, and every other row stays. -/
theorem find?_map_replacedBy (k : Uuid × Uuid × Date) :
    (table.map fun old => if old.key = s.key then old.replacedBy s else old).find? (·.key = k) =
      (table.find? (·.key = k)).map fun old => if old.key = s.key then old.replacedBy s else old := by
  rw [List.find?_map]
  congr 2
  funext old
  dsimp only [Function.comp_apply]
  split
  · rfl
  · rfl

theorem find?_put (k : Uuid × Uuid × Date) :
    ((s.put table).find? (·.key = k)).map content =
      if s.key = k then some s.content else (table.find? (·.key = k)).map content := by
  unfold put
  by_cases hmem : s.key ∈ table.map key
  · rw [if_pos hmem, find?_map_replacedBy]
    cases hfound : table.find? (·.key = k) with
    | none =>
        have hnone := List.find?_eq_none.mp hfound
        obtain ⟨old, hold, hkey⟩ := List.mem_map.mp hmem
        have hother : s.key ≠ k := fun heq => hnone old hold (by simp [hkey, heq])
        rw [if_neg hother]
        rfl
    | some old =>
        have hkey : old.key = k := by simpa using List.find?_some hfound
        by_cases hsame : s.key = k
        · simp [hsame, hkey, content_replacedBy]
        · simp [hsame, hkey, Ne.symm hsame]
  · rw [if_neg hmem, List.find?_append]
    by_cases hsame : s.key = k
    · have hnone : table.find? (·.key = k) = none := by
        apply List.find?_eq_none.mpr
        intro old hold hkey
        exact hmem (List.mem_map.mpr ⟨old, hold, by simpa [hsame] using hkey⟩)
      simp [hnone, hsame]
    · simp [hsame]

theorem filter_put :
    (s.put table).filter (·.key ≠ s.key) = table.filter (·.key ≠ s.key) := by
  unfold put
  split
  · clear * -
    induction table with
    | nil => rfl
    | cons old table ih =>
        rw [List.map_cons, List.filter_cons, List.filter_cons, ih]
        by_cases hkey : old.key = s.key
        · simp [hkey, key_replacedBy]
        · simp [hkey]
  · simp

theorem mem_put {row : Snapshot} (h : row ∈ s.put table) :
    row ∈ table ∨ row.key = s.key ∧ row.content = s.content := by
  unfold put at h
  split at h
  · obtain ⟨old, hold, rfl⟩ := List.mem_map.mp h
    split
    · next hkey => exact .inr ⟨hkey, rfl⟩
    · exact .inl hold
  · rcases List.mem_append.mp h with hold | hnew
    · exact .inl hold
    · rw [List.mem_singleton.mp hnew]
      exact .inr ⟨rfl, rfl⟩

end Snapshot

namespace Snapshots

/-- A call that keeps a result, and the platform that it meets. -/
structure Keeping where
  tenant : Uuid
  definition : Uuid
  execution : Option Uuid
  rows : List Entries
  date : Option Date
  met : Platform

namespace Keeping

/-- The day that a call is dated. -/
def day (call : Keeping) : Date := call.date.getD call.met.today

def key (call : Keeping) : Uuid × Uuid × Date := (call.tenant, call.definition, call.day)

def run (call : Keeping) : Except Fault Entries × Platform :=
  (keep call.tenant call.definition call.execution call.rows call.date).run call.met

/-- The snapshots that a call leaves. -/
def left (call : Keeping) : List Snapshot := call.run.2.database.snapshots

/-- What a call hands over to be kept, if it succeeds: its execution, its rows in plain form, and
the metrics that it answers. -/
def kept? (call : Keeping) : Option (Option Uuid × List Entries × Entries) :=
  match rowsToPlain call.rows, call.run.1 with
  | .ok rows, .ok metrics => some (call.execution, rows, metrics)
  | _, _ => none

/-- Whether the database of a call knows everything that the call refers to. -/
def Refers (call : Keeping) : Prop :=
  call.met.database.hasTenant call.tenant = true ∧
    call.met.database.hasDefinition call.definition = true ∧
    call.execution.all call.met.database.hasExecution = true

end Keeping

/-- The snapshots after calls, one after another, that began with those in `start`. Between two
calls anything but the snapshots may change. -/
inductive Kept (start : List Snapshot) : List Keeping → List Snapshot → Prop
  | none : Kept start [] start
  | next {past : List Keeping} {table : List Snapshot} {call : Keeping}
      (earlier : Kept start past table) (met : call.met.database.snapshots = table)
      (day : call.day.IsValid) : Kept start (past ++ [call]) call.left

/-- What the last of the successful calls for a tenant, a definition and a day handed over. -/
def lastKept? (key : Uuid × Uuid × Date) (calls : List Keeping) :
    Option (Option Uuid × List Entries × Entries) :=
  calls.reverse.findSome? fun call => if call.key = key then call.kept? else none

/-- The rows in plain form and their metrics at a time. -/
def summaryOf (rows : List Entries) (now : DateTime) : Result (List Entries × Entries) := do
  let plain ← rowsToPlain rows
  let metrics ← Metrics.summarize plain now
  return (plain, metrics)

theorem summaryOf_eq_ok {rows plain : List Entries} {metrics : Entries} {now : DateTime} :
    summaryOf rows now = .ok (plain, metrics) ↔
      rowsToPlain rows = .ok plain ∧ Metrics.summarize plain now = .ok metrics := by
  unfold summaryOf
  rw [bind_eq_ok]
  constructor
  · rintro ⟨plain', hplain, h⟩
    obtain ⟨metrics', hmetrics, h⟩ := bind_eq_ok.mp h
    cases h
    exact ⟨hplain, hmetrics⟩
  · rintro ⟨hplain, hmetrics⟩
    exact ⟨plain, hplain, bind_eq_ok.mpr ⟨metrics, hmetrics, rfl⟩⟩

section Runs

variable (p : Platform)

theorem run_now : Work.now.run p = (.ok p.now, p) := rfl

theorem run_database : Work.database.run p = (.ok p.database, p) := rfl

theorem run_date (date : Option Date) :
    (date.getDM today).run p = (.ok (date.getD p.today), p) := by
  cases date <;> rfl

theorem run_given (date : Date) : ((some date).getDM today).run p = (.ok date, p) := rfl

theorem run_summarize (rows : List Entries) :
    (summarize rows).run p = (summaryOf rows p.now, p) := by
  unfold summarize summaryOf
  rw [Action.run_bind, Action.run_ofResult]
  cases rowsToPlain rows with
  | error fault => rfl
  | ok plain =>
      dsimp only
      rw [Action.run_bind, run_now]
      dsimp only
      rw [Action.run_bind, Action.run_ofResult]
      cases h : Metrics.summarize plain p.now with
      | error fault => simp only [bind, Except.bind, h]
      | ok metrics =>
          simp only [bind, Except.bind, h]
          rfl

theorem run_insertSnapshot (metrics : Entries) (make : Uuid → Snapshot) :
    (do let _ ← Work.insertSnapshot make; return metrics : Work Entries).run p =
      if (p.database.attempt .snapshots).acceptsSnapshot (make (p.database.nextId .snapshots)) then
        (.ok metrics, p.onDatabase fun db =>
          (db.attempt .snapshots).putSnapshot (make (db.nextId .snapshots)))
      else (.error .integrity, p.onDatabase (·.attempt .snapshots)) := by
  rw [Action.run_bind, Work.insertSnapshot, Work.run_insert]
  by_cases haccepts : (p.database.attempt .snapshots).acceptsSnapshot
      (make (p.database.nextId .snapshots)) = true
  · rw [if_pos haccepts, if_pos haccepts]
    rfl
  · rw [if_neg haccepts, if_neg haccepts]

end Runs

namespace Keeping

variable (call : Keeping)

/-- The row that a call inserts, if nothing stands in its place. -/
def toSnapshot (plain : List Entries) (metrics : Entries) : Snapshot :=
  { id := call.met.database.nextId .snapshots, tenant := call.tenant
    definition := call.definition, execution := call.execution, date := call.day, rows := plain
    metrics, createdAt := call.met.now }

theorem run_of_error {fault : Fault} (h : summaryOf call.rows call.met.now = .error fault) :
    call.run = (.error fault, call.met) := by
  unfold run keep
  rw [Action.run_bind, run_date]
  dsimp only
  rw [Action.run_bind, run_summarize, h]

theorem run_of_ok {plain : List Entries} {metrics : Entries}
    (h : summaryOf call.rows call.met.now = .ok (plain, metrics)) :
    call.run =
      if (call.met.database.attempt .snapshots).acceptsSnapshot
          (call.toSnapshot plain metrics) then
        (.ok metrics, call.met.onDatabase fun db =>
          (db.attempt .snapshots).putSnapshot (call.toSnapshot plain metrics))
      else (.error .integrity, call.met.onDatabase (·.attempt .snapshots)) := by
  unfold run keep
  rw [Action.run_bind, run_date]
  dsimp only
  rw [Action.run_bind, run_summarize, h]
  dsimp only
  rw [Action.run_bind, run_now]
  dsimp only
  exact run_insertSnapshot call.met metrics fun id => { call.toSnapshot plain metrics with id }

/-- A call fails and leaves every row as it was, or puts one row in its place. -/
theorem left_cases :
    (call.kept? = none ∧ call.left = call.met.database.snapshots) ∨
    ∃ s : Snapshot, s.key = call.key ∧ call.kept? = some s.content ∧
      summaryOf call.rows call.met.now = .ok (s.rows, s.metrics) ∧
      call.left = s.put call.met.database.snapshots := by
  unfold kept? left
  cases hsummary : summaryOf call.rows call.met.now with
  | error fault =>
      rw [call.run_of_error hsummary]
      refine .inl ⟨?_, rfl⟩
      cases rowsToPlain call.rows <;> rfl
  | ok summary =>
      obtain ⟨plain, metrics⟩ := summary
      rw [call.run_of_ok hsummary, (summaryOf_eq_ok.mp hsummary).1]
      by_cases haccepts : (call.met.database.attempt .snapshots).acceptsSnapshot
          (call.toSnapshot plain metrics) = true
      · rw [if_pos haccepts]
        refine .inr ⟨call.toSnapshot plain metrics, rfl, rfl, rfl, ?_⟩
        exact Snapshot.snapshots_putSnapshot _ _
      · rw [if_neg haccepts]
        exact .inl ⟨rfl, rfl⟩

/-- The tables accept a row that refers to nothing that is not there. -/
theorem accepts_of_refers (hrefers : call.Refers) (plain : List Entries) (metrics : Entries) :
    (call.met.database.attempt .snapshots).acceptsSnapshot
      (call.toSnapshot plain metrics) = true := by
  obtain ⟨htenant, hdefinition, hexecution⟩ := hrefers
  unfold Database.acceptsSnapshot
  rw [Bool.and_eq_true, Bool.and_eq_true]
  exact ⟨⟨htenant, hdefinition⟩, hexecution⟩

/-- A call whose rows can be summarized, and that refers to nothing that is not there, answers
the summary. -/
theorem run_eq_ok {plain : List Entries} {metrics : Entries}
    (h : summaryOf call.rows call.met.now = .ok (plain, metrics)) (hrefers : call.Refers) :
    call.run.1 = .ok metrics := by
  rw [call.run_of_ok h, if_pos (call.accepts_of_refers hrefers plain metrics)]

theorem filter_left :
    call.left.filter (·.key ≠ call.key) =
      call.met.database.snapshots.filter (·.key ≠ call.key) := by
  rcases call.left_cases with ⟨-, hleft⟩ | ⟨s, hkey, -, -, hleft⟩
  · rw [hleft]
  · rw [hleft, ← hkey, Snapshot.filter_put]

end Keeping

theorem lastKept?_concat (key : Uuid × Uuid × Date) (calls : List Keeping) (call : Keeping) :
    lastKept? key (calls ++ [call]) =
      (if call.key = key then call.kept? else none).or (lastKept? key calls) := by
  unfold lastKept?
  rw [List.reverse_append, List.reverse_singleton, List.singleton_append, List.findSome?_cons]
  split
  · next hkept => rw [hkept, Option.some_or]
  · next hkept => rw [hkept, Option.none_or]

namespace Kept

variable {start table : List Snapshot} {calls : List Keeping}

theorem nodup (h : Kept start calls table) (hstart : (start.map (·.key)).Nodup) :
    (table.map (·.key)).Nodup := by
  induction h with
  | none => exact hstart
  | @next past table call earlier met day ih =>
      rcases call.left_cases with ⟨-, hleft⟩ | ⟨s, -, -, -, hleft⟩
      · rw [hleft, met]
        exact ih
      · rw [hleft, met]
        exact Snapshot.nodup_put s table ih

theorem append {later : List Keeping} {table' : List Snapshot} (h : Kept start calls table)
    (hlater : Kept table later table') : Kept start (calls ++ later) table' := by
  induction hlater with
  | none => rwa [List.append_nil]
  | next earlier met day ih =>
      rw [← List.append_assoc]
      exact .next ih met day

/-- Under every key stands what the last successful call for it handed over. -/
theorem find? (h : Kept [] calls table) (key : Uuid × Uuid × Date) :
    (table.find? (·.key = key)).map (·.content) = lastKept? key calls := by
  induction h with
  | none => rfl
  | @next past table call earlier met day ih =>
      rw [lastKept?_concat, ← ih]
      rcases call.left_cases with ⟨hkept, hleft⟩ | ⟨s, hkey, hkept, -, hleft⟩
      · rw [hleft, met, hkept]
        simp
      · rw [hleft, met, hkept, Snapshot.find?_put, hkey]
        split
        · rfl
        · rfl

theorem isValid (h : Kept [] calls table) : ∀ s ∈ table, s.date.IsValid := by
  induction h with
  | none => simp
  | @next past table call earlier met day ih =>
      intro row hrow
      rcases call.left_cases with ⟨-, hleft⟩ | ⟨s, hkey, -, -, hleft⟩
      · rw [hleft, met] at hrow
        exact ih row hrow
      · rw [hleft, met] at hrow
        rcases Snapshot.mem_put s table hrow with hold | ⟨hsame, -⟩
        · exact ih row hold
        · have hdate : row.date = call.day := congrArg (·.2.2) (hsame.trans hkey)
          rw [hdate]
          exact day

/-- Every row holds a summary of the rows of some call. -/
theorem origin (h : Kept [] calls table) {s : Snapshot} (hs : s ∈ table) :
    ∃ call ∈ calls, summaryOf call.rows call.met.now = .ok (s.rows, s.metrics) := by
  induction h generalizing s with
  | none => cases hs
  | @next past table call earlier met day ih =>
      have hpast {s : Snapshot} (hs : s ∈ table) : ∃ call' ∈ past ++ [call],
          summaryOf call'.rows call'.met.now = .ok (s.rows, s.metrics) := by
        obtain ⟨call', hcall, hsummary⟩ := ih hs
        exact ⟨call', List.mem_append_left _ hcall, hsummary⟩
      rcases call.left_cases with ⟨-, hleft⟩ | ⟨new, -, -, hsummary, hleft⟩
      · rw [hleft, met] at hs
        exact hpast hs
      · rw [hleft, met] at hs
        rcases Snapshot.mem_put new table hs with hold | ⟨-, hsame⟩
        · exact hpast hold
        · refine ⟨call, by simp, ?_⟩
          rw [hsummary, show s.rows = new.rows from congrArg (·.2.1) hsame,
            show s.metrics = new.metrics from congrArg (·.2.2) hsame]

/-- Calls of one day leave the rows of every other day as they are. -/
theorem filter_eq (h : Kept start calls table) {day : Date}
    (hcalls : ∀ call ∈ calls, call.day = day) :
    table.filter (·.date ≠ day) = start.filter (·.date ≠ day) := by
  induction h with
  | none => rfl
  | @next past table call earlier met hday ih =>
      have hpast := ih fun call hcall => hcalls call (List.mem_append_left _ hcall)
      have hthis := hcalls call (by simp)
      have hother (rows : List Snapshot) : rows.filter (·.date ≠ day) =
          (rows.filter (·.key ≠ call.key)).filter (·.date ≠ day) := by
        rw [List.filter_filter]
        apply List.filter_congr
        intro s _
        by_cases hdate : s.date = day
        · simp [hdate]
        · have hkey : s.key ≠ call.key := fun hkey =>
            hdate ((congrArg (·.2.2) hkey : s.date = call.day).trans hthis)
          simp [hdate, hkey]
      rw [hother, call.filter_left, met, ← hother, hpast]

end Kept

end Snapshots

end TenantReports
