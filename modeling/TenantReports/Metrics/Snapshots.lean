import TenantReports.Calendar.Span
import TenantReports.Metrics.Summary
import TenantReports.Platform.Basic
import TenantReports.Value.Plain

/-!
The collection of daily snapshots, the trend that they show, and the comparison of a result with
the latest snapshot before it.
-/

namespace TenantReports.Snapshots

/-- The rows of a result in plain form, and their metrics. -/
def summarize (rows : List Entries) : Work (List Entries × Entries) := do
  let rows ← Action.ofResult (rowsToPlain rows)
  let metrics ← Action.ofResult (Metrics.summarize rows (← Work.now))
  return (rows, metrics)

def today : Work Date := do return (← get).today

/-- Keeps a result as the day's snapshot; answers its metrics. -/
def keep (tenant definition : Uuid) (execution : Option Uuid) (rows : List Entries)
    (date : Option Date) : Work Entries := do
  let date ← date.getDM today
  let (rows, metrics) ← summarize rows
  let createdAt ← Work.now
  let _ ← Work.insertSnapshot fun id =>
    { id, tenant, definition, execution, date, rows, metrics, createdAt }
  return metrics

def isTrend (tenant definition : Uuid) (cutoff : Date) (snapshot : Snapshot) : Bool :=
  snapshot.tenant == tenant && snapshot.definition == definition && !snapshot.date.lt cutoff

/-- The snapshots of the last days, the oldest first. -/
def trend (tenant definition : Uuid) (days : Int) (date : Option Date) : Work (List Snapshot) := do
  let date ← date.getDM today
  let cutoff ← Action.ofResult (date.daysBefore days)
  let found := (← Work.database).snapshots.filter (isTrend tenant definition cutoff)
  return found.mergeSort fun a b => !b.date.lt a.date

/-- A result's metrics, those that it is compared with, and the changes of the metrics that both
have. -/
structure Comparison where
  current : Entries
  previous : Entries
  change : Entries

def Comparison.toValue (comparison : Comparison) : Value :=
  .record
    [("current", .mapping comparison.current), ("previous", .mapping comparison.previous),
     ("change", .mapping comparison.change)]

/-- What a result is compared with where there is no earlier snapshot. -/
def noHistory : Entries := [(.text "row_count", .int 0)]

/-- Compares a result with the latest snapshot of the last days that was taken before the day. -/
def compare (tenant definition : Uuid) (rows : List Entries) (days : Int) (date : Option Date) :
    Work Comparison := do
  let date ← date.getDM today
  let (_, current) ← summarize rows
  let earlier := (← trend tenant definition days (some date)).filter fun s => s.date.lt date
  match earlier.getLast? with
  | none => return ⟨current, noHistory, []⟩
  | some snapshot =>
      let change ← Action.ofResult (Metrics.compare current snapshot.metrics)
      return ⟨current, snapshot.metrics, change⟩

end TenantReports.Snapshots
