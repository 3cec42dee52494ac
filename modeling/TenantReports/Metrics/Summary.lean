import TenantReports.Calendar.Iso
import TenantReports.Value.Mapping
import TenantReports.Value.Number

/-!
Summary metrics of a result set, and the change from one summary to another.
-/

namespace TenantReports

/-- Total, mean and bounds of the numbers in a column. -/
structure ColumnSummary where
  sum : Float
  avg : Float
  min : Float
  max : Float

namespace ColumnSummary

/-- The mean of as many numbers as `count` says. -/
def mean (sum : Float) (count : Nat) : Result Float :=
  if count = 0 then .error (.number .zeroDivisor) else .ok (sum / Float.ofNat count)

/-- Numbers are added from left to right; of equal bounds the first one stands. -/
def ofNumbers (numbers : List Float) : Result ColumnSummary := do
  let sum := numbers.foldl (· + ·) 0.0
  let avg ← mean sum numbers.length
  let first := numbers.headD 0.0
  return {
    sum
    avg
    min := numbers.foldl (fun least x => if x < least then x else least) first
    max := numbers.foldl (fun greatest x => if greatest < x then x else greatest) first }

def toValue (summary : ColumnSummary) : Value :=
  .record
    [("sum", .float summary.sum), ("avg", .float summary.avg), ("min", .float summary.min),
     ("max", .float summary.max)]

end ColumnSummary

namespace Metrics

/-- The numbers that rows have under a key. -/
def numbersOf (rows : List Entries) (key : Value) : Result (List Float) :=
  (rows.filterMap fun row => (row.get? key).filter Value.isNumber).mapM Value.toReal

def summarizeColumn (rows : List Entries) (key : Value) : Result ColumnSummary := do
  ColumnSummary.ofNumbers (← numbersOf rows key)

/-- The metrics of one more column of the first row, if that column is numeric there. -/
def addColumn (rows : List Entries) (metrics : Entries) (column : Value × Value) :
    Result Entries :=
  if column.2.isNumber then do
    return metrics.put column.1 (← summarizeColumn rows column.1).toValue
  else .ok metrics

/-- The number of rows, the time, and a summary of each column that is numeric in the first row. -/
def summarize (rows : List Entries) (now : DateTime) : Result Entries :=
  let header : Entries :=
    [(.text "row_count", .int rows.length), (.text "timestamp", .text now.toText)]
  (rows.headD []).foldlM (addColumn rows) header

def quotient (x y : Float) : Result Float :=
  if y == 0.0 then .error (.number .zeroDivisor) else .ok (x / y)

/-- A difference in percent of what was there before; none where that was zero. -/
def percentage (absolute previous : Float) : Result Float :=
  if previous == 0.0 then .ok 0.0
  else do return (← quotient absolute previous) * 100.0

/-- The change of a number, and the change in percent. -/
def change (current previous : Float) : Result Value := do
  let absolute := current - previous
  let percentage ← percentage absolute previous
  return .record [("absolute", .float absolute), ("percentage", .float percentage)]

def changeOf (current previous : Value) : Result Value := do
  let x ← current.toReal
  let y ← previous.toReal
  change x y

/-- The change of one metric: of sums between two summaries, of the numbers themselves between
two numbers, and none otherwise. -/
def changeOf? (current previous : Value) : Result (Option Value) :=
  match current, previous with
  | .mapping xs, .mapping ys =>
      match Entries.field? xs "sum", Entries.field? ys "sum" with
      | some x, some y => do return some (← changeOf x y)
      | _, _ => .ok none
  | x, y => if x.isNumber && y.isNumber then do return some (← changeOf x y) else .ok none

def addChange (previous changes : Entries) (metric : Value × Value) : Result Entries :=
  if metric.1.sameKey (.text "timestamp") then .ok changes
  else
    match previous.get? metric.1 with
    | none => .ok changes
    | some old => do
        match ← changeOf? metric.2 old with
        | some change => return changes.put metric.1 change
        | none => return changes

/-- The changes of all metrics that two summaries share. -/
def compare (current previous : Entries) : Result Entries :=
  current.foldlM (addChange previous) []

end Metrics

end TenantReports
