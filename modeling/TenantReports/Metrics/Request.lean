import TenantReports.Validation.Form
import TenantReports.Validation.Moment

/-!
The change of a metric, a comparison, and a point of a trend, as requests and answers carry them.
-/

namespace TenantReports

structure MetricChange where
  absolute : Float
  percentage : Float

namespace MetricChange

def read : Reader MetricChange :=
  Read.record fun given =>
    mk <$> Read.required "absolute" Read.real given
      <*> Read.required "percentage" Read.real given

def form (change : MetricChange) : Form :=
  .record
    [("absolute", .value (.float change.absolute)),
     ("percentage", .value (.float change.percentage))]

end MetricChange

structure ReportComparison where
  current : Entries
  previous : Entries
  change : List (String × MetricChange)

namespace ReportComparison

def read : Reader ReportComparison :=
  Read.record fun given =>
    mk <$> Read.required "current" Read.anyMapping given
      <*> Read.required "previous" Read.anyMapping given
      <*> Read.required "change" (Read.mapping MetricChange.read) given

def form (comparison : ReportComparison) : Form :=
  .record
    [("current", .value (.mapping comparison.current)),
     ("previous", .value (.mapping comparison.previous)),
     ("change", .table (comparison.change.map fun entry => (entry.1, entry.2.form)))]

end ReportComparison

structure TrendPoint where
  date : Date
  metrics : Entries
  rows : List Entries

namespace TrendPoint

def read : Reader TrendPoint :=
  Read.record fun given =>
    mk <$> Read.required "date" Read.date given
      <*> Read.required "metrics" Read.anyMapping given
      <*> Read.required "data" (Read.list Read.anyMapping) given

def form (point : TrendPoint) : Form :=
  .record
    [("date", .value (.date point.date)), ("metrics", .value (.mapping point.metrics)),
     ("data", .value (.list (point.rows.map .mapping)))]

end TrendPoint

end TenantReports
