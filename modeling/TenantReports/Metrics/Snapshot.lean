import TenantReports.Tenant.Record

/-!
Daily snapshots of the results of reports.
-/

namespace TenantReports

structure Snapshot where
  id : Uuid
  tenant : Uuid
  definition : Uuid
  execution : Option Uuid
  date : Date
  rows : List Entries
  metrics : Entries
  createdAt : DateTime

namespace Snapshot

/-- Whether two snapshots are of one report, tenant and day. -/
def sameDay (a b : Snapshot) : Bool :=
  a.tenant == b.tenant && a.definition == b.definition && a.date == b.date

/-- The snapshot with the content of a later one. -/
def replacedBy (old new : Snapshot) : Snapshot :=
  { old with execution := new.execution, rows := new.rows, metrics := new.metrics }

def rowsValue (rows : List Entries) : Value := .list (rows.map .mapping)

def fields (snapshot : Snapshot) : List (String × Value) :=
  [("tenant_id", .ofId snapshot.tenant), ("report_definition_id", .ofId snapshot.definition),
   ("execution_id", .orNull .ofId snapshot.execution),
   ("snapshot_date", .text snapshot.date.toText), ("data", rowsValue snapshot.rows),
   ("summary_metrics", .mapping snapshot.metrics)]

/-- The point of a trend that a snapshot is. -/
def trendFields (snapshot : Snapshot) : List (String × Value) :=
  [("date", .text snapshot.date.toText), ("metrics", .mapping snapshot.metrics),
   ("data", rowsValue snapshot.rows)]

end Snapshot

end TenantReports
