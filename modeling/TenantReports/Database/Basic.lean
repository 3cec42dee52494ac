import TenantReports.Metrics.Snapshot
import TenantReports.Report.Custom
import TenantReports.Report.Definition
import TenantReports.Report.Execution
import TenantReports.Schedule.Record

/-!
The tables that all tenants share, and the rules that rows have to keep: names of schemas and
domains are used once, and rows refer to rows that exist.
-/

namespace TenantReports

inductive TableName
  | tenants
  | definitions
  | executions
  | snapshots
  | customReports
  | schedules
deriving DecidableEq, Repr

/-- The number by which identifiers tell the table of a row. -/
def TableName.number : TableName → Nat
  | tenants => 1
  | definitions => 2
  | executions => 3
  | snapshots => 4
  | customReports => 5
  | schedules => 6

/-- The identifier of the `n`th row of a table. -/
def TableName.rowId (table : TableName) (n : Nat) : Uuid :=
  ⟨table.number * Decimal.twoTo 96 + 0x4000 * Decimal.twoTo 64 + 0x8000 * Decimal.twoTo 48 + n⟩

structure Database where
  tenants : List Tenant
  definitions : List Definition
  executions : List Execution
  snapshots : List Snapshot
  customReports : List CustomReport
  schedules : List Schedule
  /-- The table of every attempted insert. An identifier is never given out twice, not even when
  the insert is refused. -/
  attempts : List TableName

namespace Database

def empty : Database := ⟨[], [], [], [], [], [], []⟩

/-- The identifier for the next row of a table. -/
def nextId (db : Database) (table : TableName) : Uuid := table.rowId (db.attempts.count table + 1)

def attempt (db : Database) (table : TableName) : Database :=
  { db with attempts := table :: db.attempts }

def tenant? (db : Database) (id : Uuid) : Option Tenant := db.tenants.find? (·.id == id)

def definition? (db : Database) (id : Uuid) : Option Definition :=
  db.definitions.find? (·.id == id)

def execution? (db : Database) (id : Uuid) : Option Execution := db.executions.find? (·.id == id)

def customReport? (db : Database) (id : Uuid) : Option CustomReport :=
  db.customReports.find? (·.id == id)

def schedule? (db : Database) (id : Uuid) : Option Schedule := db.schedules.find? (·.id == id)

def hasTenant (db : Database) (id : Uuid) : Bool := (db.tenant? id).isSome

def hasDefinition (db : Database) (id : Uuid) : Bool := (db.definition? id).isSome

def hasExecution (db : Database) (id : Uuid) : Bool := (db.execution? id).isSome

def hasCustomReport (db : Database) (id : Uuid) : Bool := (db.customReport? id).isSome

/-- Whether no other tenant has the schema or the domain of this one. -/
def acceptsTenant (db : Database) (tenant : Tenant) : Bool :=
  db.tenants.all fun other =>
    other.id == tenant.id ||
      (other.schemaName != tenant.schemaName &&
        !(other.domain.isSome && other.domain == tenant.domain))

def acceptsDefinition (db : Database) (definition : Definition) : Bool :=
  definition.tenant.all db.hasTenant

def hasSource (db : Database) : ReportSource → Bool
  | .definition id => db.hasDefinition id
  | .custom id => id.all db.hasCustomReport

def acceptsExecution (db : Database) (execution : Execution) : Bool :=
  db.hasSource execution.source && execution.tenant.all db.hasTenant

def acceptsSnapshot (db : Database) (snapshot : Snapshot) : Bool :=
  db.hasTenant snapshot.tenant && db.hasDefinition snapshot.definition &&
    snapshot.execution.all db.hasExecution

def acceptsCustomReport (db : Database) (report : CustomReport) : Bool := db.hasTenant report.tenant

def acceptsSchedule (db : Database) (schedule : Schedule) : Bool :=
  db.hasTenant schedule.tenant && db.hasDefinition schedule.definition

def addTenant (db : Database) (tenant : Tenant) : Database :=
  { db with tenants := db.tenants ++ [tenant] }

def addDefinition (db : Database) (definition : Definition) : Database :=
  { db with definitions := db.definitions ++ [definition] }

def addExecution (db : Database) (execution : Execution) : Database :=
  { db with executions := db.executions ++ [execution] }

def addCustomReport (db : Database) (report : CustomReport) : Database :=
  { db with customReports := db.customReports ++ [report] }

def addSchedule (db : Database) (schedule : Schedule) : Database :=
  { db with schedules := db.schedules ++ [schedule] }

/-- Adds a snapshot, or gives its content to the one of the same report, tenant and day. -/
def putSnapshot (db : Database) (snapshot : Snapshot) : Database :=
  if db.snapshots.any (·.sameDay snapshot) then
    { db with
      snapshots := db.snapshots.map fun old =>
        if old.sameDay snapshot then old.replacedBy snapshot else old }
  else { db with snapshots := db.snapshots ++ [snapshot] }

def updateTenant (db : Database) (id : Uuid) (f : Tenant → Tenant) : Database :=
  { db with tenants := db.tenants.map fun tenant => if tenant.id = id then f tenant else tenant }

def updateDefinition (db : Database) (id : Uuid) (f : Definition → Definition) : Database :=
  { db with
    definitions := db.definitions.map fun definition =>
      if definition.id = id then f definition else definition }

def updateExecution (db : Database) (id : Uuid) (f : Execution → Execution) : Database :=
  { db with
    executions := db.executions.map fun execution =>
      if execution.id = id then f execution else execution }

def updateCustomReport (db : Database) (id : Uuid) (f : CustomReport → CustomReport) : Database :=
  { db with
    customReports := db.customReports.map fun report =>
      if report.id = id then f report else report }

def updateSchedule (db : Database) (id : Uuid) (f : Schedule → Schedule) : Database :=
  { db with
    schedules := db.schedules.map fun schedule =>
      if schedule.id = id then f schedule else schedule }

/-- Removes a custom report; its executions stay and no longer refer to it. -/
def removeCustomReport (db : Database) (id : Uuid) : Database :=
  { db with
    customReports := db.customReports.filter (·.id != id)
    executions := db.executions.map fun execution =>
      { execution with source := execution.source.forget id } }

def removeSchedule (db : Database) (id : Uuid) : Database :=
  { db with schedules := db.schedules.filter (·.id != id) }

end Database

end TenantReports
