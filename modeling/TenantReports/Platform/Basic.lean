import TenantReports.Cache.TableCache
import TenantReports.Connection.Scope
import TenantReports.Database.Basic
import TenantReports.Settings.Basic
import TenantReports.Storage.Local

/-!
The platform: everything that work on it reads and changes. It holds the shared tables, the tables
of the tenants' schemas by name, the table cache, the store of files and the pooled connection,
and what the outside world holds ready: the time, and the replies to report queries.
-/

namespace TenantReports

/-- What the database replies to a report's query. -/
inductive QueryReply
  | result (keys : List String) (rows : List Entries)
  /-- The database refuses the query. -/
  | rejected (text : String)
  /-- The query fails in another way. -/
  | crashed (text : String)
  | cancelled

/-- A table of a tenant's schema. -/
structure TenantTable where
  schemaName : String
  table : String
deriving DecidableEq, Repr

structure Platform where
  settings : Settings
  /-- The time in universal time. -/
  now : DateTime
  database : Database
  catalog : List TenantTable
  cache : TableCache
  store : Option LocalStore
  connection : Connection
  replies : List QueryReply
  /-- How often the catalog was asked. -/
  lookups : Nat

namespace TenantTable

def creation : List Char := "CREATE TABLE IF NOT EXISTS ".toList

/-- The table that a statement creates. -/
def ofStatement? (sql : String) : Option TenantTable :=
  if creation.isPrefixOf sql.toList then
    let name := sql.toList.drop creation.length
    match name.dropWhile Sql.isNameChar with
    | '.' :: rest =>
        some ⟨String.ofList (name.takeWhile Sql.isNameChar),
          String.ofList (rest.takeWhile Sql.isNameChar)⟩
    | _ => none
  else none

/-- The table that an event creates; only migrations create tables. -/
def ofEvent? : ConnectionEvent → Option TenantTable
  | .migration sql => ofStatement? sql
  | _ => none

end TenantTable

namespace Platform

def hasTable (p : Platform) (table : TenantTable) : Bool := p.catalog.contains table

def addTable (catalog : List TenantTable) (table : TenantTable) : List TenantTable :=
  if catalog.contains table then catalog else catalog ++ [table]

/-- Puts the tables that committed events create into the catalog. -/
def settle (events : List ConnectionEvent) (p : Platform) : Platform :=
  { p with catalog := (events.filterMap TenantTable.ofEvent?).foldl addTable p.catalog }

instance : Connected Platform :=
  ⟨Platform.connection, fun p connection => { p with connection }, settle⟩

def today (p : Platform) : Date := p.now.date

end Platform

/-- Work on the platform. -/
abbrev Work (α : Type) := Action Platform α

namespace Work

def database : Work Database := do return (← get).database

def updateDatabase (f : Database → Database) : Work Unit :=
  modify fun p => { p with database := f p.database }

def settings : Work Settings := do return (← get).settings

def now : Work DateTime := do return (← get).now

/-- Inserts a row under the next identifier of its table, if the rules allow it. -/
def insert {α : Type} (table : TableName) (accepts : Database → α → Bool)
    (add : Database → α → Database) (make : Uuid → α) : Work α := do
  let row := make ((← database).nextId table)
  updateDatabase (·.attempt table)
  if accepts (← database) row then
    updateDatabase (add · row)
    return row
  else throw .integrity

def insertTenant : (Uuid → Tenant) → Work Tenant :=
  insert .tenants Database.acceptsTenant Database.addTenant

def insertDefinition : (Uuid → Definition) → Work Definition :=
  insert .definitions Database.acceptsDefinition Database.addDefinition

def insertExecution : (Uuid → Execution) → Work Execution :=
  insert .executions Database.acceptsExecution Database.addExecution

def insertSnapshot : (Uuid → Snapshot) → Work Snapshot :=
  insert .snapshots Database.acceptsSnapshot Database.putSnapshot

def insertCustomReport : (Uuid → CustomReport) → Work CustomReport :=
  insert .customReports Database.acceptsCustomReport Database.addCustomReport

def insertSchedule : (Uuid → Schedule) → Work Schedule :=
  insert .schedules Database.acceptsSchedule Database.addSchedule

/-- Takes the next reply to a report's query; without one, the result is empty. -/
def nextReply : Work QueryReply := do
  let p ← get
  match p.replies with
  | [] => return .result [] []
  | reply :: replies =>
      set { p with replies }
      return reply

/-- Sends a report's query; answers the keys of the result and its rows. -/
def query (sql : String) : Work (List String × List Entries) := do
  Action.sendQuery sql
  match ← nextReply with
  | .result keys rows => return (keys, rows)
  | .rejected text => throw (.outside .database text)
  | .crashed text => throw (.outside .runtime text)
  | .cancelled => throw .cancelled

/-- What must be there. -/
def require {α : Type} (fault : Fault) : Option α → Work α
  | some a => pure a
  | none => throw fault

end Work

end TenantReports
