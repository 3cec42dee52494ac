import TenantReports.Sql.Basic
import TenantReports.Value.Mapping

/-!
Custom report specifications: what a user asks for, in terms of tables and columns.
-/

namespace TenantReports

inductive Aggregate
  | sum
  | avg
  | count
  | min
  | max
  | unsupported (name : String)
deriving DecidableEq, Repr

inductive JoinType
  | inner
  | left
  | right
  | full
  | unsupported (name : String)
deriving DecidableEq, Repr

inductive Comparison
  | equal
  | notEqual
  | greater
  | less
  | atLeast
  | atMost
deriving DecidableEq, Repr

inductive FilterOperator
  | compare (comparison : Comparison)
  | like
  | oneOf
  | between
  | unsupported (name : String)
deriving DecidableEq, Repr

inductive SortDirection
  | ascending
  | descending
  | unsupported (name : String)
deriving DecidableEq, Repr

structure SelectedColumn where
  table : String
  column : String
  outputAlias : Option String
  aggregate : Option Aggregate

structure JoinSpec where
  type : JoinType
  table : String
  on : Sql.Fragment

structure FilterSpec where
  column : String
  operator : FilterOperator
  value : Value

structure OrderSpec where
  column : String
  direction : SortDirection

structure ReportSpec where
  dataSources : List String
  joins : List JoinSpec
  selectedColumns : List SelectedColumn
  filters : List FilterSpec
  groupBy : List String
  orderBy : List OrderSpec

namespace Aggregate

def ofName : String → Aggregate
  | "sum" => sum
  | "avg" => avg
  | "count" => count
  | "min" => min
  | "max" => max
  | name => unsupported name

def name : Aggregate → String
  | sum => "sum"
  | avg => "avg"
  | count => "count"
  | min => "min"
  | max => "max"
  | unsupported name => name

def isSupported : Aggregate → Bool
  | unsupported _ => false
  | _ => true

end Aggregate

namespace JoinType

def ofName : String → JoinType
  | "inner" => inner
  | "left" => left
  | "right" => right
  | "full" => full
  | name => unsupported name

def name : JoinType → String
  | inner => "inner"
  | left => "left"
  | right => "right"
  | full => "full"
  | unsupported name => name

def isSupported : JoinType → Bool
  | unsupported _ => false
  | _ => true

end JoinType

namespace Comparison

def symbol : Comparison → String
  | equal => "="
  | notEqual => "!="
  | greater => ">"
  | less => "<"
  | atLeast => ">="
  | atMost => "<="

end Comparison

namespace FilterOperator

def ofName : String → FilterOperator
  | "=" => compare .equal
  | "!=" => compare .notEqual
  | ">" => compare .greater
  | "<" => compare .less
  | ">=" => compare .atLeast
  | "<=" => compare .atMost
  | "LIKE" => like
  | "IN" => oneOf
  | "BETWEEN" => between
  | name => unsupported name

def name : FilterOperator → String
  | compare comparison => comparison.symbol
  | like => "LIKE"
  | oneOf => "IN"
  | between => "BETWEEN"
  | unsupported name => name

def isSupported : FilterOperator → Bool
  | unsupported _ => false
  | _ => true

end FilterOperator

namespace SortDirection

/-- The capital of a letter, as far as it is one of those in the names of directions. The long s
has the same capital as the round one. -/
def capital (c : Char) : Char := if c = '\u017f' then 'S' else c.toUpper

/-- Directions may be named in letters of any case. -/
def ofName (name : String) : SortDirection :=
  let capitals := name.toList.map capital
  if capitals = "ASC".toList then ascending
  else if capitals = "DESC".toList then descending
  else unsupported name

def name : SortDirection → String
  | ascending => "ASC"
  | descending => "DESC"
  | unsupported name => name

def isSupported : SortDirection → Bool
  | unsupported _ => false
  | _ => true

end SortDirection

namespace SelectedColumn

/-- The name of the column in the result: its alias, or table and column. -/
def outputName (selected : SelectedColumn) : String :=
  match selected.outputAlias with
  | some given => if given = "" then selected.table ++ "_" ++ selected.column else given
  | none => selected.table ++ "_" ++ selected.column

def hasAlias (selected : SelectedColumn) (name : String) : Bool :=
  match selected.outputAlias with
  | some given => given != "" && given == name
  | none => false

end SelectedColumn

namespace ReportSpec

/-- The tables that a report reads, each once, in the order in which they come first. -/
def tables (spec : ReportSpec) : List String :=
  (spec.dataSources ++ spec.joins.map (·.table)).eraseDups

/-- Takes the predicates of all joins as the work of a trusted author. -/
def trustJoins (spec : ReportSpec) : ReportSpec :=
  { spec with joins := spec.joins.map fun join => { join with on := join.on.trust } }

end ReportSpec

end TenantReports
