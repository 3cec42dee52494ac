import TenantReports.Report.Query
import TenantReports.Sql.Basic

/-!
From specifications to queries. Every name is checked to be a bare identifier; join predicates
have to be trusted.
-/

namespace TenantReports

/-- Why a specification yields no query. -/
inductive QueryFault
  | identifier (name : String)
  | spec (fault : SpecFault ColumnRef)
  | untrustedJoin (on : Sql.Fragment)
  | noItem

namespace QueryFault

/-- The fault as it is told of a report in the schema `schemaName`. -/
def toFault (schemaName : String) : QueryFault → Fault
  | identifier name => .invalidIdentifier (.text name)
  | spec fault => .spec (fault.map (ColumnRef.text schemaName))
  | untrustedJoin on =>
      match on.require "Join predicate" with
      | .error fault => fault
      | .ok _ => .mistyped
  | noItem => .noItem

end QueryFault

abbrev QueryResult := Except QueryFault

namespace QueryResult

def requireIdentifier (name : String) : QueryResult Unit :=
  if Sql.isIdentifier name then .ok () else .error (.identifier name)

end QueryResult

open QueryResult

def ColumnRef.require (ref : ColumnRef) : QueryResult ColumnRef := do
  requireIdentifier ref.table
  requireIdentifier ref.column
  return ref

/-- The parts of a name in front of its first dot and behind it, if it has one. -/
def splitAtDot? (name : String) : Option (String × String) :=
  let table := name.toList.takeWhile (· ≠ '.')
  match name.toList.dropWhile (· ≠ '.') with
  | [] => none
  | _ :: column => some (String.ofList table, String.ofList column)

namespace ReportSpec

/-- The selected column that a bare name means: by its own name first, then by its alias. -/
def selected? (spec : ReportSpec) (name : String) : Option SelectedColumn :=
  (spec.selectedColumns.find? fun selected => selected.column == name).or
    (spec.selectedColumns.find? fun selected => selected.hasAlias name)

/-- The column that a name in a filter, a grouping or an order means. A name that matches no
selected column is a column of the first data source. -/
def locate (spec : ReportSpec) (name : String) : QueryResult ColumnRef :=
  match splitAtDot? name with
  | some (table, column) => .ok ⟨table, column⟩
  | none => do
      requireIdentifier name
      match spec.selected? name, spec.dataSources with
      | some selected, _ => return ⟨selected.table, selected.column⟩
      | none, source :: _ => return ⟨source, name⟩
      | none, [] => throw .noItem

def resolve (spec : ReportSpec) (name : String) : QueryResult ColumnRef := do
  (← spec.locate name).require

end ReportSpec

def aggregateOf : Option Aggregate → QueryResult Unit
  | some (.unsupported name) => .error (.spec (.aggregate name))
  | _ => .ok ()

def SelectedColumn.toProjection (selected : SelectedColumn) : QueryResult Projection := do
  let source ← ColumnRef.require ⟨selected.table, selected.column⟩
  requireIdentifier selected.outputName
  aggregateOf selected.aggregate
  return ⟨source, selected.aggregate, selected.outputName⟩

def JoinSpec.toClause (join : JoinSpec) : QueryResult JoinClause := do
  match join.type with
  | .unsupported name => throw (.spec (.join name))
  | type =>
      requireIdentifier join.table
      match join.on with
      | .trusted text => return ⟨type, join.table, text⟩
      | on => throw (.untrustedJoin on)

/-- The text of a value that must not be null. -/
def operandText (column : ColumnRef) (operator : FilterOperator) : Value → QueryResult String
  | .null => .error (.spec (.nullComparison operator.name column))
  | v => .ok v.plainText

/-- The values of a choice: the items of a list, or the one value. -/
def choices : Value → List Value
  | .list items | .tuple items => items
  | v => [v]

def oneOfCondition (column : ColumnRef) (value : Value) : QueryResult Condition :=
  match choices value with
  | [] => .error (.spec (.emptyChoice column))
  | values => .ok (.oneOf column (values.map Sql.Scalar.quoted))

/-- The bounds of a range: the two items of a list, or one value for both. -/
def bounds? : Value → Option (Value × Value)
  | .list items | .tuple items =>
      match items with
      | [low, high] => some (low, high)
      | _ => none
  | v => some (v, v)

def betweenCondition (column : ColumnRef) (value : Value) : QueryResult Condition :=
  match bounds? value with
  | none => .error (.spec (.rangeBounds column))
  | some (low, high) => do
      let low ← operandText column .between low
      let high ← operandText column .between high
      return .between column low high

/-- The condition that a filter puts on a column. -/
def conditionOn (column : ColumnRef) (operator : FilterOperator) (value : Value) :
    QueryResult Condition :=
  match operator with
  | .compare comparison => .ok (.compare column comparison (Sql.Scalar.ofValue value))
  | .like => do return .like column (← operandText column .like value)
  | .oneOf => oneOfCondition column value
  | .between => betweenCondition column value
  | .unsupported name => .error (.spec (.operator name))

namespace ReportSpec

def conditionOf (spec : ReportSpec) (filter : FilterSpec) : QueryResult Condition := do
  conditionOn (← spec.resolve filter.column) filter.operator filter.value

/-- The columns that are selected as they are, which an aggregate beside them groups by. -/
def bareColumns (projections : List Projection) : List ColumnRef :=
  (projections.filter (·.aggregate.isNone)).map (·.source)

def groupsOf (spec : ReportSpec) (projections : List Projection) : QueryResult (List ColumnRef) :=
  if !spec.groupBy.isEmpty then spec.groupBy.mapM spec.resolve
  else if projections.any (·.aggregate.isSome) then .ok (bareColumns projections)
  else .ok []

/-- A bare name that is the output of an aggregate means that output. -/
def sortTarget (spec : ReportSpec) (name : String) : QueryResult SortTarget :=
  if (splitAtDot? name).isNone &&
      spec.selectedColumns.any fun selected =>
        selected.aggregate.isSome && selected.outputName == name then
    .ok (.output name)
  else do return .column (← spec.resolve name)

def sortKey (spec : ReportSpec) (order : OrderSpec) : QueryResult SortKey := do
  match order.direction with
  | .unsupported name => throw (.spec (.direction name))
  | direction => return ⟨← spec.sortTarget order.column, direction⟩

/-- The query that a specification describes. -/
def toQuery (spec : ReportSpec) : QueryResult Query := do
  match spec.dataSources with
  | [] => throw (.spec .noDataSource)
  | source :: _ =>
      if spec.selectedColumns.isEmpty then throw (.spec .noSelectedColumn)
      spec.dataSources.forM requireIdentifier
      let projections ← spec.selectedColumns.mapM SelectedColumn.toProjection
      let joins ← spec.joins.mapM JoinSpec.toClause
      let conditions ← spec.filters.mapM spec.conditionOf
      let groups ← spec.groupsOf projections
      let order ← spec.orderBy.mapM spec.sortKey
      return ⟨projections, source, joins, conditions, groups, order⟩

end ReportSpec

/-- The SQL text of a report in one tenant's schema. -/
def compile (schemaName : String) (spec : ReportSpec) : Result String := do
  Sql.requireIdentifier schemaName
  match spec.toQuery with
  | .ok query => return query.text schemaName
  | .error fault => throw (fault.toFault schemaName)

/-- The text of the column that a name means in one tenant's schema. -/
def resolveColumn (schema : Value) (spec : ReportSpec) (name : String) : Result String := do
  match spec.locate name with
  | .error fault => throw (fault.toFault "")
  | .ok ref =>
      let schemaName ← Sql.identifierOf schema
      match ref.require with
      | .ok ref => return ref.text schemaName
      | .error fault => throw (fault.toFault schemaName)

end TenantReports
