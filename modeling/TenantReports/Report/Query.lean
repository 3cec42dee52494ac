import TenantReports.Report.Spec
import TenantReports.Sql.Basic

/-!
Queries over the tables of one schema, and their text. A query does not name the schema; its
text is a list of pieces, some of which stand for the schema.
-/

namespace TenantReports

/-- A column of a table of the report's schema. -/
structure ColumnRef where
  table : String
  column : String
deriving DecidableEq, Repr

structure Projection where
  source : ColumnRef
  aggregate : Option Aggregate
  output : String

structure JoinClause where
  type : JoinType
  table : String
  on : String

inductive Condition
  | compare (column : ColumnRef) (comparison : Comparison) (value : Sql.Scalar)
  | like (column : ColumnRef) (pattern : String)
  | oneOf (column : ColumnRef) (values : List Sql.Scalar)
  | between (column : ColumnRef) (low high : String)

/-- What a result is sorted by: a column, or an output that stands for an aggregate. -/
inductive SortTarget
  | column (ref : ColumnRef)
  | output (name : String)

structure SortKey where
  target : SortTarget
  direction : SortDirection

structure Query where
  projections : List Projection
  source : String
  joins : List JoinClause
  conditions : List Condition
  groups : List ColumnRef
  order : List SortKey

/-- A piece of a query's text. -/
inductive Piece
  | plain (text : String)
  | schema
  | literal (text : String)
deriving DecidableEq, Repr

namespace Piece

def chars (schemaName : String) : Piece → List Char
  | plain text => text.toList
  | schema => schemaName.toList
  | literal text => Sql.literalChars text.toList

/-- The text of pieces in the schema `schemaName`. -/
def text (schemaName : String) (pieces : List Piece) : String :=
  String.ofList (pieces.flatMap (chars schemaName))

/-- Groups of pieces with a separator between them. -/
def joined (separator : String) (groups : List (List Piece)) : List Piece :=
  List.intercalate [plain separator] groups

end Piece

open Piece

def tablePieces (table : String) : List Piece := [schema, plain ".", plain table]

def ColumnRef.pieces (ref : ColumnRef) : List Piece :=
  tablePieces ref.table ++ [plain ".", plain ref.column]

/-- The column in the schema `schemaName`. -/
def ColumnRef.text (schemaName : String) (ref : ColumnRef) : String :=
  Piece.text schemaName ref.pieces

/-- The name of an aggregate or a join type in capitals. -/
def keyword (name : String) : String := String.ofList (name.toList.map Char.toUpper)

def Projection.pieces (p : Projection) : List Piece :=
  (match p.aggregate with
  | some aggregate => plain (keyword aggregate.name ++ "(") :: p.source.pieces ++ [plain ")"]
  | none => p.source.pieces) ++ [plain " AS ", plain p.output]

def JoinClause.pieces (join : JoinClause) : List Piece :=
  plain (" " ++ keyword join.type.name ++ " JOIN ") :: tablePieces join.table ++
    [plain " ON ", plain join.on]

def scalarPiece : Sql.Scalar → Piece
  | .null => plain "NULL"
  | .number text => plain text
  | .literal text => literal text

def Condition.pieces : Condition → List Piece
  | compare column comparison value =>
      column.pieces ++ [plain (" " ++ comparison.symbol ++ " "), scalarPiece value]
  | like column pattern => column.pieces ++ [plain " LIKE ", literal pattern]
  | oneOf column values =>
      column.pieces ++ plain " IN (" :: joined ", " (values.map fun v => [scalarPiece v]) ++
        [plain ")"]
  | between column low high =>
      column.pieces ++ [plain " BETWEEN ", literal low, plain " AND ", literal high]

def SortTarget.pieces : SortTarget → List Piece
  | column ref => ref.pieces
  | output name => [plain name]

def SortKey.pieces (key : SortKey) : List Piece :=
  key.target.pieces ++ [plain (" " ++ key.direction.name)]

/-- A clause that is left out when it has no parts. -/
def optionalClause (heading separator : String) (parts : List (List Piece)) : List Piece :=
  if parts.isEmpty then [] else plain heading :: joined separator parts

namespace Query

def pieces (q : Query) : List Piece :=
  plain "SELECT " :: joined ", " (q.projections.map Projection.pieces) ++
    plain " FROM " :: tablePieces q.source ++
    q.joins.flatMap JoinClause.pieces ++
    optionalClause " WHERE " " AND " (q.conditions.map Condition.pieces) ++
    optionalClause " GROUP BY " ", " (q.groups.map ColumnRef.pieces) ++
    optionalClause " ORDER BY " ", " (q.order.map SortKey.pieces)

def text (schemaName : String) (q : Query) : String := Piece.text schemaName q.pieces

end Query

end TenantReports
