import TenantReports.Json.Writer
import TenantReports.Value.Basic

/-!
Rows as the content of an export file. In comma-separated text every field stands in quotes, a quote
inside a field is written twice, and every record ends with a carriage return and a line feed.
-/

namespace TenantReports

namespace Csv

def escapeChar (c : Char) : List Char := if c = '"' then ['"', '"'] else [c]

def field (cs : List Char) : List Char := '"' :: cs.flatMap escapeChar ++ ['"']

def record (fields : List (List Char)) : List Char :=
  List.intercalate [','] (fields.map field) ++ ['\r', '\n']

/-- The text of a cell: null is empty. -/
def cell : Value → List Char
  | .null => []
  | v => v.plainChars

def write (records : List (List Value)) : String :=
  String.ofList (records.flatMap fun cells => record (cells.map cell))

end Csv

inductive ExportFormat
  | csv
  | excel
  | json
deriving DecidableEq, Repr

namespace ExportFormat

def ofName? : String → Option ExportFormat
  | "csv" => some csv
  | "excel" => some excel
  | "json" => some json
  | _ => none

/-- Spreadsheets are given comma-separated text. -/
def extension : ExportFormat → String
  | csv | excel => "csv"
  | json => "json"

def contentType : ExportFormat → String
  | csv | excel => "text/csv"
  | json => "application/json"

end ExportFormat

/-- The content of an export file, and how to name and serve it. -/
structure ExportFile where
  content : String
  extension : String
  contentType : String
deriving DecidableEq, Repr

namespace ExportFile

def columnName (column : Entries) : Result Value :=
  match column.field? "name" with
  | some name => .ok name
  | none => .error (.missingKey (.text "name"))

/-- The names of the columns, or the keys of the first row where no columns are given. A name that
can be no key cannot be looked up in a row. -/
def names (rows : List Entries) (columns : List Entries) : Result (List Value) := do
  let given ← columns.mapM columnName
  if given.isEmpty then return (rows.headD []).map (·.1)
  else if rows.isEmpty || given.all Value.isKey then return given
  else .error .mistyped

def heading (column : Entries) (name : Value) : Value :=
  if (column.field "label").isTruthy then column.field "label" else name

/-- The label of each column, or its name where it has none. -/
def headings (columns : List Entries) (names : List Value) : List Value :=
  if columns.isEmpty then names else List.zipWith heading columns names

def csvContent (rows : List Entries) (columns : List Entries) : Result String := do
  let names ← names rows columns
  let records := rows.map fun row => names.map fun name => (row.get? name).getD .null
  return Csv.write (headings columns names :: records)

def jsonContent (rows : List Entries) : Result String := do
  return Json.write (.list ((← rowsToPlain rows).map .mapping))

def contentOf (format : ExportFormat) (rows columns : List Entries) : Result String :=
  match format with
  | .csv | .excel => csvContent rows columns
  | .json => jsonContent rows

def render (rows columns : List Entries) (formatName : String) : Result ExportFile := do
  match ExportFormat.ofName? formatName with
  | none => .error (.exportFormat formatName)
  | some format =>
      let content ← contentOf format rows columns
      return ⟨content, format.extension, format.contentType⟩

end ExportFile

end TenantReports
