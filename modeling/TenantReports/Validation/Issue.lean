import TenantReports.Decimal.Digits

/-!
What is wrong with a request, and where.
-/

namespace TenantReports

/-- A step on the way to a part of a request: into a field, or to an item of a list. A key of a
mapping that is a whole number counts as an item. -/
inductive PathPart
  | field (name : String)
  | item (index : Int)
deriving DecidableEq, Repr

abbrev Path := List PathPart

inductive IssueKind
  | missing
  | literal
  | enumeration
  | textType
  /-- Bytes that are no text. -/
  | textEncoding
  | textTooShort
  | textTooLong
  | textPattern
  | intType
  | intParsing
  /-- Too many digits, or a float beyond 64 bits. -/
  | intSize
  | intFromFloat
  | notFinite
  | floatType
  | floatParsing
  | boolType
  | boolParsing
  | listType
  | mappingType
  | recordType
  /-- A body, or a part of one, that should be a record. -/
  | bodyRecordType
  | uuidType
  | uuidParsing
  | dateType
  /-- A date in the year before the first. -/
  | dateParsing
  /-- A text or a number that is neither a date nor a moment. -/
  | dateFromMoment
  /-- A moment that should be a date, but is no midnight. -/
  | dateInexact
  | momentType
  | momentParsing
  /-- A text that is neither a moment nor a date. -/
  | momentFromDate
  | atLeast
  | atMost
  | rejected
deriving DecidableEq, Repr

/-- One fault of a request, and the path to the part that has it. -/
structure Issue where
  kind : IssueKind
  path : Path
deriving DecidableEq, Repr

namespace IssueKind

/-- The name of a kind, as answers give it. -/
def name : IssueKind → String
  | missing => "missing"
  | literal => "literal_error"
  | enumeration => "enum"
  | textType => "string_type"
  | textEncoding => "string_unicode"
  | textTooShort => "string_too_short"
  | textTooLong => "string_too_long"
  | textPattern => "string_pattern_mismatch"
  | intType => "int_type"
  | intParsing => "int_parsing"
  | intSize => "int_parsing_size"
  | intFromFloat => "int_from_float"
  | notFinite => "finite_number"
  | floatType => "float_type"
  | floatParsing => "float_parsing"
  | boolType => "bool_type"
  | boolParsing => "bool_parsing"
  | listType => "list_type"
  | mappingType => "dict_type"
  | recordType => "model_type"
  | bodyRecordType => "model_attributes_type"
  | uuidType => "uuid_type"
  | uuidParsing => "uuid_parsing"
  | dateType => "date_type"
  | dateParsing => "date_parsing"
  | dateFromMoment => "date_from_datetime_parsing"
  | dateInexact => "date_from_datetime_inexact"
  | momentType => "datetime_type"
  | momentParsing => "datetime_parsing"
  | momentFromDate => "datetime_from_date_parsing"
  | atLeast => "greater_than_equal"
  | atMost => "less_than_equal"
  | rejected => "value_error"

end IssueKind

def PathPart.text : PathPart → String
  | field name => name
  | item index => Decimal.intText index

namespace Issue

def under (part : PathPart) (issue : Issue) : Issue := { issue with path := part :: issue.path }

/-- What issues are listed by: their kind, then their path. -/
def sortKey (issue : Issue) : String × String :=
  (issue.kind.name, "/".intercalate (issue.path.map PathPart.text))

def le (a b : Issue) : Bool :=
  let x := a.sortKey
  let y := b.sortKey
  x.1 < y.1 || (x.1 == y.1 && x.2 ≤ y.2)

/-- The same issue, found in the body of a request. -/
def inBody (issue : Issue) : Issue :=
  match issue.kind with
  | .recordType => { issue with kind := .bodyRecordType }
  | _ => issue

def sorted (issues : List Issue) : List Issue := issues.mergeSort le

end Issue

end TenantReports
