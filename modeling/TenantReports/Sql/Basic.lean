import TenantReports.Fault
import TenantReports.Value.Number

/-!
What enters the text of a query: bare identifiers, which are the only names of schemas, tables,
columns and aliases there; text of a trusted author, verbatim; and values as literals. A text
stands in single quotes and every quote inside it is written twice; finite numbers stand bare.
-/

namespace TenantReports.Sql

/-- ASCII letters, digits and the underscore. -/
def isNameChar (c : Char) : Bool := c.isAlphanum || c == '_'

def isIdentifier (name : String) : Bool := name != "" && name.toList.all isNameChar

def requireIdentifier (name : String) : Result Unit :=
  if isIdentifier name then .ok () else .error (.invalidIdentifier (.text name))

/-- The identifier that a value is; only texts can be one. -/
def identifierOf : Value → Result String
  | .text name => do requireIdentifier name; return name
  | other => .error (.invalidIdentifier other)

/-- Identifiers with dots between them, as in `schema.table.column`. -/
def qualify (parts : List Value) : Result String := do
  return ".".intercalate (← parts.mapM identifierOf)

inductive Fragment
  | trusted (text : String)
  | untrusted (given : Value)

namespace Fragment

/-- The text of a trusted fragment; `role` names what the fragment is for. -/
def require (role : String) : Fragment → Result String
  | trusted text => .ok text
  | untrusted given => .error (.untrusted role given.typeName)

def text : Fragment → String
  | trusted text => text
  | untrusted given => given.plainText

/-- The same text as the work of a trusted author. -/
def trust (fragment : Fragment) : Fragment := trusted fragment.text

/-- A fragment as messages show it. -/
def shown : Fragment → String
  | trusted text => "TrustedSqlFragment(" ++ Text.quote text ++ ")"
  | untrusted given => given.shown

end Fragment

open TenantReports.Decimal

def escapeChar (c : Char) : List Char := if c = '\'' then ['\'', '\''] else [c]

/-- A quoted literal. -/
def literalChars (cs : List Char) : List Char := '\'' :: cs.flatMap escapeChar ++ ['\'']

/-- The quoted literal of a value's text. -/
def quoteLiteral (v : Value) : String := String.ofList (literalChars v.plainChars)

/-- Whether a text spells a finite number, blanks around it aside. -/
def spellsNumber (cs : List Char) : Bool :=
  match Numeral.ofChars? (Text.trim cs) with
  | some numeral => numeral.isFinite
  | none => false

/-- Whether a value may stand in a query as a bare number. -/
def isNumericLiteral : Value → Bool
  | .int _ => true
  | .float x => (Binary.ofFloat? x).isSome
  | .text s => spellsNumber s.toList
  | _ => false

/-- What stands in a query for a value. -/
inductive Scalar
  | null
  | number (text : String)
  | literal (text : String)
deriving DecidableEq, Repr

namespace Scalar

/-- Null, a bare number where the value is one, and a quoted literal elsewhere. -/
def ofValue (v : Value) : Scalar :=
  if isNumericLiteral v then number (String.ofList (Text.trim v.plainChars))
  else
    match v with
    | .null => null
    | other => literal other.plainText

/-- Null, or a quoted literal. -/
def quoted : Value → Scalar
  | .null => null
  | other => literal other.plainText

def text : Scalar → String
  | null => "NULL"
  | number text => text
  | literal text => String.ofList (literalChars text.toList)

end Scalar

def renderValue (v : Value) : String := (Scalar.ofValue v).text

end TenantReports.Sql
