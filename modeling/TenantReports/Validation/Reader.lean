import TenantReports.Validation.Issue
import TenantReports.Validation.Spelled
import TenantReports.Value.Mapping

/-!
Reading the parts of a request. A reader either yields what a part means or lists all that is
wrong with it. Numbers and truth values may be given as texts that spell them.
-/

namespace TenantReports

open TenantReports.Decimal

inductive Validated (α : Type)
  | valid (a : α)
  | invalid (issues : List Issue)
deriving DecidableEq

namespace Validated

def map {α β : Type} (f : α → β) : Validated α → Validated β
  | valid a => valid (f a)
  | invalid issues => invalid issues

/-- Both parts, or what is wrong with either. -/
def seq {α β : Type} : Validated (α → β) → Validated α → Validated β
  | valid f, valid a => valid (f a)
  | valid _, invalid issues => invalid issues
  | invalid issues, valid _ => invalid issues
  | invalid issues, invalid more => invalid (issues ++ more)

instance : Applicative Validated where
  map f v := v.map f
  pure a := valid a
  seq f v := f.seq (v ())

def under {α : Type} (part : PathPart) : Validated α → Validated α
  | valid a => valid a
  | invalid issues => invalid (issues.map (Issue.under part))

/-- A further test of what was read. -/
def andThen {α β : Type} (v : Validated α) (f : α → Validated β) : Validated β :=
  match v with
  | valid a => f a
  | invalid issues => invalid issues

def isValid {α : Type} : Validated α → Bool
  | valid _ => true
  | invalid _ => false

/-- What is wrong. -/
def issues {α : Type} : Validated α → List Issue
  | valid _ => []
  | invalid issues => issues

def issue {α : Type} (kind : IssueKind) : Validated α := invalid [⟨kind, []⟩]

end Validated

abbrev Reader (α : Type) := Value → Validated α

namespace Read

open Validated (issue)

def any : Reader Value := .valid

def text : Reader String
  | .text s => .valid s
  | .bytes content =>
      match textOfBytes? content with
      | some s => .valid s
      | none => issue .textEncoding
  | _ => issue .textType

/-- Bytes read as the text that they encode; `kind` is what is wrong with other bytes. -/
def viaText {α : Type} (kind : IssueKind) (content : List UInt8) (reader : String → Validated α) :
    Validated α :=
  match textOfBytes? content with
  | some s => reader s
  | none => issue kind

/-- What a text field allows. -/
structure TextRule where
  minLength : Nat := 0
  maxLength : Option Nat := none
  pattern : List Char → Bool := fun _ => true

def ruledText (rule : TextRule) : Reader String := fun v =>
  (text v).andThen fun s =>
    if s.length < rule.minLength then issue .textTooShort
    else if rule.maxLength.any fun limit => limit < s.length then issue .textTooLong
    else if rule.pattern s.toList then .valid s
    else issue .textPattern

/-- One of the given texts. -/
def choice (names : List String) : Reader String
  | .text s => if names.contains s then .valid s else issue .literal
  | _ => issue .literal

/-- Whole numbers as requests spell them. -/
def wholeOfText (s : String) : Validated Int :=
  if Spelled.isTooLong s.toList then issue .intSize
  else
    match Spelled.whole? s.toList with
    | some n => .valid n
    | none => issue .intParsing

/-- Whether a number fits into a signed word of 64 bits. -/
def isWordSized (n : Int) : Bool := -(twoTo 63 : Int) ≤ n && n < twoTo 63

/-- A float that is whole. The least signed word is not told from the floats below it. -/
def wholeOfFloat (x : Float) : Validated Int :=
  match Binary.ofFloat? x with
  | some b =>
      if !b.isWhole then issue .intFromFloat
      else if isWordSized b.truncate && isWordSized (b.truncate - 1) then .valid b.truncate
      else issue .intSize
  | none => issue .notFinite

def wholeOfNumeric : Numeric → Validated Int
  | .finite negative coefficient exponent =>
      let ratio := decimalRatio coefficient exponent
      if ratio.1 % ratio.2 = 0 then .valid (Numeric.truncate negative coefficient exponent)
      else issue .intFromFloat
  | _ => issue .notFinite

def whole : Reader Int
  | .int n => .valid n
  | .bool b => .valid (if b then 1 else 0)
  | .float x => wholeOfFloat x
  | .numeric n => wholeOfNumeric n
  | .text s => wholeOfText s
  | .bytes content => viaText .intParsing content wholeOfText
  | _ => issue .intType

/-- A whole number between two bounds. -/
def wholeIn (low high : Option Int) : Reader Int := fun v =>
  (whole v).andThen fun n =>
    if low.any fun bound => n < bound then issue .atLeast
    else if high.any fun bound => bound < n then issue .atMost
    else .valid n

/-- Floating-point numbers as requests spell them. -/
def realOfText (s : String) : Validated Float :=
  match Spelled.real? s.toList with
  | some x => .valid x
  | none => issue .floatParsing

def real : Reader Float
  | .float x => .valid x
  | .int n =>
      let numeral : Numeral := ⟨n < 0, n.natAbs, 0⟩
      if numeral.isFinite then .valid numeral.toFloat else issue .floatType
  | .bool b => .valid (if b then 1.0 else 0.0)
  | .numeric n =>
      match n.toFloat? with
      | some x => .valid x
      | none => issue .floatType
  | .text s => realOfText s
  | .bytes content => viaText .floatParsing content realOfText
  | _ => issue .floatType

def trueWords : List String := ["1", "on", "t", "true", "y", "yes"]
def falseWords : List String := ["0", "off", "f", "false", "n", "no"]

def flagOfWord (s : String) : Validated Bool :=
  let word := String.ofList (lowerAscii s.toList)
  if trueWords.contains word then .valid true
  else if falseWords.contains word then .valid false
  else issue .boolParsing

def flagOfWhole : Int → Validated Bool
  | 0 => .valid false
  | 1 => .valid true
  | _ => issue .boolParsing

def flagOfFloat (x : Float) : Validated Bool :=
  match wholeOfFloat x with
  | .valid n => flagOfWhole n
  | .invalid _ => issue .boolType

def flag : Reader Bool
  | .bool b => .valid b
  | .int n => if isWordSized n then flagOfWhole n else issue .boolType
  | .text s => flagOfWord s
  | .bytes content => viaText .boolParsing content flagOfWord
  | .float x => flagOfFloat x
  | .numeric n =>
      match n.toFloat? with
      | some x => flagOfFloat x
      | none => issue .boolType
  | _ => issue .boolType

/-- Bytes are an identifier's text or its sixteen bytes. -/
def uuidOfBytes (content : List UInt8) : Validated Uuid :=
  match (textOfBytes? content).bind Uuid.ofText?, content.length with
  | some id, _ => .valid id
  | none, 16 => .valid ⟨content.foldl (fun n byte => n * 256 + byte.toNat) 0⟩
  | none, _ => issue .uuidParsing

def uuid : Reader Uuid
  | .uuid id => .valid id
  | .text s =>
      match Uuid.ofText? s with
      | some id => .valid id
      | none => issue .uuidParsing
  | .bytes content => uuidOfBytes content
  | _ => issue .uuidType

def nullable {α : Type} (reader : Reader α) : Reader (Option α)
  | .null => .valid none
  | v => (reader v).map some

def items {α : Type} (reader : Reader α) : (index : Nat) → List Value → Validated (List α)
  | _, [] => .valid []
  | index, v :: vs =>
      ((reader v).under (.item index)).map (· :: ·) |>.seq (items reader (index + 1) vs)

def list {α : Type} (reader : Reader α) : Reader (List α)
  | .list vs | .tuple vs => items reader 0 vs
  | _ => issue .listType

/-- A key on the path to a fault: a text as it is, and what else is no number as messages show
it. -/
def keyPart : Value → PathPart
  | .text s => .field s
  | .bool b => .item (if b then 1 else 0)
  | .int n => if isWordSized n then .item n else .field (intText n)
  | other => .field other.shown

def entries {α : Type} (reader : Reader α) : List (Value × Value) → Validated (List (String × α))
  | [] => .valid []
  | (key, v) :: rest =>
      let key' := ((text key).under (.field "[key]")).under (keyPart key)
      let entry := (key'.map Prod.mk).seq ((reader v).under (keyPart key))
      (entry.map (· :: ·)).seq (entries reader rest)

/-- The part that came last under each name, in the order in which the names came first. -/
def lastByName {α : Type} (parts : List (String × α)) : List (String × α) :=
  parts.foldl
    (fun kept part =>
      if kept.any (·.1 == part.1) then kept.map fun old => if old.1 == part.1 then part else old
      else kept ++ [part])
    []

/-- A mapping from texts. -/
def mapping {α : Type} (reader : Reader α) : Reader (List (String × α))
  | .mapping given => (entries reader given).map lastByName
  | _ => issue .mappingType

/-- A mapping from texts to anything. -/
def anyMapping : Reader Entries := fun v =>
  (mapping any v).map fun given => given.map fun entry => (.text entry.1, entry.2)

/-- The fields of a record. -/
def record {α : Type} (fields : Entries → Validated α) : Reader α
  | .mapping given => fields given
  | _ => issue .recordType

/-- The fields of a record, or of an object that has none of them. -/
def object {α : Type} (fields : Entries → Validated α) : Reader α
  | .mapping given => fields given
  | .numeric _ | .date _ | .dateTime _ | .time _ | .duration _ | .uuid _ => fields []
  | _ => issue .bodyRecordType

def required {α : Type} (name : String) (reader : Reader α) (given : Entries) : Validated α :=
  match given.field? name with
  | some v => (reader v).under (.field name)
  | none => (issue .missing).under (.field name)

/-- A field that has a default. -/
def optional {α : Type} (name : String) (reader : Reader α) (default : α) (given : Entries) :
    Validated α :=
  match given.field? name with
  | some v => (reader v).under (.field name)
  | none => .valid default

/-- A field that may be null or left out. -/
def orNull {α : Type} (name : String) (reader : Reader α) : Entries → Validated (Option α) :=
  optional name (nullable reader) none

end Read

end TenantReports
