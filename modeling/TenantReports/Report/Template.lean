import TenantReports.Sql.Basic
import TenantReports.Value.Mapping

/-!
Query templates: SQL text with placeholders, each a name between two pairs of braces. One
placeholder stands for the tenant's schema, the others for parameters.
-/

namespace TenantReports

open TenantReports.Text

namespace Parameter

/-- A parameter as a SQL literal. Lists, mappings and numbers that are not finite have none. -/
def render : Value → Result String
  | .null => .ok "NULL"
  | .bool b => .ok (if b then "TRUE" else "FALSE")
  | .text s => .ok (Sql.quoteLiteral (.text s))
  | .int n => .ok (Decimal.intText n)
  | .float x =>
      if Sql.isNumericLiteral (.float x) then .ok (Decimal.floatText x)
      else .error (.parameter "float")
  | .numeric n => if n.isFinite then .ok n.toText else .error (.parameter "Decimal")
  | .date d => .ok (Sql.quoteLiteral (.text d.toText))
  | .dateTime t => .ok (Sql.quoteLiteral (.text t.toText))
  | .uuid id => .ok (Sql.quoteLiteral (.uuid id))
  | other => .error (.parameter other.typeName)

end Parameter

/-- A part of a template: a character that stands for itself, or a placeholder. -/
inductive TemplatePart
  | char (c : Char)
  | hole (name : String)
deriving DecidableEq, Repr

namespace Template

/-- The name of the placeholder with which `cs` begins, and what follows it. -/
def hole? (cs : List Char) : Option (String × List Char) :=
  match cs with
  | '\x7b' :: '\x7b' :: rest =>
      let rest := rest.dropWhile isBlank
      let name := rest.takeWhile Sql.isNameChar
      match name, (rest.dropWhile Sql.isNameChar).dropWhile isBlank with
      | _ :: _, '\x7d' :: '\x7d' :: rest => some (String.ofList name, rest)
      | _, _ => none
  | _ => none

/-- What follows a placeholder is shorter than what begins with it. -/
theorem hole?_length_lt {cs rest : List Char} {name : String} (h : hole? cs = some (name, rest)) :
    rest.length < cs.length := by
  unfold hole? at h
  split at h
  · rename_i tail
    dsimp only at h
    split at h
    · rename_i heq
      have h₁ := (List.dropWhile_sublist isBlank (l := tail)).length_le
      have h₂ := (List.dropWhile_sublist Sql.isNameChar (l := tail.dropWhile isBlank)).length_le
      have h₃ := (List.dropWhile_sublist isBlank
        (l := (tail.dropWhile isBlank).dropWhile Sql.isNameChar)).length_le
      have h₄ := congrArg List.length heq
      simp only [List.length_cons] at h₄
      simp only [Option.some.injEq, Prod.mk.injEq] at h
      simp only [List.length_cons, ← h.2]
      omega
    · simp at h
  · simp at h

/-- The parts of a template, placeholders taken from the left. -/
def parts (cs : List Char) : List TemplatePart :=
  match _h : hole? cs with
  | some (name, rest) => .hole name :: parts rest
  | none =>
      match cs with
      | [] => []
      | c :: rest => .char c :: parts rest
termination_by cs.length
decreasing_by
  · exact hole?_length_lt (by assumption)
  · simp

/-- What stands for a part: the schema, or the parameter of the placeholder's name. -/
def fill (schemaName : String) (parameters : Entries) : TemplatePart → Result (List Char)
  | .char c => .ok [c]
  | .hole name =>
      if name = "schema" then .ok schemaName.toList
      else do return (← Parameter.render (parameters.field name)).toList

/-- A template with every placeholder filled in, in one pass. -/
def render (template : Sql.Fragment) (parameters : Entries) (schema : Value) : Result String := do
  let text ← template.require "Query template"
  let schemaName ← Sql.identifierOf schema
  let filled ← (parts text.toList).mapM (fill schemaName parameters)
  return String.ofList filled.flatten

end Template

end TenantReports
