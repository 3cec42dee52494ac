import TenantReports.Proofs.Sql.Basic
import TenantReports.Report.Template

/-!
What values are rendered to: null, a literal, or a numeric constant. A text that spells a number
keeps its digits, of whatever script they are; all other constants are in ASCII.
-/

namespace TenantReports

open TenantReports.Decimal
open TenantReports.Sql (isNumericLiteral literalChars readQuoted renderValue spellsNumber Scalar)

/-- Null, a single literal, or a numeric constant over a class of digits. -/
inductive IsRendered (isDigit : Char → Bool) : List Char → Prop
  | null : IsRendered isDigit "NULL".toList
  | literal {cs content : List Char} (read : readQuoted none cs = some [.literal content]) :
      IsRendered isDigit cs
  | constant {cs : List Char} (written : IsConstant isDigit cs) : IsRendered isDigit cs

variable {isDigit : Char → Bool}

theorem isRendered_literalChars (cs : List Char) : IsRendered isDigit (literalChars cs) := by
  have hread : readQuoted none (literalChars cs ++ []) = some [.literal cs] :=
    Sql.readQuoted_literal cs nofun
  rw [List.append_nil] at hread
  exact .literal hread

theorem isRendered_quoteLiteral (v : Value) : IsRendered isDigit (Sql.quoteLiteral v).toList := by
  unfold Sql.quoteLiteral
  rw [String.toList_ofList]
  exact isRendered_literalChars _

theorem isRendered_quoted (v : Value) : IsRendered isDigit (Scalar.quoted v).text.toList := by
  by_cases hnull : v = .null
  · rw [hnull]
    exact .null
  · rw [Scalar.quoted_of_ne_null hnull]
    unfold Scalar.text
    rw [String.toList_ofList]
    exact isRendered_literalChars _

/-! Values of filters -/

/-- Whether a value is a text that spells a number, with a digit beyond those of ASCII in it. -/
def Value.SpellsForeignNumber (v : Value) : Prop :=
  ∃ s, v = .text s ∧ spellsNumber s.toList = true ∧
    ∃ c ∈ s.toList, Text.isDigit c = true ∧ c.isDigit = false

theorem renderValue_numeric {v : Value} (h : isNumericLiteral v = true) :
    (renderValue v).toList = Text.trim v.plainChars := by
  unfold renderValue
  rw [Scalar.ofValue_numeric h]
  exact String.toList_ofList

theorem isRendered_of_not_numeric {v : Value} (h : isNumericLiteral v = false) :
    IsRendered isDigit (renderValue v).toList := by
  unfold renderValue
  rw [Scalar.ofValue_not_numeric h]
  exact isRendered_quoted v

theorem mem_of_mem_trim {cs : List Char} {c : Char} (h : c ∈ Text.trim cs) : c ∈ cs := by
  unfold Text.trim at h
  have hreversed := (List.dropWhile_sublist _).subset (List.mem_reverse.mp h)
  exact (List.dropWhile_sublist _).subset (List.mem_reverse.mp hreversed)

theorem mem_dropWhile_of_not {p : Char → Bool} {cs : List Char} {c : Char} (hc : c ∈ cs)
    (hp : p c = false) : c ∈ cs.dropWhile p := by
  rw [← List.takeWhile_append_dropWhile (p := p) (l := cs), List.mem_append] at hc
  rcases hc with hc | hc
  · rw [List.mem_takeWhile_imp hc] at hp
    cases hp
  · exact hc

theorem mem_trim {cs : List Char} {c : Char} (hc : c ∈ cs) (hblank : Text.isBlank c = false) :
    c ∈ Text.trim cs := by
  have hfirst := List.mem_reverse.mpr (mem_dropWhile_of_not hc hblank)
  exact List.mem_reverse.mpr (mem_dropWhile_of_not hfirst hblank)

theorem isRendered_renderValue (v : Value) : IsRendered Text.isDigit (renderValue v).toList := by
  cases h : isNumericLiteral v with
  | false => exact isRendered_of_not_numeric h
  | true =>
      rw [renderValue_numeric h]
      exact .constant (Sql.isConstant_trim h)

/-- Foreign digits in a number are seen: the rendered text is no constant in ASCII, and there is
nothing else that it could be. -/
theorem Value.SpellsForeignNumber.not_isRendered {v : Value} (h : v.SpellsForeignNumber) :
    ¬ IsRendered Char.isDigit (renderValue v).toList := by
  obtain ⟨s, rfl, hspells, c, hc, hdigit, hforeign⟩ := h
  have hwritten := (Sql.isConstant_of_spellsNumber hspells).isWritten
  have hmem : c ∈ Text.trim s.toList := mem_trim hc (isBlank_of_isDigit hdigit)
  have hrenders : (renderValue (.text s)).toList = Text.trim s.toList :=
    renderValue_numeric hspells
  rw [hrenders]
  intro hrendered
  generalize Text.trim s.toList = cs at hwritten hmem hrendered
  cases hrendered with
  | null =>
      have hnone : ("NULL".toList.all fun c => !Text.isDigit c) = true := by decide
      simpa [hdigit] using List.all_eq_true.mp hnone c hmem
  | literal read =>
      have hplain := Sql.readQuoted_plain hwritten.quote_not_mem []
      rw [List.append_nil, read] at hplain
      cases cs with
      | nil => cases hmem
      | cons first rest => cases hplain
  | constant written =>
      have hmarks : (numberMarks.all fun c => !Text.isDigit c) = true := by decide
      rcases written.digit_or_mark hmem with hascii | hmark
      · rw [hascii] at hforeign
        cases hforeign
      · simpa [hdigit] using List.all_eq_true.mp hmarks c hmark

theorem isRendered_ascii_iff (v : Value) :
    IsRendered Char.isDigit (renderValue v).toList ↔ ¬ v.SpellsForeignNumber := by
  refine ⟨fun h hforeign => hforeign.not_isRendered h, fun h => ?_⟩
  cases hnumeric : isNumericLiteral v with
  | false => exact isRendered_of_not_numeric hnumeric
  | true =>
      rw [renderValue_numeric hnumeric]
      by_cases htext : ∃ s, v = .text s
      · obtain ⟨s, rfl⟩ := htext
        refine .constant ((Sql.isConstant_of_spellsNumber hnumeric).restrict fun c hc hdigit => ?_)
        refine Bool.of_not_eq_false fun hforeign => ?_
        exact h ⟨s, rfl, hnumeric, c, mem_of_mem_trim hc, hdigit, hforeign⟩
      · exact .constant (Sql.isConstant_of_number hnumeric fun s hs => htext ⟨s, hs⟩)

/-! Parameters of templates -/

theorem Parameter.isRendered_render (v : Value) :
    (∃ name, Parameter.render v = .error (.parameter name)) ∨
      ∃ text, Parameter.render v = .ok text ∧
        (text = "TRUE" ∨ text = "FALSE" ∨ IsRendered Char.isDigit text.toList) := by
  have hsigned : ∀ {cs : List Char}, IsSigned cs →
      IsRendered Char.isDigit (String.ofList cs).toList := by
    intro cs h
    rw [String.toList_ofList]
    exact .constant h.isConstant
  cases v with
  | null => exact .inr ⟨_, rfl, .inr (.inr .null)⟩
  | bool b =>
      cases b with
      | true => exact .inr ⟨_, rfl, .inl rfl⟩
      | false => exact .inr ⟨_, rfl, .inr (.inl rfl)⟩
  | int n => exact .inr ⟨_, rfl, .inr (.inr (hsigned (isSigned_intDigits n)))⟩
  | float x =>
      unfold Parameter.render
      dsimp only
      split
      · next hfinite => exact .inr ⟨_, rfl, .inr (.inr (hsigned (isSigned_floatChars _ hfinite)))⟩
      · exact .inl ⟨_, rfl⟩
  | numeric n =>
      unfold Parameter.render
      dsimp only
      split
      · next hfinite => exact .inr ⟨_, rfl, .inr (.inr (hsigned (n.isSigned_toChars hfinite)))⟩
      · exact .inl ⟨_, rfl⟩
  | text _ => exact .inr ⟨_, rfl, .inr (.inr (isRendered_quoteLiteral _))⟩
  | date _ => exact .inr ⟨_, rfl, .inr (.inr (isRendered_quoteLiteral _))⟩
  | dateTime _ => exact .inr ⟨_, rfl, .inr (.inr (isRendered_quoteLiteral _))⟩
  | uuid _ => exact .inr ⟨_, rfl, .inr (.inr (isRendered_quoteLiteral _))⟩
  | _ => exact .inl ⟨_, rfl⟩

/-- Every value is rendered to null, a literal or a numeric constant, which is in ASCII unless a
text spells it in other digits. A parameter is rendered in ASCII throughout, also as a truth value,
or has no rendering. -/
theorem rendered_values (v : Value) :
    IsRendered Text.isDigit (renderValue v).toList ∧
    (IsRendered Char.isDigit (renderValue v).toList ↔ ¬ v.SpellsForeignNumber) ∧
    ((∃ name, Parameter.render v = .error (.parameter name)) ∨
      ∃ text, Parameter.render v = .ok text ∧
        (text = "TRUE" ∨ text = "FALSE" ∨ IsRendered Char.isDigit text.toList)) :=
  ⟨isRendered_renderValue v, isRendered_ascii_iff v, Parameter.isRendered_render v⟩

/-- Forty-two in Arabic digits stands bare. -/
theorem foreign_number_rendered_bare :
    renderValue (.text "\u0664\u0662") = "\u0664\u0662" ∧
      ¬ IsRendered Char.isDigit (renderValue (.text "\u0664\u0662")).toList := by
  refine ⟨by decide +kernel, Value.SpellsForeignNumber.not_isRendered ?_⟩
  exact ⟨_, rfl, by decide +kernel, '\u0664', by decide, by decide, by decide⟩

end TenantReports
