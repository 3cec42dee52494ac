import TenantReports.Proofs.Decimal.Written
import TenantReports.Sql.Basic

/-!
Which values are identifiers, and what the characters of an identifier are not; what stands in a
query for a value: null, a written number, or a literal of the value's text. SQL text is read by its
rule for quotes: a literal opens at a quote, a doubled quote inside it stands for one quote, and a
single quote closes it.
-/

namespace TenantReports.Sql

theorem requireIdentifier_eq_ok {name : String} :
    requireIdentifier name = .ok () ↔ isIdentifier name = true := by
  unfold requireIdentifier
  split
  · next h => simp [h]
  · next h => simp [h]

theorem identifierOf_cases (v : Value) :
    (∃ name, v = .text name ∧ isIdentifier name = true ∧ identifierOf v = .ok name) ∨
    ((∀ name, v = .text name → isIdentifier name = false) ∧
      identifierOf v = .error (.invalidIdentifier v)) := by
  cases v with
  | text name =>
      cases h : isIdentifier name with
      | true =>
          refine Or.inl ⟨name, rfl, h, ?_⟩
          simp [identifierOf, requireIdentifier, h, bind, Except.bind, pure, Except.pure]
      | false =>
          refine Or.inr ⟨?_, ?_⟩
          · rintro _ ⟨⟩
            exact h
          · simp [identifierOf, requireIdentifier, h, bind, Except.bind]
  | _ => exact Or.inr ⟨fun _ h => (by cases h), rfl⟩

theorem identifierOf_text {name : String} (h : isIdentifier name = true) :
    identifierOf (.text name) = .ok name := by
  rcases identifierOf_cases (.text name) with ⟨_, ⟨⟩, _, heq⟩ | ⟨hnot, _⟩
  · exact heq
  · rw [hnot name rfl] at h
    cases h

theorem isIdentifier_iff {name : String} :
    isIdentifier name = true ↔ name ≠ "" ∧ ∀ c ∈ name.toList, isNameChar c = true := by
  simp [isIdentifier]

theorem isNameChar_of_mem {name : String} (h : isIdentifier name = true) {c : Char}
    (hc : c ∈ name.toList) : isNameChar c = true :=
  (isIdentifier_iff.mp h).2 c hc

theorem quote_not_mem_identifier {name : String} (h : isIdentifier name = true) :
    '\'' ∉ name.toList := by
  intro hc
  exact absurd (isNameChar_of_mem h hc) (by decide)

open TenantReports.Decimal

/-- A bare number is a written number. -/
def Scalar.Sound : Scalar → Prop
  | number text => IsWritten text.toList
  | _ => True

theorem plainChars_int (n : Int) : (Value.int n).plainChars = intDigits n := rfl

theorem plainChars_float (x : Float) : (Value.float x).plainChars = floatChars floatStyle x := rfl

theorem isConstant_of_spellsNumber {cs : List Char} (h : spellsNumber cs = true) :
    IsConstant Text.isDigit (Text.trim cs) := by
  unfold spellsNumber at h
  split at h
  · next hnumeral => exact isConstant_of_ofChars? hnumeral
  · cases h

/-- A number that is no text is written in ASCII. -/
theorem isConstant_of_number {v : Value} (h : isNumericLiteral v = true)
    (hnumber : ∀ s, v ≠ .text s) : IsConstant Char.isDigit (Text.trim v.plainChars) := by
  cases v with
  | int n =>
      have hsigned := isSigned_intDigits n
      rw [plainChars_int, hsigned.isWritten.trim_eq]
      exact hsigned.isConstant
  | float x =>
      have hsigned := isSigned_floatChars floatStyle h
      rw [plainChars_float, hsigned.isWritten.trim_eq]
      exact hsigned.isConstant
  | text s => exact absurd rfl (hnumber s)
  | _ => cases h

theorem isConstant_trim {v : Value} (h : isNumericLiteral v = true) :
    IsConstant Text.isDigit (Text.trim v.plainChars) := by
  by_cases htext : ∃ s, v = .text s
  · obtain ⟨s, rfl⟩ := htext
    exact isConstant_of_spellsNumber h
  · have hascii := isConstant_of_number h fun s hs => htext ⟨s, hs⟩
    exact hascii.restrict fun c _ => isDigit_of_isDigit_ascii

theorem isWritten_trim {v : Value} (h : isNumericLiteral v = true) :
    IsWritten (Text.trim v.plainChars) := (isConstant_trim h).isWritten

theorem Scalar.ofValue_numeric {v : Value} (h : isNumericLiteral v = true) :
    Scalar.ofValue v = .number (String.ofList (Text.trim v.plainChars)) := by
  unfold Scalar.ofValue
  rw [if_pos h]

theorem Scalar.ofValue_not_numeric {v : Value} (h : isNumericLiteral v = false) :
    Scalar.ofValue v = Scalar.quoted v := by
  unfold Scalar.ofValue
  rw [if_neg (by rw [h]; exact Bool.false_ne_true)]
  cases v with
  | null => rfl
  | _ => rfl

theorem Scalar.quoted_of_ne_null {v : Value} (h : v ≠ .null) :
    Scalar.quoted v = .literal v.plainText := by
  cases v with
  | null => exact absurd rfl h
  | _ => rfl

theorem Scalar.quoted_sound (v : Value) : (Scalar.quoted v).Sound := by
  cases v with
  | null => exact True.intro
  | _ => exact True.intro

theorem Scalar.ofValue_sound (v : Value) : (Scalar.ofValue v).Sound := by
  cases h : isNumericLiteral v with
  | true =>
      rw [Scalar.ofValue_numeric h]
      change IsWritten (String.ofList _).toList
      rw [String.toList_ofList]
      exact isWritten_trim h
  | false =>
      rw [Scalar.ofValue_not_numeric h]
      exact Scalar.quoted_sound v

/-! Reading by the rule for quotes -/

/-- What a reader sees in a text: a character outside all literals, or a whole literal. -/
inductive Seen
  | outside (c : Char)
  | literal (content : List Char)
deriving DecidableEq, Repr

namespace Seen

def content? : Seen → Option (List Char)
  | outside _ => none
  | literal content => some content

/-- A literal leaves a gap where it stands. -/
def visible : Seen → Option Char
  | outside c => some c
  | literal _ => none

end Seen

def literals (seen : List Seen) : List (List Char) := seen.filterMap Seen.content?

/-- The text outside the literals, with a gap for each of them. -/
def outline (seen : List Seen) : List (Option Char) := seen.map Seen.visible

/-- Reads a text; `opened` is what has been read of a literal that is still open. A text in which
a literal stays open cannot be read. -/
def readQuoted : (opened : Option (List Char)) → List Char → Option (List Seen)
  | none, [] => some []
  | some _, [] => none
  | none, '\'' :: rest => readQuoted (some []) rest
  | none, c :: rest => (readQuoted none rest).map (.outside c :: ·)
  | some content, '\'' :: '\'' :: rest => readQuoted (some (content ++ ['\''])) rest
  | some content, '\'' :: rest => (readQuoted none rest).map (.literal content :: ·)
  | some content, c :: rest => readQuoted (some (content ++ [c])) rest

theorem literals_append (seen seen' : List Seen) :
    literals (seen ++ seen') = literals seen ++ literals seen' := List.filterMap_append

theorem outline_append (seen seen' : List Seen) :
    outline (seen ++ seen') = outline seen ++ outline seen' := List.map_append

theorem literals_outside (cs : List Char) : literals (cs.map Seen.outside) = [] := by
  induction cs with
  | nil => rfl
  | cons c cs ih => exact ih

theorem readQuoted_outside {c : Char} (h : c ≠ '\'') (rest : List Char) :
    readQuoted none (c :: rest) = (readQuoted none rest).map (.outside c :: ·) := by
  rw [readQuoted]
  exact h

theorem readQuoted_inside {c : Char} (h : c ≠ '\'') (content rest : List Char) :
    readQuoted (some content) (c :: rest) = readQuoted (some (content ++ [c])) rest := by
  rw [readQuoted]
  · rintro _ rfl
    exact absurd rfl h
  · exact h

theorem readQuoted_close {rest : List Char} (h : rest.head? ≠ some '\'') (content : List Char) :
    readQuoted (some content) ('\'' :: rest) =
      (readQuoted none rest).map (.literal content :: ·) := by
  rw [readQuoted]
  rintro _ rfl
  exact absurd rfl h

theorem readQuoted_plain {cs : List Char} (h : '\'' ∉ cs) (rest : List Char) :
    readQuoted none (cs ++ rest) = (readQuoted none rest).map (cs.map Seen.outside ++ ·) := by
  induction cs with
  | nil => simp
  | cons c cs ih =>
      have hc : c ≠ '\'' := fun heq => h (heq ▸ List.mem_cons_self)
      have hcs : '\'' ∉ cs := fun hmem => h (List.mem_cons_of_mem c hmem)
      rw [List.cons_append, readQuoted_outside hc, ih hcs, Option.map_map]
      rfl

/-- Inside an open literal the escaped text adds exactly the text that was escaped. -/
theorem readQuoted_escaped (cs rest content : List Char) (h : rest.head? ≠ some '\'') :
    readQuoted (some content) (cs.flatMap escapeChar ++ '\'' :: rest) =
      (readQuoted none rest).map (.literal (content ++ cs) :: ·) := by
  induction cs generalizing content with
  | nil =>
      rw [List.flatMap_nil, List.nil_append, List.append_nil]
      exact readQuoted_close h content
  | cons c cs ih =>
      rw [List.flatMap_cons, List.append_assoc]
      by_cases hc : c = '\''
      · rw [hc]
        change readQuoted (some (content ++ ['\'']))
          (cs.flatMap escapeChar ++ '\'' :: rest) = _
        rw [ih, List.append_assoc, List.singleton_append]
      · rw [escapeChar, if_neg hc, List.singleton_append, readQuoted_inside hc, ih,
          List.append_assoc, List.singleton_append]

/-- A literal is read back as the text that it was made of, whatever that text is. -/
theorem readQuoted_literal (cs : List Char) {rest : List Char} (h : rest.head? ≠ some '\'') :
    readQuoted none (literalChars cs ++ rest) =
      (readQuoted none rest).map (.literal cs :: ·) := by
  rw [literalChars, List.append_assoc, List.cons_append]
  change readQuoted (some []) (cs.flatMap escapeChar ++ '\'' :: rest) = _
  rw [readQuoted_escaped cs rest [] h, List.nil_append]

end TenantReports.Sql
