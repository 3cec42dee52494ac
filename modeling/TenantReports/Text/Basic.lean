/-!
Classes of characters, the maximal runs of a class in a text, and the parts between separators;
blanks, and trimming and splitting at them; occurrences of one text in another, and replacing all
of them from left to right.
-/

namespace TenantReports.Text

/-- A class of characters, as inclusive ranges of code points. -/
abbrev Ranges := List (Nat × Nat)

def Ranges.has (ranges : Ranges) (c : Char) : Bool :=
  ranges.any fun range => range.1 ≤ c.toNat && c.toNat ≤ range.2

theorem Ranges.has_iff {ranges : Ranges} {c : Char} :
    ranges.has c = true ↔ ∃ range ∈ ranges, range.1 ≤ c.toNat ∧ c.toNat ≤ range.2 := by
  simp [Ranges.has, List.any_eq_true]

/-- The maximal runs of characters that `keep` accepts, in order. -/
def runs (keep : Char → Bool) : List Char → List (List Char)
  | [] => []
  | c :: cs =>
      if keep c then
        match cs, runs keep cs with
        | d :: _, run :: rest => if keep d then (c :: run) :: rest else [c] :: run :: rest
        | _, rest => [c] :: rest
      else runs keep cs

/-- The parts between separators, empty ones included; there is always at least one. -/
def split (separator : Char) : List Char → List (List Char)
  | [] => [[]]
  | c :: cs =>
      if c = separator then [] :: split separator cs
      else
        match split separator cs with
        | part :: parts => (c :: part) :: parts
        | [] => [[c]]

/-! Blanks -/

/-- The characters that count as blank: the bidirectional classes of white space and of
paragraph and segment separators, beside the space separators. -/
def blankRanges : Ranges :=
  [(0x9, 0xD), (0x1C, 0x20), (0x85, 0x85), (0xA0, 0xA0), (0x1680, 0x1680), (0x2000, 0x200A),
   (0x2028, 0x2029), (0x202F, 0x202F), (0x205F, 0x205F), (0x3000, 0x3000)]

def isBlank (c : Char) : Bool := blankRanges.has c

/-- Removes blanks at both ends. -/
def trim (cs : List Char) : List Char :=
  ((cs.dropWhile isBlank).reverse.dropWhile isBlank).reverse

/-- The maximal runs of characters that are not blank. -/
def words (cs : List Char) : List (List Char) := runs (fun c => !isBlank c) cs

def trimmed (s : String) : String := String.ofList (trim s.toList)

/-! Occurrences -/

/-- Whether `part` occurs in a text; an empty part always does. -/
def occurs (part : List Char) : List Char → Bool
  | [] => part.isEmpty
  | c :: rest => part.isPrefixOf (c :: rest) || occurs part rest

/-- `cs` with `new` in place of every occurrence of `old`; an empty `old` occurs nowhere. -/
def replaceAll (old new cs : List Char) : List Char :=
  match cs with
  | [] => []
  | c :: rest =>
      if old ≠ [] ∧ old.isPrefixOf (c :: rest) then
        new ++ replaceAll old new (rest.drop (old.length - 1))
      else c :: replaceAll old new rest
termination_by cs.length
decreasing_by
  all_goals simp only [List.length_cons, List.length_drop]; omega

/-- Line ends in one form: a carriage return, with a line feed or without, is a line feed. -/
def unifyLineEnds : List Char → List Char
  | [] => []
  | '\r' :: '\n' :: rest => '\n' :: unifyLineEnds rest
  | c :: rest => (if c = '\r' then '\n' else c) :: unifyLineEnds rest

end TenantReports.Text
