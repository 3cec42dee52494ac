import TenantReports.Text.Basic

/-!
Scripts of several statements. A semicolon ends a statement where only blanks stand between it and
the end of its line.
-/

namespace TenantReports.Sql

open TenantReports.Text

/-- The parts of a script between the ends of statements, blanks and empty parts included. -/
def scriptParts (cs : List Char) : List (List Char) :=
  match cs with
  | [] => [[]]
  | c :: rest =>
      if c = ';' ∧ '\n' ∈ rest.takeWhile isBlank then
        [] :: scriptParts (rest.dropWhile isBlank)
      else
        match scriptParts rest with
        | part :: parts => (c :: part) :: parts
        | [] => [[c]]
termination_by cs.length
decreasing_by
  · have := (List.dropWhile_sublist isBlank (l := rest)).length_le
    simp only [List.length_cons]
    omega
  · simp

/-- The statements of a script, without the blanks around them. -/
def splitStatements (script : String) : List String :=
  ((scriptParts script.toList).map trim).filter (· ≠ []) |>.map String.ofList

end TenantReports.Sql
