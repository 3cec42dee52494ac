import Mathlib.Tactic.SplitIfs
import TenantReports.Proofs.Decimal.Unsigned
import TenantReports.Sql.Basic

/-!
The tokens of SQL text: words, numbers, quoted texts, comments, and single characters of operators
and punctuation. Text is read character by character, so that what is read of a part of a text
does not depend on what follows the part.
-/

namespace TenantReports.Sql

/-- What dialects of SQL differ in. -/
structure Dialect where
  /-- Which characters beyond ASCII are letters. -/
  isLetterBeyond : Char → Bool
  /-- Whether double quotes quote as single quotes do. -/
  quotesTwice : Bool
  /-- Whether a comment may stand within a comment. -/
  nestsComments : Bool

namespace Dialect

def isLetter (d : Dialect) (c : Char) : Bool :=
  c.isAlpha || c == '_' || (128 ≤ c.toNat && d.isLetterBeyond c)

/-- The characters of words and numbers, and quotes. -/
def joins (d : Dialect) (c : Char) : Bool :=
  d.isLetter c || c.isDigit || c == '.' || c == '\'' || c == '"'

end Dialect

inductive Quote
  | single
  | double
deriving DecidableEq, Repr

def Quote.char : Quote → Char
  | single => '\''
  | double => '"'

inductive Token
  | word (cs : List Char)
  | number (cs : List Char)
  /-- What stands between two quotes; a doubled quote stands for one. -/
  | quoted (quote : Quote) (content : List Char)
  /-- What follows a quote that nothing closes. -/
  | unclosed (quote : Quote) (content : List Char)
  | comment (cs : List Char)
  | symbol (c : Char)
deriving DecidableEq, Repr

/-- What is being read. -/
inductive Lexing
  /-- Nothing, or blanks. -/
  | between
  | word (cs : List Char)
  | number (cs : List Char)
  /-- A number and a letter that may begin its exponent. -/
  | mark (cs : List Char) (letter : Char)
  /-- A number, that letter, and a sign. -/
  | signed (cs : List Char) (letter sign : Char)
  /-- A number with an exponent. -/
  | exponent (cs : List Char)
  | symbol (c : Char)
  | quoted (quote : Quote) (content : List Char)
  /-- A quoted text up to a quote that closes it, unless another quote follows. -/
  | closing (quote : Quote) (content : List Char)
  /-- A comment up to the end of the line. -/
  | line (cs : List Char)
  /-- A comment within `depth` others, and its last character if that may begin a mark. -/
  | block (depth : Nat) (last : Char) (cs : List Char)
  /-- A whole comment. -/
  | commented (cs : List Char)
deriving DecidableEq, Repr

namespace Lexing

/-- The tokens of what is being read, if nothing follows. -/
def flush : Lexing → List Token
  | between => []
  | word cs => [.word cs]
  | number cs | exponent cs => [.number cs]
  | mark cs letter => [.number cs, .word [letter]]
  | signed cs letter sign => [.number cs, .word [letter], .symbol sign]
  | symbol c => [.symbol c]
  | quoted quote content => [.unclosed quote content]
  | closing quote content => [.quoted quote content]
  | line cs | block _ _ cs | commented cs => [.comment cs]

/-- Whether what is being read is neither a quoted text nor a comment. -/
def isOutside : Lexing → Bool
  | quoted _ _ | line _ | block _ _ _ => false
  | _ => true

end Lexing

open Lexing

def isSpace (c : Char) : Bool := [' ', '\t', '\n', '\r', '\x0b', '\x0c'].contains c

variable (d : Dialect)

/-- What a character begins. -/
def start (c : Char) : Lexing :=
  if isSpace c then between
  else if d.isLetter c then word [c]
  else if c.isDigit then number [c]
  else if c = '\'' then quoted .single []
  else if d.quotesTwice && c == '"' then quoted .double []
  else symbol c

/-- What is being read of a comment behind one more character. -/
def extendBlock (depth : Nat) (last : Char) (cs : List Char) (c : Char) : Lexing :=
  if last = '*' ∧ c = '/' then
    if depth = 0 then commented (cs ++ [c]) else block (depth - 1) ' ' (cs ++ [c])
  else if last = '/' ∧ c = '*' ∧ d.nestsComments then block (depth + 1) ' ' (cs ++ [c])
  else block depth c (cs ++ [c])

/-- What is being read behind one more character, if that is a part of it. -/
def extend? (s : Lexing) (c : Char) : Option Lexing :=
  match s with
  | word cs => if d.isLetter c || c.isDigit then some (word (cs ++ [c])) else none
  | number cs =>
      if c.isDigit || (c == '.' && !cs.contains '.') then some (number (cs ++ [c]))
      else if c = 'e' ∨ c = 'E' then some (mark cs c)
      else none
  | mark cs letter =>
      if c.isDigit then some (exponent (cs ++ [letter, c]))
      else if c = '-' ∨ c = '+' then some (signed cs letter c)
      else none
  | signed cs letter sign =>
      if c.isDigit then some (exponent (cs ++ [letter, sign, c])) else none
  | exponent cs => if c.isDigit then some (exponent (cs ++ [c])) else none
  | symbol x =>
      if x = '-' ∧ c = '-' then some (line ['-', '-'])
      else if x = '/' ∧ c = '*' then some (block 0 ' ' ['/', '*'])
      else none
  | quoted quote content =>
      some (if c = quote.char then closing quote content else quoted quote (content ++ [c]))
  | closing quote content => if c = quote.char then some (quoted quote (content ++ [c])) else none
  | line cs => if c = '\n' then none else some (line (cs ++ [c]))
  | block depth last cs => some (extendBlock d depth last cs c)
  | between | commented _ => none

/-- One more character: the tokens that end before it, and what is being read with it. -/
def advance (s : Lexing) (c : Char) : List Token × Lexing :=
  match extend? d s c with
  | some s' => ([], s')
  | none => (s.flush, start d c)

/-- As `advance`; the letter behind a number that begins no exponent begins a word. -/
def step (s : Lexing) (c : Char) : List Token × Lexing :=
  match extend? d s c with
  | some s' => ([], s')
  | none =>
      match s with
      | mark cs letter =>
          let (tokens, s') := advance d (word [letter]) c
          (.number cs :: tokens, s')
      | signed cs letter sign =>
          let (tokens, s') := advance d (symbol sign) c
          (.number cs :: .word [letter] :: tokens, s')
      | s => (s.flush, start d c)

/-- The tokens that end within a text, and what is being read at its end. -/
def run (s : Lexing) : List Char → List Token × Lexing
  | [] => ([], s)
  | c :: cs =>
      let (ended, s') := step d s c
      let (tokens, s'') := run s' cs
      (ended ++ tokens, s'')

/-- The tokens of a text that is read on from `s`. -/
def tokensFrom (s : Lexing) (cs : List Char) : List Token := (run d s cs).1 ++ (run d s cs).2.flush

/-- The tokens of a text. -/
def tokens (cs : List Char) : List Token := tokensFrom d between cs

variable {d} {s s' : Lexing} {c : Char}

theorem step_of_extend? (h : extend? d s c = some s') : step d s c = ([], s') := by
  unfold step
  rw [h]

theorem run_cons_of_extend? (h : extend? d s c = some s') (cs : List Char) :
    run d s (c :: cs) = run d s' cs := by
  rw [run, step_of_extend? h]
  rfl

theorem run_append (s : Lexing) (xs ys : List Char) :
    run d s (xs ++ ys) =
      ((run d s xs).1 ++ (run d (run d s xs).2 ys).1, (run d (run d s xs).2 ys).2) := by
  induction xs generalizing s with
  | nil => rfl
  | cons x xs ih =>
      rw [List.cons_append, run, run]
      dsimp only
      rw [ih, List.append_assoc]

theorem tokensFrom_cons (s : Lexing) (c : Char) (cs : List Char) :
    tokensFrom d s (c :: cs) = (step d s c).1 ++ tokensFrom d (step d s c).2 cs :=
  List.append_assoc _ _ _

theorem tokensFrom_append (s : Lexing) (xs ys : List Char) :
    tokensFrom d s (xs ++ ys) = (run d s xs).1 ++ tokensFrom d (run d s xs).2 ys := by
  unfold tokensFrom
  rw [run_append, List.append_assoc]

/-- What is being read ends before a character, which begins something of its own. -/
def Ends (d : Dialect) (s : Lexing) (c : Char) : Prop := step d s c = (s.flush, start d c)

theorem Ends.run_cons (h : Ends d s c) (cs : List Char) :
    run d s (c :: cs) =
      (s.flush ++ (run d between (c :: cs)).1, (run d between (c :: cs)).2) := by
  have hbetween : step d between c = ([], start d c) := rfl
  rw [run, run, h, hbetween]
  rfl

theorem Ends.tokensFrom_cons (h : Ends d s c) (cs : List Char) :
    tokensFrom d s (c :: cs) = s.flush ++ tokensFrom d between (c :: cs) := by
  unfold tokensFrom
  rw [h.run_cons, List.append_assoc]

theorem ends_between : Ends d between c := rfl

theorem ends_commented (cs : List Char) : Ends d (commented cs) c := rfl

/-- Only two symbols begin more than a symbol, and each needs one certain character for it. -/
theorem ends_symbol {x : Char} (hminus : x = '-' → c ≠ '-') (hslash : x = '/' → c ≠ '*') :
    Ends d (symbol x) c := by
  have hends : extend? d (symbol x) c = none := by
    unfold extend?
    dsimp only
    rw [if_neg fun h => hminus h.1 h.2, if_neg fun h => hslash h.1 h.2]
  unfold Ends step
  rw [hends]

/-- Whether what is being read ends before every character that joins nothing. -/
def Lexing.IsWhole : Lexing → Prop
  | word _ | number _ | exponent _ | closing _ _ => True
  | _ => False

/-- What a character is not that joins nothing. -/
structure Separates (d : Dialect) (c : Char) : Prop where
  letter : d.isLetter c = false
  digit : c.isDigit = false
  point : (c == '.') = false
  exponent : ¬ (c = 'e' ∨ c = 'E')
  quote : ∀ quote : Quote, c ≠ quote.char

theorem separates_of_joins (hc : d.joins c = false) : Separates d c := by
  simp only [Dialect.joins, Bool.or_eq_false_iff] at hc
  obtain ⟨⟨⟨⟨hletter, hdigit⟩, hpoint⟩, hsingle⟩, hdouble⟩ := hc
  refine ⟨hletter, hdigit, hpoint, ?_, fun quote => ?_⟩
  · rintro (rfl | rfl)
    · exact nomatch hletter
    · exact nomatch hletter
  · cases quote with
    | single => exact ne_of_beq_false hsingle
    | double => exact ne_of_beq_false hdouble

theorem extend?_of_isWhole (h : s.IsWhole) (hc : Separates d c) : extend? d s c = none := by
  cases s with
  | word cs => simp [extend?, hc.letter, hc.digit]
  | number cs => simp [extend?, hc.digit, hc.point, hc.exponent]
  | exponent cs => simp [extend?, hc.digit]
  | closing quote content => simp [extend?, hc.quote]
  | _ => exact h.elim

theorem ends_of_isWhole (h : s.IsWhole) (hc : Separates d c) : Ends d s c := by
  unfold Ends step
  rw [extend?_of_isWhole h hc]
  cases s with
  | mark cs letter => exact h.elim
  | signed cs letter sign => exact h.elim
  | _ => rfl

/-- What can be behind a character that joins nothing, outside quoted texts and comments: the
beginning of another token, or a number whose exponent has only a sign. -/
def Lexing.Rests (s : Lexing) : Prop :=
  s = between ∨ (∃ x, s = symbol x) ∨ (∃ cs, s = commented cs) ∨
    ∃ cs letter sign, s = signed cs letter sign

theorem start_rests (hc : Separates d c) : (start d c).Rests := by
  have hsingle : c ≠ '\'' := hc.quote .single
  have hdouble : c ≠ '"' := hc.quote .double
  by_cases hspace : isSpace c = true
  · exact .inl (if_pos hspace)
  · refine .inr (.inl ⟨c, ?_⟩)
    simp [start, hspace, hc.letter, hc.digit, hsingle, hdouble]

theorem advance_symbol_rests {x : Char} (hc : Separates d c)
    (h : (advance d (symbol x) c).2.isOutside = true) : (advance d (symbol x) c).2.Rests := by
  unfold advance extend? at h ⊢
  dsimp only at h ⊢
  split_ifs at h ⊢
  · exact nomatch h
  · exact nomatch h
  · exact start_rests hc

theorem step_rests (hc : Separates d c) (h : (step d s c).2.isOutside = true) :
    (step d s c).2.Rests := by
  by_cases hwhole : s.IsWhole
  · rw [ends_of_isWhole hwhole hc]
    exact start_rests hc
  cases s with
  | between | commented cs => exact start_rests hc
  | symbol x =>
      have hadvance : step d (symbol x) c = advance d (symbol x) c := by
        unfold step advance
        cases extend? d (symbol x) c <;> rfl
      rw [hadvance] at h ⊢
      exact advance_symbol_rests hc h
  | mark cs letter =>
      unfold step extend? at h ⊢
      simp only [hc.digit, Bool.false_eq_true, if_false] at h ⊢
      split_ifs at h ⊢
      · exact .inr (.inr (.inr ⟨cs, letter, c, rfl⟩))
      · have hword : extend? d (word [letter]) c = none := extend?_of_isWhole trivial hc
        dsimp only at h ⊢
        unfold advance
        rw [hword]
        exact start_rests hc
  | signed cs letter sign =>
      unfold step at h ⊢
      have hends : extend? d (signed cs letter sign) c = none := by simp [extend?, hc.digit]
      rw [hends] at h ⊢
      exact advance_symbol_rests hc h
  | quoted quote content =>
      have hmore : extend? d (quoted quote content) c = some (quoted quote (content ++ [c])) := by
        simp [extend?, hc.quote]
      rw [step_of_extend? hmore] at h
      exact nomatch h
  | line cs =>
      unfold step extend? at h ⊢
      dsimp only at h ⊢
      split_ifs at h ⊢
      · exact start_rests hc
      · exact nomatch h
  | block depth last cs =>
      have hmore : extend? d (block depth last cs) c = some (extendBlock d depth last cs c) := rfl
      rw [step_of_extend? hmore] at h ⊢
      unfold extendBlock at h ⊢
      dsimp only at h ⊢
      split_ifs at h ⊢
      · exact .inr (.inr (.inl ⟨_, rfl⟩))
      · exact nomatch h
      · exact nomatch h
      · exact nomatch h
  | _ => exact absurd trivial hwhole

/-! What values are read as -/

/-- What takes up every character of a text, takes up the text. -/
theorem run_extend {f : List Char → Lexing} {cs : List Char}
    (h : ∀ read, ∀ c ∈ cs, extend? d (f read) c = some (f (read ++ [c]))) (read : List Char) :
    run d (f read) cs = ([], f (read ++ cs)) := by
  induction cs generalizing read with
  | nil => rw [List.append_nil]; rfl
  | cons c cs ih =>
      rw [run_cons_of_extend? (h read c List.mem_cons_self),
        ih fun read c hc => h read c (List.mem_cons_of_mem _ hc), List.append_assoc]
      rfl

open Decimal (IsWhole IsFraction IsScale IsUnsigned IsSigned)

theorem run_number_digits {digits : List Char} (h : ∀ c ∈ digits, c.isDigit = true)
    (read : List Char) : run d (number read) digits = ([], number (read ++ digits)) :=
  run_extend (fun read c hc => by simp [extend?, h c hc]) read

theorem run_exponent_digits {digits : List Char} (h : ∀ c ∈ digits, c.isDigit = true)
    (read : List Char) : run d (exponent read) digits = ([], exponent (read ++ digits)) :=
  run_extend (fun read c hc => by simp [extend?, h c hc]) read

theorem isAlpha_of_code {c : Char} (h : c.toNat ≤ 57) : c.isAlpha = false := by
  have hbelow : ∀ mark : Char, 57 < mark.toNat → ¬ c.val ≥ mark.val := by
    intro mark hmark hle
    rw [ge_iff_le, UInt32.le_iff_toNat_le] at hle
    have hcode : c.val.toNat = c.toNat := rfl
    have hmarkCode : mark.val.toNat = mark.toNat := rfl
    omega
  change (decide (c.val ≥ 'A'.val ∧ c.val ≤ 'Z'.val) ||
    decide (c.val ≥ 'a'.val) && decide (c.val ≤ 'z'.val)) = false
  rw [decide_eq_false fun h => hbelow 'A' (by simp) h.1, decide_eq_false (hbelow 'a' (by simp))]
  rfl

theorem start_digit (h : c.isDigit = true) : start d c = number [c] := by
  have hrange : 48 ≤ c.toNat ∧ c.toNat ≤ 57 := by
    simpa [Char.isDigit, UInt32.le_iff_toNat_le] using h
  have hspace : isSpace c = false := by
    rw [Bool.eq_false_iff]
    intro hspace
    have hlow : ∀ x ∈ [' ', '\t', '\n', '\r', '\x0b', '\x0c'], x.toNat < 48 := by simp
    have := hlow c (List.contains_iff_mem.mp hspace)
    omega
  have hletter : d.isLetter c = false := by
    have hunderscore : c ≠ '_' := by
      rintro rfl
      exact nomatch h
    have hbeyond : ¬ 128 ≤ c.toNat := by omega
    simp [Dialect.isLetter, isAlpha_of_code hrange.2, hunderscore, hbeyond]
  unfold start
  rw [hspace, hletter, h]
  rfl

theorem start_minus : start d '-' = symbol '-' := by
  have halpha : ('-').isAlpha = false := isAlpha_of_code (by simp)
  simp [start, isSpace, Dialect.isLetter, halpha, Char.isDigit]

theorem run_whole {digits : List Char} (h : IsWhole digits) :
    run d between digits = ([], number digits) := by
  cases digits with
  | nil => exact absurd rfl h.1
  | cons c digits =>
      have hstep : step d between c = ([], number [c]) := by
        rw [ends_between, start_digit (h.2 c List.mem_cons_self)]
        rfl
      rw [run, hstep]
      dsimp only
      rw [run_number_digits fun c hc => h.2 c (List.mem_cons_of_mem _ hc)]
      rfl

theorem run_fraction {whole fraction : List Char} (h : IsWhole whole)
    (hfraction : IsFraction fraction) :
    run d (number whole) fraction = ([], number (whole ++ fraction)) := by
  rcases hfraction with rfl | ⟨digits, rfl, hdigits⟩
  · rw [List.append_nil]
    rfl
  · have hpoint : '.' ∉ whole := fun hmem => nomatch h.2 _ hmem
    have hextend : extend? d (number whole) '.' = some (number (whole ++ ['.'])) := by
      simp [extend?, hpoint]
    rw [run_cons_of_extend? hextend, run_number_digits hdigits, List.append_assoc]
    rfl

theorem run_scale (read : List Char) {scale : List Char} (h : IsScale scale) :
    ∃ s, run d (number read) scale = ([], s) ∧ s.IsWhole ∧ s.flush = [.number (read ++ scale)] := by
  rcases h with rfl | ⟨mark, sign, digits, rfl, hmark, hsign, hdigits⟩
  · exact ⟨number read, rfl, trivial, by rw [List.append_nil]; rfl⟩
  · have hletter : extend? d (number read) mark = some (Lexing.mark read mark) := by
      rcases hmark with rfl | rfl <;> simp [extend?]
    have hsigned : extend? d (Lexing.mark read mark) sign = some (signed read mark sign) := by
      rcases hsign with rfl | rfl <;> simp [extend?]
    cases digits with
    | nil => exact absurd rfl hdigits.1
    | cons digit digits =>
        have hfirst : extend? d (signed read mark sign) digit =
            some (exponent (read ++ [mark, sign, digit])) := by
          simp [extend?, hdigits.2 digit List.mem_cons_self]
        refine ⟨exponent (read ++ mark :: sign :: digit :: digits), ?_, trivial, rfl⟩
        rw [run_cons_of_extend? hletter, run_cons_of_extend? hsigned, run_cons_of_extend? hfirst,
          run_exponent_digits fun c hc => hdigits.2 c (List.mem_cons_of_mem _ hc),
          List.append_assoc]
        rfl

/-- A number without a sign is read as that number. -/
theorem run_unsigned {cs : List Char} (h : IsUnsigned cs) :
    ∃ s, run d between cs = ([], s) ∧ s.IsWhole ∧ s.flush = [.number cs] := by
  obtain ⟨whole, fraction, scale, rfl, hwhole, hfraction, hscale⟩ := h
  obtain ⟨s, hrun, hs, hflush⟩ := run_scale (d := d) (whole ++ fraction) hscale
  refine ⟨s, ?_, hs, by rw [hflush, List.append_assoc]⟩
  rw [run_append, run_whole hwhole]
  dsimp only
  rw [run_append, run_fraction hwhole hfraction]
  dsimp only
  rw [hrun]
  rfl

/-- Inside quotes the escaped text adds exactly the text that was escaped. -/
theorem run_escaped (cs content : List Char) :
    run d (quoted .single content) (cs.flatMap escapeChar ++ ['\'']) =
      ([], closing .single (content ++ cs)) := by
  induction cs generalizing content with
  | nil =>
      rw [List.append_nil]
      rfl
  | cons c cs ih =>
      rw [List.flatMap_cons, List.append_assoc]
      by_cases hc : c = '\''
      · rw [hc]
        change run d (quoted .single (content ++ ['\''])) (cs.flatMap escapeChar ++ ['\'']) = _
        rw [ih, List.append_assoc]
        rfl
      · have hextend : extend? d (quoted .single content) c =
            some (quoted .single (content ++ [c])) := by
          simp [extend?, Quote.char, hc]
        rw [escapeChar, if_neg hc, List.singleton_append, run_cons_of_extend? hextend, ih,
          List.append_assoc]
        rfl

/-- A literal is read as the text that it was made of, whatever that text is. -/
theorem run_literal (cs : List Char) :
    run d between (literalChars cs) = ([], closing .single cs) := by
  have hopen : step d between '\'' = ([], quoted .single []) := rfl
  rw [literalChars, List.cons_append, run, hopen]
  dsimp only
  rw [run_escaped]
  rfl

end TenantReports.Sql
