import TenantReports.Json.Reader
import TenantReports.Json.Writer
import TenantReports.Proofs.Decimal.Written
import TenantReports.Proofs.Text.Runs
import TenantReports.Proofs.Uuid

/-!
What holds no other value, in JSON text. In a string every character is written in ASCII, those
beyond the sixteen-bit units as surrogate pairs, and is read back from what was written for it. A
whole number is read back from its digits, if what follows does not continue it.
-/

namespace TenantReports.Json

open TenantReports.Text
open TenantReports.Decimal

/-! Units of sixteen bits -/

theorem unit?_hexPadded {n : Nat} (h : n < 0x10000) (rest : List Char) :
    unit? (hexPadded 4 n ++ rest) = some (n, rest) := by
  have hlength := length_hexPadded 4 n
  unfold unit?
  rw [if_neg (by rw [List.length_append, hlength]; omega), List.take_left' hlength,
    hexNumber?_hexPadded, Option.map_some, List.drop_left' hlength,
    Nat.mod_eq_of_lt (show n < 16 ^ 4 from h)]

/-- A unit that is no half of a pair is a character, whatever follows. -/
theorem unitChar?_unit {n : Nat} (h : n < 0xD800 ∨ 0xE000 ≤ n ∧ n < 0x10000) (rest : List Char) :
    unitChar? (hexPadded 4 n ++ rest) = some (some (Char.ofNat n), rest) := by
  have hchar : charOfUnit n = some (Char.ofNat n) := if_neg (by omega)
  unfold unitChar?
  rw [unit?_hexPadded (by omega), Option.bind_eq_bind, Option.bind_some]
  dsimp only
  rw [hchar]
  split
  · split
    · rw [if_neg (by omega)]
      rfl
    · rfl
  · rfl

theorem unitChar?_pair {n : Nat} (hlow : 0x10000 ≤ n) (hhigh : n < 0x110000) (rest : List Char) :
    unitChar? (hexPadded 4 (0xD800 + (n - 0x10000) / 0x400) ++
        (unitEscape (0xDC00 + (n - 0x10000) % 0x400) ++ rest)) =
      some (some (Char.ofNat n), rest) := by
  obtain ⟨high, hhigh⟩ : ∃ high, high = 0xD800 + (n - 0x10000) / 0x400 := ⟨_, rfl⟩
  obtain ⟨low, hlow⟩ : ∃ low, low = 0xDC00 + (n - 0x10000) % 0x400 := ⟨_, rfl⟩
  have hpair : 0xD800 ≤ high ∧ high < 0xDC00 ∧ 0xDC00 ≤ low ∧ low < 0xE000 := by omega
  have hsum : 0x10000 + (high - 0xD800) * 0x400 + (low - 0xDC00) = n := by omega
  rw [← hhigh, ← hlow]
  unfold unitChar? unitEscape
  rw [unit?_hexPadded (by omega), Option.bind_eq_bind, Option.bind_some]
  simp only [List.cons_append]
  rw [unit?_hexPadded (by omega)]
  dsimp only
  rw [if_pos hpair, hsum]
  rfl

/-! Characters -/

theorem textBody?_unit (fuel : Nat) (cs : List Char) :
    textBody? (fuel + 1) ('\\' :: 'u' :: cs) = (unitChar? cs).bind fun (c, rest) =>
      (textBody? fuel rest).map fun (body, rest) => (c :: body, rest) := by
  rw [textBody?]
  cases unitChar? cs with
  | none => rfl
  | some found =>
      obtain ⟨c, rest⟩ := found
      simp only [Option.bind_eq_bind, Option.bind_some]
      cases textBody? fuel rest <;> rfl

theorem textBody?_codePointEscape (c : Char) (fuel : Nat) (rest : List Char) :
    textBody? (fuel + 1) (codePointEscape c.toNat ++ rest) =
      (textBody? fuel rest).map fun (body, rest) => (some c :: body, rest) := by
  have hvalid : c.toNat < 0xD800 ∨ 0xDFFF < c.toNat ∧ c.toNat < 0x110000 := c.valid
  unfold codePointEscape
  split
  · change textBody? (fuel + 1) ('\\' :: 'u' :: (hexPadded 4 c.toNat ++ rest)) = _
    rw [textBody?_unit, unitChar?_unit (by omega), Option.bind_some, Char.ofNat_toNat]
  · rw [List.append_assoc]
    change textBody? (fuel + 1) ('\\' :: 'u' :: (hexPadded 4 _ ++ _)) = _
    rw [textBody?_unit, unitChar?_pair (by omega) (by omega), Option.bind_some, Char.ofNat_toNat]

theorem textBody?_short {mark c : Char} (hmark : shortEscape? mark = some c) (fuel : Nat)
    (rest : List Char) : textBody? (fuel + 1) ('\\' :: mark :: rest) =
      (textBody? fuel rest).map fun (body, rest) => (some c :: body, rest) := by
  rw [textBody?, hmark]
  · simp only [Option.bind_eq_bind, Option.bind_some]
    cases textBody? fuel rest <;> rfl
  · rintro rfl
    cases hmark

theorem textBody?_self {c : Char} (hquote : c ≠ '"') (hslash : c ≠ '\\') (hshown : 0x20 ≤ c.toNat)
    (fuel : Nat) (rest : List Char) : textBody? (fuel + 1) (c :: rest) =
      (textBody? fuel rest).map fun (body, rest) => (some c :: body, rest) := by
  rw [textBody?]
  · rw [if_neg (Nat.not_lt.mpr hshown)]
    cases textBody? fuel rest <;> rfl
  all_goals simp [hquote, hslash]

/-- How a character is written: by a mark behind a backslash, as itself, or by its code point. -/
theorem escapeChar_cases (c : Char) :
    (∃ mark : Char, mark.toNat < 128 ∧ shortEscape? mark = some c ∧ escapeChar c = ['\\', mark]) ∨
    (c ≠ '"' ∧ c ≠ '\\' ∧ (0x20 ≤ c.toNat ∧ c.toNat ≤ 0x7E) ∧ escapeChar c = [c]) ∨
    escapeChar c = codePointEscape c.toNat := by
  unfold escapeChar
  split_ifs with hquote hslash hnewline hreturn htab hback hfeed hshown
  · exact .inl ⟨'"', by decide, by rw [hquote]; rfl, rfl⟩
  · exact .inl ⟨'\\', by decide, by rw [hslash]; rfl, rfl⟩
  · exact .inl ⟨'n', by decide, hnewline ▸ rfl, rfl⟩
  · exact .inl ⟨'r', by decide, hreturn ▸ rfl, rfl⟩
  · exact .inl ⟨'t', by decide, htab ▸ rfl, rfl⟩
  · exact .inl ⟨'b', by decide, hback ▸ rfl, rfl⟩
  · exact .inl ⟨'f', by decide, hfeed ▸ rfl, rfl⟩
  · exact .inr (.inl ⟨hquote, hslash, hshown, rfl⟩)
  · exact .inr (.inr rfl)

/-- A character is read back from what was written for it. -/
theorem textBody?_escapeChar (c : Char) (fuel : Nat) (rest : List Char) :
    textBody? (fuel + 1) (escapeChar c ++ rest) =
      (textBody? fuel rest).map fun (body, rest) => (some c :: body, rest) := by
  rcases escapeChar_cases c with ⟨mark, -, hmark, heq⟩ | ⟨hquote, hslash, hshown, heq⟩ | heq
  · rw [heq]
    exact textBody?_short hmark fuel rest
  · rw [heq]
    exact textBody?_self hquote hslash hshown.1 fuel rest
  · rw [heq]
    exact textBody?_codePointEscape c fuel rest

/-- A text is read back from the string that was written for it. -/
theorem textBody?_escape {cs : List Char} {fuel : Nat} (h : cs.length < fuel) (rest : List Char) :
    textBody? fuel (cs.flatMap escapeChar ++ '"' :: rest) = some (cs.map some, rest) := by
  induction cs generalizing fuel with
  | nil =>
      obtain ⟨fuel, rfl⟩ := Nat.exists_eq_add_one.mpr h
      exact textBody?.eq_3 ..
  | cons c cs ih =>
      obtain ⟨fuel, rfl⟩ := Nat.exists_eq_add_one.mpr (Nat.zero_lt_of_lt h)
      rw [List.flatMap_cons, List.append_assoc, textBody?_escapeChar,
        ih (Nat.lt_of_succ_lt_succ h)]
      rfl

theorem length_escapeChar_pos (c : Char) : 0 < (escapeChar c).length := by
  rcases escapeChar_cases c with ⟨mark, -, -, heq⟩ | ⟨-, -, -, heq⟩ | heq
  · rw [heq]
    exact Nat.zero_lt_succ _
  · rw [heq]
    exact Nat.zero_lt_succ _
  · rw [heq]
    unfold codePointEscape
    split
    · exact Nat.zero_lt_succ _
    · exact Nat.zero_lt_succ _

theorem length_le_length_escape (cs : List Char) :
    cs.length ≤ (cs.flatMap escapeChar).length := by
  induction cs with
  | nil => exact Nat.le_refl 0
  | cons c cs ih =>
      have hpos := length_escapeChar_pos c
      rw [List.flatMap_cons, List.length_append, List.length_cons]
      omega

/-- There is a character of the string for each one of the text. -/
theorem textBody?_string (cs rest : List Char) :
    textBody? (cs.flatMap escapeChar ++ '"' :: rest).length
      (cs.flatMap escapeChar ++ '"' :: rest) = some (cs.map some, rest) := by
  apply textBody?_escape
  have hlength := length_le_length_escape cs
  rw [List.length_append, List.length_cons]
  omega

theorem textChars_append (cs rest : List Char) :
    textChars cs ++ rest = '"' :: (cs.flatMap escapeChar ++ '"' :: rest) := by
  unfold textChars
  rw [List.cons_append, List.cons_append, List.append_assoc, List.singleton_append]

theorem textOf_map_some (cs : List Char) : textOf (cs.map some) = .text (String.ofList cs) := by
  have hall : (cs.map some).mapM id = some cs := by
    rw [List.mapM_map]
    exact (List.mapM_pure (m := Option)).trans (congrArg some (List.map_id cs))
  unfold textOf
  rw [hall]

/-! ASCII -/

theorem ascii_of_all {cs : List Char} (h : cs.all (·.toNat < 128) = true) :
    ∀ c ∈ cs, c.toNat < 128 :=
  fun c hc => of_decide_eq_true (List.all_eq_true.mp h c hc)

theorem ascii_hexPadded (width n : Nat) : ∀ c ∈ hexPadded width n, c.toNat < 128 := by
  have hdigit : ∀ n < 16, (hexDigit n).toNat < 128 := by decide
  induction width generalizing n with
  | zero => exact List.forall_mem_nil _
  | succ width ih =>
      unfold hexPadded
      rw [List.forall_mem_append, List.forall_mem_singleton]
      exact ⟨ih _, hdigit _ (Nat.mod_lt _ (by decide))⟩

theorem ascii_codePointEscape (n : Nat) : ∀ c ∈ codePointEscape n, c.toNat < 128 := by
  have hunit (n : Nat) : ∀ c ∈ unitEscape n, c.toNat < 128 :=
    List.forall_mem_cons.mpr
      ⟨by decide, List.forall_mem_cons.mpr ⟨by decide, ascii_hexPadded 4 n⟩⟩
  unfold codePointEscape
  split
  · exact hunit n
  · exact List.forall_mem_append.mpr ⟨hunit _, hunit _⟩

theorem ascii_escapeChar (c : Char) : ∀ d ∈ escapeChar c, d.toNat < 128 := by
  rcases escapeChar_cases c with ⟨mark, hmark, -, heq⟩ | ⟨-, -, hshown, heq⟩ | heq
  · rw [heq, List.forall_mem_cons, List.forall_mem_singleton]
    exact ⟨by decide, hmark⟩
  · rw [heq, List.forall_mem_singleton]
    omega
  · rw [heq]
    exact ascii_codePointEscape _

theorem ascii_textChars (cs : List Char) : ∀ c ∈ textChars cs, c.toNat < 128 := by
  unfold textChars
  rw [List.cons_append, List.forall_mem_cons, List.forall_mem_append, List.forall_mem_singleton]
  refine ⟨by decide, ?_, by decide⟩
  intro d hd
  obtain ⟨c, -, hc⟩ := List.mem_flatMap.mp hd
  exact ascii_escapeChar c d hc

/-! The parts of a number -/

/-- Whether a number might go on with a character. -/
def continuesNumber (c : Char) : Bool := isAsciiDigit c || c == '.' || c == 'e' || c == 'E'

theorem isAsciiDigit_of_isDigit {c : Char} (h : c.isDigit = true) : isAsciiDigit c = true := by
  simpa [isAsciiDigit, Char.isDigit, Char.le_def] using h

theorem isAsciiDigit_natDigits (n : Nat) : ∀ c ∈ natDigits n, isAsciiDigit c = true :=
  fun _ hc => isAsciiDigit_of_isDigit (isDigit_of_mem_toDigits hc)

section Parts

variable {rest : List Char} (h : Stops continuesNumber rest)

include h

theorem stops_isAsciiDigit : Stops isAsciiDigit rest := by
  intro c hc
  have hcontinues := h c hc
  simp only [continuesNumber, Bool.or_eq_false_iff] at hcontinues
  exact hcontinues.1.1.1

theorem digits_natDigits (n : Nat) : digits (natDigits n ++ rest) = (natDigits n, rest) := by
  have hdigits := isAsciiDigit_natDigits n
  have hstops := stops_isAsciiDigit h
  unfold digits
  rw [takeWhile_run hdigits hstops, dropWhile_run hdigits hstops]

theorem wholePart?_natDigits (n : Nat) :
    wholePart? (natDigits n ++ rest) = some (natDigits n, rest) := by
  have hdigits := digits_natDigits h n
  by_cases hn : n = 0
  · subst hn
    rfl
  · obtain ⟨c, cs, heq, hc⟩ := exists_natDigits_eq_cons hn
    rw [heq] at hdigits ⊢
    unfold wholePart?
    split
    · next hzero => exact absurd (List.cons.inj hzero).1 hc
    · rw [hdigits]

theorem fractionPart_eq : fractionPart rest = ([], rest) := by
  unfold fractionPart
  split
  · exact absurd (h '.' rfl) (by decide)
  · rfl

theorem exponentPart_eq : exponentPart rest = ([], rest) := by
  unfold exponentPart
  split
  · next mark more =>
      rw [if_neg]
      rintro (rfl | rfl)
      · exact absurd (h 'e' rfl) (by decide)
      · exact absurd (h 'E' rfl) (by decide)
  · rfl

end Parts

/-! Whole numbers -/

/-- Only the sign of a number comes before its digits. -/
theorem exists_sign (n : Int) :
    ∃ sign, (sign = [] ∨ sign = ['-']) ∧ intDigits n = sign ++ natDigits n.natAbs := by
  unfold intDigits
  split
  · exact ⟨['-'], .inr rfl, rfl⟩
  · exact ⟨[], .inl rfl, rfl⟩

theorem stops_minus (n : Nat) (rest : List Char) : Stops (· == '-') (natDigits n ++ rest) := by
  obtain ⟨c, cs, hcs⟩ := List.exists_cons_of_ne_nil (isWhole_natDigits n).1
  have hdigit := isAsciiDigit_natDigits n c (hcs ▸ List.mem_cons_self)
  have hc : c ≠ '-' := by
    rintro rfl
    exact absurd hdigit (by decide)
  rw [hcs]
  exact stops_cons (p := (· == '-')) (beq_eq_false_iff_ne.mpr hc) _

theorem number?_intDigits {rest : List Char} (h : Stops continuesNumber rest) (n : Int) :
    number? standardRules (intDigits n ++ rest) = some (.int n, rest) := by
  obtain ⟨sign, hsign, hparts⟩ := exists_sign n
  have htake : (intDigits n ++ rest).takeWhile (· == '-') = sign := by
    rw [hparts, List.append_assoc]
    apply takeWhile_run _ (stops_minus n.natAbs rest)
    rcases hsign with rfl | rfl <;> simp
  have hdrop : (intDigits n ++ rest).drop sign.length = natDigits n.natAbs ++ rest := by
    rw [hparts, List.append_assoc, List.drop_left]
  have hvalue : numberOfParts standardRules sign (natDigits n.natAbs) [] [] = some (.int n) := by
    have hadmits : standardRules.admits (natDigits n.natAbs).length = true := rfl
    unfold numberOfParts
    rw [if_pos ⟨rfl, rfl⟩, if_pos hadmits, ← hparts, signedDigits?_intDigits]
    rfl
  have hlength : sign.length ≤ 1 := by rcases hsign with rfl | rfl <;> decide
  unfold number?
  rw [htake]
  dsimp only
  rw [hdrop, wholePart?_natDigits h, Option.bind_eq_bind, Option.bind_some]
  simp only [fractionPart_eq h, exponentPart_eq h]
  rw [if_pos hlength, hvalue]
  rfl

/-- Whether a whole number can begin with a character. -/
def opensNumber (c : Char) : Bool := c == '-' || isAsciiDigit c

theorem exists_intDigits_eq_cons (n : Int) :
    ∃ c cs, intDigits n = c :: cs ∧ opensNumber c = true := by
  obtain ⟨sign, rfl | rfl, hparts⟩ := exists_sign n
  · obtain ⟨c, cs, hcs⟩ := List.exists_cons_of_ne_nil (isWhole_natDigits n.natAbs).1
    have hdigit := isAsciiDigit_natDigits n.natAbs c (hcs ▸ List.mem_cons_self)
    exact ⟨c, cs, hparts.trans hcs, by rw [opensNumber, hdigit, Bool.or_true]⟩
  · exact ⟨'-', _, hparts, rfl⟩

theorem ascii_intDigits (n : Int) : ∀ c ∈ intDigits n, c.toNat < 128 := by
  obtain ⟨sign, hsign, hparts⟩ := exists_sign n
  rw [hparts, List.forall_mem_append]
  constructor
  · rcases hsign with rfl | rfl <;> exact ascii_of_all rfl
  · intro c hc
    have hdigit := isAsciiDigit_natDigits _ c hc
    simp only [isAsciiDigit, Bool.and_eq_true, decide_eq_true_eq] at hdigit
    exact Nat.lt_of_le_of_lt (Char.le_def.mp hdigit.2) (by decide)

end TenantReports.Json
