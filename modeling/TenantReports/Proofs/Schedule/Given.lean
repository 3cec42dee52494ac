import TenantReports.Proofs.Decimal.Written
import TenantReports.Proofs.Schedule.Recurrence

/-!
What the configuration of a schedule gives: the hour and the minute, the day of the week, the day
of the month. Every configuration that is accepted gives its recurrence.
-/

namespace TenantReports

open TenantReports.Decimal TenantReports.Text

/-! Whole numbers in digits -/

theorem isBlank_of_isDigitSign {c : Char} (h : isDigitSign c = true) : isBlank c = false := by
  have hapart : ∀ range ∈ digitSignRanges, ∀ blanks ∈ blankRanges,
      range.2 < blanks.1 ∨ blanks.2 < range.1 := by decide
  rcases Bool.or_eq_true_iff.mp h with hdigit | hsign
  · exact isBlank_of_isDigit hdigit
  · obtain ⟨range, hrange, hlow, hhigh⟩ := Ranges.has_iff.mp hsign
    rw [Bool.eq_false_iff]
    intro hblank
    obtain ⟨blanks, hblanks, hfirst, hlast⟩ := Ranges.has_iff.mp hblank
    have := hapart range hrange blanks hblanks
    omega

section Whole

variable {cs : List Char}

theorem trimNumber_of_digitSigns (h : ∀ c ∈ cs, isDigitSign c = true) : trimNumber cs = cs := by
  have hblank : ∀ c ∈ cs, isNumberBlank c = false := fun c hc => by
    simp [isNumberBlank, isBlank_of_isDigitSign (h c hc)]
  unfold trimNumber
  rw [dropWhile_of_forall hblank, dropWhile_of_forall, List.reverse_reverse]
  intro c hc
  exact hblank c (List.mem_reverse.mp hc)

theorem dropSeparators_of_not_mem (h : '_' ∉ cs) (afterDigit : Bool) :
    dropSeparators afterDigit cs = some cs := by
  induction cs generalizing afterDigit with
  | nil => rfl
  | cons c cs ih =>
      have hc : c ≠ '_' := fun heq => h (heq ▸ List.mem_cons_self)
      rw [dropSeparators, ih fun hmem => h (List.mem_cons_of_mem c hmem)]
      · rfl
      · exact hc

theorem intOfChars?_of_digitSigns (hsigns : ∀ c ∈ cs, isDigitSign c = true) :
    intOfChars? cs =
      if cs ≠ [] ∧ cs.all isDigit then some (digitsValue cs : Int) else none := by
  have habsent : ∀ c, isDigitSign c = false → c ∉ cs := by
    intro c hc hmem
    rw [hsigns c hmem] at hc
    cases hc
  have hunsigned : splitSign cs = (false, cs) := by
    unfold splitSign
    split
    · exact absurd List.mem_cons_self (habsent '-' (by decide))
    · exact absurd List.mem_cons_self (habsent '+' (by decide))
    · rfl
  unfold intOfChars?
  rw [trimNumber_of_digitSigns hsigns, dropSeparators_of_not_mem (habsent '_' (by decide)) false]
  change signedDigits? cs = _
  unfold signedDigits?
  rw [hunsigned]
  rfl

/-- Digits that are read as a whole number: at least one, and not too many. -/
structure IsNumeral (cs : List Char) : Prop where
  ne_nil : cs ≠ []
  digits : ∀ c ∈ cs, isDigit c = true
  length_le : cs.length ≤ NumberFault.digitLimit

theorem IsNumeral.digitSigns (h : IsNumeral cs) : ∀ c ∈ cs, isDigitSign c = true :=
  fun c hc => Bool.or_eq_true_iff.mpr (.inl (h.digits c hc))

/-- Characters that denote digits spell a whole number only if they are decimal digits. -/
theorem Value.wholeOfChars_eq_ok_iff {given : Value} {n : Int}
    (hsigns : ∀ c ∈ cs, isDigitSign c = true) :
    wholeOfChars given cs = .ok n ↔ IsNumeral cs ∧ n = (digitsValue cs : Int) := by
  unfold wholeOfChars
  rw [intOfChars?_of_digitSigns hsigns]
  by_cases hdigits : cs ≠ [] ∧ cs.all isDigit = true
  · have hcount : intDigitCount cs = cs.length := by
      unfold intDigitCount
      rw [List.filter_eq_self.mpr (List.all_eq_true.mp hdigits.2)]
    rw [if_pos hdigits, hcount]
    dsimp only
    split
    · next hmany =>
        constructor
        · intro h
          cases h
        · rintro ⟨hnumeral, -⟩
          exact absurd hnumeral.length_le (Nat.not_le.mpr hmany)
    · next hfew =>
        constructor
        · rintro ⟨⟩
          exact ⟨⟨hdigits.1, List.all_eq_true.mp hdigits.2, Nat.not_lt.mp hfew⟩, rfl⟩
        · rintro ⟨-, rfl⟩
          rfl
  · rw [if_neg hdigits]
    constructor
    · intro h
      cases h
    · rintro ⟨hnumeral, -⟩
      exact absurd ⟨hnumeral.ne_nil, List.all_eq_true.mpr hnumeral.digits⟩ hdigits

theorem Value.wholeOfChars_eq_error {given : Value} {fault : Fault}
    (h : wholeOfChars given cs = .error fault) :
    ¬ IsNumeral cs ∧ fault.isInput = true ∧ ∃ reason, fault = .number reason := by
  refine ⟨fun hnumeral => ?_, ?_⟩
  · rw [(wholeOfChars_eq_ok_iff hnumeral.digitSigns).mpr ⟨hnumeral, rfl⟩] at h
    cases h
  · unfold wholeOfChars at h
    split at h
    · dsimp only at h
      split at h
      · cases h
        exact ⟨rfl, _, rfl⟩
      · cases h
    · cases h
      exact ⟨rfl, _, rfl⟩

end Whole

/-! Times -/

namespace ClockTime

/-- The time that a text gives: an hour of one or two digits, a colon, and a minute of two digits;
a line feed may end the text. Where nothing is given the time is nine o'clock. -/
inductive IsGivenBy : Value → ClockTime → Prop
  | absent {given : Value} (absent : given.isTruthy = false) : IsGivenBy given ⟨9, 0⟩
  | written {s : String} {hour minute : List Char}
      (hourDigits : ∀ c ∈ hour, isDigit c = true) (hourLength : hour.length = 1 ∨ hour.length = 2)
      (minuteDigits : ∀ c ∈ minute, isDigit c = true) (minuteLength : minute.length = 2)
      (text : s.toList = hour ++ ':' :: minute ∨ s.toList = hour ++ ':' :: (minute ++ ['\n'])) :
      IsGivenBy (.text s) ⟨digitsValue hour, digitsValue minute⟩

/-- The fields of a cron expression. -/
def cronFields : Value → List (List Char)
  | .text s => words s.toList
  | .bytes content => words (content.map cronChar)
  | _ => []

/-- The time that a cron expression gives: the minute is its first field, the hour its second one.
Where none is given the time is nine o'clock. -/
inductive IsGivenByCron : Value → ClockTime → Prop
  | absent {given : Value} (absent : given.isTruthy = false) : IsGivenByCron given ⟨9, 0⟩
  | written {given : Value} {minute hour : List Char} {rest : List (List Char)}
      (fields : cronFields given = minute :: hour :: rest)
      (minuteDigits : ∀ c ∈ minute, isDigit c = true)
      (hourDigits : ∀ c ∈ hour, isDigit c = true) :
      IsGivenByCron given ⟨digitsValue hour, digitsValue minute⟩

theorem isGivenBy_of_ofChars? {s : String} {time : ClockTime}
    (h : ofChars? s.toList = some time) : IsGivenBy (.text s) time := by
  let hour := s.toList.takeWhile isDigit
  have hsplit : s.toList = hour ++ s.toList.dropWhile isDigit :=
    List.takeWhile_append_dropWhile.symm
  have hwritten : ∀ minute,
      s.toList = hour ++ ':' :: minute ∨ s.toList = hour ++ ':' :: (minute ++ ['\n']) →
      (if (hour.length == 1 || hour.length == 2) && minute.length == 2 && minute.all isDigit then
        some ⟨digitsValue hour, digitsValue minute⟩ else none) = some time →
      IsGivenBy (.text s) time := by
    intro minute htext hsome
    split at hsome
    · next hshape =>
        cases hsome
        simp only [Bool.and_eq_true, Bool.or_eq_true, beq_iff_eq, List.all_eq_true] at hshape
        exact .written (fun _ => List.mem_takeWhile_imp) hshape.1.1 hshape.2 hshape.1.2 htext
    · cases hsome
  unfold ofChars? at h
  dsimp only at h
  split at h
  · next rest hrest =>
      rw [hrest] at hsplit
      split at h
      · next hend =>
          obtain ⟨front, hfront⟩ := List.getLast?_eq_some_iff.mp hend
          rw [hfront, List.dropLast_concat] at h
          exact hwritten front (.inr (hfront ▸ hsplit)) h
      · exact hwritten rest (.inl hsplit) h
  · cases h

theorem isGivenBy_of_ofValue {given : Value} {time : ClockTime} (h : ofValue given = .ok time) :
    IsGivenBy given time := by
  unfold ofValue at h
  split at h
  · next habsent =>
      cases h
      exact .absent (Bool.not_eq_true' _ ▸ habsent)
  · split at h
    · split at h
      · next hchars =>
          split at h
          · cases h
            exact isGivenBy_of_ofChars? hchars
          · cases h
      · cases h
    · cases h

theorem isGivenByCron_of_ofCronFields {given : Value} {time : ClockTime}
    (h : ofCronFields given (cronFields given) = .ok time) : IsGivenByCron given time := by
  unfold ofCronFields at h
  split at h
  · next minuteField hourField rest hfields =>
      split at h
      · next hsigns =>
          obtain ⟨hminuteSigns, hhourSigns⟩ := Bool.and_eq_true_iff.mp hsigns
          obtain ⟨minute, hminute, h⟩ := bind_eq_ok.mp h
          obtain ⟨hour, hhour, h⟩ := bind_eq_ok.mp h
          obtain ⟨hminuteDigits, rfl⟩ :=
            (Value.wholeOfChars_eq_ok_iff (List.all_eq_true.mp hminuteSigns)).mp hminute
          obtain ⟨hhourDigits, rfl⟩ :=
            (Value.wholeOfChars_eq_ok_iff (List.all_eq_true.mp hhourSigns)).mp hhour
          dsimp only at h
          split at h
          · cases h
            exact .written hfields hminuteDigits.digits hhourDigits.digits
          · cases h
      · cases h
  · cases h

theorem isGivenByCron_of_ofCron {given : Value} {time : ClockTime} (h : ofCron given = .ok time) :
    IsGivenByCron given time := by
  unfold ofCron at h
  split at h
  · next habsent =>
      cases h
      exact .absent (Bool.not_eq_true' _ ▸ habsent)
  · split at h
    · exact isGivenByCron_of_ofCronFields h
    · exact isGivenByCron_of_ofCronFields h
    · cases h

end ClockTime

/-! Recurrences -/

namespace Recurrence

/-- The recurrence that the type and the configuration of a schedule give. Days of the week count
from Sunday as zero, and Monday is meant where none is given; days of the month count from one, and
the first is meant where none is given. -/
inductive IsGivenBy (config : Value) : (type : String) → Recurrence → Prop
  | daily {entries : Entries} {time : ClockTime} (read : configEntries config = .ok entries)
      (clock : time.IsGivenBy (entries.field "time")) : IsGivenBy config "daily" (daily time)
  | weekly {entries : Entries} {time : ClockTime} {weekday : Nat}
      (read : configEntries config = .ok entries) (clock : time.IsGivenBy (entries.field "time"))
      (given : wholeField entries "day_of_week" 1 = .ok (weekday : Int)) (last : weekday ≤ 6) :
      IsGivenBy config "weekly" (weekly weekday time)
  | monthly {entries : Entries} {time : ClockTime} {day : Nat}
      (read : configEntries config = .ok entries) (clock : time.IsGivenBy (entries.field "time"))
      (given : wholeField entries "day_of_month" 1 = .ok (day : Int)) (first : 1 ≤ day)
      (last : day ≤ 31) : IsGivenBy config "monthly" (monthly day time)
  | custom {entries : Entries} {time : ClockTime} (read : configEntries config = .ok entries)
      (clock : time.IsGivenByCron (entries.field "cron")) : IsGivenBy config "custom" (daily time)

theorem isGivenBy_of_ofConfig {type : String} {config : Value} {recurrence : Recurrence}
    (h : ofConfig type config = .ok recurrence) : recurrence.IsGivenBy config type := by
  unfold ofConfig at h
  split at h
  · obtain ⟨entries, hread, h⟩ := bind_eq_ok.mp h
    obtain ⟨time, htime, h⟩ := bind_eq_ok.mp h
    cases h
    exact .daily hread (ClockTime.isGivenBy_of_ofValue htime)
  · obtain ⟨entries, hread, h⟩ := bind_eq_ok.mp h
    obtain ⟨time, htime, h⟩ := bind_eq_ok.mp h
    obtain ⟨weekday, hweekday, h⟩ := bind_eq_ok.mp h
    cases h
    obtain ⟨given, hgiven, hweekday⟩ := bind_eq_ok.mp hweekday
    split at hweekday
    · next hrange =>
        cases hweekday
        rw [← Int.toNat_of_nonneg hrange.1] at hgiven
        exact .weekly hread (ClockTime.isGivenBy_of_ofValue htime) hgiven (by omega)
    · cases hweekday
  · obtain ⟨entries, hread, h⟩ := bind_eq_ok.mp h
    obtain ⟨time, htime, h⟩ := bind_eq_ok.mp h
    obtain ⟨day, hday, h⟩ := bind_eq_ok.mp h
    cases h
    obtain ⟨given, hgiven, hday⟩ := bind_eq_ok.mp hday
    split at hday
    · next hrange =>
        cases hday
        rw [← Int.toNat_of_nonneg (Int.le_trans (by decide) hrange.1)] at hgiven
        exact .monthly hread (ClockTime.isGivenBy_of_ofValue htime) hgiven (by omega) (by omega)
    · cases hday
  · obtain ⟨entries, hread, h⟩ := bind_eq_ok.mp h
    obtain ⟨time, htime, h⟩ := bind_eq_ok.mp h
    cases h
    exact .custom hread (ClockTime.isGivenByCron_of_ofCron htime)
  · cases h

end Recurrence

end TenantReports
