import TenantReports.Proofs.Metrics.Summary
import TenantReports.Value.Plain

/-!
Which results have no plain form, and which have no summary: exact decimals that signal cannot be
turned into floating-point numbers, and neither can whole numbers beyond the greatest of them.
-/

namespace TenantReports

/-- A result that is the fault if `fails` says so, and an answer if not. -/
inductive FailsIf {α : Type} (fault : Fault) : Bool → Result α → Prop
  | error : FailsIf fault true (.error fault)
  | ok (a : α) : FailsIf fault false (.ok a)

namespace FailsIf

variable {α β : Type} {fault : Fault} {fails fails' : Bool} {result : Result α}

theorem bind {next : α → Result β} (h : FailsIf fault fails result)
    (hnext : ∀ a, FailsIf fault fails' (next a)) :
    FailsIf fault (fails || fails') (result >>= next) := by
  cases h with
  | error => exact .error
  | ok a => exact hnext a

theorem map (h : FailsIf fault fails result) (f : α → β) :
    FailsIf fault fails (do return f (← result)) := by
  have hmap := h.bind fun a => .ok (f a)
  rwa [Bool.or_false] at hmap

/-- What follows an answer and always succeeds adds no failure. -/
theorem bind_ok {next : α → Result β} (h : FailsIf fault fails result)
    (hnext : ∀ a, result = .ok a → ∃ b, next a = .ok b) :
    FailsIf fault fails (result >>= next) := by
  cases h with
  | error => exact .error
  | ok a =>
      obtain ⟨b, hb⟩ := hnext a rfl
      change FailsIf fault false (next a)
      rw [hb]
      exact .ok b

theorem mapM {f : α → Result β} {bad : α → Bool} {items : List α}
    (h : ∀ item ∈ items, FailsIf fault (bad item) (f item)) :
    FailsIf fault (items.any bad) (items.mapM f) := by
  induction items with
  | nil => exact .ok []
  | cons item items ih =>
      rw [List.mapM_cons, List.any_cons]
      have hrest := ih fun other hother => h other (List.mem_cons_of_mem _ hother)
      exact (h item List.mem_cons_self).bind fun b => hrest.map (b :: ·)

theorem foldlM {f : β → α → Result β} {bad : α → Bool} {items : List α}
    (h : ∀ b, ∀ item ∈ items, FailsIf fault (bad item) (f b item)) (b : β) :
    FailsIf fault (items.any bad) (items.foldlM f b) := by
  induction items generalizing b with
  | nil => exact .ok b
  | cons item items ih =>
      rw [List.foldlM_cons, List.any_cons]
      have hrest := ih fun b other hother => h b other (List.mem_cons_of_mem _ hother)
      exact (h b item List.mem_cons_self).bind hrest

theorem eq_true {other : Fault} (h : FailsIf fault fails result) (hresult : result = .error other) :
    fails = true := by
  cases h with
  | error => rfl
  | ok a => cases hresult

theorem eq_false {a : α} (h : FailsIf fault fails result) (hresult : result = .ok a) :
    fails = false := by
  cases h with
  | error => cases hresult
  | ok a => rfl

end FailsIf

namespace Value

mutual

/-- Whether an exact decimal in a value signals that it is not to be used as a number. -/
def isSignaling : Value → Bool
  | numeric (.notANumber _ signaling _) => signaling
  | list items | tuple items => itemsSignaling items
  | mapping entries => entriesSignaling entries
  | _ => false

def itemsSignaling : List Value → Bool
  | [] => false
  | item :: items => isSignaling item || itemsSignaling items

def entriesSignaling : List (Value × Value) → Bool
  | [] => false
  | (_, value) :: entries => isSignaling value || entriesSignaling entries

end

theorem realOfNumeric_fails (n : Decimal.Numeric) :
    FailsIf (.number .signaling) (numeric n).isSignaling (realOfNumeric n) := by
  cases n with
  | finite negative coefficient exponent => exact .ok _
  | infinite negative => exact .ok _
  | notANumber negative signaling payload =>
      cases signaling with
      | true => exact .error
      | false => exact .ok _

mutual

theorem toPlain_fails : ∀ given : Value,
    FailsIf (.number .signaling) given.isSignaling given.toPlain
  | list items | tuple items => by
      rw [toPlain, isSignaling]
      exact (itemsToPlain_fails items).map _
  | mapping entries => by
      rw [toPlain, isSignaling]
      exact (entriesToPlain_fails entries).map _
  | numeric n => by
      rw [toPlain]
      exact (realOfNumeric_fails n).map _
  | uuid _ | date _ | dateTime _ | time _ | duration _ | bytes _ | view _ | null | bool _ | int _
  | float _ | text _ => by
      simp only [toPlain, isSignaling]
      exact .ok _

theorem itemsToPlain_fails : ∀ items : List Value,
    FailsIf (.number .signaling) (itemsSignaling items) (itemsToPlain items)
  | [] => by
      rw [itemsToPlain, itemsSignaling]
      exact .ok _
  | item :: items => by
      rw [itemsToPlain, itemsSignaling]
      exact (toPlain_fails item).bind fun plain => (itemsToPlain_fails items).map _

theorem entriesToPlain_fails : ∀ entries : List (Value × Value),
    FailsIf (.number .signaling) (entriesSignaling entries) (entriesToPlain entries)
  | [] => by
      rw [entriesToPlain, entriesSignaling]
      exact .ok _
  | (key, value) :: entries => by
      rw [entriesToPlain, entriesSignaling]
      exact (toPlain_fails value).bind fun plain => (entriesToPlain_fails entries).map _

end

/-- A plain form holds no exact decimals. -/
theorem toPlain_ne_numeric {given : Value} {n : Decimal.Numeric} :
    given.toPlain ≠ .ok (.numeric n) := by
  intro h
  cases given with
  | list items | tuple items | mapping entries =>
      rw [toPlain] at h
      obtain ⟨_, -, heq⟩ := bind_eq_ok.mp h
      cases heq
  | numeric m =>
      rw [toPlain] at h
      obtain ⟨_, -, heq⟩ := bind_eq_ok.mp h
      cases heq
  | _ =>
      rw [toPlain] at h
      cases h

theorem entriesToPlain_ne_numeric {entries plain : List (Value × Value)}
    (h : entriesToPlain entries = .ok plain) {n : Decimal.Numeric} :
    ∀ entry ∈ plain, entry.2 ≠ .numeric n := by
  induction entries generalizing plain with
  | nil =>
      rw [entriesToPlain] at h
      cases h
      simp
  | cons entry entries ih =>
      rw [entriesToPlain] at h
      obtain ⟨value, hvalue, h⟩ := bind_eq_ok.mp h
      obtain ⟨rest, hrest, heq⟩ := bind_eq_ok.mp h
      cases heq
      intro entry hentry
      rcases List.mem_cons.mp hentry with rfl | hmem
      · rintro ⟨⟩
        exact toPlain_ne_numeric hvalue
      · exact ih hrest entry hmem

end Value

theorem Entries.forall_ofPairs {P : Value → Prop} {pairs : List (Value × Value)}
    (h : ∀ pair ∈ pairs, P pair.2) : ∀ entry ∈ ofPairs pairs, P entry.2 := by
  unfold ofPairs
  have hfold (entries : Entries) (hentries : ∀ entry ∈ entries, P entry.2) :
      ∀ entry ∈ pairs.foldl (fun entries pair => entries.put pair.1 pair.2) entries,
        P entry.2 := by
    induction pairs generalizing entries with
    | nil => exact hentries
    | cons pair pairs ih =>
        exact ih (fun other hother => h other (List.mem_cons_of_mem _ hother)) _
          (Entries.forall_put hentries (h pair List.mem_cons_self))
  exact hfold [] (by simp)

theorem rowsToPlain_fails (rows : List Entries) :
    FailsIf (.number .signaling) (rows.any Value.entriesSignaling) (rowsToPlain rows) :=
  .mapM fun row _ => (Value.entriesToPlain_fails row).map _

theorem rowsToPlain_ne_numeric {rows plain : List Entries} (h : rowsToPlain rows = .ok plain)
    {n : Decimal.Numeric} : ∀ row ∈ plain, ∀ entry ∈ row, entry.2 ≠ .numeric n := by
  intro row hrow
  obtain ⟨given, -, hgiven⟩ := exists_of_mem_right (mapM_eq_ok.mp h) hrow
  obtain ⟨pairs, hpairs, heq⟩ := bind_eq_ok.mp hgiven
  cases heq
  exact Entries.forall_ofPairs (P := (· ≠ .numeric n)) (Value.entriesToPlain_ne_numeric hpairs)

namespace Metrics

/-- Whether a value is a whole number beyond the greatest floating-point number. -/
def exceedsFloats : Value → Bool
  | .int n => !Decimal.Numeral.isFinite ⟨n < 0, n.natAbs, 0⟩
  | _ => false

/-- Whether a column that is numeric in the first row holds a number that cannot be summed up. -/
def columnExceeds (rows : List Entries) (column : Value × Value) : Bool :=
  column.2.isNumber &&
    (rows.filterMap fun row => (row.get? column.1).filter Value.isNumber).any exceedsFloats

def exceeds (rows : List Entries) : Bool := (rows.headD []).any (columnExceeds rows)

theorem toReal_fails {v : Value} (hnumber : v.isNumber = true)
    (hplain : ∀ n, v ≠ .numeric n) :
    FailsIf (.number .tooLargeForFloat) (exceedsFloats v) v.toReal := by
  cases v with
  | int n =>
      simp only [exceedsFloats, Value.toReal, Value.floatOfWhole]
      cases Decimal.Numeral.isFinite ⟨n < 0, n.natAbs, 0⟩ with
      | true => exact .ok _
      | false => exact .error
  | float x => exact .ok x
  | numeric n => exact absurd rfl (hplain n)
  | _ => cases hnumber

theorem numbersOf_fails {rows : List Entries}
    (hplain : ∀ row ∈ rows, ∀ entry ∈ row, ∀ n, entry.2 ≠ .numeric n) (key : Value) :
    FailsIf (.number .tooLargeForFloat)
      ((rows.filterMap fun row => (row.get? key).filter Value.isNumber).any exceedsFloats)
      (numbersOf rows key) := by
  refine .mapM ?_
  intro v hv
  obtain ⟨row, hrow, hfound⟩ := List.mem_filterMap.mp hv
  obtain ⟨hget, hnumber⟩ := Option.filter_eq_some_iff.mp hfound
  obtain ⟨entry, hentry, rfl⟩ := Option.map_eq_some_iff.mp hget
  exact toReal_fails hnumber (hplain row hrow entry (List.mem_of_find?_eq_some hentry))

/-- Rows without exact decimals have a summary, unless one of their numbers is too large. -/
theorem summarize_fails {rows : List Entries}
    (hplain : ∀ row ∈ rows, ∀ entry ∈ row, ∀ n, entry.2 ≠ .numeric n)
    (hfound : ∀ column ∈ rows.headD [], (rows.headD []).get? column.1 = some column.2)
    (now : DateTime) :
    FailsIf (.number .tooLargeForFloat) (exceeds rows) (summarize rows now) := by
  refine .foldlM ?_ _
  intro metrics column hcolumn
  unfold addColumn columnExceeds
  cases hnumber : column.2.isNumber with
  | false => exact .ok metrics
  | true =>
      refine ((numbersOf_fails hplain column.1).bind_ok fun numbers hnumbers => ?_).map _
      exact ColumnSummary.exists_ofNumbers_iff.mpr
        (numbersOf_ne_nil (hfound column hcolumn) hnumber hnumbers)

end Metrics

end TenantReports
