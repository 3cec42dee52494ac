import TenantReports.Export.Render
import TenantReports.Proofs.Metrics.Summary
import TenantReports.Report.Template
import TenantReports.Storage.Local
import TenantReports.Value.Plain

/-!
What a report is made of is found without being cancelled: the texts of queries, the plain forms
of rows, their metrics, and export files.
-/

namespace TenantReports

variable {α β : Type}

/-- Whether a result is anything but a cancellation. -/
def IsUncancelled (result : Result α) : Prop := result ≠ .error .cancelled

namespace IsUncancelled

theorem ok {a : α} : IsUncancelled (.ok a) := fun h => nomatch h

theorem bind {result : Result α} {next : α → Result β} (h : IsUncancelled result)
    (hnext : ∀ a, IsUncancelled (next a)) : IsUncancelled (result >>= next) := by
  cases result with
  | ok a => exact hnext a
  | error fault =>
      intro hfault
      cases hfault
      exact h rfl

theorem mapM {f : α → Result β} (h : ∀ a, IsUncancelled (f a)) (items : List α) :
    IsUncancelled (items.mapM f) := by
  induction items with
  | nil => exact ok
  | cons item items ih =>
      rw [List.mapM_cons]
      exact (h item).bind fun _ => ih.bind fun _ => ok

theorem foldlM {f : β → α → Result β} (h : ∀ b a, IsUncancelled (f b a)) (items : List α) :
    ∀ b, IsUncancelled (items.foldlM f b) := by
  induction items with
  | nil => exact fun _ => ok
  | cons item items ih => exact fun b => (h b item).bind ih

end IsUncancelled

/-! Queries -/

theorem Sql.requireIdentifier_uncancelled (name : String) :
    IsUncancelled (requireIdentifier name) := by
  unfold requireIdentifier
  split <;> exact fun h => nomatch h

theorem Sql.identifierOf_uncancelled (given : Value) : IsUncancelled (identifierOf given) := by
  unfold identifierOf
  split
  · exact (requireIdentifier_uncancelled _).bind fun _ => .ok
  · exact fun h => nomatch h

namespace Value

theorem realOfNumeric_uncancelled (n : Decimal.Numeric) : IsUncancelled (realOfNumeric n) := by
  unfold realOfNumeric
  split <;> exact fun h => nomatch h

mutual

theorem toPlain_uncancelled : ∀ given : Value, IsUncancelled given.toPlain
  | list items | tuple items => by
      rw [toPlain]
      exact (itemsToPlain_uncancelled items).bind fun _ => .ok
  | mapping entries => by
      rw [toPlain]
      exact (entriesToPlain_uncancelled entries).bind fun _ => .ok
  | numeric n => by
      rw [toPlain]
      exact (realOfNumeric_uncancelled n).bind fun _ => .ok
  | uuid _ | date _ | dateTime _ | time _ | duration _ | bytes _ | view _ | null | bool _ | int _
  | float _ | text _ => by
      rw [toPlain]
      exact .ok

theorem itemsToPlain_uncancelled : ∀ items : List Value, IsUncancelled (itemsToPlain items)
  | [] => by
      rw [itemsToPlain]
      exact .ok
  | item :: items => by
      rw [itemsToPlain]
      exact (toPlain_uncancelled item).bind fun _ => (itemsToPlain_uncancelled items).bind
        fun _ => .ok

theorem entriesToPlain_uncancelled :
    ∀ entries : List (Value × Value), IsUncancelled (entriesToPlain entries)
  | [] => by
      rw [entriesToPlain]
      exact .ok
  | (key, value) :: entries => by
      rw [entriesToPlain]
      exact (toPlain_uncancelled value).bind fun _ => (entriesToPlain_uncancelled entries).bind
        fun _ => .ok

end

end Value

end TenantReports
