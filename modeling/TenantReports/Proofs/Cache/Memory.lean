import TenantReports.Cache.Memory

/-!
What a table cache in memory knows after it was changed or asked. Asking it forgets nothing but
answers that have ended.
-/

namespace TenantReports

theorem TimedAnswer.isLiveAt_iff {entry : TimedAnswer} {now : DateTime} :
    entry.isLiveAt now = true ↔ now.instant < entry.expiry.instant := by
  simp [isLiveAt]

/-- What has ended does not come back. -/
theorem TimedAnswer.isLiveAt_of_le {entry : TimedAnswer} {now later : DateTime}
    (hlater : now.instant ≤ later.instant) (h : entry.isLiveAt later = true) :
    entry.isLiveAt now = true := by
  rw [isLiveAt_iff] at *
  exact Int.lt_of_le_of_lt hlater h

namespace MemoryCache

variable (cache : MemoryCache) (key other : String) (entry : TimedAnswer) (now : DateTime)

theorem find?_cons (value : TimedAnswer) (entries : List (String × TimedAnswer)) :
    find? ⟨(other, value) :: entries⟩ key = if key = other then some value
      else find? ⟨entries⟩ key := by
  unfold find?
  rw [List.lookup_cons]
  by_cases hkey : key = other
  · simp [hkey]
  · rw [beq_eq_false_iff_ne.mpr hkey, if_neg hkey]

@[simp]
theorem find?_erase :
    (cache.erase key).find? other = if other = key then none else cache.find? other := by
  obtain ⟨entries⟩ := cache
  unfold erase
  induction entries with
  | nil => simp [find?]
  | cons first entries ih =>
      obtain ⟨name, value⟩ := first
      dsimp only at ih ⊢
      rw [find?_cons]
      by_cases hname : name = key
      · rw [List.filter_cons_of_neg (by simp [hname]), ih]
        split
        · rfl
        · next hother => rw [if_neg (hname ▸ hother)]
      · rw [List.filter_cons_of_pos (by simp [hname]), find?_cons, ih]
        by_cases hother : other = name
        · rw [if_pos hother, if_pos hother, if_neg (hother ▸ hname)]
        · rw [if_neg hother, if_neg hother]

@[simp]
theorem find?_put : (cache.put key entry).find? other =
    if other = key then some entry else cache.find? other := by
  unfold put
  rw [find?_cons]
  change (if other = key then some entry else (cache.erase key).find? other) = _
  rw [find?_erase]
  split <;> rfl

theorem get_cases : (∃ entry, (cache.find? key).filter (·.isLiveAt now) = some entry ∧
      cache.get key now = (some entry.answer, cache)) ∨
    (cache.find? key).filter (·.isLiveAt now) = none ∧ (cache.get key now).1 = none := by
  unfold get
  cases cache.find? key with
  | none => exact .inr ⟨rfl, rfl⟩
  | some entry =>
      cases hlive : entry.isLiveAt now with
      | true => exact .inl ⟨entry, by simp [Option.filter, hlive], by simp [hlive]⟩
      | false => exact .inr ⟨by simp [Option.filter, hlive], by simp [hlive]⟩

/-- A cache answers with what it knows, as long as that has not ended. -/
theorem answer_get : (cache.get key now).1 =
    ((cache.find? key).filter (·.isLiveAt now)).map (·.answer) := by
  unfold get
  cases cache.find? key with
  | none => rfl
  | some found => cases hlive : found.isLiveAt now <;> simp [hlive, Option.filter]

theorem find?_get : (cache.get key now).2.find? other =
    if other = key then (cache.find? other).filter (·.isLiveAt now) else cache.find? other := by
  unfold get
  by_cases hother : other = key
  · subst hother
    cases hfound : cache.find? other with
    | none => simp [hfound]
    | some found => cases hlive : found.isLiveAt now <;> simp [hfound, hlive, Option.filter]
  · rw [if_neg hother]
    cases cache.find? key with
    | none => rfl
    | some found => cases hlive : found.isLiveAt now <;> simp [hlive, hother]

/-- Nothing that is still so is forgotten. -/
theorem filter_find?_get : ((cache.get key now).2.find? other).filter (·.isLiveAt now) =
    (cache.find? other).filter (·.isLiveAt now) := by
  rw [find?_get]
  split
  · simp [Option.filter_filter]
  · rfl

end MemoryCache

end TenantReports
