import Mathlib.Data.List.Basic

/-!
The latest of a history's events that concern something.
-/

namespace TenantReports

variable {α : Type} {concerns : α → Prop} {event other : α} {before after events : List α}

/-- The event concerns something, and none after it does. -/
def IsLatest (concerns : α → Prop) (event : α) (events : List α) : Prop :=
  concerns event ∧ ∃ before after, events = before ++ event :: after ∧ ∀ e ∈ after, ¬concerns e

theorem IsLatest.mem (h : IsLatest concerns event events) : event ∈ events := by
  obtain ⟨-, before, after, rfl, -⟩ := h
  exact List.mem_append_right before List.mem_cons_self

@[simp]
theorem not_isLatest_nil : ¬IsLatest concerns event [] := by
  exact fun h => List.not_mem_nil h.mem

theorem isLatest_append : IsLatest concerns event (before ++ after) ↔
    IsLatest concerns event after ∨
      (∀ e ∈ after, ¬concerns e) ∧ IsLatest concerns event before := by
  constructor
  · rintro ⟨hevent, first, last, hsplit, hlast⟩
    rcases List.append_eq_append_iff.mp hsplit with ⟨middle, hfirst, hafter⟩ |
      ⟨middle, hbefore, hmiddle⟩
    · exact .inl ⟨hevent, middle, last, hafter, hlast⟩
    · cases middle with
      | nil => exact .inl ⟨hevent, [], last, hmiddle.symm, hlast⟩
      | cons e middle =>
          obtain ⟨rfl, rfl⟩ := List.cons.inj hmiddle
          refine .inr ⟨fun e he => hlast e (List.mem_append_right _ he), hevent, first, middle,
            hbefore, fun e he => hlast e (List.mem_append_left _ he)⟩
  · rintro (⟨hevent, first, last, rfl, hlast⟩ | ⟨hafter, hevent, first, last, rfl, hlast⟩)
    · exact ⟨hevent, before ++ first, last, (List.append_assoc _ _ _).symm, hlast⟩
    · refine ⟨hevent, first, last ++ after, by rw [List.append_assoc, List.cons_append], ?_⟩
      intro e he
      exact (List.mem_append.mp he).elim (hlast e) (hafter e)

@[simp]
theorem isLatest_singleton : IsLatest concerns event [other] ↔ concerns other ∧ event = other := by
  constructor
  · intro h
    obtain rfl := List.mem_singleton.mp h.mem
    exact ⟨h.1, rfl⟩
  · rintro ⟨hother, rfl⟩
    exact ⟨hother, [], [], rfl, fun e he => absurd he List.not_mem_nil⟩

/-- The latest event of a longer history is the last one, or it was the latest before. -/
theorem isLatest_concat : IsLatest concerns event (events ++ [other]) ↔
    concerns other ∧ event = other ∨ ¬concerns other ∧ IsLatest concerns event events := by
  rw [isLatest_append, isLatest_singleton]
  simp only [List.forall_mem_singleton]

/-- An event that does not concern it may as well be left out. -/
theorem isLatest_insert (hother : ¬concerns other) :
    IsLatest concerns event (before ++ other :: after) ↔
      IsLatest concerns event (before ++ after) := by
  have hcons : IsLatest concerns event (other :: after) ↔ IsLatest concerns event after := by
    rw [← List.singleton_append, isLatest_append, isLatest_singleton]
    simp [hother]
  rw [isLatest_append, isLatest_append, hcons, List.forall_mem_cons, and_iff_right hother]

end TenantReports
