import Mathlib.Data.List.Forall2

/-!
When a chain of steps that may fail succeeds.
-/

namespace TenantReports

variable {ε α β : Type}

theorem bind_eq_ok {first : Except ε α} {next : α → Except ε β} {b : β} :
    (first >>= next) = .ok b ↔ ∃ a, first = .ok a ∧ next a = .ok b := by
  cases first with
  | error fault =>
      constructor
      · intro h
        cases h
      · rintro ⟨a, ha, -⟩
        cases ha
  | ok a =>
      constructor
      · intro h
        exact ⟨a, rfl, h⟩
      · rintro ⟨_, ⟨⟩, h⟩
        exact h

theorem eq_ok_of_toOption {result : Except ε α} {a : α} (h : result.toOption = some a) :
    result = .ok a := by
  cases result with
  | error fault => cases h
  | ok a' =>
      cases h
      rfl

theorem isSome_toOption_iff {result : Except ε α} :
    result.toOption.isSome = true ↔ ∃ a, result = .ok a := by
  cases result with
  | error fault => exact ⟨fun h => (nomatch h), fun ⟨_, h⟩ => (nomatch h)⟩
  | ok a => exact ⟨fun _ => ⟨a, rfl⟩, fun _ => rfl⟩

theorem mapM_eq_ok {f : α → Except ε β} {xs : List α} {ys : List β} :
    xs.mapM f = .ok ys ↔ List.Forall₂ (fun x y => f x = .ok y) xs ys := by
  induction xs generalizing ys with
  | nil =>
      rw [List.mapM_nil, List.forall₂_nil_left_iff]
      constructor
      · intro h
        cases h
        rfl
      · rintro rfl
        rfl
  | cons x xs ih =>
      rw [List.mapM_cons, bind_eq_ok, List.forall₂_cons_left_iff]
      constructor
      · rintro ⟨y, hy, h⟩
        rw [bind_eq_ok] at h
        obtain ⟨rest, hrest, hys⟩ := h
        cases hys
        exact ⟨y, rest, hy, ih.mp hrest, rfl⟩
      · rintro ⟨y, rest, hy, hrest, rfl⟩
        exact ⟨y, hy, bind_eq_ok.mpr ⟨rest, ih.mpr hrest, rfl⟩⟩

theorem exists_mapM_eq_ok {f : α → Except ε β} {xs : List α} :
    (∃ ys, xs.mapM f = .ok ys) ↔ ∀ x ∈ xs, ∃ y, f x = .ok y := by
  induction xs with
  | nil => exact iff_of_true ⟨[], rfl⟩ (List.forall_mem_nil _)
  | cons x xs ih =>
      rw [List.forall_mem_cons, ← ih]
      constructor
      · rintro ⟨ys, h⟩
        obtain ⟨y, rest, hy, hrest, -⟩ := List.forall₂_cons_left_iff.mp (mapM_eq_ok.mp h)
        exact ⟨⟨y, hy⟩, rest, mapM_eq_ok.mpr hrest⟩
      · rintro ⟨⟨y, hy⟩, rest, hrest⟩
        exact ⟨y :: rest, mapM_eq_ok.mpr (.cons hy (mapM_eq_ok.mp hrest))⟩

theorem exists_of_mem_right {R : α → β → Prop} {xs : List α} {ys : List β}
    (h : List.Forall₂ R xs ys) {y : β} (hy : y ∈ ys) : ∃ x ∈ xs, R x y := by
  induction h with
  | nil => cases hy
  | cons hxy _ ih =>
      rcases List.mem_cons.mp hy with rfl | hy
      · exact ⟨_, List.mem_cons_self, hxy⟩
      · obtain ⟨x, hx, hxy⟩ := ih hy
        exact ⟨x, List.mem_cons_of_mem _ hx, hxy⟩

theorem map_eq_of_forall₂ {γ : Type} {R : α → β → Prop} {f : α → γ} {g : β → γ} {xs : List α}
    {ys : List β} (h : List.Forall₂ R xs ys) (hfg : ∀ x y, R x y → g y = f x) :
    ys.map g = xs.map f := by
  induction h with
  | nil => rfl
  | cons hxy _ ih => rw [List.map_cons, List.map_cons, hfg _ _ hxy, ih]

theorem flatMap_eq_of_forall₂ {γ : Type} {R : α → β → Prop} {f : α → List γ} {g : β → List γ}
    {xs : List α} {ys : List β} (h : List.Forall₂ R xs ys) (hfg : ∀ x y, R x y → g y = f x) :
    ys.flatMap g = xs.flatMap f := by
  induction h with
  | nil => rfl
  | cons hxy _ ih => rw [List.flatMap_cons, List.flatMap_cons, hfg _ _ hxy, ih]

theorem forM_eq_ok {f : α → Except ε Unit} {xs : List α} :
    xs.forM f = .ok () ↔ ∀ x ∈ xs, f x = .ok () := by
  induction xs with
  | nil =>
      constructor
      · intro _ x hx
        cases hx
      · intro _
        rfl
  | cons x xs ih =>
      rw [List.forM_eq_forM, List.forM_cons, bind_eq_ok, List.forall_mem_cons]
      constructor
      · rintro ⟨_, hx, hxs⟩
        exact ⟨hx, ih.mp hxs⟩
      · rintro ⟨hx, hxs⟩
        exact ⟨(), hx, ih.mpr hxs⟩

/-- Whether a result fails only by faults of a kind. -/
def FailsOnly (Of : ε → Prop) (result : Except ε α) : Prop :=
  ∀ fault, result = .error fault → Of fault

namespace FailsOnly

variable {Of : ε → Prop}

theorem ok (a : α) : FailsOnly Of (.ok a) := fun _ h => nomatch h

theorem fault {fault : ε} (h : Of fault) : FailsOnly Of (.error fault : Except ε α) := by
  rintro _ ⟨⟩
  exact h

theorem bind {result : Except ε α} {next : α → Except ε β} (h : FailsOnly Of result)
    (hnext : ∀ a, FailsOnly Of (next a)) : FailsOnly Of (result >>= next) := by
  cases result with
  | ok a => exact hnext a
  | error fault =>
      rintro _ ⟨⟩
      exact h fault rfl

theorem mapM {f : α → Except ε β} {items : List α} (h : ∀ item ∈ items, FailsOnly Of (f item)) :
    FailsOnly Of (items.mapM f) := by
  induction items with
  | nil => exact ok []
  | cons item items ih =>
      rw [List.mapM_cons]
      refine (h item List.mem_cons_self).bind fun b => ?_
      exact (ih fun other hother => h other (List.mem_cons_of_mem _ hother)).bind fun rest => ok _

theorem foldlM {f : β → α → Except ε β} {items : List α}
    (h : ∀ b, ∀ item ∈ items, FailsOnly Of (f b item)) (b : β) :
    FailsOnly Of (items.foldlM f b) := by
  induction items generalizing b with
  | nil => exact ok b
  | cons item items ih =>
      rw [List.foldlM_cons]
      refine (h b item List.mem_cons_self).bind fun next => ih (fun b other hother => ?_) next
      exact h b other (List.mem_cons_of_mem _ hother)

theorem forM {f : α → Except ε Unit} {items : List α} (h : ∀ item, FailsOnly Of (f item)) :
    FailsOnly Of (items.forM f) := by
  induction items with
  | nil => exact ok ()
  | cons item items ih => exact (h item).bind fun _ => ih

end FailsOnly

end TenantReports
