import Mathlib.Logic.Relation
import TenantReports.Platform.Basic
import TenantReports.Proofs.Connection.Action

/-!
What work leads to: the steps that it takes on its state, and what holds of its answer.
-/

namespace TenantReports

open Relation (ReflTransGen)

namespace Action

variable {σ α β : Type} {S : σ → σ → Prop} {s : σ}

/-- From `s` the action goes by steps of `S`, and `Q` holds where it gives an answer. -/
structure Meets (S : σ → σ → Prop) (action : Action σ α) (s : σ) (Q : α → σ → Prop) : Prop where
  steps : ReflTransGen S s (action.run s).2
  answers : ∀ a, (action.run s).1 = .ok a → Q a (action.run s).2

namespace Meets

variable {action : Action σ α} {next : α → Action σ β} {P : α → σ → Prop} {Q : β → σ → Prop}

theorem of_run_eq {outcome : Except Fault α} {s' : σ} (h : action.run s = (outcome, s'))
    (hsteps : ReflTransGen S s s') (hanswer : ∀ a, outcome = .ok a → P a s') :
    Meets S action s P := by
  refine ⟨?_, ?_⟩
  · rw [h]
    exact hsteps
  · rw [h]
    exact hanswer

theorem answer {a : α} (h : P a s) : Meets S (pure a) s P := by
  have hrun : (pure a : Action σ α).run s = (.ok a, s) := rfl
  refine of_run_eq hrun .refl ?_
  rintro _ ⟨⟩
  exact h

theorem fail {fault : Fault} : Meets S (throw fault) s P := by
  have hrun : (throw fault : Action σ α).run s = (.error fault, s) := rfl
  exact of_run_eq hrun .refl fun _ h => nomatch h

theorem bind (h : Meets S action s P)
    (hnext : ∀ a s', ReflTransGen S s s' → P a s' → Meets S (next a) s' Q) :
    Meets S (action >>= next) s Q := by
  have hrun := run_bind action next s
  obtain ⟨hsteps, hanswers⟩ := h
  rcases haction : action.run s with ⟨outcome, s'⟩
  rw [haction] at hrun hsteps hanswers
  cases outcome with
  | error fault => exact of_run_eq hrun hsteps fun _ h => nomatch h
  | ok a =>
      have h' := hnext a s' hsteps (hanswers a rfl)
      refine ⟨?_, ?_⟩
      · rw [hrun]
        exact hsteps.trans h'.steps
      · rw [hrun]
        exact h'.answers

theorem weaken {Q : α → σ → Prop} (h : Meets S action s P)
    (hweaker : ∀ a s', ReflTransGen S s s' → P a s' → Q a s') : Meets S action s Q :=
  ⟨h.steps, fun a ha => hweaker a _ h.steps (h.answers a ha)⟩

theorem mono {S' : σ → σ → Prop} (hS : ∀ s s', S s s' → S' s s') (h : Meets S action s P) :
    Meets S' action s P :=
  ⟨ReflTransGen.mono hS _ _ h.steps, h.answers⟩

theorem attempt (h : Meets S action s P) :
    Meets S (attempt action) s fun outcome s' => ∀ a, outcome = .ok a → P a s' := by
  refine of_run_eq (run_attempt action s) h.steps ?_
  rintro _ ⟨⟩
  exact h.answers

theorem ofResult {result : Result α} (h : ∀ a, result = .ok a → P a s) :
    Meets S (ofResult result) s P :=
  of_run_eq (run_ofResult result s) .refl h

/-- A result is passed on in the state that it was found in. -/
theorem pass {result : Result α} (h : ∀ a, result = .ok a → Meets S (next a) s Q) :
    Meets S (Action.ofResult result >>= next) s Q := by
  refine (ofResult (P := fun a s' => s' = s ∧ result = .ok a) fun a ha => ⟨rfl, ha⟩).bind ?_
  rintro a _ - ⟨rfl, ha⟩
  exact h a ha

theorem step {f : σ → σ} {Q : Unit → σ → Prop} (hstep : S s (f s)) (h : Q () (f s)) :
    Meets S (modify f : Action σ Unit) s Q := by
  have hrun : (modify f : Action σ Unit).run s = (.ok (), f s) := rfl
  refine of_run_eq hrun (.single hstep) ?_
  rintro _ ⟨⟩
  exact h

/-- An action that only reads is replaced by what it answers. -/
theorem read {a : α} (hread : action.run s = (.ok a, s)) (h : Meets S (next a) s Q) :
    Meets S (action >>= next) s Q := by
  have hrun := run_bind action next s
  rw [hread] at hrun
  exact ⟨hrun ▸ h.steps, hrun ▸ h.answers⟩

/-- What each item answers without a step, all answer without a step. -/
theorem mapM {f : β → Action σ α} {items : List β} {P : α → Prop}
    (h : ∀ item ∈ items, Meets S (f item) s fun a s' => s' = s ∧ P a) :
    Meets S (items.mapM f) s fun answers s' => s' = s ∧ ∀ a ∈ answers, P a := by
  induction items with
  | nil => exact answer ⟨rfl, fun _ ha => nomatch ha⟩
  | cons item items ih =>
      rw [List.mapM_cons]
      refine (h item (List.mem_cons_self ..)).bind ?_
      rintro a _ - ⟨rfl, ha⟩
      refine (ih fun other hother => h other (List.mem_cons_of_mem _ hother)).bind ?_
      rintro answers _ - ⟨rfl, hanswers⟩
      refine answer ⟨rfl, fun a' ha' => ?_⟩
      rcases List.mem_cons.mp ha' with rfl | hrest
      · exact ha
      · exact hanswers a' hrest

theorem attemptUncancelled (h : Meets S action s P) :
    Meets S (attemptUncancelled action) s fun outcome s' => ∀ a, outcome = .ok a → P a s' := by
  unfold Action.attemptUncancelled
  refine h.attempt.bind fun outcome s' _ houtcome => ?_
  split
  · exact fail
  · exact answer houtcome

end Meets

/-- Whether an action never changes the state. -/
def Reads (action : Action σ α) : Prop := ∀ s, (action.run s).2 = s

namespace Reads

variable {action : Action σ α} {next : α → Action σ β}

theorem answer (a : α) : Reads (pure a : Action σ α) := fun _ => rfl

theorem fail (fault : Fault) : Reads (throw fault : Action σ α) := fun _ => rfl

theorem ofResult (result : Result α) : Reads (ofResult result : Action σ α) := fun s => by
  rw [run_ofResult]

theorem bind (h : Reads action) (hnext : ∀ a, Reads (next a)) : Reads (action >>= next) := by
  intro s
  have hs := h s
  rw [run_bind]
  rcases haction : action.run s with ⟨outcome, s'⟩
  rw [haction] at hs
  cases outcome with
  | error fault => exact hs
  | ok a => exact (hnext a s').trans hs

theorem meets (h : Reads action) (s : σ) :
    Meets S action s fun a s' => s' = s ∧ action.run s = (.ok a, s) := by
  have hs := h s
  rcases hrun : action.run s with ⟨outcome, s'⟩
  rw [hrun] at hs
  refine .of_run_eq hrun (by rw [show s' = s from hs]) fun a ha => ⟨hs, ?_⟩
  rw [ha, show s' = s from hs]

theorem cases (h : Reads action) (s : σ) :
    (∃ fault, action.run s = (.error fault, s)) ∨ ∃ a, action.run s = (.ok a, s) := by
  have hs := h s
  rcases hrun : action.run s with ⟨outcome, s'⟩
  rw [hrun] at hs
  obtain rfl : s' = s := hs
  cases outcome with
  | error fault => exact .inl ⟨fault, rfl⟩
  | ok a => exact .inr ⟨a, rfl⟩

end Reads

end Action

end TenantReports
