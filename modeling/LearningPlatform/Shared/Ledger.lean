import Mathlib.Algebra.BigOperators.Group.List.Basic

/-! # What a run adds up

The states of a run with the actions that are performed in them, and measures to which every action
adds what it is worth in its state. -/

namespace LearningPlatform.Shared

variable {σ α β M : Type*} {perform : σ → α → σ}

def visits (perform : σ → α → σ) : σ → List α → List (σ × α)
  | _, [] => []
  | s, a :: actions => (s, a) :: visits perform (perform s a) actions

/-- The end of a run measures what its start does and what the visits add. -/
theorem foldl_eq_add_sum [AddMonoid M] (measure : σ → M) (gain : σ × α → M)
    (hgain : ∀ s a, measure (perform s a) = measure s + gain (s, a)) (s : σ) (actions : List α) :
    measure (actions.foldl perform s) =
      measure s + ((visits perform s actions).map gain).sum := by
  induction actions generalizing s with
  | nil => simp [visits]
  | cons a actions ih =>
    rw [List.foldl_cons, ih, hgain, visits, List.map_cons, List.sum_cons, add_assoc]

theorem sum_filterMap [AddMonoid M] {entry : β → Option α} {gain : β → M} {worth : α → M}
    (hworth : ∀ visit, gain visit = ((entry visit).map worth).getD 0) (visited : List β) :
    (visited.map gain).sum = ((visited.filterMap entry).map worth).sum := by
  induction visited with
  | nil => rfl
  | cons visit visited ih =>
    cases hentry : entry visit with
    | none => simp [hworth visit, hentry, ih]
    | some value => simp [hworth visit, hentry, ih]

end LearningPlatform.Shared
