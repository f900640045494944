import Mathlib.Logic.Relation
import Mathlib.Logic.Function.Basic
import Mathlib.Data.List.Basic

/-! # Runs of a labelled transition relation

A run records the actions taken between two states. Invariants are proved for one
step and lifted to whole runs by the rules below. -/

namespace LearningPlatform.Shared

universe v

/-- `Run Step s actions t` holds when performing `actions` in order leads from `s` to `t`. -/
inductive Run {σ α : Type*} (Step : σ → α → σ → Prop) : σ → List α → σ → Prop where
  | nil (s) : Run Step s [] s
  | cons {s a t actions u} : Step s a t → Run Step t actions u → Run Step s (a :: actions) u

/-- The steps of `Step` whose source state and action meet a side condition. -/
def Meeting {σ α : Type*} (Condition : σ → α → Prop) (Step : σ → α → σ → Prop) :
    σ → α → σ → Prop :=
  fun s a t => Condition s a ∧ Step s a t

/-- The relation of a system whose actions are total functions of the state. -/
def Performs {σ α : Type*} (perform : σ → α → σ) : σ → α → σ → Prop :=
  fun s a t => perform s a = t

/-- The relation of a system in which not every action is possible in every state. -/
def Fires {σ α : Type*} (step : σ → α → Option σ) : σ → α → σ → Prop :=
  fun s a t => step s a = some t

/-! ## Rules for whole runs -/

variable {σ α ε : Type*} {Step : σ → α → σ → Prop} {s t : σ} {actions : List α}

/-- A property kept by every step is kept by every run. -/
theorem Run.invariant (Inv : σ → Prop) (hstep : ∀ s a t, Inv s → Step s a t → Inv t)
    (h : Run Step s actions t) (hs : Inv s) : Inv t := by
  induction h with
  | nil => exact hs
  | cons ha _ ih => exact ih (hstep _ _ _ hs ha)

theorem Run.mono {Step' : σ → α → σ → Prop} (hstep : ∀ s a t, Step s a t → Step' s a t)
    (h : Run Step s actions t) : Run Step' s actions t := by
  induction h with
  | nil => exact .nil _
  | cons ha _ ih => exact .cons (hstep _ _ _ ha) ih

/-- A run to a state with a property that its first state lacks has a step that brings it about. -/
theorem Run.exists_first {P : σ → Prop} (h : Run Step s actions t) (hs : ¬ P s) (ht : P t) :
    ∃ before a after u v, actions = before ++ a :: after ∧ Run Step s before u ∧ Step u a v ∧
      Run Step v after t ∧ ¬ P u ∧ P v := by
  induction h with
  | nil => exact absurd ht hs
  | @cons s a u actions t hstep hrun ih =>
    by_cases hu : P u
    · exact ⟨[], a, actions, s, u, rfl, .nil s, hstep, hrun, hs, hu⟩
    · obtain ⟨before, b, after, v, w, rfl, hbefore, hb, hafter, hv, hw⟩ := ih hu ht
      exact ⟨a :: before, b, after, v, w, rfl, .cons hstep hbefore, hb, hafter, hv, hw⟩

theorem run_foldl (perform : σ → α → σ) (s : σ) (actions : List α) :
    Run (Performs perform) s actions (actions.foldl perform s) := by
  induction actions generalizing s with
  | nil => exact .nil s
  | cons a actions ih => exact .cons rfl (ih (perform s a))

/-- The actions meet a side condition in the states in which they are performed. -/
def MeetAlong {σ α : Type*} (Condition : σ → α → Prop) (perform : σ → α → σ) :
    σ → List α → Prop
  | _, [] => True
  | s, a :: actions => Condition s a ∧ MeetAlong Condition perform (perform s a) actions

instance decidableMeetAlong {σ α : Type*} (Condition : σ → α → Prop) (perform : σ → α → σ)
    [∀ s a, Decidable (Condition s a)] :
    ∀ s actions, Decidable (MeetAlong Condition perform s actions)
  | _, [] => .isTrue trivial
  | s, a :: actions =>
    have := decidableMeetAlong Condition perform (perform s a) actions
    inferInstanceAs (Decidable (_ ∧ _))

theorem meetAlong_of_forall {Condition : α → Prop} {perform : σ → α → σ}
    (h : ∀ a ∈ actions, Condition a) : MeetAlong (fun _ => Condition) perform s actions := by
  induction actions generalizing s with
  | nil => trivial
  | cons a actions ih =>
    exact ⟨h a (by simp), ih fun b hb => h b (List.mem_cons_of_mem _ hb)⟩

theorem run_meeting_foldl {Condition : σ → α → Prop} {perform : σ → α → σ}
    (h : MeetAlong Condition perform s actions) :
    Run (Meeting Condition (Performs perform)) s actions (actions.foldl perform s) := by
  induction actions generalizing s with
  | nil => exact .nil s
  | cons a actions ih => exact .cons ⟨h.1, rfl⟩ (ih h.2)

theorem run_foldlM {step : σ → α → Option σ} (h : actions.foldlM step s = some t) :
    Run (Fires step) s actions t := by
  induction actions generalizing s with
  | nil =>
    obtain rfl : s = t := by simpa using h
    exact .nil s
  | cons a actions ih =>
    rw [List.foldlM_cons] at h
    obtain ⟨u, hu, ht⟩ := Option.bind_eq_some_iff.mp h
    exact .cons hu (ih ht)

/-- The step, if its side condition holds. -/
def stepMeeting {σ α : Type*} (Condition : σ → α → Prop) [∀ s a, Decidable (Condition s a)]
    (step : σ → α → Option σ) : σ → α → Option σ :=
  fun s a => if Condition s a then step s a else none

theorem run_meeting_foldlM {Condition : σ → α → Prop} [∀ s a, Decidable (Condition s a)]
    {step : σ → α → Option σ} (h : actions.foldlM (stepMeeting Condition step) s = some t) :
    Run (Meeting Condition (Fires step)) s actions t := by
  refine (run_foldlM h).mono fun u a v hfires => ?_
  unfold Fires stepMeeting at hfires
  split at hfires
  · rename_i hcondition
    exact ⟨hcondition, hfires⟩
  · cases hfires

/-- The end of a list of actions that was found by evaluation. -/
theorem exists_of_any_decide {Goal : σ → Prop} [DecidablePred Goal] {result : Option σ}
    (h : result.any (fun t => decide (Goal t)) = true) : ∃ t, result = some t ∧ Goal t := by
  obtain ⟨t, ht, hgoal⟩ := (Option.any_eq_true _ _).mp h
  exact ⟨t, ht, of_decide_eq_true hgoal⟩

theorem exists_two_of_any_decide {Goal : σ → σ → Prop} [∀ t u, Decidable (Goal t u)]
    {result : Option σ} {next : σ → Option σ}
    (h : result.any (fun t => (next t).any fun u => decide (Goal t u)) = true) :
    ∃ t u, result = some t ∧ next t = some u ∧ Goal t u := by
  obtain ⟨t, ht, hnext⟩ := (Option.any_eq_true _ _).mp h
  obtain ⟨u, hu, hgoal⟩ := exists_of_any_decide hnext
  exact ⟨t, u, ht, hu, hgoal⟩

theorem exists_run_of_any_decide {step : σ → α → Option σ} {Goal : σ → Prop} [DecidablePred Goal]
    {s : σ} {actions : List α}
    (h : (actions.foldlM step s).any (fun t => decide (Goal t)) = true) :
    ∃ t, Run (Fires step) s actions t ∧ Goal t := by
  obtain ⟨t, ht, hgoal⟩ := exists_of_any_decide h
  exact ⟨t, run_foldlM ht, hgoal⟩

/-! ## Families with one member changed -/

/-- At most one member has a property: among the others as before, and the changed member has it
only if no other does. -/
theorem unique_update {ι : Type*} [DecidableEq ι] {P : ι → α → Prop} {f : ι → α} {i : ι} {a : α}
    (h : ∀ j k, j ≠ i → k ≠ i → P j (f j) → P k (f k) → j = k)
    (ha : P i a → ∀ j, j ≠ i → ¬ P j (f j)) (j k : ι) (hj : P j (Function.update f i a j))
    (hk : P k (Function.update f i a k)) : j = k := by
  by_cases hji : j = i
  · subst hji
    by_contra hjk
    rw [Function.update_self] at hj
    rw [Function.update_of_ne (Ne.symm hjk)] at hk
    exact ha hj k (Ne.symm hjk) hk
  · rw [Function.update_of_ne hji] at hj
    by_cases hki : k = i
    · subst hki
      rw [Function.update_self] at hk
      exact absurd hj (ha hk j hji)
    · rw [Function.update_of_ne hki] at hk
      exact h j k hji hki hj hk

/-! ## Fallible steps -/

theorem bind_eq_ok {α β : Type v} {x : Except ε α} {f : α → Except ε β} {r : β} :
    (x >>= f) = .ok r ↔ ∃ a, x = .ok a ∧ f a = .ok r := by
  cases x with
  | error e => simp [bind, Except.bind]
  | ok a => simp [bind, Except.bind]

theorem ite_error_eq_ok {c : Prop} [Decidable c] {e : ε} {x : Except ε α} {r : α} :
    (if c then .error e else x) = .ok r ↔ ¬ c ∧ x = .ok r := by
  by_cases h : c
  · simp [h]
  · simp [h]

theorem map_eq_ok {β : Type*} {x : Except ε α} {f : α → β} {r : β} :
    x.map f = .ok r ↔ ∃ a, x = .ok a ∧ f a = r := by
  cases x with
  | error e => simp [Except.map]
  | ok a => simp [Except.map]

theorem mapError_eq_ok {ε' : Type*} {x : Except ε α} {f : ε → ε'} {r : α} :
    x.mapError f = .ok r ↔ x = .ok r := by
  cases x with
  | error e => simp [Except.mapError]
  | ok a => simp [Except.mapError]

theorem mem_mapM_ok {α β : Type v} {f : α → Except ε β} {items : List α} {results : List β}
    (h : items.mapM f = .ok results) : ∀ result ∈ results, ∃ item ∈ items, f item = .ok result := by
  induction items generalizing results with
  | nil =>
    obtain rfl : [] = results := by simpa [pure, Except.pure] using h
    simp
  | cons item items ih =>
    rw [List.mapM_cons] at h
    obtain ⟨first, hfirst, h⟩ := bind_eq_ok.mp h
    obtain ⟨rest, hrest, h⟩ := bind_eq_ok.mp h
    obtain rfl : first :: rest = results := by simpa [pure, Except.pure] using h
    intro result hresult
    rcases List.mem_cons.mp hresult with rfl | hresult
    · exact ⟨item, by simp, hfirst⟩
    · obtain ⟨source, hsource, heq⟩ := ih hrest result hresult
      exact ⟨source, List.mem_cons_of_mem _ hsource, heq⟩

/-- A loop whose body relates its input to its output relates the two ends. -/
theorem foldlM_relates {step : σ → α → Except ε σ} (Rel : σ → σ → Prop) (hrefl : ∀ s, Rel s s)
    (htrans : ∀ s t u, Rel s t → Rel t u → Rel s u) {items : List α}
    (hstep : ∀ s t, ∀ a ∈ items, step s a = .ok t → Rel s t) (h : items.foldlM step s = .ok t) :
    Rel s t := by
  induction items generalizing s with
  | nil =>
    obtain rfl : s = t := by simpa [pure, Except.pure] using h
    exact hrefl s
  | cons a items ih =>
    rw [List.foldlM_cons] at h
    obtain ⟨u, hu, ht⟩ := bind_eq_ok.mp h
    exact htrans _ _ _ (hstep s u a (by simp) hu)
      (ih (fun s t a ha => hstep s t a (List.mem_cons_of_mem _ ha)) ht)

end LearningPlatform.Shared
