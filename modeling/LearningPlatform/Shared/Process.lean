import LearningPlatform.Shared.Run

/-! # Processes that share a store

Each process is in a phase of its own. A statement of one process reads and changes the store
and the phase of that process, so an assertion about the other phases only has to be stable
under the change of the store. -/

namespace LearningPlatform.Shared

variable {ι σ φ α : Type*}

structure Processes (ι σ φ : Type*) where
  store : σ
  phase : ι → φ

namespace Processes

/-- What an action of a process makes of the store and of its phase, if it is possible. -/
abbrev Statement (ι σ φ α : Type*) := ι → α → σ → φ → Option (σ × φ)

variable [DecidableEq ι]

def setPhase (s : Processes ι σ φ) (i : ι) (store : σ) (phase : φ) : Processes ι σ φ where
  store := store
  phase := Function.update s.phase i phase

theorem phase_setPhase_self (s : Processes ι σ φ) (i : ι) (store : σ) (phase : φ) :
    (s.setPhase i store phase).phase i = phase :=
  Function.update_self ..

theorem phase_setPhase_of_ne (s : Processes ι σ φ) {i j : ι} (h : j ≠ i) (store : σ) (phase : φ) :
    (s.setPhase i store phase).phase j = s.phase j :=
  Function.update_of_ne h ..

theorem setPhase_self (s : Processes ι σ φ) (i : ι) (store : σ) :
    s.setPhase i store (s.phase i) = { s with store } := by
  simp [setPhase]

def step (act : Statement ι σ φ α) (s : Processes ι σ φ) : ι × α → Option (Processes ι σ φ)
  | (i, a) => (act i a s.store (s.phase i)).map fun (store, phase) => s.setPhase i store phase

variable {act : Statement ι σ φ α} {s t : Processes ι σ φ} {I : σ → Prop} {P : ι → σ → φ → Prop}
  {actions : List (ι × α)}

theorem step_eq_some {i : ι} {a : α} :
    step act s (i, a) = some t ↔
      ∃ store phase, act i a s.store (s.phase i) = some (store, phase) ∧
        t = s.setPhase i store phase := by
  simp only [step, Option.map_eq_some_iff, Prod.exists, eq_comm (a := t)]

/-- The store has an invariant and every process an assertion about its phase. -/
structure Holds (I : σ → Prop) (P : ι → σ → φ → Prop) (s : Processes ι σ φ) : Prop where
  store : I s.store
  phase : ∀ i, P i s.store (s.phase i)

/-- The conclusions that one statement has to give. -/
structure Keeps (I : σ → Prop) (P : ι → σ → φ → Prop) (s : Processes ι σ φ) (i : ι) (store : σ)
    (phase : φ) : Prop where
  invariant : I store
  self : P i store phase
  others : ∀ j, j ≠ i → P j store (s.phase j)

theorem Keeps.holds {i : ι} {store : σ} {phase : φ} (h : Keeps I P s i store phase) :
    Holds I P (s.setPhase i store phase) :=
  ⟨h.invariant, (Function.forall_update_iff s.phase (P · store ·)).mpr ⟨h.self, h.others⟩⟩

/-- Assertions that are stable under the statements of the other processes hold along runs whose
steps meet a side condition. -/
theorem Holds.run_meeting {Condition : Processes ι σ φ → ι × α → Prop}
    (hrun : Run (Meeting Condition (Fires (step act))) s actions t)
    (hkeeps : ∀ s i a store phase, Holds I P s → Condition s (i, a) → act i a s.store (s.phase i) =
      some (store, phase) → Keeps I P s i store phase) (hs : Holds I P s) : Holds I P t := by
  refine hrun.invariant (Holds I P) ?_ hs
  rintro s ⟨i, a⟩ t h ⟨hcondition, hstep⟩
  obtain ⟨store, phase, hact, rfl⟩ := step_eq_some.mp hstep
  exact (hkeeps s i a store phase h hcondition hact).holds

theorem Holds.run (hrun : Run (Fires (step act)) s actions t)
    (hkeeps : ∀ s i a store phase, Holds I P s → act i a s.store (s.phase i) = some (store, phase) →
      Keeps I P s i store phase) (hs : Holds I P s) : Holds I P t := by
  have hmeeting : Run (Meeting (fun _ _ => True) (Fires (step act))) s actions t :=
    hrun.mono fun _ _ _ hstep => ⟨trivial, hstep⟩
  exact run_meeting hmeeting (fun s i a store phase h _ => hkeeps s i a store phase h) hs

/-- A property of the store that no statement takes away, where the assertions hold. -/
theorem Holds.stays {Condition : Processes ι σ φ → ι × α → Prop} {Q : σ → Prop}
    (hrun : Run (Meeting Condition (Fires (step act))) s actions t)
    (hkeeps : ∀ s i a store phase, Holds I P s → Condition s (i, a) → act i a s.store (s.phase i) =
      some (store, phase) → Keeps I P s i store phase)
    (hstays : ∀ s i a store phase, Holds I P s → Condition s (i, a) → act i a s.store (s.phase i) =
      some (store, phase) → Q s.store → Q store) (hs : Holds I P s) (hQ : Q s.store) :
    Q t.store := by
  have ht : Holds (fun store => I store ∧ Q store) P t := by
    refine run_meeting hrun (fun s i a store phase h hcondition hact => ?_)
      ⟨⟨hs.store, hQ⟩, hs.phase⟩
    have hkept := hkeeps s i a store phase ⟨h.store.1, h.phase⟩ hcondition hact
    have hstayed := hstays s i a store phase ⟨h.store.1, h.phase⟩ hcondition hact h.store.2
    exact ⟨⟨hkept.invariant, hstayed⟩, hkept.self, hkept.others⟩
  exact ht.store.2

/-! ## A flag that one process sets -/

/-- A flag of the store is set while the process that set it is busy, and no other one is. -/
structure HeldBy (flag : σ → Bool) (busy : φ → Bool) (holder : Option ι) (s : Processes ι σ φ) :
    Prop where
  flag_eq : flag s.store = holder.isSome
  busy_iff : ∀ i, busy (s.phase i) = true ↔ holder = some i

namespace HeldBy

variable {flag : σ → Bool} {busy : φ → Bool} {holder : Option ι} {s : Processes ι σ φ} {i : ι}
  {store : σ} {phase : φ}

omit [DecidableEq ι] in
theorem alone (h : HeldBy flag busy holder s) {i j : ι} (hi : busy (s.phase i) = true)
    (hj : busy (s.phase j) = true) : i = j :=
  Option.some.inj (((h.busy_iff i).mp hi).symm.trans ((h.busy_iff j).mp hj))

omit [DecidableEq ι] in
theorem flag_eq_false (h : HeldBy flag busy holder s) (hidle : ∀ i, busy (s.phase i) = false) :
    flag s.store = false := by
  rw [h.flag_eq]
  cases holder with
  | none => rfl
  | some i =>
    have hbusy := (h.busy_iff i).mpr rfl
    cases (hidle i) ▸ hbusy

/-- A statement that leaves the flag and neither begins nor ends the work. -/
theorem keep (h : HeldBy flag busy holder s) (hflag : flag store = flag s.store)
    (hbusy : busy phase = busy (s.phase i)) :
    HeldBy flag busy holder (s.setPhase i store phase) := by
  refine ⟨hflag.trans h.flag_eq, fun j => ?_⟩
  by_cases hj : j = i
  · rw [hj, phase_setPhase_self, hbusy, h.busy_iff]
  · rw [phase_setPhase_of_ne s hj, h.busy_iff]

theorem take (h : HeldBy flag busy none s) (hflag : flag store = true)
    (hbusy : busy phase = true) : HeldBy flag busy (some i) (s.setPhase i store phase) := by
  refine ⟨hflag, fun j => ?_⟩
  by_cases hj : j = i
  · rw [hj, phase_setPhase_self]
    exact iff_of_true hbusy rfl
  · rw [phase_setPhase_of_ne s hj, h.busy_iff]
    simp [Ne.symm hj]

theorem give (h : HeldBy flag busy (some i) s) (hflag : flag store = false)
    (hbusy : busy phase = false) : HeldBy flag busy none (s.setPhase i store phase) := by
  refine ⟨hflag, fun j => ?_⟩
  by_cases hj : j = i
  · rw [hj, phase_setPhase_self]
    simp [hbusy]
  · rw [phase_setPhase_of_ne s hj, h.busy_iff]
    simp [Ne.symm hj]

end HeldBy

end Processes

end LearningPlatform.Shared
