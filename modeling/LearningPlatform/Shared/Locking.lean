import LearningPlatform.Shared.Run
import Mathlib.Data.Fintype.Basic
import Mathlib.Data.Finset.Card

/-! # Requests that write under a lock

A request reads the store, waits for a lock, computes its statements from the store that it
finds under the lock, and commits them. Requests and the environment take steps in any order.
While all requests take one lock, what a request computed is still current when it commits. -/

namespace LearningPlatform.Shared

/-- The parts of a family of requests `ι` on a store `σ`. -/
structure LockProtocol (ι σ η ρ δ κ ε : Type*) where
  environment : η → σ → σ
  /-- The reads before the lock. -/
  load : ι → σ → Except ε ρ
  /-- The lock that a loaded request waits for, if any. -/
  key : ρ → Option κ
  /-- The statements, computed under the lock. -/
  write : ι → ρ → σ → Except ε δ
  /-- What others see of statements that are not committed. -/
  draw : δ → σ → σ
  commit : δ → σ → σ

inductive LockPhase (ρ δ ε : Type*) where
  | waiting
  | loaded (request : ρ)
  | locked (request : ρ)
  | written (request : ρ) (statements : δ)
  | committed (request : ρ) (statements : δ)
  | failed (failure : ε)
  deriving DecidableEq

namespace LockPhase

variable {ρ δ ε : Type*}

/-- The request of a phase between the lock and the end. -/
def holder? : LockPhase ρ δ ε → Option ρ
  | .locked request | .written request _ => some request
  | _ => none

/-- The request of a phase between the reads and the end. -/
def inFlight? : LockPhase ρ δ ε → Option ρ
  | .loaded request | .locked request | .written request _ => some request
  | _ => none

theorem inFlight?_of_holder? {phase : LockPhase ρ δ ε} {request : ρ}
    (h : phase.holder? = some request) : phase.inFlight? = some request := by
  cases phase with
  | locked _ | written _ _ => exact h
  | _ => cases h

def committed? : LockPhase ρ δ ε → Bool
  | .committed _ _ => true
  | _ => false

end LockPhase

structure LockState (ι σ ρ δ ε : Type*) where
  store : σ
  phase : ι → LockPhase ρ δ ε

inductive LockAction (ι η : Type*) where
  | environment (event : η)
  | load (i : ι)
  | lock (i : ι)
  | write (i : ι)
  | commit (i : ι)
  deriving DecidableEq

namespace LockState

variable {ι σ ρ δ ε : Type*} [DecidableEq ι]

def setPhase (s : LockState ι σ ρ δ ε) (i : ι) (phase : LockPhase ρ δ ε) :
    LockState ι σ ρ δ ε :=
  { s with phase := Function.update s.phase i phase }

variable {s : LockState ι σ ρ δ ε} {i : ι} {phase : LockPhase ρ δ ε}

@[simp] theorem setPhase_self : (s.setPhase i phase).phase i = phase :=
  Function.update_self ..

theorem setPhase_of_ne {j : ι} (h : j ≠ i) : (s.setPhase i phase).phase j = s.phase j :=
  Function.update_of_ne h ..

theorem forall_setPhase {P : ι → LockPhase ρ δ ε → Prop} (h : ∀ j, P j (s.phase j))
    (hphase : P i phase) (j : ι) : P j ((s.setPhase i phase).phase j) :=
  (Function.forall_update_iff s.phase P).mpr ⟨hphase, fun j _ => h j⟩ j

/-- At most one request is in flight. -/
def Alone (s : LockState ι σ ρ δ ε) : Prop :=
  ∀ i j, (s.phase i).inFlight?.isSome = true → (s.phase j).inFlight?.isSome = true → i = j

theorem alone_setPhase (h : ∀ j, (s.phase j).inFlight?.isSome = true → j = i) :
    (s.setPhase i phase).Alone :=
  unique_update (P := fun _ (phase : LockPhase ρ δ ε) => phase.inFlight?.isSome = true)
    (fun j _ hji _ hj _ => absurd (h j hj) hji) fun _ j hji hj => hji (h j hj)

variable [Fintype ι]

def committed (s : LockState ι σ ρ δ ε) : Finset ι :=
  Finset.univ.filter fun i => (s.phase i).committed? = true

theorem committed_setPhase (hold : (s.phase i).committed? = false)
    (hphase : phase.committed? = false) : (s.setPhase i phase).committed = s.committed := by
  ext j
  by_cases hj : j = i
  · subst hj
    simp [committed, hold, hphase]
  · simp [committed, setPhase_of_ne hj]

theorem card_committed_setPhase (hold : (s.phase i).committed? = false)
    (hphase : phase.committed? = true) :
    (s.setPhase i phase).committed.card = s.committed.card + 1 := by
  have hinsert : (s.setPhase i phase).committed = insert i s.committed := by
    ext j
    by_cases hj : j = i
    · subst hj
      simp [committed, hphase]
    · simp [committed, setPhase_of_ne hj, hj]
  rw [hinsert, Finset.card_insert_of_notMem (by simp [committed, hold])]

end LockState

namespace LockProtocol

variable {ι σ η ρ δ κ ε : Type*}

/-- No request holds the lock that the request waits for. -/
def Free (p : LockProtocol ι σ η ρ δ κ ε) (s : LockState ι σ ρ δ ε) (request : ρ) : Prop :=
  ∀ k ∈ p.key request, ∀ i, ∀ holder ∈ (s.phase i).holder?, p.key holder ≠ some k

instance [Fintype ι] [DecidableEq κ] (p : LockProtocol ι σ η ρ δ κ ε)
    (s : LockState ι σ ρ δ ε) (request : ρ) : Decidable (p.Free s request) :=
  inferInstanceAs (Decidable (∀ _ ∈ _, _))

/-! ## Steps -/

section Steps

variable [DecidableEq ι]

/-- One step; a blocked or impossible one is `none`. -/
def step [Fintype ι] [DecidableEq κ] (p : LockProtocol ι σ η ρ δ κ ε) (s : LockState ι σ ρ δ ε) :
    LockAction ι η → Option (LockState ι σ ρ δ ε)
  | .environment event => some { s with store := p.environment event s.store }
  | .load i =>
    match s.phase i with
    | .waiting =>
      match p.load i s.store with
      | .ok request => some (s.setPhase i (.loaded request))
      | .error failure => some (s.setPhase i (.failed failure))
    | _ => none
  | .lock i =>
    match s.phase i with
    | .loaded request =>
      if p.Free s request then some (s.setPhase i (.locked request)) else none
    | _ => none
  | .write i =>
    match s.phase i with
    | .locked request =>
      match p.write i request s.store with
      | .ok statements =>
        some { s.setPhase i (.written request statements) with
               store := p.draw statements s.store }
      | .error failure => some (s.setPhase i (.failed failure))
    | _ => none
  | .commit i =>
    match s.phase i with
    | .written request statements =>
      some { s.setPhase i (.committed request statements) with
             store := p.commit statements s.store }
    | _ => none

/-- The step inverted: the phase before, the computation made, the state after. -/
inductive Takes (p : LockProtocol ι σ η ρ δ κ ε) (s : LockState ι σ ρ δ ε) :
    LockAction ι η → LockState ι σ ρ δ ε → Prop where
  | environment {event} :
      Takes p s (.environment event) { s with store := p.environment event s.store }
  | loaded {i request} : s.phase i = .waiting → p.load i s.store = .ok request →
      Takes p s (.load i) (s.setPhase i (.loaded request))
  | refused {i failure} : s.phase i = .waiting → p.load i s.store = .error failure →
      Takes p s (.load i) (s.setPhase i (.failed failure))
  | locked {i request} : s.phase i = .loaded request → p.Free s request →
      Takes p s (.lock i) (s.setPhase i (.locked request))
  | written {i request statements} : s.phase i = .locked request →
      p.write i request s.store = .ok statements →
      Takes p s (.write i)
        { s.setPhase i (.written request statements) with store := p.draw statements s.store }
  | rejected {i request failure} : s.phase i = .locked request →
      p.write i request s.store = .error failure →
      Takes p s (.write i) (s.setPhase i (.failed failure))
  | committed {i request statements} : s.phase i = .written request statements →
      Takes p s (.commit i)
        { s.setPhase i (.committed request statements) with
          store := p.commit statements s.store }

theorem takes_of_step [Fintype ι] [DecidableEq κ] {p : LockProtocol ι σ η ρ δ κ ε}
    {s t : LockState ι σ ρ δ ε} {action : LockAction ι η} (h : p.step s action = some t) :
    p.Takes s action t := by
  cases action with
  | environment event =>
    cases h
    exact .environment
  | load i =>
    simp only [step] at h
    split at h
    · rename_i hphase
      split at h
      · rename_i hload
        cases h
        exact .loaded hphase hload
      · rename_i hload
        cases h
        exact .refused hphase hload
    · cases h
  | lock i =>
    simp only [step] at h
    split at h
    · rename_i hphase
      split at h
      · rename_i hfree
        cases h
        exact .locked hphase hfree
      · cases h
    · cases h
  | write i =>
    simp only [step] at h
    split at h
    · rename_i hphase
      split at h
      · rename_i hwrite
        cases h
        exact .written hphase hwrite
      · rename_i hwrite
        cases h
        exact .rejected hphase hwrite
    · cases h
  | commit i =>
    simp only [step] at h
    split at h
    · rename_i hphase
      cases h
      exact .committed hphase
    · cases h

end Steps

/-! ## One lock for all requests -/

/-- The store after events of the environment. -/
def Later (p : LockProtocol ι σ η ρ δ κ ε) : σ → σ → Prop :=
  Relation.ReflTransGen fun before after => ∃ event, p.environment event before = after

/-- All requests in flight take the lock `k`, at most one holds it, and what a request wrote was
computed from the present store, which had the property `P`, up to events of the environment. -/
structure Serialised (p : LockProtocol ι σ η ρ δ κ ε) (k : κ) (P : ι → ρ → σ → Prop)
    (s : LockState ι σ ρ δ ε) : Prop where
  keyed : ∀ i, ∀ request ∈ (s.phase i).inFlight?, p.key request = some k
  exclusive : ∀ i j, (s.phase i).holder?.isSome = true → (s.phase j).holder?.isSome = true → i = j
  current : ∀ i request statements, s.phase i = .written request statements →
    ∃ before, P i request before ∧ p.write i request before = .ok statements ∧
      p.Later (p.draw statements before) s.store

/-- The requests that load take the lock `k`, and a request that computes its statements finds
a store with the property `P`. -/
def Serial (p : LockProtocol ι σ η ρ δ κ ε) (k : κ) (P : ι → ρ → σ → Prop)
    (s : LockState ι σ ρ δ ε) : LockAction ι η → Prop
  | .load i => ∀ request, p.load i s.store = .ok request → p.key request = some k
  | .write i => ∀ request, s.phase i = .locked request → P i request s.store
  | _ => True

namespace Serialised

variable {p : LockProtocol ι σ η ρ δ κ ε} {s t : LockState ι σ ρ δ ε} {k : κ}
  {P : ι → ρ → σ → Prop}

theorem of_waiting (h : ∀ i, s.phase i = .waiting) : p.Serialised k P s := by
  refine ⟨fun i request hrequest => ?_, fun i j hi => ?_, fun i request statements hwritten => ?_⟩
  · cases (h i) ▸ hrequest
  · cases (h i) ▸ hi
  · cases (h i) ▸ hwritten

theorem environment (h : p.Serialised k P s) (event : η) :
    p.Serialised k P { s with store := p.environment event s.store } := by
  refine ⟨h.keyed, h.exclusive, fun i request statements hphase => ?_⟩
  obtain ⟨before, hbefore, hwrite, hlater⟩ := h.current i request statements hphase
  exact ⟨before, hbefore, hwrite, hlater.tail ⟨event, rfl⟩⟩

/-- A holder of the lock blocks every request in flight. -/
theorem not_free (h : p.Serialised k P s) {i j : ι} {request : ρ}
    (hrequest : (s.phase i).inFlight? = some request)
    (hholder : (s.phase j).holder?.isSome = true) : ¬ p.Free s request := by
  intro hfree
  obtain ⟨other, hother⟩ := Option.isSome_iff_exists.mp hholder
  exact hfree k (h.keyed i request hrequest) j other hother
    (h.keyed j other (LockPhase.inFlight?_of_holder? hother))

variable [DecidableEq ι] {i : ι} {store : σ}

/-- A request leaves the lock or has not reached it. The store changes only if the request
held the lock. -/
theorem setPhase (h : p.Serialised k P s) {phase : LockPhase ρ δ ε}
    (hkeyed : ∀ request ∈ phase.inFlight?, p.key request = some k) (hholder : phase.holder? = none)
    (hstore : store = s.store ∨ (s.phase i).holder?.isSome = true) :
    p.Serialised k P { s.setPhase i phase with store } := by
  refine ⟨LockState.forall_setPhase (P := fun _ phase => ∀ request ∈ phase.inFlight?,
    p.key request = some k) h.keyed hkeyed, ?_, ?_⟩
  · refine unique_update (P := fun _ (phase : LockPhase ρ δ ε) => phase.holder?.isSome = true)
      (fun j l _ _ => h.exclusive j l) fun hheld => ?_
    cases hholder ▸ hheld
  · intro j request statements hphase
    have hj : j ≠ i := by
      rintro rfl
      rw [LockState.setPhase_self] at hphase
      cases hphase ▸ hholder
    rw [LockState.setPhase_of_ne hj] at hphase
    rcases hstore with rfl | hheld
    · exact h.current j request statements hphase
    · exact absurd (h.exclusive j i (by rw [hphase]; rfl) hheld) hj

/-- A request takes the lock or writes under it; nobody else holds it. -/
theorem setHolder (h : p.Serialised k P s) {phase : LockPhase ρ δ ε}
    (hkeyed : ∀ request ∈ phase.inFlight?, p.key request = some k)
    (halone : ∀ j, (s.phase j).holder?.isSome = true → j = i)
    (hcurrent : ∀ request statements, phase = .written request statements →
      ∃ before, P i request before ∧ p.write i request before = .ok statements ∧
        p.Later (p.draw statements before) store) :
    p.Serialised k P { s.setPhase i phase with store } := by
  refine ⟨LockState.forall_setPhase (P := fun _ phase => ∀ request ∈ phase.inFlight?,
    p.key request = some k) h.keyed hkeyed, ?_, ?_⟩
  · exact unique_update (P := fun _ (phase : LockPhase ρ δ ε) => phase.holder?.isSome = true)
      (fun j _ hji _ hj _ => absurd (halone j hj) hji) fun _ j hji hj => hji (halone j hj)
  · intro j request statements hphase
    by_cases hj : j = i
    · subst hj
      rw [LockState.setPhase_self] at hphase
      exact hcurrent request statements hphase
    · rw [LockState.setPhase_of_ne hj] at hphase
      exact absurd (halone j (by rw [hphase]; rfl)) hj

theorem step (h : p.Serialised k P s) {action : LockAction ι η} (htakes : p.Takes s action t)
    (hserial : p.Serial k P s action) : p.Serialised k P t := by
  cases htakes with
  | environment => exact h.environment _
  | loaded hphase hload =>
    refine h.setPhase ?_ rfl (.inl rfl)
    intro request hrequest
    cases hrequest
    exact hserial _ hload
  | refused hphase hload => exact h.setPhase nofun rfl (.inl rfl)
  | locked hphase hfree =>
    have hflight := congrArg LockPhase.inFlight? hphase
    refine h.setHolder ?_ ?_ nofun
    · intro request hrequest
      exact h.keyed _ request (hflight.trans hrequest)
    · intro j hj
      exact absurd hfree (h.not_free hflight hj)
  | written hphase hwrite =>
    have hflight := congrArg LockPhase.inFlight? hphase
    refine h.setHolder ?_ ?_ ?_
    · intro request hrequest
      exact h.keyed _ request (hflight.trans hrequest)
    · intro j hj
      exact h.exclusive j _ hj (by rw [hphase]; rfl)
    · rintro _ _ ⟨⟩
      exact ⟨s.store, hserial _ hphase, hwrite, .refl⟩
  | rejected hphase hwrite => exact h.setPhase nofun rfl (.inl rfl)
  | committed hphase => exact h.setPhase nofun rfl (.inr (by rw [hphase]; rfl))

end Serialised

end LockProtocol

end LearningPlatform.Shared
