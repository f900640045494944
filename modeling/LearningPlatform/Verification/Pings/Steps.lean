import LearningPlatform.Model.Pings
import LearningPlatform.Shared.Run

/-! # Steps of the pings

The step function inverted: one constructor for each statement of a ping, with what it found. -/

namespace LearningPlatform

open Shared

/-! ## Phases -/

namespace PingPhase

variable {ρ : Type*}

def ended? : PingPhase ρ → Bool
  | .finished _ => true
  | _ => false

/-- The write of the record in memory, with the evaluation that it was computed with. -/
def write? : PingPhase ρ → Option (Evaluation × RowWrite ρ)
  | .found evaluation (some row) changed => some (evaluation, .update row changed)
  | .found evaluation none changed | .validated evaluation changed =>
    some (evaluation, .insert changed)
  | .closing evaluation write => write.map (evaluation, ·)
  | _ => none

end PingPhase

/-- Nobody has watched the video. -/
def PingState.initial {ι ρ : Type*} (video : TrackedVideo) : PingState ι ρ where
  video
  rows _ := none
  clock := 1
  phase _ := .waiting
  admin := .idle

namespace PingState

variable {ι ρ : Type*} [DecidableEq ι] {s : PingState ι ρ} {i : ι} {phase : PingPhase ρ}

@[simp] theorem setPhase_self : (s.setPhase i phase).phase i = phase :=
  Function.update_self ..

theorem setPhase_of_ne {j : ι} (h : j ≠ i) : (s.setPhase i phase).phase j = s.phase j :=
  Function.update_of_ne h ..

theorem forall_setPhase {P : ι → PingPhase ρ → Prop} (h : ∀ j, j ≠ i → P j (s.phase j))
    (hphase : P i phase) (j : ι) : P j ((s.setPhase i phase).phase j) :=
  (Function.forall_update_iff s.phase P).mpr ⟨hphase, h⟩ j

end PingState

/-! ## Statements -/

section Statements

variable {ι ρ : Type*} [DecidableEq ι]

/-- The ping may enter its guard: it has none, or the lock is free and the request is not stale. -/
inductive PingService.Enters (service : PingService ι ρ) (s : PingState ι ρ) (i : ι) : Prop where
  | unguarded : service.guardOf i = none → Enters service s i
  | locked {enrollment} : service.guardOf i = some enrollment →
      service.LockFree s enrollment → Enters service s i

/-- The next statement of the ping raises. -/
inductive PingService.Fails (service : PingService ι ρ) (s : PingState ι ρ) (i : ι) :
    PingResponse → Prop where
  | stale {enrollment failure} :
      (∃ copy, s.phase i = .loaded copy) ∨ (∃ evaluation, s.phase i = .collided evaluation) →
      service.guardOf i = some enrollment →
      enrollment.learningWriteGuard (service.clients i).startedAt = .error failure →
      Fails service s i .conflict
  | report {copy} : s.phase i = .entered copy →
      int4? (service.clients i).ping.durationSeconds = false → Fails service s i .serverError
  | update {evaluation loaded changed} : s.phase i = .found evaluation (some loaded) changed →
      service.kind.fits changed = false → Fails service s i .serverError
  | insert {evaluation changed} : s.phase i = .validated evaluation changed →
      service.kind.fits changed = false ∨ (s.rows (service.userOf i)).isSome = true →
      Fails service s i .serverError
  | missing {evaluation} : s.phase i = .collided evaluation →
      s.rows (service.userOf i) = none → Fails service s i .notFound

/-- The statements of a ping. -/
inductive PingTakes (service : PingService ι ρ) (s : PingState ι ρ) (i : ι) :
    PingState ι ρ → Prop where
  | load : s.phase i = .waiting → PingTakes service s i (s.setPhase i (.loaded s.video))
  | fail {response} : service.Fails s i response →
      PingTakes service s i (s.setPhase i (.finished response))
  | enter {copy} : s.phase i = .loaded copy → service.Enters s i →
      PingTakes service s i (s.setPhase i (.entered copy))
  | lose {copy} : s.phase i = .entered copy → PingTakes service s i (s.setPhase i .lost)
  | win {copy duration} : s.phase i = .entered copy → 0 < duration.val →
      duration.val = (service.clients i).ping.durationSeconds → s.video.duration = none →
      service.BlockFree s → PingTakes service s i (service.win s i duration)
  | keep {copy} : s.phase i = .entered copy →
      PingTakes service s i
        (s.setPhase i (.resolved { duration := copy.duration, won := false }))
  | reload : s.phase i = .lost →
      PingTakes service s i
        (s.setPhase i (.resolved { duration := s.video.duration, won := false }))
  | find {evaluation} : s.phase i = .resolved evaluation →
      PingTakes service s i (service.find s i evaluation)
  | reject {evaluation loaded changed} : s.phase i = .found evaluation loaded changed →
      service.kind.valid changed = false ∨
        loaded = none ∧ (s.rows (service.userOf i)).isSome = true →
      PingTakes service s i (service.reject s i evaluation)
  | update {evaluation loaded changed} : s.phase i = .found evaluation (some loaded) changed →
      PingTakes service s i (service.save s i evaluation (.update loaded changed))
  | validate {evaluation changed} : s.phase i = .found evaluation none changed →
      PingTakes service s i (s.setPhase i (.validated evaluation changed))
  | insert {evaluation changed} : s.phase i = .validated evaluation changed →
      s.rows (service.userOf i) = none →
      PingTakes service s i (service.save s i evaluation (.insert changed))
  | collide {evaluation changed} : s.phase i = .validated evaluation changed →
      (s.rows (service.userOf i)).isSome = true → service.kind.retries = true →
      PingTakes service s i (s.setPhase i (.collided evaluation))
  | retry {evaluation} : s.phase i = .collided evaluation →
      (s.rows (service.userOf i)).isSome = true →
      PingTakes service s i (service.find s i evaluation)
  | commit {evaluation write} : s.phase i = .closing evaluation write →
      PingTakes service s i (service.commit s i evaluation write)

variable {service : PingService ι ρ} {s t : PingState ι ρ} {i : ι}

/-! ### What the statements leave alone -/

namespace PingService

variable {duration : Int4} {evaluation : Evaluation} {write : RowWrite ρ}
  {write? : Option (RowWrite ρ)}

@[simp] theorem win_rows : (service.win s i duration).rows = s.rows := by
  unfold win
  split <;> rfl

@[simp] theorem win_admin : (service.win s i duration).admin = s.admin := by
  unfold win
  split <;> rfl

@[simp] theorem win_key : (service.win s i duration).video.key = s.video.key := by
  unfold win
  split <;> rfl

theorem win_phase : (service.win s i duration).phase =
    (s.setPhase i (.resolved { duration := some duration, won := true })).phase := by
  unfold win
  split <;> rfl

theorem reject_eq : service.reject s i evaluation = s.setPhase i
    (if (service.guardOf i).isSome then .closing evaluation none else .finished .invalid) := by
  unfold reject
  split <;> rfl

@[simp] theorem save_admin : (service.save s i evaluation write).admin = s.admin := by
  unfold save
  split <;> rfl

@[simp] theorem save_video : (service.save s i evaluation write).video = s.video := by
  unfold save
  split <;> rfl

theorem save_phase : (service.save s i evaluation write).phase = (s.setPhase i
    (if (service.guardOf i).isSome then .closing evaluation (some write)
      else .finished (.success evaluation))).phase := by
  unfold save
  split <;> rfl

@[simp] theorem commit_admin : (service.commit s i evaluation write?).admin = s.admin := by
  cases write? <;> rfl

theorem commit_video : (service.commit s i evaluation write?).video =
    { s.video with
      duration := if evaluation.won then evaluation.duration else s.video.duration } := by
  cases write? <;> rfl

theorem commit_phase : (service.commit s i evaluation write?).phase = (s.setPhase i
    (.finished (if write?.isSome then .success evaluation else .invalid))).phase := by
  cases write? <;> rfl

end PingService

namespace PingTakes

theorem admin_eq (htakes : PingTakes service s i t) : t.admin = s.admin := by
  cases htakes with
  | win _ _ _ _ _ | update _ | insert _ _ | commit _ => simp
  | reject _ _ =>
    rw [PingService.reject_eq]
    rfl
  | _ => rfl

theorem key_eq (htakes : PingTakes service s i t) : t.video.key = s.video.key := by
  cases htakes with
  | win _ _ _ _ _ | update _ | insert _ _ => simp
  | reject _ _ =>
    rw [PingService.reject_eq]
    rfl
  | commit _ => rw [PingService.commit_video]
  | _ => rfl

/-- A statement changes the phase of its own ping, which has not ended. -/
theorem phase_eq (htakes : PingTakes service s i t) :
    (s.phase i).ended? = false ∧ ∃ phase, t.phase = (s.setPhase i phase).phase := by
  cases htakes with
  | load hphase | enter hphase _ | lose hphase | keep hphase | reload hphase | find hphase
  | validate hphase | collide hphase _ _ | retry hphase _ =>
    rw [hphase]
    exact ⟨rfl, _, rfl⟩
  | fail hfails =>
    cases hfails with
    | stale hphase _ _ =>
      rcases hphase with ⟨_, hphase⟩ | ⟨_, hphase⟩
      · rw [hphase]
        exact ⟨rfl, _, rfl⟩
      · rw [hphase]
        exact ⟨rfl, _, rfl⟩
    | report hphase _ | update hphase _ | insert hphase _ | missing hphase _ =>
      rw [hphase]
      exact ⟨rfl, _, rfl⟩
  | win hphase _ _ _ _ =>
    rw [hphase]
    exact ⟨rfl, _, PingService.win_phase⟩
  | reject hphase _ =>
    rw [hphase]
    exact ⟨rfl, _, by rw [PingService.reject_eq]⟩
  | update hphase | insert hphase _ =>
    rw [hphase]
    exact ⟨rfl, _, PingService.save_phase⟩
  | commit hphase =>
    rw [hphase]
    exact ⟨rfl, _, PingService.commit_phase⟩

end PingTakes

variable [Fintype ι]

/-- Without a staff update, a step is a tick or a statement of a ping. -/
theorem PingService.cases_of_step (hreplacement : service.replacement = none)
    {action : PingAction ι} (h : service.step s action = some t) :
    action = .tick ∧ t = { s with clock := s.clock + 1 } ∨
      ∃ i, action = .ping i ∧ service.pingStep s i = some t := by
  cases action with
  | tick => exact .inl ⟨rfl, (Option.some.inj h).symm⟩
  | ping i => exact .inr ⟨i, rfl, h⟩
  | admin =>
    simp only [PingService.step, hreplacement] at h
    cases h

theorem PingService.enter_eq_some {next : PingState ι ρ} (h : service.enter s i next = some t) :
    (service.Enters s i ∧ t = next) ∨
      ∃ enrollment failure, service.guardOf i = some enrollment ∧
        enrollment.learningWriteGuard (service.clients i).startedAt = .error failure ∧
        t = s.setPhase i (.finished .conflict) := by
  unfold PingService.enter at h
  split at h
  · rename_i hguard
    exact .inl ⟨.unguarded hguard, (Option.some.inj h).symm⟩
  · rename_i enrollment hguard
    split at h
    · rename_i hfree
      split at h
      · exact .inl ⟨.locked hguard hfree, (Option.some.inj h).symm⟩
      · rename_i failure hfailure
        exact .inr ⟨enrollment, failure, hguard, hfailure, (Option.some.inj h).symm⟩
    · cases h

theorem PingService.takes_of_resolve {copy : TrackedVideo} (hphase : s.phase i = .entered copy)
    (h : service.resolve s i copy = some t) : PingTakes service s i t := by
  unfold PingService.resolve at h
  dsimp only at h
  split at h
  · rename_i hreport
    simp only [Bool.and_eq_true, decide_eq_true_eq] at hreport
    unfold Int4.ofInt? at h
    split at h
    · rename_i hrange
      cases h
      split at hrange
      · cases hrange
      · rename_i hint
        exact .fail (.report hphase (by simpa using hint))
    · rename_i duration hrange
      split at hrange
      · cases hrange
        split at h
        · cases h
          exact .lose hphase
        · rename_i hnone
          split at h
          · rename_i hfree
            cases h
            exact .win hphase hreport.2 rfl (by simpa using hnone) hfree
          · cases h
      · cases hrange
  · cases h
    exact .keep hphase

theorem PingService.takes_of_pingStep (h : service.pingStep s i = some t) :
    PingTakes service s i t := by
  unfold PingService.pingStep at h
  split at h
  · rename_i hphase
    cases h
    exact .load hphase
  · rename_i copy hphase
    rcases PingService.enter_eq_some h with ⟨henters, rfl⟩ | ⟨_, _, hguard, hfail, rfl⟩
    · exact .enter hphase henters
    · exact .fail (.stale (.inl ⟨copy, hphase⟩) hguard hfail)
  · rename_i copy hphase
    exact PingService.takes_of_resolve hphase h
  · rename_i hphase
    cases h
    exact .reload hphase
  · rename_i evaluation hphase
    cases h
    exact .find hphase
  · rename_i evaluation loaded changed hphase
    split at h
    · rename_i hinvalid
      cases h
      exact .reject hphase (.inl (by simpa using hinvalid))
    · split at h
      · split at h
        · rename_i hfits
          cases h
          exact .fail (.update hphase (by simpa using hfits))
        · split at h
          · cases h
          · cases h
            exact .update hphase
      · split at h
        · rename_i htaken
          cases h
          exact .reject hphase (.inr ⟨rfl, htaken⟩)
        · cases h
          exact .validate hphase
  · rename_i evaluation changed hphase
    split at h
    · rename_i hfits
      cases h
      exact .fail (.insert hphase (.inl (by simpa using hfits)))
    · split at h
      · rename_i htaken
        split at h
        · rename_i hretries
          cases h
          exact .collide hphase htaken hretries
        · cases h
          exact .fail (.insert hphase (.inr htaken))
      · rename_i hnone
        cases h
        exact .insert hphase (by simpa using hnone)
  · rename_i evaluation hphase
    split at h
    · rename_i hrow
      rcases PingService.enter_eq_some h with ⟨-, rfl⟩ | ⟨_, _, hguard, hfail, rfl⟩
      · exact .retry hphase (by rw [hrow]; rfl)
      · exact .fail (.stale (.inr ⟨evaluation, hphase⟩) hguard hfail)
    · rename_i hnone
      rcases PingService.enter_eq_some h with ⟨-, rfl⟩ | ⟨_, _, hguard, hfail, rfl⟩
      · exact .fail (.missing hphase hnone)
      · exact .fail (.stale (.inr ⟨evaluation, hphase⟩) hguard hfail)
  · rename_i evaluation write hphase
    cases h
    exact .commit hphase
  · cases h

end Statements

/-! ## Saved records

A record is saved as it was computed from the row of the lookup. -/

section Records

variable {ι ρ : Type*} [DecidableEq ι] {service : PingService ι ρ} {s t : PingState ι ρ} {i : ι}

/-- The write of a ping that has found the row at the given time. -/
def PingService.writeOf (service : PingService ι ρ) (i : ι) (evaluation : Evaluation) (now : Time)
    (loaded : Option ρ) : RowWrite ρ :=
  let changed := service.upsert i evaluation now loaded
  match loaded with
  | some row => .update row changed
  | none => .insert changed

theorem PingService.find_phase (service : PingService ι ρ) (s : PingState ι ρ) (i : ι)
    (evaluation : Evaluation) : ((service.find s i evaluation).phase i).write? =
      some (evaluation, service.writeOf i evaluation s.clock (s.rows (service.userOf i))) := by
  simp only [PingService.find, PingState.setPhase_self]
  cases s.rows (service.userOf i) with
  | none | some _ => rfl

/-- A record in memory was there before, or is computed from the stored row. -/
theorem PingTakes.write?_eq (htakes : PingTakes service s i t) {evaluation : Evaluation}
    {write : RowWrite ρ} (h : (t.phase i).write? = some (evaluation, write)) :
    (s.phase i).write? = some (evaluation, write) ∨
      write = service.writeOf i evaluation s.clock (s.rows (service.userOf i)) := by
  cases htakes with
  | load _ | fail _ | enter _ _ | lose _ | keep _ | reload _ | collide _ _ _ =>
    rw [PingState.setPhase_self] at h
    cases h
  | win _ _ _ _ _ =>
    rw [PingService.win_phase, PingState.setPhase_self] at h
    cases h
  | find _ | retry _ _ =>
    rw [PingService.find_phase] at h
    cases h
    exact .inr rfl
  | reject _ _ =>
    rw [PingService.reject_eq, PingState.setPhase_self] at h
    split at h
    · cases h
    · cases h
  | update hphase | insert hphase _ =>
    rw [PingService.save_phase, PingState.setPhase_self] at h
    split at h
    · rw [hphase]
      exact .inl h
    · cases h
  | validate hphase =>
    rw [PingState.setPhase_self] at h
    rw [hphase]
    exact .inl h
  | commit _ =>
    rw [PingService.commit_phase, PingState.setPhase_self] at h
    cases h

/-- Every record in memory was computed from no row or from one with the property. -/
def PingState.Computed (s : PingState ι ρ) (service : PingService ι ρ) (Good : ℕ → ρ → Prop) :
    Prop :=
  ∀ i evaluation write, (s.phase i).write? = some (evaluation, write) → ∃ now loaded,
    (∀ row, loaded = some row → Good (service.userOf i) row) ∧
      write = service.writeOf i evaluation now loaded

omit [DecidableEq ι] in
theorem PingState.Computed.mono {Good Good' : ℕ → ρ → Prop} (h : s.Computed service Good)
    (hgood : ∀ userId row, Good userId row → Good' userId row) : s.Computed service Good' := by
  intro i evaluation write hwrite
  obtain ⟨now, loaded, hloaded, heq⟩ := h i evaluation write hwrite
  exact ⟨now, loaded, fun row hrow => hgood _ row (hloaded row hrow), heq⟩

theorem PingState.Computed.step {Good : ℕ → ρ → Prop} (h : s.Computed service Good)
    (hrows : ∀ row, s.rows (service.userOf i) = some row → Good (service.userOf i) row)
    (htakes : PingTakes service s i t) : t.Computed service Good := by
  intro j evaluation write hwrite
  obtain ⟨-, phase, hphase⟩ := htakes.phase_eq
  by_cases hji : j = i
  · subst hji
    rcases htakes.write?_eq hwrite with hbefore | rfl
    · exact h j evaluation write hbefore
    · exact ⟨s.clock, _, hrows, rfl⟩
  · rw [hphase, PingState.setPhase_of_ne hji] at hwrite
    exact h j evaluation write hwrite

end Records

end LearningPlatform
