import LearningPlatform.Verification.Pings.Steps

/-! # The first reported duration

A video without a duration gets it from one ping. The conditional update of the block lets one
ping win; pings that lose it reload, and nobody evaluates a report with another duration. -/

namespace LearningPlatform

open Shared

/-! ## What a ping knows of the duration -/

/-- A winner has the reported duration, which is stored unless its transaction is open. Other
evaluations have no duration or the stored one. -/
structure Evaluation.Settled (evaluation : Evaluation) (stored : Option Int4) (guarded : Bool)
    (reported : ℤ) : Prop where
  won : evaluation.won = true → 0 < reported ∧ evaluation.seconds? = some reported ∧
    (guarded = true ∨ evaluation.duration = stored)
  lost : evaluation.won = false → evaluation.duration = none ∨ evaluation.duration = stored

def PingPhase.Settled {ρ : Type*} (stored : Option Int4) (guarded : Bool) (reported : ℤ) :
    PingPhase ρ → Prop
  | .waiting | .lost | .finished _ => True
  | .loaded copy | .entered copy => copy.duration = none ∨ copy.duration = stored
  | .resolved evaluation | .found evaluation _ _ | .validated evaluation _
  | .closing evaluation _ => evaluation.Settled stored guarded reported
  | .collided _ => False

section Settled

variable {ρ : Type*} {phase : PingPhase ρ} {evaluation : Evaluation} {stored : Option Int4}
  {guarded : Bool} {reported : ℤ}

theorem Evaluation.Settled.store (h : evaluation.Settled none guarded reported)
    (hopen : guarded = true → evaluation.won = false) :
    evaluation.Settled stored guarded reported := by
  have hlost : evaluation.won = false := by
    refine Bool.eq_false_iff.mpr fun hwon => ?_
    obtain ⟨-, hseconds, hguarded | hnone⟩ := h.won hwon
    · cases (hopen hguarded) ▸ hwon
    · rw [Evaluation.seconds?, hnone] at hseconds
      cases hseconds
  refine ⟨fun hwon => ?_, fun _ => .inl ((h.lost hlost).elim id id)⟩
  cases hlost ▸ hwon

/-- Whoever has stored nothing in an open transaction agrees with a first duration. -/
theorem PingPhase.Settled.store (h : phase.Settled none guarded reported)
    (hopen : guarded = true → phase.holdsDuration? = false) :
    phase.Settled stored guarded reported := by
  cases phase with
  | waiting | lost | finished _ | collided _ => exact h
  | loaded _ | entered _ => exact .inl (h.elim id id)
  | resolved _ | found _ _ _ | validated _ _ | closing _ _ =>
    exact Evaluation.Settled.store h hopen

theorem PingPhase.Settled.of_write? {write : RowWrite ρ}
    (h : phase.Settled stored guarded reported) (hwrite : phase.write? = some (evaluation, write)) :
    evaluation.Settled stored guarded reported := by
  cases phase with
  | found _ loaded _ =>
    cases loaded <;> cases hwrite
    · exact h
    · exact h
  | validated _ _ =>
    cases hwrite
    exact h
  | closing _ write =>
    cases write <;> cases hwrite
    exact h
  | _ => cases hwrite

end Settled

/-! ## The invariant -/

section Invariant

variable {ι ρ : Type*} {service : PingService ι ρ} {s t : PingState ι ρ} {i : ι}

/-- The ping has stored a duration in its open transaction. -/
def PingService.Pends (service : PingService ι ρ) (i : ι) (phase : PingPhase ρ) : Prop :=
  (service.guardOf i).isSome = true ∧ phase.holdsDuration? = true

def PingService.Settled (service : PingService ι ρ) (stored : Option Int4) (i : ι)
    (phase : PingPhase ρ) : Prop :=
  phase.Settled stored (service.guardOf i).isSome (service.clients i).ping.durationSeconds

/-- Every ping agrees with the stored duration; one ping at most has stored another in an open
transaction, and only if there is none. -/
structure FirstReport (service : PingService ι ρ) (s : PingState ι ρ) : Prop where
  settled : ∀ i, service.Settled s.video.duration i (s.phase i)
  alone : ∀ i j, service.Pends i (s.phase i) → service.Pends j (s.phase j) → i = j
  pending : ∀ i, service.Pends i (s.phase i) → s.video.duration = none

namespace FirstReport

theorem of_not_inFlight (h : ∀ i, (s.phase i).inFlight? = false) : FirstReport service s := by
  have hnone (i : ι) : ¬ service.Pends i (s.phase i) := by
    rintro ⟨-, hholds⟩
    have hi := h i
    cases hphase : s.phase i with
    | waiting | finished _ =>
      cases hphase ▸ hholds
    | _ =>
      cases hphase ▸ hi
  refine ⟨fun i => ?_, fun i _ hi => absurd hi (hnone i), fun i hi => absurd hi (hnone i)⟩
  have hi := h i
  unfold PingService.Settled
  cases hphase : s.phase i with
  | waiting | finished _ => trivial
  | _ =>
    cases hphase ▸ hi

theorem of_eq (h : FirstReport service s) (hvideo : t.video.duration = s.video.duration)
    (hphase : t.phase = s.phase) : FirstReport service t := by
  refine ⟨?_, ?_, ?_⟩
  · simpa only [hvideo, hphase] using h.settled
  · simpa only [hphase] using h.alone
  · simpa only [hvideo, hphase] using h.pending

variable [DecidableEq ι] {phase : PingPhase ρ}

section

variable (h : FirstReport service s)

include h

theorem setPhase (hvideo : t.video.duration = s.video.duration)
    (hphase : t.phase = (s.setPhase i phase).phase)
    (hsettled : service.Settled s.video.duration i phase)
    (hpends : phase.holdsDuration? = true → (s.phase i).holdsDuration? = true) :
    FirstReport service t := by
  refine of_eq (s := s.setPhase i phase) ⟨?_, ?_, ?_⟩ hvideo hphase
  · exact PingState.forall_setPhase (fun j _ => h.settled j) hsettled
  · refine unique_update (P := service.Pends) (fun j k _ _ => h.alone j k) fun hi j hji hj => ?_
    exact hji (h.alone j i hj ⟨hi.1, hpends hi.2⟩)
  · exact PingState.forall_setPhase
      (P := fun j phase => service.Pends j phase → s.video.duration = none)
      (fun j _ => h.pending j) fun hi => h.pending i ⟨hi.1, hpends hi.2⟩

theorem store (hnone : s.video.duration = none)
    (hothers : ∀ j, j ≠ i → ¬ service.Pends j (s.phase j))
    (hphase : t.phase = (s.setPhase i phase).phase)
    (hsettled : service.Settled t.video.duration i phase)
    (hpending : service.Pends i phase → t.video.duration = none) : FirstReport service t := by
  have honly {j : ι} (hj : service.Pends j (t.phase j)) : j = i := by
    by_contra hji
    rw [hphase, PingState.setPhase_of_ne hji] at hj
    exact hothers j hji hj
  refine ⟨fun j => ?_, fun j k hj hk => (honly hj).trans (honly hk).symm, fun j hj => ?_⟩
  · rw [hphase]
    refine PingState.forall_setPhase (P := service.Settled t.video.duration) (fun j hji => ?_)
      hsettled j
    have hj := h.settled j
    rw [hnone] at hj
    exact hj.store fun hguard => Bool.eq_false_iff.mpr fun hholds => hothers j hji ⟨hguard, hholds⟩
  · obtain rfl := honly hj
    rw [hphase, PingState.setPhase_self] at hj
    exact hpending hj

theorem win {duration : Int4} (hpositive : 0 < duration.val)
    (hreported : duration.val = (service.clients i).ping.durationSeconds)
    (hnone : s.video.duration = none) (hfree : service.BlockFree s) :
    FirstReport service (service.win s i duration) := by
  have hothers (j : ι) (_ : j ≠ i) : ¬ service.Pends j (s.phase j) := by
    rintro ⟨hguard, hholds⟩
    rw [hfree.1 j hguard] at hholds
    cases hholds
  have hwon {stored : Option Int4}
      (hstored : (service.guardOf i).isSome = true ∨ some duration = stored) :
      service.Settled stored i (.resolved { duration := some duration, won := true }) :=
    ⟨fun _ => ⟨hreported ▸ hpositive, congrArg some hreported, hstored⟩, nofun⟩
  refine h.store hnone hothers PingService.win_phase (hwon ?_) fun hpends => ?_
  · by_cases hguard : (service.guardOf i).isSome = true
    · exact .inl hguard
    · exact .inr (by rw [PingService.win, if_neg hguard])
  · rw [PingService.win, if_pos hpends.1]
    exact hnone

theorem commit {evaluation : Evaluation}
    {write : Option (RowWrite ρ)} (hphase : s.phase i = .closing evaluation write) :
    FirstReport service (service.commit s i evaluation write) := by
  have hsettled := h.settled i
  rw [hphase] at hsettled
  by_cases hpends : service.Pends i (s.phase i)
  · exact h.store (h.pending i hpends) (fun j hji hj => hji (h.alone j i hj hpends))
      PingService.commit_phase trivial nofun
  · refine h.setPhase ?_ PingService.commit_phase trivial nofun
    rw [PingService.commit_video]
    refine ite_eq_right_iff.mpr fun hwon => ?_
    obtain ⟨-, -, hguard | hstored⟩ := hsettled.won hwon
    · exact absurd ⟨hguard, by rw [hphase]; exact hwon⟩ hpends
    · exact hstored

theorem step (hretries : service.kind.retries = false)
    (htakes : PingTakes service s i t) : FirstReport service t := by
  have hsettled := h.settled i
  cases htakes with
  | load hphase => exact h.setPhase rfl rfl (.inr rfl) nofun
  | fail _ => exact h.setPhase rfl rfl trivial nofun
  | enter hphase _ =>
    rw [hphase] at hsettled
    exact h.setPhase rfl rfl hsettled nofun
  | lose hphase => exact h.setPhase rfl rfl trivial nofun
  | win _ hpositive hreported hnone hfree => exact h.win hpositive hreported hnone hfree
  | keep hphase =>
    rw [hphase] at hsettled
    exact h.setPhase rfl rfl ⟨nofun, fun _ => hsettled⟩ nofun
  | reload hphase => exact h.setPhase rfl rfl ⟨nofun, fun _ => .inr rfl⟩ nofun
  | find hphase | validate hphase =>
    rw [hphase] at hsettled
    exact h.setPhase rfl rfl hsettled fun hholds => by rw [hphase]; exact hholds
  | reject hphase _ =>
    rw [hphase] at hsettled
    rw [PingService.reject_eq]
    split
    · exact h.setPhase rfl rfl hsettled fun hholds => by rw [hphase]; exact hholds
    · exact h.setPhase rfl rfl trivial nofun
  | update hphase | insert hphase _ =>
    rw [hphase] at hsettled
    unfold PingService.save
    split
    · exact h.setPhase rfl rfl hsettled fun hholds => by rw [hphase]; exact hholds
    · exact h.setPhase rfl rfl trivial nofun
  | collide _ _ hretries' =>
    rw [hretries] at hretries'
    cases hretries'
  | retry hphase _ =>
    cases hphase ▸ hsettled
  | commit hphase => exact h.commit hphase

theorem duration_eq (htakes : PingTakes service s i t) :
    t.video.duration = s.video.duration ∨ s.video.duration = none ∧
      0 < (service.clients i).ping.durationSeconds ∧
      t.video.duration.map (·.val) = some (service.clients i).ping.durationSeconds := by
  have hsettled := h.settled i
  cases htakes with
  | load _ | fail _ | enter _ _ | lose _ | keep _ | reload _ | collide _ _ _ | find _ | retry _ _
  | validate _ => exact .inl rfl
  | win _ hpositive hreported hnone _ =>
    unfold PingService.win
    split
    · exact .inl rfl
    · exact .inr ⟨hnone, hreported ▸ hpositive, congrArg some hreported⟩
  | reject _ _ =>
    rw [PingService.reject_eq]
    exact .inl rfl
  | update _ | insert _ _ =>
    rw [PingService.save_video]
    exact .inl rfl
  | commit hphase =>
    rw [hphase] at hsettled
    rw [PingService.commit_video]
    split
    · rename_i hwon
      obtain ⟨hpositive, hseconds, hguard | hstored⟩ := hsettled.won hwon
      · exact .inr ⟨h.pending i ⟨hguard, by rw [hphase]; exact hwon⟩, hpositive, hseconds⟩
      · exact .inl hstored
    · exact .inl rfl

/-- A saved record was evaluated without a duration or with the one that is stored. -/
theorem rows_eq (htakes : PingTakes service s i t) :
    t.rows = s.rows ∨ ∃ evaluation write, (s.phase i).write? = some (evaluation, write) ∧
      t.rows = (s.applyWrite service.kind (service.userOf i) write).rows ∧
      (evaluation.duration = none ∨ evaluation.duration = t.video.duration) := by
  have hsettled := h.settled i
  have hsave {evaluation : Evaluation} {write : RowWrite ρ}
      (hwrite : (s.phase i).write? = some (evaluation, write)) :
      (service.save s i evaluation write).rows = s.rows ∨ ∃ evaluation' write',
        (s.phase i).write? = some (evaluation', write') ∧
        (service.save s i evaluation write).rows =
          (s.applyWrite service.kind (service.userOf i) write').rows ∧
        (evaluation'.duration = none ∨
          evaluation'.duration = (service.save s i evaluation write).video.duration) := by
    have hevaluation := PingPhase.Settled.of_write? hsettled hwrite
    unfold PingService.save
    split
    · exact .inl rfl
    · rename_i hguard
      refine .inr ⟨evaluation, write, hwrite, rfl, ?_⟩
      cases hwon : evaluation.won with
      | true => exact .inr ((hevaluation.won hwon).2.2.resolve_left hguard)
      | false => exact hevaluation.lost hwon
  cases htakes with
  | load _ | fail _ | enter _ _ | lose _ | keep _ | reload _ | collide _ _ _ | find _ | retry _ _
  | validate _ => exact .inl rfl
  | win _ _ _ _ _ => exact .inl PingService.win_rows
  | reject _ _ =>
    rw [PingService.reject_eq]
    exact .inl rfl
  | update hphase | insert hphase _ => exact hsave (by rw [hphase]; rfl)
  | @commit evaluation write hphase =>
    cases write with
    | none => exact .inl rfl
    | some write =>
      have hwrite : (s.phase i).write? = some (evaluation, write) := by rw [hphase]; rfl
      refine .inr ⟨evaluation, write, hwrite, rfl, ?_⟩
      rw [PingService.commit_video]
      cases hwon : evaluation.won with
      | true => exact .inr rfl
      | false => exact (PingPhase.Settled.of_write? hsettled hwrite).lost hwon

end

end FirstReport

end Invariant

/-! ## Completed rows -/

theorem Progress.recordVideo_none_completed {row : Progress} (ping : Ping)
    (h : (row.recordVideo none ping).status = .completed) : row.status = .completed := by
  simp only [Progress.recordVideo, watchedEnough, Bool.false_eq_true, if_false] at h
  split at h
  · cases h
  · exact h

section Completion

variable {ι : Type*} {service : PingService ι Progress} {blockId : ℕ}
  {s t : PingState ι Progress} {i : ι} {userId : ℕ}

/-- The row of the user becomes completed between the two states. -/
def PingState.Completes (s t : PingState ι Progress) (userId : ℕ) : Prop :=
  (∃ row, t.rows userId = some row ∧ row.status = .completed) ∧
    ∀ row, s.rows userId = some row → row.status ≠ .completed

/-- A save stores the changed columns of the record in the row that is there; the insert of a new
record is an update of an empty row. -/
theorem PingService.rows_applyWrite (hkind : service.kind = .video blockId)
    {evaluation : Evaluation} {now : Time} {loaded : Option Progress} {row : Progress}
    (h : (s.applyWrite service.kind (service.userOf i)
      (service.writeOf i evaluation now loaded)).rows userId = some row) :
    s.rows userId = some row ∨ service.userOf i = userId ∧ ∃ found current : Progress,
      (loaded = some found ∧ s.rows userId = some current ∨
        loaded = none ∧ found = { id := 0, userId, contentBlockId := blockId } ∧
          current = { id := 0, userId, contentBlockId := blockId }) ∧
      row = found.updateColumns ((found.recordVideo evaluation.seconds?
        (service.clients i).ping).setCompletedAt now) current := by
  by_cases huser : userId = service.userOf i
  · subst huser
    refine .inr ⟨rfl, ?_⟩
    simp only [PingState.applyWrite, Function.update_self] at h
    cases loaded with
    | none =>
      refine ⟨_, _, .inr ⟨rfl, rfl, rfl⟩, ?_⟩
      cases h
      rw [PingService.upsert, hkind]
      exact ((PingKind.video blockId).update_record ..).symm
    | some found =>
      obtain ⟨current, hcurrent, rfl⟩ := Option.map_eq_some_iff.mp h
      refine ⟨found, current, .inl ⟨rfl, hcurrent⟩, ?_⟩
      rw [PingService.upsert, hkind]
      rfl
  · simp only [PingState.applyWrite, Function.update_of_ne huser] at h
    exact .inl h

/-- What holds in every state of a run without a staff update. -/
structure FirstReport.Kept (service : PingService ι Progress) (s : PingState ι Progress) :
    Prop where
  first : FirstReport service s
  computed : s.Computed service fun _ _ => True

namespace FirstReport.Kept

variable [DecidableEq ι] (hkind : service.kind = .video blockId)

include hkind

theorem step (h : FirstReport.Kept service s) (htakes : PingTakes service s i t) :
    FirstReport.Kept service t :=
  ⟨h.first.step (by rw [hkind]; rfl) htakes, h.computed.step (fun _ _ => trivial) htakes⟩

theorem completes (h : FirstReport.Kept service s) (htakes : PingTakes service s i t)
    (hcompletes : s.Completes t userId) :
    service.userOf i = userId ∧ ∃ duration now, ∃ found current : Progress,
      t.video.duration = some duration ∧ found.status ≠ .completed ∧
      (s.rows userId = some current ∨
        found = { id := 0, userId, contentBlockId := blockId } ∧ current = found) ∧
      t.rows userId = some (found.updateColumns ((found.recordVideo (some duration.val)
        (service.clients i).ping).setCompletedAt now) current) := by
  obtain ⟨⟨row, hrow, hcompleted⟩, hopen⟩ := hcompletes
  rcases h.first.rows_eq htakes with hrows | ⟨evaluation, write, hwrite, hrows, hduration⟩
  · rw [hrows] at hrow
    exact absurd hcompleted (hopen row hrow)
  obtain ⟨now, loaded, -, rfl⟩ := h.computed i evaluation write hwrite
  rw [hrows] at hrow
  rcases PingService.rows_applyWrite hkind hrow with hbefore | ⟨huser, found, current, hfrom, rfl⟩
  · exact absurd hcompleted (hopen row hbefore)
  have hcurrent : current.status ≠ .completed := by
    rcases hfrom with ⟨-, hstored⟩ | ⟨-, -, rfl⟩
    · exact hopen current hstored
    · nofun
  -- the status is written, so that the row that was found was not completed
  have hchanged : ((found.recordVideo evaluation.seconds?
        (service.clients i).ping).setCompletedAt now).status = .completed ∧
      found.status ≠ .completed := by
    simp only [Progress.updateColumns, changedColumn] at hcompleted
    split at hcompleted
    · exact absurd hcompleted hcurrent
    · rename_i hne
      exact ⟨hcompleted, fun hfound => hne (hcompleted.trans hfound.symm)⟩
  cases hevaluated : evaluation.duration with
  | none =>
    have hseconds : evaluation.seconds? = none := by rw [Evaluation.seconds?, hevaluated]; rfl
    rw [hseconds] at hchanged
    exact absurd (Progress.recordVideo_none_completed (service.clients i).ping hchanged.1)
      hchanged.2
  | some duration =>
    have hseconds : evaluation.seconds? = some duration.val := by
      rw [Evaluation.seconds?, hevaluated]
      rfl
    rw [hevaluated] at hduration
    refine ⟨huser, duration, now, found, current, (hduration.resolve_left nofun).symm,
      hchanged.2, ?_, by rw [hrows, hrow, hseconds]⟩
    rcases hfrom with ⟨-, hstored⟩ | ⟨-, rfl, rfl⟩
    · exact .inl hstored
    · exact .inr ⟨rfl, rfl⟩

end FirstReport.Kept

variable [Fintype ι] [DecidableEq ι]

end Completion

/-! ## Two first reports -/

/-- A student and a member of staff report different durations. -/
def twoFirstReports : PingService (Fin 2) Progress where
  kind := .video 1
  clients
    | 0 => { userId := 1, startedAt := 1,
             ping := { totalWatchedSeconds := 30, durationSeconds := 100 } }
    | 1 => { userId := 2, startedAt := 1,
             ping := { totalWatchedSeconds := 150, durationSeconds := 200 } }
  enrollmentOf userId := if userId = 1 then some { id := 1, userId := 1, cohortId := 1 } else none
  replacement := none

def unwatched : PingState (Fin 2) Progress :=
  .initial { key := "lesson.mp4", duration := none }

def studentFirst {ι : Type} (student staff : ι) : List (PingAction ι) :=
  ([student, staff, student, staff] ++ .replicate 5 student ++ .replicate 4 staff).map .ping

end LearningPlatform
