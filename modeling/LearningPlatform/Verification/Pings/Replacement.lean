import LearningPlatform.Verification.Pings.FirstReport

/-! # Pings around a replaced video

A ping works with the block that it loaded before any lock. After a replacement the rows hold
nothing of the old video if no ping was in flight at the reset and none loaded the block before
the commit. -/

namespace LearningPlatform

open Shared

/-! ## Rows since the commit -/

section Since

variable {ι : Type*} {service : PingService ι Progress} {blockId : ℕ}
  {c s t : PingState ι Progress} {i : ι} {userId : ℕ} {stored stored' : Option Int4}
  {row : Progress}

/-- The rows that pings can make of the rows of state `c` and of new rows, if all these pings were
still to be sent then and are evaluated without a duration or with the given one. -/
inductive PingService.RowSince (service : PingService ι Progress) (blockId : ℕ)
    (c : PingState ι Progress) (stored : Option Int4) (userId : ℕ) : Progress → Prop where
  | kept {row : Progress} : c.rows userId = some row → RowSince service blockId c stored userId row
  | fresh : RowSince service blockId c stored userId { id := 0, userId, contentBlockId := blockId }
  | ping {i : ι} {duration : Option Int4} {now : Time} {found current : Progress} :
      c.phase i = .waiting → service.userOf i = userId → duration = none ∨ duration = stored →
      RowSince service blockId c stored userId found →
      RowSince service blockId c stored userId current →
      RowSince service blockId c stored userId
        (found.updateColumns ((found.recordVideo (duration.map (·.val))
          (service.clients i).ping).setCompletedAt now) current)

theorem PingService.RowSince.mono (h : service.RowSince blockId c stored userId row)
    (hstored : stored = none ∨ stored = stored') :
    service.RowSince blockId c stored' userId row := by
  induction h with
  | kept hrow => exact .kept hrow
  | fresh => exact .fresh
  | ping hsent huser hduration _ _ hfound hcurrent =>
    refine .ping hsent huser (hduration.elim .inl fun heq => ?_) hfound hcurrent
    exact heq ▸ hstored

/-- What holds from the commit of a staff update on. -/
structure SinceCommit (service : PingService ι Progress) (blockId : ℕ)
    (c s : PingState ι Progress) : Prop where
  admin : s.admin = .committed
  key : s.video.key = c.video.key
  duration : s.video.duration = c.video.duration ∨ c.video.duration = none ∧
    ∃ i, c.phase i = .waiting ∧
      s.video.duration.map (·.val) = some (service.clients i).ping.durationSeconds
  sent : ∀ i, (s.phase i).ended? = false → c.phase i = .waiting
  first : FirstReport service s
  computed : s.Computed service (service.RowSince blockId c s.video.duration)
  rows : ∀ userId row, s.rows userId = some row →
    service.RowSince blockId c s.video.duration userId row

namespace SinceCommit

theorem of_not_inFlight (hadmin : s.admin = .committed)
    (h : ∀ i, (s.phase i).inFlight? = false) : SinceCommit service blockId s s := by
  refine ⟨hadmin, rfl, .inl rfl, fun i hi => ?_, .of_not_inFlight h,
    fun i evaluation write hi => ?_, fun userId row hrow => .kept hrow⟩
  · have hnot := h i
    cases hphase : s.phase i with
    | waiting => rfl
    | finished _ =>
      cases hphase ▸ hi
    | _ =>
      cases hphase ▸ hnot
  · have hnot := h i
    cases hphase : s.phase i with
    | waiting | finished _ =>
      cases hphase ▸ hi
    | _ =>
      cases hphase ▸ hnot

variable [DecidableEq ι]

theorem step (h : SinceCommit service blockId c s) (hkind : service.kind = .video blockId)
    (htakes : PingTakes service s i t) : SinceCommit service blockId c t := by
  obtain ⟨hended, phase, hphase⟩ := htakes.phase_eq
  have hsent := h.sent i hended
  have hchange := h.first.duration_eq htakes
  have hmono : s.video.duration = none ∨ s.video.duration = t.video.duration :=
    hchange.symm.imp And.left Eq.symm
  have hcomputed : s.Computed service (service.RowSince blockId c t.video.duration) :=
    h.computed.mono fun _ _ hrow => hrow.mono hmono
  have hrows (userId : ℕ) (row : Progress) (hrow : s.rows userId = some row) :
      service.RowSince blockId c t.video.duration userId row := (h.rows userId row hrow).mono hmono
  refine ⟨htakes.admin_eq.trans h.admin, htakes.key_eq.trans h.key, ?_, fun j hj => ?_,
    h.first.step (by rw [hkind]; rfl) htakes,
    hcomputed.step (fun row hrow => hrows _ row hrow) htakes, fun userId row hrow => ?_⟩
  · rcases hchange with hsame | ⟨hnone, -, hreported⟩
    · rw [hsame]
      exact h.duration
    · refine .inr ⟨?_, i, hsent, hreported⟩
      rcases h.duration with hsame | ⟨hnone', -⟩
      · exact hsame.symm.trans hnone
      · exact hnone'
  · by_cases hji : j = i
    · exact hji ▸ hsent
    · rw [hphase, PingState.setPhase_of_ne hji] at hj
      exact h.sent j hj
  · rcases h.first.rows_eq htakes with hsame | ⟨evaluation, write, hwrite, hsame, hduration⟩
    · exact hrows userId row (hsame ▸ hrow)
    obtain ⟨now, loaded, hloaded, rfl⟩ := hcomputed i evaluation write hwrite
    rw [hsame] at hrow
    rcases PingService.rows_applyWrite hkind hrow with
      hbefore | ⟨rfl, found, current, ⟨hfound, hcurrent⟩ | ⟨-, rfl, rfl⟩, rfl⟩
    · exact hrows userId row hbefore
    · exact .ping hsent rfl hduration (hloaded found hfound) (hrows _ current hcurrent)
    · exact .ping hsent rfl hduration .fresh .fresh

end SinceCommit

end Since

/-! ## Runs with a replacement -/

def AdminPhase.reset? : AdminPhase → Bool
  | .reset _ _ => true
  | _ => false

def AdminPhase.committed? : AdminPhase → Bool
  | .committed => true
  | _ => false

theorem AdminPhase.eq_committed {phase : AdminPhase} (h : phase.committed? = true) :
    phase = .committed := by
  cases phase with
  | committed => rfl
  | _ => cases h

section Replacement

variable {ι ρ : Type*} {service : PingService ι ρ} {replacement : VideoReplacement ρ}
  {s t : PingState ι ρ} {i : ι}

/-- The staff update gives no duration, or another than it has loaded, or nobody has stored a
duration since; no ping is in flight at the reset of the rows, and none loads the block between the
reset and the commit. -/
def VideoReplacement.Apart (replacement : VideoReplacement ρ) (s : PingState ι ρ) :
    PingAction ι → Prop
  | .tick => True
  | .ping i => (s.phase i).inFlight? = false → s.admin.reset? = false
  | .admin =>
    match s.admin with
    | .loaded copy => replacement.route = .contentBlock none ∨
        copy.duration ≠ replacement.given ∨ s.video.duration = copy.duration
    | .updated _ => ∀ j, (s.phase j).inFlight? = false
    | .idle | .reset _ _ | .committed => True

instance [Fintype ι] (replacement : VideoReplacement ρ) (s : PingState ι ρ) :
    ∀ action, Decidable (replacement.Apart s action)
  | .tick => .isTrue trivial
  | .ping _ => inferInstanceAs (Decidable (_ = false → _ = false))
  | .admin =>
    match h : s.admin with
    | .loaded copy =>
      decidable_of_iff (replacement.route = .contentBlock none ∨
        copy.duration ≠ replacement.given ∨ s.video.duration = copy.duration)
        (by simp [VideoReplacement.Apart, h])
    | .updated _ =>
      decidable_of_iff (∀ j, (s.phase j).inFlight? = false)
        (by simp [VideoReplacement.Apart, h])
    | .idle | .reset _ _ | .committed => .isTrue (by simp [VideoReplacement.Apart, h])

theorem VideoReplacement.stored_eq {copy current : Option Int4}
    (h : replacement.route = .contentBlock none ∨ copy ≠ replacement.given ∨ current = copy) :
    replacement.stored copy current = replacement.given := by
  unfold VideoReplacement.stored
  split
  · rename_i hunwritten
    obtain ⟨hroute, hcopy⟩ := hunwritten
    rcases h with hnone | hne | hsame
    · exact absurd hnone hroute
    · exact absurd hcopy hne
    · exact hsame.trans hcopy
  · rfl

/-- How far the replacement has come before its commit. -/
def VideoReplacement.Progresses (replacement : VideoReplacement ρ) (s : PingState ι ρ) : Prop :=
  match s.admin with
  | .idle | .loaded _ | .committed => True
  | .updated video => video = { key := replacement.key, duration := replacement.given }
  | .reset video users =>
    video = { key := replacement.key, duration := replacement.given } ∧
    (∀ i, (s.phase i).inFlight? = false) ∧
    ∀ userId, (s.rows userId).isSome = true → users userId = true

/-- The video and the rows that a commit leaves. -/
structure VideoReplacement.Commits (replacement : VideoReplacement ρ) (s : PingState ι ρ) :
    Prop where
  video : s.video = { key := replacement.key, duration := replacement.given }
  phases : ∀ i, (s.phase i).inFlight? = false
  rows : ∀ userId row, s.rows userId = some row → ∃ old, row = replacement.reset old

theorem VideoReplacement.Progresses.admin [Fintype ι] (h : replacement.Progresses s)
    (hapart : replacement.Apart s (.admin : PingAction ι))
    (hstep : service.adminStep replacement s = some t) :
    replacement.Progresses t ∧ (t.admin = .committed → replacement.Commits t) := by
  unfold PingService.adminStep at hstep
  unfold VideoReplacement.Apart at hapart
  unfold VideoReplacement.Progresses at h
  split at hstep
  · cases hstep
    exact ⟨trivial, nofun⟩
  · rename_i copy hadmin
    rw [hadmin] at hapart
    split at hstep
    · cases hstep
    · split at hstep
      · cases hstep
        exact ⟨congrArg (TrackedVideo.mk _) (VideoReplacement.stored_eq hapart), nofun⟩
      · cases hstep
  · rename_i video hadmin
    rw [hadmin] at hapart h
    split at hstep
    · cases hstep
      exact ⟨⟨h, hapart, fun _ hsome => hsome⟩, nofun⟩
    · cases hstep
  · rename_i video users hadmin
    rw [hadmin] at h
    obtain ⟨hvideo, hphases, husers⟩ := h
    cases hstep
    refine ⟨trivial, fun _ => ⟨hvideo, hphases, fun userId row hrow => ?_⟩⟩
    dsimp only at hrow
    split at hrow
    · obtain ⟨old, -, rfl⟩ := Option.map_eq_some_iff.mp hrow
      exact ⟨old, rfl⟩
    · rename_i huser
      exact absurd (husers userId (by rw [hrow]; rfl)) huser
  · cases hstep

variable [DecidableEq ι]

theorem VideoReplacement.Progresses.ping (h : replacement.Progresses s)
    (hapart : replacement.Apart s (.ping i)) (htakes : PingTakes service s i t) :
    replacement.Progresses t := by
  unfold VideoReplacement.Progresses at h ⊢
  rw [htakes.admin_eq]
  cases hadmin : s.admin with
  | idle | loaded _ | committed => trivial
  | updated _ =>
    rw [hadmin] at h
    exact h
  | reset _ _ =>
    rw [hadmin] at h
    have hreset := hapart (h.2.1 i)
    cases hadmin ▸ hreset

theorem VideoReplacement.Progresses.step [Fintype ι]
    (hreplacement : service.replacement = some replacement) (h : replacement.Progresses s)
    {action : PingAction ι} (hapart : replacement.Apart s action)
    (hstep : service.step s action = some t) :
    replacement.Progresses t ∧ (s.admin ≠ .committed → t.admin = .committed →
      action = .admin ∧ replacement.Commits t) := by
  cases action with
  | tick =>
    cases hstep
    exact ⟨h, fun hnot hcommitted => absurd hcommitted hnot⟩
  | ping i =>
    have htakes := PingService.takes_of_pingStep hstep
    exact ⟨h.ping hapart htakes, fun hnot hcommitted =>
      absurd (htakes.admin_eq.symm.trans hcommitted) hnot⟩
  | admin =>
    simp only [PingService.step, hreplacement] at hstep
    obtain ⟨hnext, hcommits⟩ := h.admin hapart hstep
    exact ⟨hnext, fun _ hcommitted => ⟨rfl, hcommits hcommitted⟩⟩

end Replacement

/-- If no ping is in flight while the rows are reset and none loads the block before the commit,
then the commit leaves the new video with its given duration and reset rows only. From then on the
duration is the given one or, if none was given, the report of a ping that was sent after the
commit; and every row is made of reset and new rows by pings that were sent after the commit and are
evaluated without a duration or with the one that is stored. -/
theorem rows_of_new_video_if_pings_apart {ι : Type*} [Fintype ι] [DecidableEq ι]
    (service : PingService ι Progress) {blockId : ℕ} (hkind : service.kind = .video blockId)
    {key : String} {route : ReplacementRoute} {now : Time}
    (hreplacement : service.replacement = some (.ofBlock key route now))
    {s t : PingState ι Progress} (hidle : s.admin = .idle) {actions : List (PingAction ι)}
    (hrun : Run (Meeting (VideoReplacement.ofBlock key route now).Apart (Fires service.step))
      s actions t)
    (hcommitted : t.admin = .committed) :
    ∃ (before after : List (PingAction ι)) (u c : PingState ι Progress),
      actions = before ++ .admin :: after ∧ Run (Fires service.step) s before u ∧
      service.step u .admin = some c ∧ Run (Fires service.step) c after t ∧
      c.video = { key, duration := (VideoReplacement.ofBlock key route now).given } ∧
      (∀ i, (c.phase i).inFlight? = false) ∧
      (∀ userId row, c.rows userId = some row → ∃ old : Progress, row = old.resetVideo now) ∧
      t.video.key = key ∧
      (t.video.duration = c.video.duration ∨ c.video.duration = none ∧
        ∃ i, c.phase i = .waiting ∧
          t.video.duration.map (·.val) = some (service.clients i).ping.durationSeconds) ∧
      ∀ userId row, t.rows userId = some row →
        service.RowSince blockId c t.video.duration userId row := by
  have hforget {s t : PingState ι Progress} {actions : List (PingAction ι)}
      (h : Run (Meeting (VideoReplacement.ofBlock key route now).Apart (Fires service.step))
        s actions t) : Run (Fires service.step) s actions t := h.mono fun _ _ _ => And.right
  obtain ⟨before, action, after, u, c, rfl, hbefore, hstep, hafter, hu, hc⟩ :=
    hrun.exists_first (P := (·.admin = .committed)) (by rw [hidle]; nofun) hcommitted
  have hprogress : (VideoReplacement.ofBlock key route now).Progresses u :=
    hbefore.invariant _ (fun _ _ _ h hstep => (h.step hreplacement hstep.1 hstep.2).1)
      (by simp [VideoReplacement.Progresses, hidle])
  obtain ⟨rfl, hcommits⟩ := (hprogress.step hreplacement hstep.1 hstep.2).2 hu hc
  have hsince : SinceCommit service blockId c t := by
    refine hafter.invariant (SinceCommit service blockId c) ?_ (.of_not_inFlight hc hcommits.phases)
    rintro v action w hv ⟨-, hstep⟩
    cases action with
    | tick =>
      cases hstep
      exact ⟨hv.admin, hv.key, hv.duration, hv.sent, hv.first.of_eq rfl rfl, hv.computed, hv.rows⟩
    | ping i => exact hv.step hkind (PingService.takes_of_pingStep hstep)
    | admin =>
      simp only [Fires, PingService.step, hreplacement, PingService.adminStep, hv.admin] at hstep
      cases hstep
  refine ⟨before, after, u, c, rfl, hforget hbefore, hstep.2, hforget hafter, hcommits.video,
    hcommits.phases, hcommits.rows, ?_, hsince.duration, hsince.rows⟩
  rw [hsince.key, hcommits.video]
  rfl

/-! ## Two pings of a student -/

def aroundReplacement : PingService (Fin 2) Progress where
  kind := .video 1
  clients
    | 0 => { userId := 1, startedAt := 1,
             ping := { totalWatchedSeconds := 95, durationSeconds := 100 } }
    | 1 => { userId := 1, startedAt := 1,
             ping := { totalWatchedSeconds := 20, durationSeconds := 600 } }
  enrollmentOf _ := some { id := 1, userId := 1, cohortId := 1 }
  replacement := some (.ofBlock "new.mp4" (.contentBlock none) 5)

def oldVideo : PingState (Fin 2) Progress :=
  .initial { key := "old.mp4", duration := some ⟨100, rfl⟩ }

/-- One ping before the replacement and one after it. -/
def pingsApart {ι : Type} (first second : ι) : List (PingAction ι) :=
  .replicate 7 (.ping first) ++ .replicate 4 .admin ++ .replicate 6 (.ping second)

theorem pings_apart_leave_new_video :
    ∃ t c : PingState (Fin 2) Progress,
      (pingsApart 0 1).foldlM
        (stepMeeting (VideoReplacement.ofBlock "new.mp4" (.contentBlock none) 5).Apart
          aroundReplacement.step) oldVideo = some t ∧
      t.video = { key := "new.mp4", duration := some ⟨600, rfl⟩ } ∧
      c.video = { key := "new.mp4", duration := none } ∧
      ∃ row, t.rows 1 = some row ∧ row.videoTotalWatched = 20 ∧
        aroundReplacement.RowSince 1 c (some ⟨600, rfl⟩) 1 row := by
  have hany : ((pingsApart 0 1).foldlM
      (stepMeeting (VideoReplacement.ofBlock "new.mp4" (.contentBlock none) 5).Apart
        aroundReplacement.step) oldVideo).any (fun t => t.admin.committed? &&
          decide (t.video = { key := "new.mp4", duration := some ⟨600, rfl⟩ }) &&
          (t.rows 1).any fun row => decide (row.videoTotalWatched = 20)) = true := by
    decide +kernel
  obtain ⟨t, ht, hfacts⟩ := (Option.any_eq_true _ _).mp hany
  obtain ⟨hstate, hrow⟩ := Bool.and_eq_true_iff.mp hfacts
  obtain ⟨hadmin, hvideo⟩ := Bool.and_eq_true_iff.mp hstate
  obtain ⟨row, hrow, htotal⟩ := (Option.any_eq_true _ _).mp hrow
  obtain ⟨-, -, -, c, -, -, -, -, hc, -, -, -, -, hrows⟩ :=
    rows_of_new_video_if_pings_apart aroundReplacement rfl rfl rfl (run_meeting_foldlM ht)
      (AdminPhase.eq_committed hadmin)
  have hvideo := of_decide_eq_true hvideo
  rw [hvideo] at hrows
  exact ⟨t, c, ht, hvideo, hc, row, hrow, of_decide_eq_true htotal, hrows 1 row hrow⟩

/-- The first ping loads the old block and continues after the replacement has committed. -/
def pingAcross {ι : Type} (first second : ι) : List (PingAction ι) :=
  [.ping first] ++ .replicate 4 .admin ++ .replicate 6 (.ping first) ++ .replicate 6 (.ping second)

/-- The row is completed for the new video of ten minutes with the ninety-five seconds that are
enough for the old one. -/
theorem ping_across_completes_new_video :
    ∃ t : PingState (Fin 2) Progress,
      (pingAcross 0 1).foldlM aroundReplacement.step oldVideo = some t ∧
      t.admin = .committed ∧ (∀ i, (t.phase i).inFlight? = false) ∧
      t.video = { key := "new.mp4", duration := some ⟨600, rfl⟩ } ∧
      ∃ row, t.rows 1 = some row ∧ row.status = .completed ∧ row.videoTotalWatched = 95 ∧
        watchedEnough 95 (some 600) = false := by
  have hany : ((pingAcross 0 1).foldlM aroundReplacement.step oldVideo).any (fun t =>
      t.admin.committed? && decide ((∀ i, (t.phase i).inFlight? = false) ∧
        t.video = { key := "new.mp4", duration := some ⟨600, rfl⟩ }) &&
      (t.rows 1).any fun row => decide (row.status = .completed ∧ row.videoTotalWatched = 95 ∧
        watchedEnough 95 (some 600) = false)) = true := by
    decide +kernel
  obtain ⟨t, ht, hfacts⟩ := (Option.any_eq_true _ _).mp hany
  obtain ⟨hstate, hrow⟩ := Bool.and_eq_true_iff.mp hfacts
  obtain ⟨hadmin, hstate⟩ := Bool.and_eq_true_iff.mp hstate
  obtain ⟨hended, hvideo⟩ := of_decide_eq_true hstate
  obtain ⟨row, hrow, hfacts⟩ := (Option.any_eq_true _ _).mp hrow
  exact ⟨t, ht, AdminPhase.eq_committed hadmin, hended, hvideo, row, hrow,
    of_decide_eq_true hfacts⟩

end LearningPlatform
