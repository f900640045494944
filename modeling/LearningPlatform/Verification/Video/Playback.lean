import LearningPlatform.Model.Player
import LearningPlatform.Verification.Video.Rows
import Mathlib.Tactic.Linarith

/-! # Completion and credited playback

A player credits the seconds it sees played and reports their sum; at the end of the playback it
reports the whole duration. The server completes a row at 90 percent of the duration. -/

namespace LearningPlatform

open Shared

/-! ## Reports backed by credited seconds -/

/-- 90 percent of the floored duration. -/
def Earned (duration seconds : ℚ) : Prop :=
  9 * (⌊duration⌋ : ℚ) ≤ 10 * seconds
  deriving Decidable

theorem Earned.mono {duration seconds seconds' : ℚ} (h : Earned duration seconds)
    (hle : seconds ≤ seconds') : Earned duration seconds' := by
  unfold Earned at *
  linarith

/-- A report that reaches 90 percent only if the credited seconds do. -/
structure Backed (duration credited : ℚ) (ping : Ping) : Prop where
  duration_eq : ping.durationSeconds = ⌊duration⌋
  earned : Earned duration ping.totalWatchedSeconds → Earned duration credited

theorem Backed.mono {duration credited credited' : ℚ} {ping : Ping}
    (h : Backed duration credited ping) (hle : credited ≤ credited') :
    Backed duration credited' ping :=
  ⟨h.duration_eq, fun hearned => (h.earned hearned).mono hle⟩

/-- The credited seconds of a player and the reports it has sent. -/
structure AllBacked (duration credited : ℚ) (reports : List Ping) : Prop where
  credited_nonneg : 0 ≤ credited
  reports : ∀ ping ∈ reports, Backed duration credited ping

namespace AllBacked

variable {duration credited : ℚ} {reports : List Ping}

theorem append (h : AllBacked duration credited reports) {ping : Ping}
    (hping : Backed duration credited ping) : AllBacked duration credited (reports ++ [ping]) := by
  refine ⟨h.credited_nonneg, fun report hreport => ?_⟩
  rcases List.mem_append.mp hreport with hold | hnew
  · exact h.reports report hold
  · rw [List.mem_singleton.mp hnew]
    exact hping

theorem add (h : AllBacked duration credited reports) {seconds : ℚ} (hseconds : 0 ≤ seconds) :
    AllBacked duration (credited + seconds) reports :=
  ⟨add_nonneg h.credited_nonneg hseconds,
    fun ping hping => (h.reports ping hping).mono (le_add_of_nonneg_right hseconds)⟩

end AllBacked

/-! ## The web player -/

namespace WebPlayer

variable {duration : ℚ} {player : WebPlayer}

/-- The end of the playback is reached with 90 percent credited. -/
def EndsEarned (duration : ℚ) (player : WebPlayer) (event : WebEvent) : Prop :=
  event = .ended → Earned duration player.totalWatched
  deriving Decidable

def ReportsBacked (duration : ℚ) (player : WebPlayer) : Prop :=
  AllBacked duration player.totalWatched player.reports

theorem credit_nonneg (player : WebPlayer) (currentTime playbackRate now : ℚ) :
    0 ≤ player.credit currentTime playbackRate now := by
  simp only [credit]
  split_ifs with hdelta
  · exact le_min hdelta.le (le_trans (by norm_num) (le_max_left _ _))
  · exact le_refl 0

theorem ReportsBacked.sendProgress (h : player.ReportsBacked duration) (currentTime : ℚ)
    (ended : Bool) (hended : ended = true → Earned duration player.totalWatched) :
    (player.sendProgress duration currentTime ended).ReportsBacked duration := by
  unfold WebPlayer.sendProgress
  split
  · refine AllBacked.append h ⟨rfl, fun hearned => ?_⟩
    cases ended with
    | true => exact hended rfl
    | false => exact hearned.mono (Int.floor_le _)
  · exact h

theorem ReportsBacked.step (h : player.ReportsBacked duration) {event : WebEvent}
    (hended : player.EndsEarned duration event) :
    (player.step duration event).ReportsBacked duration := by
  have hstopped : ReportsBacked duration { player with playing := false } := h
  cases event with
  | timeUpdate currentTime playbackRate now => exact AllBacked.add h (credit_nonneg ..)
  | pause currentTime => exact hstopped.sendProgress currentTime false nofun
  | ended => exact hstopped.sendProgress duration true fun _ => hended rfl
  | interval currentTime =>
    simp only [WebPlayer.step]
    split
    · exact h.sendProgress currentTime false nofun
    · exact h
  | _ => exact h

end WebPlayer

/-! ## The mobile player -/

namespace MobilePlayer

variable {duration : ℚ} {player : MobilePlayer}

def EndsEarned (duration : ℚ) (player : MobilePlayer) (event : MobileEvent) : Prop :=
  event = .playToEnd → Earned duration player.totalWatched
  deriving Decidable

/-- Before the source is loaded the duration is 0, and nothing is reported. -/
structure ReportsBacked (duration : ℚ) (player : MobilePlayer) : Prop where
  loaded : player.duration = 0 ∨ player.duration = duration
  backed : AllBacked duration player.totalWatched player.reports

theorem credit_nonneg (player : MobilePlayer) (currentTime now : ℚ) :
    0 ≤ player.credit currentTime now := by
  simp only [credit, creditedPlaybackSeconds]
  split_ifs with _ hdelta
  · exact le_refl 0
  · exact le_refl 0
  · exact (not_le.mp hdelta).le
  · exact le_refl 0

theorem ReportsBacked.enqueueProgress (h : player.ReportsBacked duration) (ended : Bool)
    (hended : ended = true → Earned duration player.totalWatched) :
    (player.enqueueProgress ended).ReportsBacked duration := by
  unfold MobilePlayer.enqueueProgress normalizedProgress
  by_cases hpositive : player.duration ≤ 0
  · rw [if_pos hpositive]
    exact h
  · rw [if_neg hpositive]
    have hduration : player.duration = duration :=
      h.loaded.resolve_left fun hzero => hpositive hzero.le
    refine ⟨.inr hduration, h.backed.append ⟨congrArg Int.floor hduration, fun hearned => ?_⟩⟩
    cases ended with
    | true => exact hended rfl
    | false =>
      refine hearned.mono ((Int.cast_le.mpr (min_le_right _ _)).trans ?_)
      rw [Int.cast_max]
      exact max_le (by simpa using h.backed.credited_nonneg) (Int.floor_le _)

theorem ReportsBacked.step (h : player.ReportsBacked duration) {event : MobileEvent}
    (hended : player.EndsEarned duration event) :
    (player.step duration event).ReportsBacked duration := by
  cases event with
  | sourceLoad now => exact ⟨.inr rfl, h.backed⟩
  | playingChange isPlaying now =>
    have hchanged : ReportsBacked duration
        { player with playing := isPlaying, lastTime := player.currentTime, lastTickAt := now } :=
      ⟨h.loaded, h.backed⟩
    simp only [MobilePlayer.step, handlePlayingChange]
    split
    · exact hchanged
    · exact hchanged.enqueueProgress false nofun
  | timeUpdate currentTime now =>
    have hcredited := h.backed.add (player.credit_nonneg currentTime now)
    simp only [MobilePlayer.step, handleTimeUpdate]
    split
    · refine ReportsBacked.enqueueProgress ?_ false nofun
      exact ⟨h.loaded, hcredited⟩
    · exact ⟨h.loaded, hcredited⟩
  | playToEnd => exact h.enqueueProgress true fun _ => hended rfl
  | appInactive => exact h.enqueueProgress false nofun
  | pictureInPictureStop => exact h.enqueueProgress false nofun
  | unmount => exact h.enqueueProgress false nofun
  | _ => exact ⟨h.loaded, h.backed⟩

end MobilePlayer

/-! ## Playback -/

/-- The reports and the credited seconds of a playback from the start whose end events all come
with 90 percent credited. -/
inductive EarnedPlayback (duration : ℚ) : List Ping → ℚ → Prop where
  | web {events player} :
      Run (Meeting (WebPlayer.EndsEarned duration) (Performs (WebPlayer.step duration)))
        {} events player →
      EarnedPlayback duration player.reports player.totalWatched
  | mobile {events player} :
      Run (Meeting (MobilePlayer.EndsEarned duration) (Performs (MobilePlayer.step duration)))
        {} events player →
      EarnedPlayback duration player.reports player.totalWatched

theorem EarnedPlayback.allBacked {duration credited : ℚ} {reports : List Ping}
    (h : EarnedPlayback duration reports credited) : AllBacked duration credited reports := by
  cases h with
  | web hrun =>
    refine hrun.invariant (WebPlayer.ReportsBacked duration) ?_ ⟨le_refl 0, nofun⟩
    rintro player event _ hplayer ⟨hended, rfl⟩
    exact hplayer.step hended
  | mobile hrun =>
    refine (hrun.invariant (MobilePlayer.ReportsBacked duration) ?_
      ⟨.inl rfl, le_refl 0, nofun⟩).backed
    rintro player event _ hplayer ⟨hended, rfl⟩
    exact hplayer.step hended

/-! ## Attested rows -/

/-- A completed flag and a stored total that the credited seconds account for. -/
structure Attested (duration credited : ℚ) (completed : Prop) (total : ℤ) : Prop where
  completed : completed → Earned duration credited
  total : Earned duration total → Earned duration credited

section Reports

variable {duration credited : ℚ} {ping : Ping} {known : Option ℤ}

theorem attested_fresh (hcredited : 0 ≤ credited) : Attested duration credited False 0 :=
  ⟨False.elim, fun hearned => hearned.mono (by simpa using hcredited)⟩

theorem capped_le_self (seconds : ℤ) (known : Option ℤ) : capped seconds known ≤ seconds := by
  unfold capped
  split
  · split
    · exact min_le_left _ _
    · exact le_refl _
  · exact le_refl _

theorem Attested.report {completed : Prop} {total : ℤ}
    (h : Attested duration credited completed total) (hping : Backed duration credited ping)
    (hearned : Earned duration (max total (capped ping.totalWatchedSeconds known) : ℤ)) :
    Earned duration credited := by
  rcases max_choice total (capped ping.totalWatchedSeconds known) with hmax | hmax
  · rw [hmax] at hearned
    exact h.total hearned
  · rw [hmax] at hearned
    exact hping.earned (hearned.mono (Int.cast_le.mpr (capped_le_self _ _)))

theorem earned_of_watchedEnough {watched : ℤ}
    (hknown : ∀ d ∈ known, d = ⌊duration⌋) (h : watchedEnough watched known = true) :
    Earned duration watched := by
  cases known with
  | none => cases h
  | some d =>
    obtain rfl := hknown d rfl
    simp only [watchedEnough, Bool.and_eq_true, decide_eq_true_eq] at h
    unfold Earned
    exact_mod_cast h.2

theorem Attested.recordVideo {row : Progress}
    (h : Attested duration credited (row.status = .completed) row.videoTotalWatched)
    (hping : Backed duration credited ping) (hknown : ∀ d ∈ known, d = ⌊duration⌋) :
    Attested duration credited ((row.recordVideo known ping).status = .completed)
      (row.recordVideo known ping).videoTotalWatched := by
  refine ⟨fun hcompleted => ?_, h.report hping⟩
  simp only [Progress.recordVideo] at hcompleted
  split_ifs at hcompleted with henough
  · exact h.report hping (earned_of_watchedEnough hknown henough)
  · exact h.completed hcompleted

theorem Attested.record {row : WatchProgress} {recording : Recording} (now : Time)
    (h : Attested duration credited (row.completed = true) row.totalWatchedSeconds)
    (hping : Backed duration credited ping)
    (hknown : ∀ d ∈ recording.durationSeconds, d = ⌊duration⌋) :
    Attested duration credited ((row.record recording ping now).completed = true)
      (row.record recording ping now).totalWatchedSeconds := by
  refine ⟨fun hcompleted => ?_, h.report hping⟩
  simp only [WatchProgress.record, Bool.or_eq_true] at hcompleted
  rcases hcompleted with hcompleted | henough
  · exact h.completed hcompleted
  · refine h.report hping (earned_of_watchedEnough ?_ henough)
    intro d hd
    rcases Option.or_eq_some_iff.mp hd with hstored | ⟨-, hreported⟩
    · exact hknown d hstored
    · obtain ⟨-, ⟨⟩⟩ := Option.ite_none_right_eq_some.mp hreported
      exact hping.duration_eq

end Reports

/-! ## Delivered reports -/

inductive VideoTarget where
  | recording (id : ℕ)
  | block (id : ℕ)
  deriving DecidableEq

/-- The request carries a report of the user's player for the target. -/
def VideoRequest.Delivers (userId : ℕ) (target : VideoTarget) (reports : List Ping) :
    VideoRequest → Prop
  | .videoProgress sender blockId ping _ _ _ =>
    sender = userId ∧ target = .block blockId ∧ ping ∈ reports
  | .watchProgress sender recordingId ping _ _ _ =>
    sender = userId ∧ target = .recording recordingId ∧ ping ∈ reports
  | _ => False

/-- The user has no recorded progress. -/
def Database.Unwatched (db : Database) (userId : ℕ) : VideoTarget → Prop
  | .recording id => ∀ row ∈ db.watchProgresses, row.userId = userId → row.recordingId ≠ id
  | .block id => ∀ row ∈ db.progresses, row.userId = userId → row.contentBlockId ≠ id

/-- The server knows no other duration. -/
def Database.KnowsDuration (db : Database) (seconds : ℤ) : VideoTarget → Prop
  | .recording id => ∀ recording ∈ db.recording? id, ∀ d ∈ recording.durationSeconds, d = seconds
  | .block id => ∀ block ∈ db.contentBlock? id, ∀ d ∈ block.s3VideoDurationSeconds, d = seconds

def Database.Completed (db : Database) (userId : ℕ) : VideoTarget → Prop
  | .recording id => ∃ row ∈ db.watchProgresses,
      row.userId = userId ∧ row.recordingId = id ∧ row.completed = true
  | .block id => ∃ row ∈ db.progresses,
      row.userId = userId ∧ row.contentBlockId = id ∧ row.status = .completed

instance (db : Database) (userId : ℕ) :
    (target : VideoTarget) → Decidable (db.Completed userId target)
  | .recording _ | .block _ => inferInstanceAs (Decidable (∃ _ ∈ _, _))

/-- The user's rows for the target are accounted for. -/
structure AttestedRows (duration credited : ℚ) (userId : ℕ) (target : VideoTarget)
    (db : Database) : Prop where
  recordings : ∀ row ∈ db.watchProgresses, row.userId = userId →
    target = .recording row.recordingId →
    Attested duration credited (row.completed = true) row.totalWatchedSeconds
  videos : ∀ row ∈ db.progresses, row.userId = userId → target = .block row.contentBlockId →
    Attested duration credited (row.status = .completed) row.videoTotalWatched
  known : db.KnowsDuration ⌊duration⌋ target

section Delivery

variable {duration credited : ℚ} {userId : ℕ} {target : VideoTarget} {reports : List Ping}
  {db db' : Database}

theorem AttestedRows.completed (h : AttestedRows duration credited userId target db)
    (hcompleted : db.Completed userId target) : Earned duration credited := by
  cases target with
  | recording id =>
    obtain ⟨row, hrow, huser, rfl, hrowCompleted⟩ := hcompleted
    exact (h.recordings row hrow huser rfl).completed hrowCompleted
  | block id =>
    obtain ⟨row, hrow, huser, rfl, hrowCompleted⟩ := hcompleted
    exact (h.videos row hrow huser rfl).completed hrowCompleted

theorem AttestedRows.start (hunwatched : db.Unwatched userId target)
    (hknown : db.KnowsDuration ⌊duration⌋ target) :
    AttestedRows duration credited userId target db := by
  refine ⟨fun row hrow huser htarget => ?_, fun row hrow huser htarget => ?_, hknown⟩
  · subst htarget
    exact absurd rfl (hunwatched row hrow huser)
  · subst htarget
    exact absurd rfl (hunwatched row hrow huser)

section

variable (h : AttestedRows duration credited userId target db)

include h

theorem AttestedRows.progressRecord
    (hcredited : 0 ≤ credited) {blockId : ℕ} (htarget : target = .block blockId) (nextId : ℕ) :
    Attested duration credited
      ((db.progressRecord userId blockId nextId).status = .completed)
      (db.progressRecord userId blockId nextId).videoTotalWatched := by
  unfold Database.progressRecord
  cases hrow : db.progressFor userId blockId with
  | none => exact ⟨nofun, (attested_fresh hcredited).total⟩
  | some row =>
    obtain ⟨hmem, huser, rfl⟩ := progressFor_mem hrow
    exact h.videos row hmem huser htarget

theorem AttestedRows.watchRecord
    (hcredited : 0 ≤ credited) {recordingId : ℕ} (htarget : target = .recording recordingId) :
    Attested duration credited ((db.watchRecord userId recordingId).completed = true)
      (db.watchRecord userId recordingId).totalWatchedSeconds := by
  unfold Database.watchRecord
  cases hrow : db.watchProgresses.find? fun row =>
      row.userId == userId && row.recordingId == recordingId with
  | none => exact ⟨nofun, (attested_fresh hcredited).total⟩
  | some row =>
    have hfound := List.find?_some hrow
    simp only [Bool.and_eq_true, beq_iff_eq] at hfound
    obtain ⟨huser, rfl⟩ := hfound
    exact h.recordings row (List.mem_of_find?_eq_some hrow) huser htarget

theorem AttestedRows.videoProgress
    (hcredited : 0 ≤ credited) {user : User} (huser : user.id = userId) {block : ContentBlock}
    (hblock : db.contentBlock? block.id = some block) (htarget : target = .block block.id)
    {ping : Ping} (hping : Backed duration credited ping) (now : Time) :
    AttestedRows duration credited userId target
      ((writeVideoProgress db user now block ping).apply db) := by
  subst huser htarget
  have hknown : ∀ d ∈ db.videoDuration block ping, d = ⌊duration⌋ := by
    intro d hd
    unfold Database.videoDuration at hd
    split at hd
    · rw [hblock] at hd
      rcases Option.or_eq_some_iff.mp hd with hstored | ⟨-, ⟨⟩⟩
      · exact h.known block hblock d hstored
      · exact hping.duration_eq
    · exact h.known block hblock d hd
  refine ⟨?_, ?_, ?_⟩
  · rw [writeVideoProgress_watchProgresses]
    exact h.recordings
  · refine (forall_writeVideoProgress_iff (fun _ _ _ _ => Iff.rfl) h.videos user now block
      ping).mpr fun _ _ => ?_
    exact (h.progressRecord hcredited rfl _).recordVideo hping hknown
  · intro saved hsaved d hd
    obtain ⟨old, hold, hsame | hreported⟩ := writeVideoProgress_duration hsaved
    · exact h.known old hold d (hsame ▸ hd)
    · obtain ⟨⟩ := hreported.symm.trans hd
      exact hping.duration_eq

theorem AttestedRows.watchProgress
    (hcredited : 0 ≤ credited) {user : User} (huser : user.id = userId) {recording : Recording}
    (hrecording : db.recording? recording.id = some recording)
    (htarget : target = .recording recording.id)
    {ping : Ping} (hping : Backed duration credited ping) (now : Time) :
    AttestedRows duration credited userId target
      ((writeWatchProgress db user now recording ping).apply db) := by
  subst huser htarget
  refine ⟨?_, ?_, ?_⟩
  · refine (forall_writeWatchProgress_iff (fun _ _ _ => Iff.rfl) h.recordings user now recording
      ping).mpr fun _ _ => ?_
    exact (h.watchRecord hcredited rfl).record now hping (h.known recording hrecording)
  · rw [(writeWatchProgress_frame ..).1]
    exact h.videos
  · have hframe := (writeWatchProgress db user now recording ping).apply_frame db
    intro other hother
    unfold Database.recording? at hother
    rw [hframe.recordings] at hother
    exact h.known other hother

theorem AttestedRows.perform
    (hreports : AllBacked duration credited reports) {request : VideoRequest}
    (hdelivers : request.Delivers userId target reports) :
    AttestedRows duration credited userId target (request.perform db) := by
  unfold VideoRequest.perform
  cases hexecute : request.execute db with
  | error failure => exact h
  | ok db' =>
    cases request with
    | videoProgress sender blockId ping startedAt now today =>
      obtain ⟨rfl, htarget, hping⟩ := hdelivers
      obtain ⟨user, block, huser, hblock, rfl, rfl⟩ := execute_videoProgress_eq_ok hexecute
      exact h.videoProgress hreports.credited_nonneg huser hblock htarget
        (hreports.reports ping hping) now
    | watchProgress sender recordingId ping startedAt now today =>
      obtain ⟨rfl, htarget, hping⟩ := hdelivers
      obtain ⟨user, recording, huser, hrecording, rfl, rfl⟩ :=
        execute_watchProgress_eq_ok hexecute
      exact h.watchProgress hreports.credited_nonneg huser hrecording htarget
        (hreports.reports ping hping) now
    | _ => exact hdelivers.elim

end

end Delivery

/-! ## Main result -/

/-- If every end event comes with 90 percent credited, then reports of the player, delivered in
any order and any number of times, complete the row only if 90 percent are credited. -/
theorem completed_only_with_credited_seconds {duration credited : ℚ} {reports : List Ping}
    (hplayback : EarnedPlayback duration reports credited) {start db : Database} {userId : ℕ}
    {target : VideoTarget} {requests : List VideoRequest}
    (hunwatched : start.Unwatched userId target) (hknown : start.KnowsDuration ⌊duration⌋ target)
    (hrun : Run (Meeting (fun _ => VideoRequest.Delivers userId target reports)
      (Performs VideoRequest.perform)) start requests db)
    (hcompleted : db.Completed userId target) : 9 * (⌊duration⌋ : ℚ) ≤ 10 * credited := by
  have hreports := hplayback.allBacked
  refine AttestedRows.completed (hrun.invariant _ ?_ (.start hunwatched hknown)) hcompleted
  rintro s request _ hs ⟨hdelivers, rfl⟩
  exact hs.perform hreports hdelivers

/-! ## Two playbacks of a video of ten seconds -/

/-- The student of `unwatchedVideo` has not started the recording or the video. -/
def unwatchedVideo : Database :=
  { users := [{ id := 1 }], curricula := [{ id := 1 }]
    modules := [{ id := 1, curriculumId := 1, name := "Ruby" }]
    lessons := [{ id := 1, moduleId := 1, title := "Loops" }]
    contentBlocks := [{ id := 1, lessonId := 1, blockType := .video, s3VideoKey := some "a.mp4" }]
    cohorts := [{ id := 1, curriculumId := 1 }]
    enrollments := [{ id := 1, userId := 1, cohortId := 1 }]
    recordings := [{ id := 1, cohortId := 1, durationSeconds := some 10 }]
    nextId := 2 }

def watchedThrough : List WebEvent :=
  [.loadedMetadata 0 1, .play 1, .timeUpdate 5 1 5001, .timeUpdate (19 / 2) 1 9501, .ended]

def deliveries (reports : List Ping) : List VideoRequest :=
  reports.map fun ping => .watchProgress 1 1 ping 1 1 0

theorem deliveries_run (reports : List Ping) :
    Run (Meeting (fun _ => VideoRequest.Delivers 1 (.recording 1) reports)
      (Performs VideoRequest.perform)) unwatchedVideo (deliveries reports)
      ((deliveries reports).foldl VideoRequest.perform unwatchedVideo) := by
  refine run_meeting_foldl (meetAlong_of_forall fun request hrequest => ?_)
  obtain ⟨ping, hping, rfl⟩ := List.mem_map.mp hrequest
  exact ⟨rfl, rfl, hping⟩

theorem unwatchedVideo_start :
    unwatchedVideo.Unwatched 1 (.recording 1) ∧
      unwatchedVideo.KnowsDuration ⌊(10 : ℚ)⌋ (.recording 1) := by
  simp [unwatchedVideo, Database.Unwatched, Database.KnowsDuration, Database.recording?]

theorem watched_through_completes_with_credit :
    let player := watchedThrough.foldl (WebPlayer.step 10) {}
    ((deliveries player.reports).foldl VideoRequest.perform unwatchedVideo).Completed 1
        (.recording 1) ∧ 9 * (⌊(10 : ℚ)⌋ : ℚ) ≤ 10 * player.totalWatched := by
  have hplayback : EarnedPlayback 10 (watchedThrough.foldl (WebPlayer.step 10) {}).reports
      (watchedThrough.foldl (WebPlayer.step 10) {}).totalWatched :=
    .web (run_meeting_foldl (by decide +kernel))
  have hcompleted : ((deliveries (watchedThrough.foldl (WebPlayer.step 10) {}).reports).foldl
      VideoRequest.perform unwatchedVideo).Completed 1 (.recording 1) := by
    decide +kernel
  exact ⟨hcompleted, completed_only_with_credited_seconds hplayback unwatchedVideo_start.1
    unwatchedVideo_start.2 (deliveries_run _) hcompleted⟩

/-- Seeking to the end and letting the last tenth of a second play completes the recording, on
the web and on a phone. -/
theorem seek_to_end_completes_without_credit :
    let web := [WebEvent.loadedMetadata 0 1, .seeked (99 / 10) 2, .play 2,
      .timeUpdate 10 1 102, .ended].foldl (WebPlayer.step 10) {}
    let mobile := [MobileEvent.sourceLoad 1, .playingChange true 2, .timeUpdate (99 / 10) 3,
      .timeUpdate 10 103, .playToEnd].foldl (MobilePlayer.step 10) {}
    unwatchedVideo.Unwatched 1 (.recording 1) ∧
      unwatchedVideo.KnowsDuration ⌊(10 : ℚ)⌋ (.recording 1) ∧
      ((deliveries web.reports).foldl VideoRequest.perform unwatchedVideo).Completed 1
        (.recording 1) ∧ web.totalWatched = 1 / 10 ∧
      ((deliveries mobile.reports).foldl VideoRequest.perform unwatchedVideo).Completed 1
        (.recording 1) ∧ mobile.totalWatched = 1 / 10 := by
  refine ⟨unwatchedVideo_start.1, unwatchedVideo_start.2, ?_, ?_, ?_, ?_⟩ <;> decide +kernel

end LearningPlatform
