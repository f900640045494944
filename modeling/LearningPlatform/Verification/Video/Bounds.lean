import LearningPlatform.Verification.Video.Rows

/-! # Bounds of positions and watched totals

Reports are capped by the duration that is known when they arrive. The stored total is never
capped again, so it stays within a duration only if it fits when this duration becomes known. -/

namespace LearningPlatform

open Shared

/-! ## Rows within their duration -/

/-- A position and a total that lie within a known positive duration. -/
structure WithinDuration (duration : Option ℤ) (position total : ℤ) : Prop where
  position_nonneg : 0 ≤ position
  total_nonneg : 0 ≤ total
  bounded : ∀ d ∈ duration, 0 < d → position ≤ d ∧ total ≤ d

def Progress.Within (row : Progress) : Prop :=
  WithinDuration row.videoDuration row.videoLastPosition row.videoTotalWatched

def WatchProgress.Within (row : WatchProgress) : Prop :=
  WithinDuration row.durationSeconds row.lastPositionSeconds row.totalWatchedSeconds

structure TimesWithin (db : Database) : Prop where
  videos : ∀ row ∈ db.progresses, row.Within
  recordings : ∀ row ∈ db.watchProgresses, row.Within

/-! ## One report -/

theorem capped_le {seconds d : ℤ} (hd : 0 < d) : capped seconds (some d) ≤ d := by
  simp only [capped, if_pos hd]
  exact min_le_right _ _

/-- A report that knows its duration keeps a row within it exactly if the old total fits. -/
theorem withinDuration_report_iff {d position total oldTotal : ℤ} (hold : 0 ≤ oldTotal) :
    WithinDuration (some d) (max (capped position (some d)) 0)
        (max oldTotal (capped total (some d))) ↔ (0 < d → oldTotal ≤ d) := by
  constructor
  · intro h hd
    exact (le_max_left _ _).trans (h.bounded d rfl hd).2
  · intro h
    refine ⟨le_max_right _ _, hold.trans (le_max_left _ _), ?_⟩
    rintro _ ⟨⟩ hd
    exact ⟨max_le (capped_le hd) hd.le, max_le (h hd) (capped_le hd)⟩

/-- A report without a duration keeps a row within the duration stored before exactly if the
reported times fit. -/
theorem withinDuration_unknown_iff {duration : Option ℤ} {position total oldPosition oldTotal : ℤ}
    (hold : WithinDuration duration oldPosition oldTotal) :
    WithinDuration duration (max position 0) (max oldTotal total) ↔
      ∀ d ∈ duration, 0 < d → position ≤ d ∧ total ≤ d := by
  constructor
  · intro h d hduration hd
    obtain ⟨hposition, htotal⟩ := h.bounded d hduration hd
    exact ⟨(le_max_left _ _).trans hposition, (le_max_right _ _).trans htotal⟩
  · intro h
    refine ⟨le_max_right _ _, hold.total_nonneg.trans (le_max_left _ _), ?_⟩
    intro d hduration hd
    obtain ⟨hposition, htotal⟩ := h d hduration hd
    exact ⟨max_le hposition hd.le, max_le (hold.bounded d hduration hd).2 htotal⟩

/-- The row has room for a report: its total fits the duration that the report is capped by,
and a report without a duration fits the one that the row keeps. -/
def Progress.HasRoom (row : Progress) (duration : Option ℤ) (ping : Ping) : Prop :=
  (∀ d ∈ duration, 0 < d → row.videoTotalWatched ≤ d) ∧
    (duration = none → ∀ d ∈ row.videoDuration, 0 < d →
      ping.lastPositionSeconds ≤ d ∧ ping.totalWatchedSeconds ≤ d)
  deriving Decidable

theorem Progress.within_recordVideo_iff {row : Progress} (hrow : row.Within)
    (duration : Option ℤ) (ping : Ping) :
    (row.recordVideo duration ping).Within ↔ row.HasRoom duration ping := by
  cases duration with
  | some d =>
    refine (withinDuration_report_iff hrow.total_nonneg).trans ?_
    simp [HasRoom]
  | none =>
    refine (withinDuration_unknown_iff hrow).trans ?_
    simp [HasRoom, capped]

/-- The duration that a watch report is capped by. -/
def Recording.durationFor (recording : Recording) (ping : Ping) : Option ℤ :=
  recording.durationSeconds.or
    (if 0 < ping.durationSeconds then some ping.durationSeconds else none)

def WatchProgress.HasRoom (row : WatchProgress) (duration : Option ℤ) : Prop :=
  ∀ d ∈ duration, 0 < d → row.totalWatchedSeconds ≤ d
  deriving Decidable

theorem WatchProgress.within_record_iff {row : WatchProgress} (hrow : row.Within)
    (recording : Recording) (ping : Ping) (now : Time) :
    (row.record recording ping now).Within ↔ row.HasRoom (recording.durationFor ping) := by
  change WithinDuration (recording.durationFor ping)
    (max (capped ping.lastPositionSeconds (recording.durationFor ping)) 0)
    (max row.totalWatchedSeconds
      (capped ping.totalWatchedSeconds (recording.durationFor ping))) ↔ _
  cases recording.durationFor ping with
  | some d =>
    refine (withinDuration_report_iff hrow.total_nonneg).trans ?_
    simp [HasRoom]
  | none =>
    exact iff_of_true
      ⟨le_max_right _ _, hrow.total_nonneg.trans (le_max_left _ _), nofun⟩ nofun

/-! ## Saved rows -/

variable {db : Database}

theorem TimesWithin.watchRecord (h : TimesWithin db) (userId recordingId : ℕ) :
    (db.watchRecord userId recordingId).Within := by
  unfold Database.watchRecord
  cases hrow : db.watchProgresses.find? fun row =>
      row.userId == userId && row.recordingId == recordingId with
  | none => exact ⟨le_refl 0, le_refl 0, nofun⟩
  | some row => exact h.recordings row (List.mem_of_find?_eq_some hrow)

theorem TimesWithin.progressRecord (h : TimesWithin db) (userId blockId nextId : ℕ) :
    (db.progressRecord userId blockId nextId).Within := by
  unfold Database.progressRecord
  cases hrow : db.progressFor userId blockId with
  | none => exact ⟨le_refl 0, le_refl 0, nofun⟩
  | some row => exact h.videos row (progressFor_mem hrow).1

theorem videoProgress_within_iff (h : TimesWithin db) (user : User) (block : ContentBlock)
    (ping : Ping) (now : Time) :
    TimesWithin ((writeVideoProgress db user now block ping).apply db) ↔
      (db.progressRecord user.id block.id db.nextId).HasRoom
        (db.videoDuration block ping) ping := by
  rw [← Progress.within_recordVideo_iff (h.progressRecord _ _ _),
    ← forall_writeVideoProgress_iff (fun _ _ _ _ => Iff.rfl) h.videos user now]
  refine ⟨fun hall => hall.videos, fun hvideos => ⟨hvideos, ?_⟩⟩
  rw [writeVideoProgress_watchProgresses]
  exact h.recordings

theorem watchProgress_within_iff (h : TimesWithin db) (user : User) (recording : Recording)
    (ping : Ping) (now : Time) :
    TimesWithin ((writeWatchProgress db user now recording ping).apply db) ↔
      (db.watchRecord user.id recording.id).HasRoom (recording.durationFor ping) := by
  rw [← WatchProgress.within_record_iff (h.watchRecord _ _) recording ping now,
    ← forall_writeWatchProgress_iff (fun _ _ _ => Iff.rfl) h.recordings user now]
  refine ⟨fun hall => hall.recordings, fun hrecordings => ⟨?_, hrecordings⟩⟩
  rw [(writeWatchProgress_frame ..).1]
  exact h.videos

/-! ## Requests -/

/-- A report finds a row with room for it; staff may change durations freely. -/
def VideoRequest.HasRoom (db : Database) : VideoRequest → Prop
  | .videoProgress userId blockId ping _ _ _ =>
    ∀ block ∈ db.contentBlock? blockId,
      (db.progressRecord userId blockId db.nextId).HasRoom (db.videoDuration block ping) ping
  | .watchProgress userId recordingId ping _ _ _ =>
    ∀ recording ∈ db.recording? recordingId,
      (db.watchRecord userId recordingId).HasRoom (recording.durationFor ping)
  | _ => True

instance (db : Database) : (request : VideoRequest) → Decidable (request.HasRoom db)
  | .videoProgress .. => inferInstanceAs (Decidable (∀ _ ∈ _, _))
  | .watchProgress .. => inferInstanceAs (Decidable (∀ _ ∈ _, _))
  | .updateContentBlock .. | .updateEditorVideo .. | .updateRecording .. => .isTrue trivial

theorem TimesWithin.saveVideo (h : TimesWithin db) (old block : ContentBlock) (now : Time) :
    TimesWithin (db.saveVideo old block now) := by
  refine ⟨fun row hrow => ?_, h.recordings⟩
  simp only [Database.saveVideo] at hrow
  split at hrow
  · rcases mem_updateAll.mp hrow with ⟨_, -, -, rfl⟩ | ⟨hold, -⟩
    · exact ⟨le_refl 0, le_refl 0, nofun⟩
    · exact h.videos row hold
  · exact h.videos row hrow

/-- A request that succeeds keeps all rows within their durations exactly if it finds room. -/
theorem VideoRequest.execute_within_iff {db' : Database} {request : VideoRequest}
    (h : TimesWithin db) (hexecute : request.execute db = .ok db') :
    TimesWithin db' ↔ request.HasRoom db := by
  cases request with
  | videoProgress userId blockId ping startedAt now today =>
    obtain ⟨user, block, rfl, hblock, rfl, rfl⟩ := execute_videoProgress_eq_ok hexecute
    rw [videoProgress_within_iff h]
    simp [HasRoom, hblock]
  | watchProgress userId recordingId ping startedAt now today =>
    obtain ⟨user, recording, rfl, hrecording, rfl, rfl⟩ := execute_watchProgress_eq_ok hexecute
    rw [watchProgress_within_iff h]
    simp [HasRoom, hrecording]
  | updateContentBlock id params now =>
    obtain ⟨old, -, heq⟩ := bind_eq_ok.mp hexecute
    cases heq
    exact iff_of_true (h.saveVideo _ _ _) trivial
  | updateEditorVideo lessonId id s3VideoKey now =>
    obtain ⟨old, -, heq⟩ := bind_eq_ok.mp hexecute
    cases heq
    exact iff_of_true (h.saveVideo _ _ _) trivial
  | updateRecording cohortId id durationSeconds =>
    obtain ⟨recording, -, heq⟩ := bind_eq_ok.mp hexecute
    cases heq
    exact iff_of_true ⟨h.videos, h.recordings⟩ trivial

theorem VideoRequest.perform_within {request : VideoRequest} (h : TimesWithin db)
    (hroom : request.HasRoom db) : TimesWithin (request.perform db) := by
  unfold perform
  cases hexecute : request.execute db with
  | error failure => exact h
  | ok db' => exact (execute_within_iff h hexecute).mpr hroom

/-! ## Main result -/

/-- In every run whose reports find rows with room for them, positions and totals lie within
the known durations; and a request that finds no room breaks this. -/
theorem times_within_duration_along_roomy_reports {start db : Database}
    {requests : List VideoRequest} (hstart : TimesWithin start)
    (hrun : Run (Meeting VideoRequest.HasRoom (Performs VideoRequest.perform)) start requests db) :
    (∀ row ∈ db.progresses, ∀ d, row.videoDuration = some d → 0 < d →
      (0 ≤ row.videoLastPosition ∧ row.videoLastPosition ≤ d) ∧
        (0 ≤ row.videoTotalWatched ∧ row.videoTotalWatched ≤ d)) ∧
    (∀ row ∈ db.watchProgresses, ∀ d, row.durationSeconds = some d → 0 < d →
      (0 ≤ row.lastPositionSeconds ∧ row.lastPositionSeconds ≤ d) ∧
        (0 ≤ row.totalWatchedSeconds ∧ row.totalWatchedSeconds ≤ d)) ∧
    ∀ (request : VideoRequest) (db' : Database), request.execute db = .ok db' →
      (TimesWithin db' ↔ request.HasRoom db) := by
  have hwithin : TimesWithin db := by
    refine hrun.invariant TimesWithin ?_ hstart
    rintro s request t hs ⟨hroom, rfl⟩
    exact VideoRequest.perform_within hs hroom
  refine ⟨?_, ?_, fun request db' => VideoRequest.execute_within_iff hwithin⟩
  · intro row hrow d hduration hd
    have h := hwithin.videos row hrow
    obtain ⟨hposition, htotal⟩ := h.bounded d hduration hd
    exact ⟨⟨h.position_nonneg, hposition⟩, h.total_nonneg, htotal⟩
  · intro row hrow d hduration hd
    have h := hwithin.recordings row hrow
    obtain ⟨hposition, htotal⟩ := h.bounded d hduration hd
    exact ⟨⟨h.position_nonneg, hposition⟩, h.total_nonneg, htotal⟩

/-! ## A recording and a video of one student -/

def oneViewer : Database :=
  { users := [{ id := 1 }], curricula := [{ id := 1 }]
    modules := [{ id := 1, curriculumId := 1, name := "Ruby" }]
    lessons := [{ id := 1, moduleId := 1, title := "Loops" }]
    contentBlocks := [{ id := 1, lessonId := 1, blockType := .video, s3VideoKey := some "a.mp4" }]
    cohorts := [{ id := 1, curriculumId := 1 }]
    enrollments := [{ id := 1, userId := 1, cohortId := 1 }]
    recordings := [{ id := 1, cohortId := 1 }]
    nextId := 2 }

theorem oneViewer_timesWithin : TimesWithin oneViewer :=
  ⟨nofun, nofun⟩

/-- The duration of the recording grows; the video is replaced by a shorter one. -/
def roomyRequests : List VideoRequest :=
  [.watchProgress 1 1 ⟨30, 40, 100⟩ 1 1 0, .updateRecording 1 1 (some (some 120)),
    .watchProgress 1 1 ⟨-5, 500, 100⟩ 2 2 0, .videoProgress 1 1 ⟨20, 300, 60⟩ 3 3 0,
    .updateContentBlock 1 { s3VideoKey := some (some "b.mp4") } 4,
    .videoProgress 1 1 ⟨90, 5, 10⟩ 5 5 0]

theorem roomy_reports_stay_within :
    let db := roomyRequests.foldl VideoRequest.perform oneViewer
    db.watchProgresses.map (fun row => (row.durationSeconds, row.totalWatchedSeconds)) =
        [(some 120, 120)] ∧
      db.progresses.map (fun row => (row.videoDuration, row.videoTotalWatched)) = [(some 10, 5)] ∧
      ∀ row ∈ db.progresses, row.videoDuration = some 10 → row.videoLastPosition ≤ 10 := by
  refine ⟨by decide +kernel, by decide +kernel, fun row hrow hduration => ?_⟩
  have hrun : Run (Meeting VideoRequest.HasRoom (Performs VideoRequest.perform)) oneViewer
      roomyRequests (roomyRequests.foldl VideoRequest.perform oneViewer) :=
    .cons ⟨by decide +kernel, rfl⟩ (.cons ⟨by decide +kernel, rfl⟩
      (.cons ⟨by decide +kernel, rfl⟩ (.cons ⟨by decide +kernel, rfl⟩
        (.cons ⟨by decide +kernel, rfl⟩ (.cons ⟨by decide +kernel, rfl⟩ (.nil _))))))
  exact ((times_within_duration_along_roomy_reports oneViewer_timesWithin hrun).1 row hrow 10
    hduration (by decide)).1.2

/-- A total of 100 seconds is reported while no duration is known; the next report brings a
duration of 10 seconds. -/
theorem late_duration_below_stored_total :
    let requests : List VideoRequest :=
      [.watchProgress 1 1 ⟨0, 100, 0⟩ 1 1 0, .watchProgress 1 1 ⟨0, 0, 10⟩ 2 2 0]
    let db := requests.foldl VideoRequest.perform oneViewer
    TimesWithin oneViewer ∧ Run (Performs VideoRequest.perform) oneViewer requests db ∧
      db.watchProgresses.map (fun row => (row.durationSeconds, row.totalWatchedSeconds)) =
        [(some 10, 100)] :=
  ⟨oneViewer_timesWithin, run_foldl _ _ _, by decide +kernel⟩

end LearningPlatform
