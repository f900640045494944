import LearningPlatform.Model.Video
import Mathlib.Data.Fintype.Basic
import Mathlib.Logic.Function.Basic

/-! # Progress pings, statement by statement

The pings of any number of users for one video or recording, and a staff update that replaces the
video. A ping reads the video, enters the learning-write guard of its user, settles the duration,
looks up its row and saves it. Users with an enrollment hold its lock from the guard to the commit,
and their statements become visible with the commit; the statements of staff commit one by one.
Row ids and the creation and update times of rows are left out. -/

namespace LearningPlatform

open Shared

/-! ## Columns -/

/-- The range of an `integer` column; casting another number for the database raises. -/
def int4? (n : ℤ) : Bool :=
  decide (-2147483648 ≤ n) && decide (n ≤ 2147483647)

/-- The values of an `integer` column. -/
abbrev Int4 := { n : ℤ // int4? n = true }

def Int4.ofInt? (n : ℤ) : Option Int4 :=
  if h : int4? n = true then some ⟨n, h⟩ else none

/-- The columns of a content block or recording that pings read. -/
structure TrackedVideo where
  key : String
  duration : Option Int4
  deriving DecidableEq

/-- The reported numbers are counts that the columns can hold. -/
def Ping.WellFormed (ping : Ping) : Prop :=
  0 ≤ ping.totalWatchedSeconds ∧ int4? ping.lastPositionSeconds = true ∧
    int4? ping.totalWatchedSeconds = true ∧ int4? ping.durationSeconds = true

instance (ping : Ping) : Decidable ping.WellFormed :=
  inferInstanceAs (Decidable (_ ∧ _))

theorem int4?_max {a b : ℤ} (ha : int4? a = true) (hb : int4? b = true) :
    int4? (max a b) = true := by
  rcases max_choice a b with h | h
  · rwa [h]
  · rwa [h]

theorem int4?_capped {seconds : ℤ} (h : int4? seconds = true) (duration : Option ℤ) :
    int4? (capped seconds duration) = true := by
  simp only [int4?, Bool.and_eq_true, decide_eq_true_eq] at h ⊢
  unfold capped
  split
  · split <;> omega
  · exact h

/-! ## The two kinds of pings -/

/-- What the two `upsert` methods and their callers do with a row. -/
structure PingKind (ρ : Type*) where
  /-- The record that `find_or_initialize_by` builds for a user. -/
  fresh : ℕ → ρ
  /-- The duration that caps a report, from the stored duration and the report. -/
  known : Option ℤ → Ping → Option ℤ
  /-- The assignments and the callbacks before the save. -/
  record : Option ℤ → Ping → Time → ρ → ρ
  /-- The validations apart from uniqueness. -/
  valid : ρ → Bool
  /-- Every integer column is in the range of its type. -/
  fits : ρ → Bool
  /-- An `UPDATE` of the columns in which a record differs from the loaded row. -/
  update : ρ → ρ → ρ → ρ
  /-- A first report is stored as the duration of the video. -/
  storesDuration : Bool
  /-- The `rescue` of a uniqueness violation merges into the row that is there. -/
  retries : Bool
  total : ρ → ℤ
  total_fresh : ∀ userId, total (fresh userId) = 0
  total_record : ∀ duration ping now row, total (record duration ping now row) =
    max (total row) (capped ping.totalWatchedSeconds (known duration ping))
  valid_record : ∀ duration ping now row, 0 ≤ ping.totalWatchedSeconds →
    valid (record duration ping now row) = true
  fits_fresh : ∀ userId, fits (fresh userId) = true
  fits_record : ∀ (duration : Option Int4) ping now row, ping.WellFormed → fits row = true →
    fits (record (duration.map (·.val)) ping now row) = true
  update_record : ∀ duration ping now row,
    update row (record duration ping now row) row = record duration ping now row

def Progress.updateColumns (loaded changed current : Progress) : Progress :=
  { current with
    status := savedColumn loaded changed current (·.status)
    completedAt := savedColumn loaded changed current (·.completedAt)
    videoLastPosition := savedColumn loaded changed current (·.videoLastPosition)
    videoTotalWatched := savedColumn loaded changed current (·.videoTotalWatched)
    videoDuration := savedColumn loaded changed current (·.videoDuration) }

def WatchProgress.updateColumns (loaded changed current : WatchProgress) : WatchProgress :=
  { current with
    lastPositionSeconds := savedColumn loaded changed current (·.lastPositionSeconds)
    totalWatchedSeconds := savedColumn loaded changed current (·.totalWatchedSeconds)
    durationSeconds := savedColumn loaded changed current (·.durationSeconds)
    completed := savedColumn loaded changed current (·.completed)
    lastWatchedAt := savedColumn loaded changed current (·.lastWatchedAt) }

theorem capped_nonneg {seconds : ℤ} (h : 0 ≤ seconds) (duration : Option ℤ) :
    0 ≤ capped seconds duration := by
  unfold capped
  split
  · split <;> omega
  · exact h

/-- `ContentBlocksController#video_progress`. Its `rescue` reads a variable of the block that
failed, which is not defined there. -/
def PingKind.video (blockId : ℕ) : PingKind Progress where
  fresh userId := { id := 0, userId, contentBlockId := blockId }
  known duration _ := duration
  record duration ping now row := (row.recordVideo duration ping).setCompletedAt now
  valid _ := true
  fits row := int4? row.videoLastPosition && int4? row.videoTotalWatched &&
    row.videoDuration.all int4?
  update := Progress.updateColumns
  storesDuration := true
  retries := false
  total := (·.videoTotalWatched)
  total_fresh _ := rfl
  total_record _ _ _ _ := rfl
  valid_record _ _ _ _ _ := rfl
  fits_fresh _ := rfl
  fits_record duration ping now row hping hrow := by
    obtain ⟨-, hposition, htotal, -⟩ := hping
    simp only [Bool.and_eq_true] at hrow ⊢
    refine ⟨⟨int4?_max (int4?_capped hposition _) (by decide),
      int4?_max hrow.1.2 (int4?_capped htotal _)⟩, ?_⟩
    cases duration with
    | none => exact hrow.2
    | some duration => exact duration.property
  update_record duration ping now row := by
    simp only [Progress.updateColumns, changedColumn_current]
    rfl

def PingKind.watch (recordingId : ℕ) : PingKind WatchProgress where
  fresh userId := { id := 0, userId, recordingId }
  known duration ping := duration.or
    (if 0 < ping.durationSeconds then some ping.durationSeconds else none)
  record duration ping now row :=
    row.record { id := recordingId, cohortId := 0, durationSeconds := duration } ping now
  valid row := decide (0 ≤ row.lastPositionSeconds) && decide (0 ≤ row.totalWatchedSeconds)
  fits row := int4? row.lastPositionSeconds && int4? row.totalWatchedSeconds &&
    row.durationSeconds.all int4?
  update := WatchProgress.updateColumns
  storesDuration := false
  retries := true
  total := (·.totalWatchedSeconds)
  total_fresh _ := rfl
  total_record _ _ _ _ := rfl
  valid_record duration ping now row h := by
    simp only [Bool.and_eq_true, decide_eq_true_eq]
    exact ⟨le_max_right _ _, (capped_nonneg h _).trans (le_max_right _ _)⟩
  fits_fresh _ := rfl
  fits_record duration ping now row hping hrow := by
    obtain ⟨-, hposition, htotal, hduration⟩ := hping
    simp only [Bool.and_eq_true] at hrow ⊢
    refine ⟨⟨int4?_max (int4?_capped hposition _) (by decide),
      int4?_max hrow.1.2 (int4?_capped htotal _)⟩, ?_⟩
    cases duration with
    | none =>
      simp only [WatchProgress.record, Option.map_none, Option.none_or]
      split
      · exact hduration
      · rfl
    | some duration => exact duration.property
  update_record duration ping now row := by
    simp only [WatchProgress.updateColumns, changedColumn_current]
    rfl

/-! ## A staff update that replaces the video -/

inductive ReplacementRoute where
  /-- `content_blocks#update`, with the duration parameter if the request has one. -/
  | contentBlock (duration : Option (Option Int4))
  /-- `update_editor_video!`. -/
  | editor
  deriving DecidableEq

structure VideoReplacement (ρ : Type*) where
  key : String
  route : ReplacementRoute
  /-- The `update_all` of the progress rows. -/
  reset : ρ → ρ

/-- The replacement of the video of a content block. -/
def VideoReplacement.ofBlock (key : String) (route : ReplacementRoute) (now : Time) :
    VideoReplacement Progress where
  key := key
  route := route
  reset row := row.resetVideo now

/-- The duration that the replacement gives to the new video. -/
def VideoReplacement.given {ρ : Type*} (replacement : VideoReplacement ρ) : Option Int4 :=
  match replacement.route with
  | .contentBlock duration => duration.join
  | .editor => none

/-- The duration column after the update of a block loaded with duration `copy`. The column is not
written if the loaded copy has the given duration already, except by `update_column`. -/
def VideoReplacement.stored {ρ : Type*} (replacement : VideoReplacement ρ)
    (copy current : Option Int4) : Option Int4 :=
  if replacement.route ≠ .contentBlock none ∧ copy = replacement.given then current
  else replacement.given

inductive AdminPhase where
  | idle
  | loaded (copy : TrackedVideo)
  /-- The block is updated in an open transaction. -/
  | updated (video : TrackedVideo)
  /-- The rows of the given users are reset as well. -/
  | reset (video : TrackedVideo) (users : ℕ → Bool)
  | committed

/-! ## Phases of a ping -/

/-- The duration that a report is evaluated with, and whether this ping stored the duration. -/
structure Evaluation where
  duration : Option Int4
  won : Bool
  deriving DecidableEq

def Evaluation.seconds? (evaluation : Evaluation) : Option ℤ :=
  evaluation.duration.map (·.val)

inductive PingResponse where
  | success (evaluation : Evaluation)
  /-- 422, a failed validation. -/
  | invalid
  /-- 409, the class progress was restarted after the request had started. -/
  | conflict
  | notFound
  /-- 500, an exception that nobody rescues; a transaction of the guard is rolled back. -/
  | serverError
  deriving DecidableEq

inductive RowWrite (ρ : Type*) where
  | insert (row : ρ)
  | update (loaded changed : ρ)
  deriving DecidableEq

inductive PingPhase (ρ : Type*) where
  | waiting
  | loaded (copy : TrackedVideo)
  | entered (copy : TrackedVideo)
  /-- The conditional update of the duration found a duration; the block is reloaded next. -/
  | lost
  | resolved (evaluation : Evaluation)
  /-- The row that was looked up, and the record in memory. -/
  | found (evaluation : Evaluation) (loaded : Option ρ) (changed : ρ)
  /-- A new record that has passed the uniqueness validation. -/
  | validated (evaluation : Evaluation) (changed : ρ)
  /-- The insert raised `RecordNotUnique`. -/
  | collided (evaluation : Evaluation)
  /-- The transaction of the guard is about to commit, with the save of a valid record. -/
  | closing (evaluation : Evaluation) (write : Option (RowWrite ρ))
  | finished (response : PingResponse)
  deriving DecidableEq

namespace PingPhase

variable {ρ : Type*}

/-- The ping is between its guard and the end of the guarded block. -/
def inGuard? : PingPhase ρ → Bool
  | .entered _ | .lost | .resolved _ | .found _ _ _ | .validated _ _ | .closing _ _ => true
  | .waiting | .loaded _ | .collided _ | .finished _ => false

def inFlight? : PingPhase ρ → Bool
  | .waiting | .finished _ => false
  | _ => true

/-- The ping has stored a duration in a transaction that is still open, if it is in one. -/
def holdsDuration? : PingPhase ρ → Bool
  | .resolved evaluation | .found evaluation _ _ | .validated evaluation _
  | .closing evaluation _ => evaluation.won
  | _ => false

/-- The transaction is about to commit an update of a row. -/
def holdsRow? : PingPhase ρ → Bool
  | .closing _ (some (.update _ _)) => true
  | _ => false

end PingPhase

/-! ## The system -/

structure PingClient where
  userId : ℕ
  ping : Ping
  startedAt : Time

/-- The clients, the enrollment that guards the pings of a user, and the staff update, if any. -/
structure PingService (ι ρ : Type*) where
  kind : PingKind ρ
  clients : ι → PingClient
  enrollmentOf : ℕ → Option Enrollment
  replacement : Option (VideoReplacement ρ)

structure PingState (ι ρ : Type*) where
  video : TrackedVideo
  rows : ℕ → Option ρ
  clock : Time
  phase : ι → PingPhase ρ
  admin : AdminPhase

inductive PingAction (ι : Type*) where
  | tick
  /-- The next statement of a ping. -/
  | ping (i : ι)
  /-- The next statement of the staff update. -/
  | admin
  deriving DecidableEq

namespace PingService

variable {ι ρ : Type*} (service : PingService ι ρ)

def userOf (i : ι) : ℕ := (service.clients i).userId

def guardOf (i : ι) : Option Enrollment := service.enrollmentOf (service.userOf i)

/-- No ping holds the lock of the enrollment. -/
def LockFree (s : PingState ι ρ) (enrollment : Enrollment) : Prop :=
  ∀ j, (s.phase j).inGuard? = true → (service.guardOf j).map (·.id) ≠ some enrollment.id

/-- No open transaction has updated the block. -/
def BlockFree (s : PingState ι ρ) : Prop :=
  (∀ j, (service.guardOf j).isSome = true → (s.phase j).holdsDuration? = false) ∧
    match s.admin with
    | .updated _ | .reset _ _ => False
    | _ => True

instance [Fintype ι] (s : PingState ι ρ) (enrollment : Enrollment) :
    Decidable (service.LockFree s enrollment) :=
  inferInstanceAs (Decidable (∀ _, _))

instance [Fintype ι] (s : PingState ι ρ) : Decidable (service.BlockFree s) :=
  match h : s.admin with
  | .updated _ | .reset _ _ => .isFalse (by simp [BlockFree, h])
  | .idle | .loaded _ | .committed =>
    decidable_of_iff (∀ j, (service.guardOf j).isSome = true →
      (s.phase j).holdsDuration? = false) (by simp [BlockFree, h])

end PingService

namespace PingState

variable {ι ρ : Type*} [DecidableEq ι]

def setPhase (s : PingState ι ρ) (i : ι) (phase : PingPhase ρ) : PingState ι ρ :=
  { s with phase := Function.update s.phase i phase }

/-- An insert or an update of the row of a user becomes visible. -/
def applyWrite (s : PingState ι ρ) (kind : PingKind ρ) (userId : ℕ) (write : RowWrite ρ) :
    PingState ι ρ :=
  { s with
    rows := Function.update s.rows userId
      (match write with
        | .insert row => some row
        | .update loaded changed => (s.rows userId).map (kind.update loaded changed)) }

/-- The row is updated in the open transaction of the staff update. -/
def resetOpen (s : PingState ι ρ) (userId : ℕ) : Bool :=
  match s.admin with
  | .reset _ users => users userId
  | _ => false

end PingState

namespace PingService

variable {ι ρ : Type*} [DecidableEq ι] (service : PingService ι ρ)

/-- The record in memory after `upsert_video_progress` or `upsert_watch_progress`. -/
def upsert (i : ι) (evaluation : Evaluation) (now : Time) (loaded : Option ρ) : ρ :=
  service.kind.record evaluation.seconds? (service.clients i).ping now
    (loaded.getD (service.kind.fresh (service.userOf i)))

/-- The end of a save: with a guard the write waits for the commit. -/
def save (s : PingState ι ρ) (i : ι) (evaluation : Evaluation) (write : RowWrite ρ) :
    PingState ι ρ :=
  if (service.guardOf i).isSome then s.setPhase i (.closing evaluation (some write))
  else
    (s.applyWrite service.kind (service.userOf i) write).setPhase i
      (.finished (.success evaluation))

/-- The response to an invalid record; a guard still commits what came before. -/
def reject (s : PingState ι ρ) (i : ι) (evaluation : Evaluation) : PingState ι ρ :=
  if (service.guardOf i).isSome then s.setPhase i (.closing evaluation none)
  else s.setPhase i (.finished .invalid)

def commit (s : PingState ι ρ) (i : ι) (evaluation : Evaluation) (write : Option (RowWrite ρ)) :
    PingState ι ρ :=
  let video :=
    { s.video with duration := if evaluation.won then evaluation.duration else s.video.duration }
  match write with
  | some write =>
    { (s.applyWrite service.kind (service.userOf i) write).setPhase i
        (.finished (.success evaluation)) with video }
  | none => { s.setPhase i (.finished .invalid) with video }

/-- The lookup and the assignments of an `upsert`. -/
def find (s : PingState ι ρ) (i : ι) (evaluation : Evaluation) : PingState ι ρ :=
  let loaded := s.rows (service.userOf i)
  s.setPhase i (.found evaluation loaded (service.upsert i evaluation s.clock loaded))

/-- The conditional update has stored the reported duration; with a guard it waits for the
commit. -/
def win (s : PingState ι ρ) (i : ι) (duration : Int4) : PingState ι ρ :=
  let resolved := s.setPhase i (.resolved { duration := some duration, won := true })
  if (service.guardOf i).isSome then resolved
  else { resolved with video := { s.video with duration := some duration } }

variable [Fintype ι]

/-- `with_learning_write_guard`, up to the block it yields to; `none` while the lock is held. -/
def enter (s : PingState ι ρ) (i : ι) (next : PingState ι ρ) : Option (PingState ι ρ) :=
  match service.guardOf i with
  | none => some next
  | some enrollment =>
    if service.LockFree s enrollment then
      match enrollment.learningWriteGuard (service.clients i).startedAt with
      | .ok _ => some next
      | .error _ => some (s.setPhase i (.finished .conflict))
    else none

/-- The duration of a block that was loaded without one: a positive report is stored if there is
still none. The update waits for an open transaction that has updated the block. -/
def resolve (s : PingState ι ρ) (i : ι) (copy : TrackedVideo) : Option (PingState ι ρ) :=
  let reported := (service.clients i).ping.durationSeconds
  if service.kind.storesDuration && copy.duration.isNone && decide (0 < reported) then
    match Int4.ofInt? reported with
    | none => some (s.setPhase i (.finished .serverError))
    | some duration =>
      if s.video.duration.isSome then some (s.setPhase i .lost)
      else if service.BlockFree s then some (service.win s i duration)
      else none
  else some (s.setPhase i (.resolved { duration := copy.duration, won := false }))

/-- The next statement of a ping; `none` if it has to wait or has finished. -/
def pingStep (s : PingState ι ρ) (i : ι) : Option (PingState ι ρ) :=
  match s.phase i with
  | .waiting => some (s.setPhase i (.loaded s.video))
  | .loaded copy => service.enter s i (s.setPhase i (.entered copy))
  | .entered copy => service.resolve s i copy
  | .lost => some (s.setPhase i (.resolved { duration := s.video.duration, won := false }))
  | .resolved evaluation => some (service.find s i evaluation)
  | .found evaluation loaded changed =>
    if !service.kind.valid changed then some (service.reject s i evaluation)
    else
      match loaded with
      | some loaded =>
        if !service.kind.fits changed then some (s.setPhase i (.finished .serverError))
        else if s.resetOpen (service.userOf i) then none
        else some (service.save s i evaluation (.update loaded changed))
      | none =>
        if (s.rows (service.userOf i)).isSome then some (service.reject s i evaluation)
        else some (s.setPhase i (.validated evaluation changed))
  | .validated evaluation changed =>
    if !service.kind.fits changed then some (s.setPhase i (.finished .serverError))
    else if (s.rows (service.userOf i)).isSome then
      if service.kind.retries then some (s.setPhase i (.collided evaluation))
      else some (s.setPhase i (.finished .serverError))
    else some (service.save s i evaluation (.insert changed))
  | .collided evaluation =>
    match s.rows (service.userOf i) with
    | some _ => service.enter s i (service.find s i evaluation)
    | none => service.enter s i (s.setPhase i (.finished .notFound))
  | .closing evaluation write => some (service.commit s i evaluation write)
  | .finished _ => none

/-- The next statement of the staff update. An update that keeps the key is no replacement. -/
def adminStep (replacement : VideoReplacement ρ) (s : PingState ι ρ) : Option (PingState ι ρ) :=
  match s.admin with
  | .idle => some { s with admin := .loaded s.video }
  | .loaded copy =>
    if replacement.key = copy.key then none
    else if service.BlockFree s then
      some { s with
             admin := .updated
              { key := replacement.key
                duration := replacement.stored copy.duration s.video.duration } }
    else none
  | .updated video =>
    if ∀ j, (s.phase j).holdsRow? = false then
      some { s with admin := .reset video fun userId => (s.rows userId).isSome }
    else none
  | .reset video users =>
    some { s with
           video
           rows := fun userId =>
            if users userId then (s.rows userId).map replacement.reset else s.rows userId
           admin := .committed }
  | .committed => none

def step (s : PingState ι ρ) : PingAction ι → Option (PingState ι ρ)
  | .tick => some { s with clock := s.clock + 1 }
  | .ping i => service.pingStep s i
  | .admin =>
    match service.replacement with
    | none => none
    | some replacement => service.adminStep replacement s

end PingService

end LearningPlatform
