import LearningPlatform.Model.Video
import LearningPlatform.Verification.Learning.Loading

/-! # Rows of the progress reports

What a report leaves in the two tables, stated for an arbitrary property of the rows that the
timestamps do not matter for. -/

namespace LearningPlatform

open Shared

/-! ## Saved progress -/

/-- A property of all rows survives a `save` exactly if the changed record has it. -/
theorem forall_saveProgress_iff {P : Progress → Prop}
    (hP : ∀ (row : Progress) (completedAt : Option Time) (createdAt updatedAt : Time),
      P { row with completedAt, createdAt, updatedAt } ↔ P row)
    {db base : Database} {userId blockId nextId : ℕ} {now : Time}
    (change : Progress → Progress) (hid : ∀ row, (change row).id = row.id)
    (hprogresses : base.progresses = db.progresses) (hrows : ∀ row ∈ db.progresses, P row) :
    (∀ row ∈ ((db.saveProgress userId blockId nextId now change).writes.foldl
        LearningWrite.apply base).progresses, P row) ↔
      P (change (db.progressRecord userId blockId nextId)) := by
  have hsaved (row : Progress) (createdAt updatedAt : Time) :
      P { row.setCompletedAt now with createdAt, updatedAt } ↔ P row :=
    hP row _ createdAt updatedAt
  have hbase : ∀ row ∈ base.progresses, P row := hprogresses ▸ hrows
  unfold Database.saveProgress Database.progressRecord
  cases hrow : db.progressFor userId blockId with
  | none => exact (forall_append_singleton_iff hbase).trans (hsaved _ _ _)
  | some row =>
    obtain ⟨hmem, -⟩ := progressFor_mem hrow
    simp only [Option.getD_some]
    by_cases hsame : (change row).setCompletedAt now = row
    · rw [if_pos hsame]
      have hkept : P ((change row).setCompletedAt now) := by
        rw [hsame]
        exact hrows row hmem
      exact iff_of_true hbase ((hsaved (change row) (change row).createdAt _).mp hkept)
    · rw [if_neg hsame]
      refine (forall_replace_iff hbase (hprogresses ▸ hmem) ?_).trans (hsaved _ _ _)
      exact beq_iff_eq.mpr (hid row).symm

theorem saveProgress_frame (db base : Database) (userId blockId nextId : ℕ) (now : Time)
    (change : Progress → Progress) :
    let saved := (db.saveProgress userId blockId nextId now change).writes.foldl
      LearningWrite.apply base
    saved.watchProgresses = base.watchProgresses ∧ saved.contentBlocks = base.contentBlocks := by
  unfold Database.saveProgress
  split
  · dsimp only
    split <;> exact ⟨rfl, rfl⟩
  · exact ⟨rfl, rfl⟩

/-! ## Video reports -/

theorem writeVideoProgress_apply (db : Database) (user : User) (now : Time) (block : ContentBlock)
    (ping : Ping) :
    ∃ base : Database, base.progresses = db.progresses ∧
      base.watchProgresses = db.watchProgresses ∧
      base.contentBlocks = (if block.s3VideoDurationSeconds.isNone &&
          decide (0 < ping.durationSeconds) &&
          ((db.contentBlock? block.id).bind (·.s3VideoDurationSeconds)).isNone then
        updateAll (fun other => other.id == block.id && other.s3VideoDurationSeconds.isNone)
          (fun other => { other with s3VideoDurationSeconds := some ping.durationSeconds })
          db.contentBlocks
        else db.contentBlocks) ∧
      (writeVideoProgress db user now block ping).apply db =
        (db.saveProgress user.id block.id db.nextId now
          (·.recordVideo (db.videoDuration block ping) ping)).writes.foldl
            LearningWrite.apply base := by
  refine ⟨_, ?_, ?_, ?_, List.foldl_append⟩ <;>
    · dsimp only [Statements.ofUpdates]
      split <;> rfl

theorem forall_writeVideoProgress_iff {P : Progress → Prop}
    (hP : ∀ (row : Progress) (completedAt : Option Time) (createdAt updatedAt : Time),
      P { row with completedAt, createdAt, updatedAt } ↔ P row)
    {db : Database} (hrows : ∀ row ∈ db.progresses, P row) (user : User) (now : Time)
    (block : ContentBlock) (ping : Ping) :
    (∀ row ∈ ((writeVideoProgress db user now block ping).apply db).progresses, P row) ↔
      P ((db.progressRecord user.id block.id db.nextId).recordVideo
        (db.videoDuration block ping) ping) := by
  obtain ⟨base, hbase, -, -, heq⟩ := writeVideoProgress_apply db user now block ping
  rw [heq]
  exact forall_saveProgress_iff hP (·.recordVideo (db.videoDuration block ping) ping)
    (fun _ => rfl) hbase hrows

theorem writeVideoProgress_watchProgresses (db : Database) (user : User) (now : Time)
    (block : ContentBlock) (ping : Ping) :
    ((writeVideoProgress db user now block ping).apply db).watchProgresses =
      db.watchProgresses := by
  obtain ⟨base, -, hbase, -, heq⟩ := writeVideoProgress_apply db user now block ping
  rw [heq, (saveProgress_frame ..).1, hbase]

theorem writeVideoProgress_duration {db : Database} {user : User} {now : Time}
    {block : ContentBlock} {ping : Ping} {id : ℕ} {saved : ContentBlock}
    (h : ((writeVideoProgress db user now block ping).apply db).contentBlock? id = some saved) :
    ∃ old, db.contentBlock? id = some old ∧
      (saved.s3VideoDurationSeconds = old.s3VideoDurationSeconds ∨
        saved.s3VideoDurationSeconds = some ping.durationSeconds) := by
  obtain ⟨base, -, -, hbase, heq⟩ := writeVideoProgress_apply db user now block ping
  unfold Database.contentBlock? at h
  rw [heq, (saveProgress_frame ..).2, hbase] at h
  split at h
  · rw [find?_updateAll (fun _ _ => by rfl)] at h
    obtain ⟨old, hold, rfl⟩ := Option.map_eq_some_iff.mp h
    refine ⟨old, hold, ?_⟩
    split
    · exact .inr rfl
    · exact .inl rfl
  · exact ⟨saved, h, .inl rfl⟩

/-! ## Watch reports -/

/-- The record that `find_or_initialize_by` returns for a recording. -/
def Database.watchRecord (db : Database) (userId recordingId : ℕ) : WatchProgress :=
  (db.watchProgresses.find? fun row =>
    row.userId == userId && row.recordingId == recordingId).getD
      { id := db.nextId, userId, recordingId }

theorem forall_writeWatchProgress_iff {P : WatchProgress → Prop}
    (hP : ∀ (row : WatchProgress) (createdAt updatedAt : Time),
      P { row with createdAt, updatedAt } ↔ P row)
    {db : Database} (hrows : ∀ row ∈ db.watchProgresses, P row) (user : User) (now : Time)
    (recording : Recording) (ping : Ping) :
    (∀ row ∈ ((writeWatchProgress db user now recording ping).apply db).watchProgresses, P row) ↔
      P ((db.watchRecord user.id recording.id).record recording ping now) := by
  unfold writeWatchProgress Database.watchRecord
  cases hrow : db.watchProgresses.find? fun row =>
      row.userId == user.id && row.recordingId == recording.id with
  | none => exact (forall_append_singleton_iff hrows).trans (hP _ _ _)
  | some row =>
    have hmem := List.mem_of_find?_eq_some hrow
    refine (forall_replace_iff hrows hmem ?_).trans
      (hP (row.record recording ping now) row.createdAt now)
    exact beq_self_eq_true row.id

theorem writeWatchProgress_frame (db : Database) (user : User) (now : Time)
    (recording : Recording) (ping : Ping) :
    let saved := (writeWatchProgress db user now recording ping).apply db
    saved.progresses = db.progresses ∧ saved.contentBlocks = db.contentBlocks := by
  unfold writeWatchProgress
  split <;> exact ⟨rfl, rfl⟩

/-! ## Accepted reports -/

section Accepted

variable {db db' : Database} {userId id : ℕ} {ping : Ping} {startedAt now : Time} {today : Date}

theorem execute_videoProgress_eq_ok
    (h : (VideoRequest.videoProgress userId id ping startedAt now today).execute db = .ok db') :
    ∃ user block, user.id = userId ∧ db.contentBlock? id = some block ∧ block.id = id ∧
      db' = (writeVideoProgress db user now block ping).apply db := by
  obtain ⟨user, _, statements, huser, hload, -, hwrite, rfl⟩ := LearningCall.execute_eq_ok.mp h
  obtain ⟨block, _, hblock, rfl⟩ := loadVideoProgress_eq_ok hload
  cases hwrite
  exact ⟨user, block, user?_id (authenticate_eq_ok huser), hblock, contentBlock?_id hblock, rfl⟩

theorem execute_watchProgress_eq_ok
    (h : (VideoRequest.watchProgress userId id ping startedAt now today).execute db = .ok db') :
    ∃ user recording, user.id = userId ∧ db.recording? id = some recording ∧ recording.id = id ∧
      db' = (writeWatchProgress db user now recording ping).apply db := by
  obtain ⟨user, _, statements, huser, hload, -, hwrite, rfl⟩ := LearningCall.execute_eq_ok.mp h
  obtain ⟨recording, _, hrecording, rfl⟩ := loadWatchProgress_eq_ok hload
  cases hwrite
  exact ⟨user, recording, user?_id (authenticate_eq_ok huser), hrecording,
    (recording?_mem hrecording).2, rfl⟩

end Accepted

end LearningPlatform
