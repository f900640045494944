import LearningPlatform.Model.Learning

/-! # Video durations

The staff requests that change the duration of a recording or of a block's video, and their
sequences with the progress reports of the players. -/

namespace LearningPlatform

open Shared

/-! ## Replaced videos -/

/-- The video columns among the permitted parameters of a content block; a key that the request
does not carry is `none`. -/
structure BlockVideoParams where
  s3VideoKey : Option (Option String) := none
  s3VideoDurationSeconds : Option (Option ℤ) := none
  deriving DecidableEq, Repr

/-- The file changed, and there was one before. -/
def ContentBlock.videoReplaced (old block : ContentBlock) : Bool :=
  (presence old.s3VideoKey).isSome && block.s3VideoKey != old.s3VideoKey

/-- The block that `ContentBlocksController#update` saves: without an explicit duration a new
file has none. -/
def ContentBlock.updateVideo (old : ContentBlock) (params : BlockVideoParams) : ContentBlock :=
  let block :=
    { old with
      s3VideoKey := params.s3VideoKey.getD old.s3VideoKey
      s3VideoDurationSeconds := params.s3VideoDurationSeconds.getD old.s3VideoDurationSeconds }
  if old.videoReplaced block && params.s3VideoDurationSeconds.isNone then
    { block with s3VideoDurationSeconds := none }
  else block

/-- The block that `update_editor_video!` saves. -/
def ContentBlock.updateEditorVideo (old : ContentBlock) (s3VideoKey : Option (Option String)) :
    ContentBlock :=
  let block := { old with s3VideoKey := s3VideoKey.getD old.s3VideoKey }
  if block.s3VideoKey != old.s3VideoKey then { block with s3VideoDurationSeconds := none }
  else block

/-- The columns that `progresses.update_all` sets when the video is replaced. -/
def Progress.resetVideo (row : Progress) (now : Time) : Progress :=
  { row with
    videoLastPosition := 0
    videoTotalWatched := 0
    videoDuration := none
    status := .notStarted
    completedAt := none
    updatedAt := now }

def Database.saveVideo (db : Database) (old block : ContentBlock) (now : Time) : Database :=
  { db with
    contentBlocks := updateAll (·.id == old.id) (fun _ => block) db.contentBlocks
    progresses :=
      if old.videoReplaced block then
        updateAll (·.contentBlockId == old.id) (·.resetVideo now) db.progresses
      else db.progresses }

/-! ## Staff requests -/

def updateContentBlock (db : Database) (id : ℕ) (params : BlockVideoParams) (now : Time) :
    Except Failure Database := do
  let old ← orNotFound (db.contentBlock? id)
  .ok (db.saveVideo old (old.updateVideo params) now)

/-- `LessonsController#update_editor` with the id of a video. -/
def updateEditorVideo (db : Database) (lessonId id : ℕ) (s3VideoKey : Option (Option String))
    (now : Time) : Except Failure Database := do
  let old ← orNotFound (db.contentBlocks.find? fun block =>
    block.id == id && block.lessonId == lessonId &&
      (block.blockType == .video || block.blockType == .recording))
  .ok (db.saveVideo old (old.updateEditorVideo s3VideoKey) now)

def updateRecording (db : Database) (cohortId id : ℕ) (durationSeconds : Option (Option ℤ)) :
    Except Failure Database := do
  let recording ← orNotFound (db.recordings.find? fun recording =>
    recording.id == id && recording.cohortId == cohortId)
  .ok { db with
        recordings := updateAll (·.id == recording.id)
          (fun _ => { recording with
            durationSeconds := durationSeconds.getD recording.durationSeconds })
          db.recordings }

/-! ## Sequences of requests -/

inductive VideoRequest where
  | videoProgress (userId blockId : ℕ) (ping : Ping) (startedAt now : Time) (today : Date)
  | watchProgress (userId recordingId : ℕ) (ping : Ping) (startedAt now : Time) (today : Date)
  | updateContentBlock (id : ℕ) (params : BlockVideoParams) (now : Time)
  | updateEditorVideo (lessonId id : ℕ) (s3VideoKey : Option (Option String)) (now : Time)
  | updateRecording (cohortId id : ℕ) (durationSeconds : Option (Option ℤ))

def VideoRequest.execute (db : Database) : VideoRequest → Except Failure Database
  | .videoProgress userId blockId ping startedAt now today =>
    LearningCall.execute
      { userId, request := .videoProgress blockId ping, startedAt, now, today } db
  | .watchProgress userId recordingId ping startedAt now today =>
    LearningCall.execute
      { userId, request := .watchProgress recordingId ping, startedAt, now, today } db
  | .updateContentBlock id params now => LearningPlatform.updateContentBlock db id params now
  | .updateEditorVideo lessonId id s3VideoKey now =>
    LearningPlatform.updateEditorVideo db lessonId id s3VideoKey now
  | .updateRecording cohortId id durationSeconds =>
    LearningPlatform.updateRecording db cohortId id durationSeconds

def VideoRequest.perform (db : Database) (request : VideoRequest) : Database :=
  match request.execute db with
  | .ok db' => db'
  | .error _ => db

end LearningPlatform
