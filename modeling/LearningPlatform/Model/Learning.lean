import LearningPlatform.Model.Content

/-! # Learning writes

The actions that store submissions, grades, progress, knowledge-check attempts, video and
watch pings. An action loads its records and decides whether it may go on, enters the
learning-write guard, and then issues its statements. The three parts are separate
functions, because other requests can run between them. Integer columns are unbounded. -/

namespace LearningPlatform

open Shared

/-! ## Parameters -/

/-- The submission columns that a request may set; an absent key is `none`. -/
structure SubmissionParams where
  text : Option (Option String) := none
  githubIssueUrl : Option (Option String) := none
  githubCodeUrl : Option (Option String) := none
  repoUrl : Option (Option String) := none
  prUrl : Option (Option String) := none
  liveUrl : Option (Option String) := none
  branch : Option (Option String) := none
  commitSha : Option (Option String) := none
  notes : Option (Option String) := none
  deriving DecidableEq, Repr

/-- `assign_attributes`. -/
def SubmissionContent.assign (content : SubmissionContent) (params : SubmissionParams) :
    SubmissionContent where
  text := params.text.getD content.text
  githubIssueUrl := params.githubIssueUrl.getD content.githubIssueUrl
  githubCodeUrl := params.githubCodeUrl.getD content.githubCodeUrl
  repoUrl := params.repoUrl.getD content.repoUrl
  prUrl := params.prUrl.getD content.prUrl
  liveUrl := params.liveUrl.getD content.liveUrl
  branch := params.branch.getD content.branch
  commitSha := params.commitSha.getD content.commitSha
  notes := params.notes.getD content.notes

/-- One element of `criterion_results`; a rating that is no label is `none`. -/
structure CriterionParams where
  rubricCriterionId : ℕ
  rating : Option Rating
  feedback : Option String := none
  deriving DecidableEq, Repr

/-- The seconds a player reports, after `to_i`. -/
structure Ping where
  lastPositionSeconds : ℤ := 0
  totalWatchedSeconds : ℤ := 0
  durationSeconds : ℤ := 0
  deriving DecidableEq, Repr

inductive LearningRequest where
  | createSubmission (contentBlockId : ℕ) (params : SubmissionParams)
  | updateSubmission (id : ℕ) (params : SubmissionParams)
  | gradeSubmission (id : ℕ) (grade : Param) (feedback : Option String)
      (results : Option (List CriterionParams))
  | updateProgress (contentBlockId : ℕ) (status : Param)
  /-- `selectedOption` is `Integer(params.require(:selected_option))`, or the message of the
  error it raises. -/
  | createAttempt (knowledgeCheckId : ℕ) (selectedOption : Except String ℤ)
  | videoProgress (contentBlockId : ℕ) (ping : Ping)
  | watchProgress (recordingId : ℕ) (ping : Ping)

/-- Assignment to an `enum` column, whose labels are listed in the order of the stored
integers: a label, an integer or a blank value; anything else raises. -/
def castEnum {α : Type*} (name : String) (labels : List (String × α)) (value : Param) :
    Except Failure (Option α) :=
  let found :=
    match value with
    | .int n => if n < 0 then none else (labels[n.toNat]?).map Prod.snd
    | .str text => labels.lookup text
    | _ => none
  match found with
  | some label => .ok (some label)
  | none =>
    match value with
    | .null | .bool false => .ok none
    | .str text =>
      if blank? text then .ok none
      else .error (.argumentError ("'" ++ text ++ "' is not a valid " ++ name))
    | _ => .error (.argumentError ("'" ++ value.toText ++ "' is not a valid " ++ name))

def Progress.statuses : List (String × ProgressStatus) :=
  [("not_started", .notStarted), ("in_progress", .inProgress), ("completed", .completed)]

def Submission.grades : List (String × Grade) :=
  [("A", .A), ("B", .B), ("C", .C), ("R", .R)]

/-! ## Records in memory -/

/-- What an action holds when it enters the guard. A submission without an id is new. -/
inductive LearningAction where
  /-- `existing` is the submission that `num_submissions` was counted from. -/
  | createSubmission (submission : Submission) (existing : Option Submission)
  | updateSubmission (submission : Submission) (params : SubmissionParams)
  | gradeSubmission (submission : Submission) (grade : Param) (feedback : Option String)
      (results : Option (List CriterionParams))
  /-- `answered` holds the correct attempts that allow a retrieval check to be completed. -/
  | updateProgress (block : ContentBlock) (status : Param)
      (answered : List KnowledgeCheckAttempt)
  | createAttempt (check : KnowledgeCheck) (selectedOption : ℤ)
  | videoProgress (block : ContentBlock) (ping : Ping)
  | watchProgress (recording : Recording) (ping : Ping)
  deriving DecidableEq

/-- An action with the current user and the enrollment that guards its write. -/
structure LoadedRequest where
  user : User
  enrollment : Option Enrollment
  action : LearningAction
  deriving DecidableEq

/-! ## Loading -/

/-- Renders `failure` and stops when the condition does not hold. -/
def ensure (condition : Bool) (failure : Failure) : Except Failure Unit :=
  if condition then .ok () else .error failure

variable (db : Database)

def Database.lessonOf (block : ContentBlock) : Except Failure (Lesson × CurriculumModule) := do
  let lesson ← orNotFound (db.lesson? block.lessonId)
  let m ← orNotFound (db.module? lesson.moduleId)
  .ok (lesson, m)

/-- `SubmissionsController#effective_submission_type_for`. -/
def Database.submissionTypeFor (user : User) (block : ContentBlock) :
    Except Failure SubmissionType := do
  let (lesson, m) ← db.lessonOf block
  let requiresGithub := ((db.activeEnrollmentFor user m.curriculumId).map fun (_, cohort) =>
    cohort.requiresGithub lesson.moduleId).getD false
  .ok (block.effectiveSubmissionType lesson m requiresGithub)

def blankParam (value : Option (Option String)) : Bool :=
  blank? (strip (value.join.getD ""))

def validateSubmissionPayload (type : SubmissionType) (params : SubmissionParams) :
    Option String :=
  match type with
  | .textSubmission => if blankParam params.text then some "Submission text is required" else none
  | .repoUrlSubmission =>
    if blankParam params.repoUrl then some "Repository URL is required" else none
  | .repoAndLiveUrlSubmission =>
    if blankParam params.repoUrl then some "Repository URL is required"
    else if blankParam params.liveUrl then some "Live URL is required"
    else none
  | _ => none

/-- `Submission.where(user:, content_block_id:).order(:created_at).last`. -/
def Database.latestSubmission (userId blockId : ℕ) : Option Submission :=
  ((db.submissions.filter fun row => row.userId == userId && row.contentBlockId == blockId)
    |>.insertionSort fun first second => first.createdAt ≤ second.createdAt).getLast?

/-- `SubmissionsController#create`, up to the guard. -/
def loadCreateSubmission (user : User) (blockId : ℕ) (params : SubmissionParams) (on : Date)
    (now : Time) : Except Failure LoadedRequest := do
  let block ← orNotFound (db.contentBlock? blockId)
  let granted ← authorizeContentBlockWrite! db user block on
  authorizeSubmissionWindowOpen! db user block now
  let type ← db.submissionTypeFor user block
  ensure (type != .manualComplete) (.unprocessable "This block does not accept submissions")
  ensure (type != .preworkGithubSync)
    (.unprocessable "This block is reviewed through GitHub sync, not manual submission")
  match validateSubmissionPayload type params with
  | some message => .error (.unprocessable message)
  | none =>
    let existing := db.latestSubmission user.id block.id
    let submission : Submission :=
      { id := 0
        userId := user.id
        contentBlockId := block.id
        submissionType := some type
        content := SubmissionContent.assign {} params
        numSubmissions := (existing.map (·.numSubmissions + 1)).getD 1 }
    .ok { user
          enrollment := granted.map Prod.fst
          action := .createSubmission submission existing }

/-- `SubmissionsController#update`, up to the guard; staff enter no guard. -/
def loadUpdateSubmission (db : Database) (user : User) (id : ℕ) (params : SubmissionParams)
    (on : Date) (now : Time) : Except Failure LoadedRequest := do
  let submission ← orNotFound (db.submission? id)
  if user.staff? then
    .ok { user, enrollment := none, action := .updateSubmission submission params }
  else
    ensure (submission.userId == user.id && submission.grade.isNone)
      (.forbidden "Cannot update this submission")
    let block ← orNotFound (db.contentBlock? submission.contentBlockId)
    let granted ← authorizeContentBlockWrite! db user block on
    authorizeSubmissionWindowOpen! db user block now
    .ok { user
          enrollment := granted.map Prod.fst
          action := .updateSubmission submission params }

/-- `learning_enrollment_for`: the enrollment may have any status. -/
def Database.learningEnrollmentFor (userId curriculumId : ℕ) : Option Enrollment :=
  db.enrollments.find? fun enrollment =>
    enrollment.userId == userId &&
      (db.cohort? enrollment.cohortId).any (·.curriculumId == curriculumId)

/-- `SubmissionsController#grade`, up to the guard. -/
def loadGradeSubmission (user : User) (id : ℕ) (grade : Param) (feedback : Option String)
    (results : Option (List CriterionParams)) : Except Failure LoadedRequest := do
  let submission ← orNotFound (db.submission? id)
  ensure user.staff? (.forbidden "Staff access required")
  let block ← orNotFound (db.contentBlock? submission.contentBlockId)
  let expected := ((block.rubricId.map fun rubricId =>
    db.rubricCriteria.filter (·.rubricId == rubricId)).getD []).map (·.id)
  let rated := results.all fun results =>
    (results.map (·.rubricCriterionId)).insertionSort (· ≤ ·) == expected.insertionSort (· ≤ ·)
  ensure rated (.unprocessable
    (if block.rubricId.isSome then "Rate every rubric criterion before grading"
      else "This submission does not use a rubric"))
  let (_, m) ← db.lessonOf block
  .ok { user
        enrollment := db.learningEnrollmentFor submission.userId m.curriculumId
        action := .gradeSubmission submission grade feedback results }

def Database.correctAttempts (user : User) (check : KnowledgeCheck) : List KnowledgeCheckAttempt :=
  db.knowledgeCheckAttempts.filter fun attempt =>
    attempt.knowledgeCheckId == check.id && attempt.userId == user.id && attempt.correct

/-- `ProgressController#update`, up to the guard. The checks compare the text of the status
parameter. -/
def loadUpdateProgress (user : User) (blockId : ℕ) (status : Param) (on : Date) (now : Time) :
    Except Failure LoadedRequest := do
  let block ← orNotFound (db.contentBlock? blockId)
  let granted ← authorizeContentBlockWrite! db user block on
  let completing := status.toText == "completed"
  let check := if completing then
    db.knowledgeChecks.find? (·.contentBlockId == block.id) else none
  let answered := (check.map (db.correctAttempts user)).getD []
  ensure (check.isNone || !answered.isEmpty)
    (.unprocessable "Answer the retrieval check correctly to complete this checkpoint.")
  if completing && block.studentWorkBlock? then
    authorizeSubmissionWindowOpen! db user block now
  .ok { user
        enrollment := granted.map Prod.fst
        action := .updateProgress block status answered }

/-- `KnowledgeCheckAttemptsController#create`, up to the guard. -/
def loadCreateAttempt (user : User) (checkId : ℕ) (selectedOption : Except String ℤ) (on : Date) :
    Except Failure LoadedRequest := do
  ensure user.student? (.forbidden "Only students can record retrieval-check evidence")
  let check ← orNotFound (db.knowledgeCheck? checkId)
  let block ← orNotFound (db.contentBlock? check.contentBlockId)
  let granted ← authorizeContentBlockWrite! db user block on
  match selectedOption with
  | .error message => .error (.unprocessable message)
  | .ok selectedOption =>
    .ok { user
          enrollment := granted.map Prod.fst
          action := .createAttempt check selectedOption }

/-- `ContentBlocksController#video_progress`, up to the guard. The gate asks only for an
active enrollment. -/
def loadVideoProgress (user : User) (blockId : ℕ) (ping : Ping) : Except Failure LoadedRequest := do
  let block ← orNotFound (db.contentBlock? blockId)
  let (_, m) ← db.lessonOf block
  let granted := if user.staff? then none else db.activeEnrollmentFor user m.curriculumId
  ensure (user.staff? || granted.isSome) (.forbidden "Not enrolled in this curriculum")
  ensure (presence block.s3VideoKey).isSome
    (.unprocessable "Content block has no video to track")
  .ok { user, enrollment := granted.map Prod.fst, action := .videoProgress block ping }

/-- `WatchProgressesController#update`, up to the guard. -/
def loadWatchProgress (user : User) (recordingId : ℕ) (ping : Ping) :
    Except Failure LoadedRequest := do
  let recording ← orNotFound (db.recording? recordingId)
  let enrollment := if user.staff? then none else db.enrollments.find? fun enrollment =>
    enrollment.userId == user.id && enrollment.cohortId == recording.cohortId &&
      enrollment.status == .active
  ensure (user.staff? || enrollment.isSome) (.forbidden "Not enrolled in this cohort")
  .ok { user, enrollment, action := .watchProgress recording ping }

def LearningRequest.load (request : LearningRequest) (db : Database) (user : User) (on : Date)
    (now : Time) : Except Failure LoadedRequest :=
  match request with
  | .createSubmission blockId params => loadCreateSubmission db user blockId params on now
  | .updateSubmission id params => loadUpdateSubmission db user id params on now
  | .gradeSubmission id grade feedback results =>
    loadGradeSubmission db user id grade feedback results
  | .updateProgress blockId status => loadUpdateProgress db user blockId status on now
  | .createAttempt checkId selectedOption => loadCreateAttempt db user checkId selectedOption on
  | .videoProgress blockId ping => loadVideoProgress db user blockId ping
  | .watchProgress recordingId ping => loadWatchProgress db user recordingId ping

/-! ## The learning-write guard -/

/-- `Enrollment#with_learning_write_guard`, up to the block it yields to. -/
def Enrollment.learningWriteGuard (enrollment : Enrollment) (startedAt : Time) :
    Except Failure Unit :=
  match enrollment.learningStateResetAt with
  | none => .ok ()
  | some resetAt => if startedAt ≤ resetAt then .error .staleLearningWrite else .ok ()

/-- The check of the guard on the row that `with_lock` reloads. -/
def LoadedRequest.guard (request : LoadedRequest) (db : Database) (startedAt : Time) :
    Except Failure Unit :=
  match request.enrollment with
  | none => .ok ()
  | some enrollment => do
    let enrollment ← orNotFound (db.enrollment? enrollment.id)
    enrollment.learningWriteGuard startedAt

/-! ## Statements -/

/-- An `INSERT`, `UPDATE` or `DELETE` on the learning tables. -/
inductive LearningWrite where
  | insertSubmission (row : Submission)
  /-- The columns in which `changed` differs from the loaded record are written. -/
  | updateSubmission (loaded changed : Submission)
  | deleteCriterionResults (submissionId : ℕ)
  | insertCriterionResult (row : SubmissionCriterionResult)
  | insertProgress (row : Progress)
  | updateProgress (row : Progress)
  | insertAttempt (row : KnowledgeCheckAttempt)
  | insertWatchProgress (row : WatchProgress)
  | updateWatchProgress (row : WatchProgress)
  | setVideoDuration (blockId : ℕ) (seconds : ℤ)
  deriving DecidableEq

/-- The value of a column after an `UPDATE` of the changed columns. -/
def changedColumn {α : Type*} [DecidableEq α] (loaded changed current : α) : α :=
  if changed = loaded then current else changed

@[simp] theorem changedColumn_current {α : Type*} [DecidableEq α] (loaded changed : α) :
    changedColumn loaded changed loaded = changed := by
  unfold changedColumn
  split
  · rename_i hsame
    exact hsame.symm
  · rfl

abbrev savedColumn {ρ α : Type*} [DecidableEq α] (loaded changed current : ρ) (column : ρ → α) :
    α :=
  changedColumn (column loaded) (column changed) (column current)

def SubmissionContent.update (loaded changed current : SubmissionContent) :
    SubmissionContent where
  text := savedColumn loaded changed current (·.text)
  githubIssueUrl := savedColumn loaded changed current (·.githubIssueUrl)
  githubCodeUrl := savedColumn loaded changed current (·.githubCodeUrl)
  repoUrl := savedColumn loaded changed current (·.repoUrl)
  prUrl := savedColumn loaded changed current (·.prUrl)
  liveUrl := savedColumn loaded changed current (·.liveUrl)
  branch := savedColumn loaded changed current (·.branch)
  commitSha := savedColumn loaded changed current (·.commitSha)
  notes := savedColumn loaded changed current (·.notes)

def Submission.update (loaded changed current : Submission) : Submission :=
  { current with
    content := SubmissionContent.update loaded.content changed.content current.content
    grade := savedColumn loaded changed current (·.grade)
    feedback := savedColumn loaded changed current (·.feedback)
    gradedById := savedColumn loaded changed current (·.gradedById)
    gradedAt := savedColumn loaded changed current (·.gradedAt)
    updatedAt := savedColumn loaded changed current (·.updatedAt) }

def LearningWrite.apply : LearningWrite → Database
  | .insertSubmission row => { db with submissions := db.submissions ++ [row] }
  | .updateSubmission loaded changed =>
    { db with
      submissions := updateAll (·.id == loaded.id) (Submission.update loaded changed)
        db.submissions }
  | .deleteCriterionResults submissionId =>
    { db with
      submissionCriterionResults :=
        deleteAll (·.submissionId == submissionId) db.submissionCriterionResults }
  | .insertCriterionResult row =>
    { db with submissionCriterionResults := db.submissionCriterionResults ++ [row] }
  | .insertProgress row => { db with progresses := db.progresses ++ [row] }
  | .updateProgress row =>
    { db with progresses := updateAll (·.id == row.id) (fun _ => row) db.progresses }
  | .insertAttempt row => { db with knowledgeCheckAttempts := db.knowledgeCheckAttempts ++ [row] }
  | .insertWatchProgress row => { db with watchProgresses := db.watchProgresses ++ [row] }
  | .updateWatchProgress row =>
    { db with watchProgresses := updateAll (·.id == row.id) (fun _ => row) db.watchProgresses }
  | .setVideoDuration blockId seconds =>
    { db with
      contentBlocks := updateAll
        (fun block => block.id == blockId && block.s3VideoDurationSeconds.isNone)
        (fun block => { block with s3VideoDurationSeconds := some seconds }) db.contentBlocks }

/-- The statements of an action and the sequence value after its inserts. -/
structure Statements where
  writes : List LearningWrite
  nextId : ℕ
  deriving DecidableEq

/-- Statements that draw no id. -/
def Statements.ofUpdates (writes : List LearningWrite) : Statements where
  writes
  nextId := db.nextId

def Statements.append (first second : Statements) : Statements where
  writes := first.writes ++ second.writes
  nextId := second.nextId

/-! ## Progress -/

/-- `before_save :set_completed_at`. -/
def Progress.setCompletedAt (row : Progress) (now : Time) : Progress :=
  { row with
    completedAt := if row.status = .completed then row.completedAt.or (some now) else none }

def Database.progressFor (userId blockId : ℕ) : Option Progress :=
  db.progresses.find? fun row => row.userId == userId && row.contentBlockId == blockId

/-- `find_or_initialize_by` and `save`, with `change` between them; a new row takes the id
`nextId`. An unchanged row is not written. -/
def Database.saveProgress (userId blockId nextId : ℕ) (now : Time) (change : Progress → Progress) :
    Statements :=
  match db.progressFor userId blockId with
  | some row =>
    let changed := (change row).setCompletedAt now
    { writes := if changed = row then [] else [.updateProgress { changed with updatedAt := now }]
      nextId }
  | none =>
    let row := (change { id := nextId, userId, contentBlockId := blockId }).setCompletedAt now
    { writes := [.insertProgress { row with createdAt := now, updatedAt := now }]
      nextId := nextId + 1 }

/-- `progress.update!(status: )`. -/
def Database.saveStatus (userId blockId nextId : ℕ) (now : Time) (status : ProgressStatus) :
    Statements :=
  db.saveProgress userId blockId nextId now fun row => { row with status }

/-! ## Statements of the actions -/

/-- `@submission.update`; a record without changes is not written. -/
def Submission.saveChanges (loaded changed : Submission) (now : Time) : List LearningWrite :=
  if changed = loaded then [] else [.updateSubmission loaded { changed with updatedAt := now }]

/-- The criterion results of a grading, with ids from `nextId` on. -/
def createCriterionResults (submission : Submission) (results : List CriterionParams) :
    Except Failure (List LearningWrite) :=
  results.zipIdx.mapM fun (result, index) =>
    match result.rating with
    | none => .error (.recordInvalid ["Rating is not included in the list"])
    | some rating =>
      if db.submissions.any (·.id == submission.id) then
        .ok (.insertCriterionResult
          { id := db.nextId + index
            submissionId := submission.id
            rubricCriterionId := result.rubricCriterionId
            rating
            feedback := result.feedback })
      else .error (.invalidForeignKey "submission_criterion_results" "submission_id")

def writeGradeSubmission (user : User) (now : Time) (submission : Submission) (grade : Param)
    (feedback : Option String) (results : Option (List CriterionParams)) :
    Except Failure Statements := do
  let grade ← castEnum "grade" Submission.grades grade
  let update := submission.saveChanges
    { submission with grade, feedback, gradedById := some user.id, gradedAt := some now } now
  let inserts ← createCriterionResults db submission (results.getD [])
  let deletes := if results.isSome then [LearningWrite.deleteCriterionResults submission.id]
    else []
  let status := if grade = some Grade.R then ProgressStatus.inProgress else .completed
  let graded : Statements :=
    { writes := update ++ deletes ++ inserts, nextId := db.nextId + inserts.length }
  .ok (graded.append
    (db.saveStatus submission.userId submission.contentBlockId graded.nextId now status))

def writeUpdateProgress (user : User) (now : Time) (block : ContentBlock) (status : Param) :
    Except Failure Statements := do
  match ← castEnum "status" Progress.statuses status with
  | none => .error (.notNullViolation "status")
  | some status => .ok (db.saveStatus user.id block.id db.nextId now status)

/-- The validations of `KnowledgeCheckAttempt`. -/
def attemptErrors (check : KnowledgeCheck) (selectedOption : ℤ) : List String :=
  if selectedOption < 0 then ["Selected option must be greater than or equal to 0"]
  else if selectedOption < check.options.length then []
  else ["Selected option must identify one of the choices"]

def writeCreateAttempt (user : User) (now : Time) (check : KnowledgeCheck) (selectedOption : ℤ) :
    Except Failure Statements := do
  let attempt ← saveUnless (attemptErrors check selectedOption)
    ({ id := db.nextId
       userId := user.id
       knowledgeCheckId := check.id
       selectedOption
       correct := selectedOption == check.correctOption
       createdAt := now
       updatedAt := now } : KnowledgeCheckAttempt)
  let created : Statements := { writes := [.insertAttempt attempt], nextId := db.nextId + 1 }
  .ok (if attempt.correct then
    created.append (db.saveStatus user.id check.contentBlockId created.nextId now .completed)
    else created)

/-- A reported position or watch time, capped by a positive duration. -/
def capped (seconds : ℤ) (duration : Option ℤ) : ℤ :=
  match duration with
  | some duration => if 0 < duration then min seconds duration else seconds
  | none => seconds

/-- `watched >= duration * 0.9` for a positive duration. -/
def watchedEnough (watched : ℤ) (duration : Option ℤ) : Bool :=
  match duration with
  | some duration => decide (0 < duration) && decide (9 * duration ≤ 10 * watched)
  | none => false

/-- `upsert_video_progress`. -/
def Progress.recordVideo (row : Progress) (duration : Option ℤ) (ping : Ping) : Progress :=
  let watched := max row.videoTotalWatched (capped ping.totalWatchedSeconds duration)
  { row with
    videoDuration := duration.or row.videoDuration
    videoLastPosition := max (capped ping.lastPositionSeconds duration) 0
    videoTotalWatched := watched
    status :=
      if watchedEnough watched duration then .completed
      else if row.status = .notStarted then .inProgress
      else row.status }

/-- The authoritative duration: the stored one or, for a block loaded without a duration, the
first positive report. -/
def Database.videoDuration (block : ContentBlock) (ping : Ping) : Option ℤ :=
  if block.s3VideoDurationSeconds.isNone && decide (0 < ping.durationSeconds) then
    ((db.contentBlock? block.id).bind (·.s3VideoDurationSeconds)).or (some ping.durationSeconds)
  else block.s3VideoDurationSeconds

/-- A first report is stored if no other request stored one since the block was loaded. -/
def writeVideoProgress (user : User) (now : Time) (block : ContentBlock) (ping : Ping) :
    Statements :=
  let reporting := block.s3VideoDurationSeconds.isNone && decide (0 < ping.durationSeconds)
  let stored := (db.contentBlock? block.id).bind (·.s3VideoDurationSeconds)
  let locked := Statements.ofUpdates db
    (if reporting && stored.isNone then [.setVideoDuration block.id ping.durationSeconds] else [])
  locked.append (db.saveProgress user.id block.id db.nextId now
    (·.recordVideo (db.videoDuration block ping) ping))

/-- `upsert_watch_progress` and `before_save :check_completion`. -/
def WatchProgress.record (row : WatchProgress) (recording : Recording) (ping : Ping) (now : Time) :
    WatchProgress :=
  let duration := recording.durationSeconds.or
    (if 0 < ping.durationSeconds then some ping.durationSeconds else none)
  let watched := max row.totalWatchedSeconds (capped ping.totalWatchedSeconds duration)
  { row with
    durationSeconds := duration
    lastPositionSeconds := max (capped ping.lastPositionSeconds duration) 0
    totalWatchedSeconds := watched
    lastWatchedAt := some now
    completed := row.completed || watchedEnough watched duration }

def writeWatchProgress (user : User) (now : Time) (recording : Recording) (ping : Ping) :
    Statements :=
  match db.watchProgresses.find? fun row =>
      row.userId == user.id && row.recordingId == recording.id with
  | some row =>
    Statements.ofUpdates db
      [.updateWatchProgress { row.record recording ping now with updatedAt := now }]
  | none =>
    let row := WatchProgress.record
      { id := db.nextId, userId := user.id, recordingId := recording.id } recording ping now
    { writes := [.insertWatchProgress { row with createdAt := now, updatedAt := now }]
      nextId := db.nextId + 1 }

/-- The block that the guard yields to. -/
def LoadedRequest.write (request : LoadedRequest) (db : Database) (now : Time) :
    Except Failure Statements :=
  match request.action with
  | .createSubmission submission _ =>
    let row := { submission with id := db.nextId, createdAt := now, updatedAt := now }
    let created : Statements := { writes := [.insertSubmission row], nextId := db.nextId + 1 }
    .ok (created.append
      (db.saveStatus row.userId row.contentBlockId created.nextId now .completed))
  | .updateSubmission submission params =>
    .ok (Statements.ofUpdates db (submission.saveChanges
      { submission with content := submission.content.assign params } now))
  | .gradeSubmission submission grade feedback results =>
    writeGradeSubmission db request.user now submission grade feedback results
  | .updateProgress block status _ => writeUpdateProgress db request.user now block status
  | .createAttempt check selectedOption =>
    writeCreateAttempt db request.user now check selectedOption
  | .videoProgress block ping => .ok (writeVideoProgress db request.user now block ping)
  | .watchProgress recording ping => .ok (writeWatchProgress db request.user now recording ping)

/-! ## Whole requests -/

def Statements.apply (statements : Statements) (db : Database) : Database :=
  statements.writes.foldl LearningWrite.apply { db with nextId := statements.nextId }

/-- A request with its user, its start time, and the time and date it reads. -/
structure LearningCall where
  userId : ℕ
  request : LearningRequest
  startedAt : Time
  now : Time
  today : Date

/-- `authenticate_user!` for a known identity. -/
def Database.authenticate (userId : ℕ) : Except Failure User :=
  match db.user? userId with
  | none => .error (.unauthorized "Unable to authenticate user")
  | some user =>
    if user.archived? then
      .error (.forbidden ("This CSG account has been deactivated. " ++
        "Contact Code School support if you believe this is a mistake."))
    else .ok user

/-- A request that no other request interrupts. -/
def LearningCall.execute (call : LearningCall) (db : Database) : Except Failure Database := do
  let user ← db.authenticate call.userId
  let loaded ← call.request.load db user call.today call.now
  loaded.guard db call.startedAt
  let statements ← loaded.write db call.now
  .ok (statements.apply db)

end LearningPlatform
