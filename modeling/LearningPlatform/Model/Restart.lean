import LearningPlatform.Model.Params

/-! # Enrollment restarts

`EnrollmentRestartService` with the foreign keys and unique indexes that its writes meet.
The calls of `Time.current` in one restart are a single time here. -/

namespace LearningPlatform

/-! ## Attributes of the rows kept in a snapshot -/

def EnrollmentStatus.label : EnrollmentStatus → String
  | .active => "active"
  | .paused => "paused"
  | .dropped => "dropped"
  | .completed => "completed"

def ProgressStatus.label : ProgressStatus → String
  | .notStarted => "not_started"
  | .inProgress => "in_progress"
  | .completed => "completed"

def SubmissionType.label : SubmissionType → String
  | .manualComplete => "manual_complete"
  | .textSubmission => "text_submission"
  | .preworkGithubSync => "prework_github_sync"
  | .repoUrlSubmission => "repo_url_submission"
  | .repoAndLiveUrlSubmission => "repo_and_live_url_submission"

def Grade.label : Grade → String
  | .A => "A"
  | .B => "B"
  | .C => "C"
  | .R => "R"

def Notifiable.reference : Notifiable → String × ℕ
  | .submission id => ("Submission", id)
  | .intervention id => ("Intervention", id)
  | .other type id => (type, id)

def nullable {α : Type*} (value : α → Value) (column : Option α) : Value :=
  (column.map value).getD .null

def Value.id (n : ℕ) : Value :=
  .int n

def Enrollment.attributes (row : Enrollment) : Attributes :=
  [("id", .id row.id), ("user_id", .id row.userId), ("cohort_id", .id row.cohortId),
    ("status", .text row.status.label), ("enrolled_at", nullable .time row.enrolledAt),
    ("completed_at", nullable .time row.completedAt),
    ("learning_state_reset_at", nullable .time row.learningStateResetAt),
    ("created_at", .time row.createdAt), ("updated_at", .time row.updatedAt)]

def Progress.attributes (row : Progress) : Attributes :=
  [("id", .id row.id), ("user_id", .id row.userId),
    ("content_block_id", .id row.contentBlockId), ("status", .text row.status.label),
    ("completed_at", nullable .time row.completedAt),
    ("video_last_position", .int row.videoLastPosition),
    ("video_total_watched", .int row.videoTotalWatched),
    ("video_duration", nullable .int row.videoDuration),
    ("created_at", .time row.createdAt), ("updated_at", .time row.updatedAt)]

def Submission.attributes (row : Submission) : Attributes :=
  [("id", .id row.id), ("user_id", .id row.userId),
    ("content_block_id", .id row.contentBlockId),
    ("submission_type", nullable (fun type => .text type.label) row.submissionType),
    ("text", nullable .text row.content.text),
    ("github_issue_url", nullable .text row.content.githubIssueUrl),
    ("github_code_url", nullable .text row.content.githubCodeUrl),
    ("repo_url", nullable .text row.content.repoUrl),
    ("pr_url", nullable .text row.content.prUrl),
    ("live_url", nullable .text row.content.liveUrl),
    ("branch", nullable .text row.content.branch),
    ("commit_sha", nullable .text row.content.commitSha),
    ("notes", nullable .text row.content.notes),
    ("num_submissions", .int row.numSubmissions),
    ("grade", nullable (fun grade => .text grade.label) row.grade),
    ("feedback", nullable .text row.feedback), ("graded_by_id", nullable .id row.gradedById),
    ("graded_at", nullable .time row.gradedAt),
    ("created_at", .time row.createdAt), ("updated_at", .time row.updatedAt)]

def KnowledgeCheckAttempt.attributes (row : KnowledgeCheckAttempt) : Attributes :=
  [("id", .id row.id), ("user_id", .id row.userId),
    ("knowledge_check_id", .id row.knowledgeCheckId),
    ("selected_option", .int row.selectedOption), ("correct", .bool row.correct),
    ("created_at", .time row.createdAt), ("updated_at", .time row.updatedAt)]

def WatchProgress.attributes (row : WatchProgress) : Attributes :=
  [("id", .id row.id), ("user_id", .id row.userId), ("recording_id", .id row.recordingId),
    ("last_position_seconds", .int row.lastPositionSeconds),
    ("total_watched_seconds", .int row.totalWatchedSeconds),
    ("duration_seconds", nullable .int row.durationSeconds),
    ("completed", .bool row.completed), ("last_watched_at", nullable .time row.lastWatchedAt),
    ("created_at", .time row.createdAt), ("updated_at", .time row.updatedAt)]

def LessonAssignment.attributes (row : LessonAssignment) : Attributes :=
  [("id", .id row.id), ("enrollment_id", .id row.enrollmentId),
    ("lesson_id", .id row.lessonId), ("unlocked", .bool row.unlocked),
    ("unlock_date_override", nullable .date row.unlockDateOverride),
    ("created_at", .time row.createdAt), ("updated_at", .time row.updatedAt)]

def ModuleAssignment.attributes (row : ModuleAssignment) : Attributes :=
  [("id", .id row.id), ("enrollment_id", .id row.enrollmentId),
    ("module_id", .id row.moduleId), ("unlocked", .bool row.unlocked),
    ("unlock_date_override", nullable .date row.unlockDateOverride),
    ("created_at", .time row.createdAt), ("updated_at", .time row.updatedAt)]

def Notification.attributes (row : Notification) : Attributes :=
  [("id", .id row.id), ("user_id", .id row.userId), ("actor_id", nullable .id row.actorId),
    ("notifiable_type", .text row.notifiable.reference.1),
    ("notifiable_id", .id row.notifiable.reference.2),
    ("notification_type", .text row.notificationType), ("title", .text row.title),
    ("body", nullable .text row.body), ("path", .text row.path),
    ("read_at", nullable .time row.readAt),
    ("created_at", .time row.createdAt), ("updated_at", .time row.updatedAt)]

/-! ## Foreign keys that point to a deleted row -/

/-- The tables a restart deletes from. -/
inductive LearningTable where
  | notifications
  | submissions
  | knowledgeCheckAttempts
  | progresses
  | watchProgresses
  | lessonAssignments
  deriving DecidableEq, Repr

/-- A foreign-key column with the ids it holds. -/
structure Reference where
  table : String
  column : String
  ids : List ℕ

/-- The foreign keys of `schema.rb` that reference a table; none of them has an
`on_delete` action. -/
def Database.referencesTo (db : Database) : LearningTable → List Reference
  | .submissions =>
    [⟨"github_check_runs", "submission_id", db.githubCheckRuns.map (·.submissionId)⟩,
      ⟨"submission_criterion_results", "submission_id",
        db.submissionCriterionResults.map (·.submissionId)⟩]
  | .notifications => []
  | .knowledgeCheckAttempts => []
  | .progresses => []
  | .watchProgresses => []
  | .lessonAssignments => []

/-- `DELETE` fails when a row of another table still references a deleted row. -/
def Database.checkDelete (db : Database) (table : LearningTable) (ids : List ℕ) :
    Except Failure Unit :=
  match (db.referencesTo table).find? fun reference => reference.ids.any ids.contains with
  | some reference => .error (.invalidForeignKey reference.table reference.column)
  | none => .ok ()

/-! ## Interventions and recovery plans -/

def InterventionStatus.active? : InterventionStatus → Bool
  | .open | .contacted | .waitingOnStudent | .monitoring => true
  | .resolved | .canceled => false

/-- `enrollment.interventions.create!` under `index_interventions_one_active_trigger`. -/
def Database.createIntervention! (db : Database) (record : Intervention) (owner : User) :
    Except Failure Database :=
  saveUnique
    (lengthErrors "Action summary" 2000 (presence record.actionSummary) ++
      staffErrors "Owner" owner ++ staffErrors "Created by" owner)
    "index_interventions_one_active_trigger"
    (record.status.active? && db.interventions.any fun other =>
      other.enrollmentId == record.enrollmentId && other.triggerType == record.triggerType &&
        other.status.active?)
    { db with interventions := db.interventions ++ [record], nextId := db.nextId + 1 }

/-- The validations of the texts of a plan. -/
def RecoveryPlan.textErrors (record : RecoveryPlan) : List String :=
  presenceErrors "Target pace" (some record.targetPace) ++
  presenceErrors "Required scope" (some record.requiredScope) ++
  presenceErrors "Check in cadence" (some record.checkInCadence) ++
  lengthErrors "Target pace" 200 (some record.targetPace) ++
  lengthErrors "Check in cadence" 200 (some record.checkInCadence) ++
  lengthErrors "Required scope" 2000 (presence (some record.requiredScope)) ++
  lengthErrors "Optional scope" 2000 (presence record.optionalScope)

/-- `RecoveryPlan.create!` under `index_recovery_plans_one_active`. -/
def Database.createRecoveryPlan! (db : Database) (record : RecoveryPlan) (owner : User) :
    Except Failure Database :=
  saveUnique
    (record.textErrors ++ staffErrors "Owner" owner ++ staffErrors "Created by" owner)
    "index_recovery_plans_one_active"
    (record.status == .active && db.recoveryPlans.any fun other =>
      other.enrollmentId == record.enrollmentId && other.status == .active)
    { db with recoveryPlans := db.recoveryPlans ++ [record], nextId := db.nextId + 1 }

/-! ## The service -/

/-- `ContentBlock.joins(lesson: :curriculum_module).where(modules: { curriculum_id: })`. -/
def Database.curriculumBlockIds (db : Database) (curriculumId : ℕ) : List ℕ :=
  (db.contentBlocks.filter fun block =>
    (db.lesson? block.lessonId).any fun lesson =>
      (db.module? lesson.moduleId).any (·.curriculumId == curriculumId)).map (·.id)

/-- The records that `EnrollmentRestartService#initialize` keeps, with the ids plucked
at the start of `call`. -/
structure EnrollmentRestartService where
  enrollment : Enrollment
  student : User
  cohort : Cohort
  performedBy : User
  reason : Option String
  blockIds : List ℕ
  recordingIds : List ℕ
  deriving DecidableEq, Repr

namespace EnrollmentRestartService

open Shared

def oneWeek : Time :=
  7 * 24 * 60 * 60 * 1000000

/-- `EnrollmentRestartService.new` and the two `pluck`s; the reason is
`reason.to_s.strip.presence`. -/
def new? (db : Database) (enrollmentId : ℕ) (performedBy : User) (reason : Param) :
    Option EnrollmentRestartService := do
  let enrollment ← db.enrollment? enrollmentId
  let student ← db.user? enrollment.userId
  let cohort ← db.cohort? enrollment.cohortId
  some
    { enrollment, student, cohort, performedBy
      reason := presence (some (strip reason.toText))
      blockIds := db.curriculumBlockIds cohort.curriculumId
      recordingIds := (db.recordings.filter (·.cohortId == cohort.id)).map (·.id) }

/-! ### The relations the service builds -/

variable (service : EnrollmentRestartService)

def progress? (row : Progress) : Bool :=
  row.userId == service.student.id && service.blockIds.contains row.contentBlockId

def submission? (row : Submission) : Bool :=
  row.userId == service.student.id && service.blockIds.contains row.contentBlockId

def attempt? (db : Database) (row : KnowledgeCheckAttempt) : Bool :=
  row.userId == service.student.id && db.knowledgeChecks.any fun check =>
    check.id == row.knowledgeCheckId && service.blockIds.contains check.contentBlockId

def watchProgress? (row : WatchProgress) : Bool :=
  row.userId == service.student.id && service.recordingIds.contains row.recordingId

def lessonAssignment? (row : LessonAssignment) : Bool :=
  row.enrollmentId == service.enrollment.id

def moduleAssignment? (row : ModuleAssignment) : Bool :=
  row.enrollmentId == service.enrollment.id

def submissionNotification? (db : Database) (row : Notification) : Bool :=
  match row.notifiable with
  | .submission id => db.submissions.any fun submission =>
    service.submission? submission && submission.id == id
  | _ => false

/-! ### Snapshot and counts -/

def snapshot (db : Database) : RestartSnapshot where
  enrollment := service.enrollment.attributes
  progresses := (db.progresses.filter service.progress?).map (·.attributes)
  submissions := (db.submissions.filter service.submission?).map (·.attributes)
  knowledgeCheckAttempts :=
    (db.knowledgeCheckAttempts.filter (service.attempt? db)).map (·.attributes)
  watchProgresses := (db.watchProgresses.filter service.watchProgress?).map (·.attributes)
  lessonAssignments := (db.lessonAssignments.filter service.lessonAssignment?).map (·.attributes)
  moduleAssignments := (db.moduleAssignments.filter service.moduleAssignment?).map (·.attributes)
  submissionNotifications :=
    (db.notifications.filter (service.submissionNotification? db)).map (·.attributes)

def counts (db : Database) : RecordsRemoved where
  progresses := (db.progresses.filter service.progress?).length
  submissions := (db.submissions.filter service.submission?).length
  knowledgeCheckAttempts := (db.knowledgeCheckAttempts.filter (service.attempt? db)).length
  watchProgresses := (db.watchProgresses.filter service.watchProgress?).length
  lessonAssignments := (db.lessonAssignments.filter service.lessonAssignment?).length
  submissionNotifications :=
    (db.notifications.filter (service.submissionNotification? db)).length

def restartRecord (db : Database) (now : Time) : EnrollmentRestart where
  id := db.nextId
  enrollmentId := some service.enrollment.id
  studentId := service.student.id
  cohortId := service.cohort.id
  performedById := service.performedBy.id
  reason := service.reason
  snapshot := service.snapshot db
  recordsRemoved := service.counts db
  createdAt := now

/-! ### Steps of `call` -/

def ensureUnambiguousCurriculum! (db : Database) : Except Failure Unit :=
  if db.enrollments.any fun other =>
      other.userId == service.student.id && other.id != service.enrollment.id &&
        (db.cohort? other.cohortId).any (·.curriculumId == service.cohort.curriculumId) then
    .error (.conflict ("This student has another enrollment using the same curriculum. " ++
      "Remove that enrollment before restarting this one."))
  else .ok ()

def previousRestart? (row : Intervention) : Bool :=
  row.enrollmentId == service.enrollment.id && row.status.active? && row.triggerType == .restart

def previousPlan? (row : RecoveryPlan) : Bool :=
  row.enrollmentId == service.enrollment.id && row.status == .active

/-- Notifications of the active restart interventions become read; these interventions and
the active recovery plans of the enrollment are canceled. -/
def cancelPrevious (now : Time) (db : Database) : Database :=
  let previousIds := (db.interventions.filter service.previousRestart?).map (·.id)
  { db with
    notifications := updateAll
      (fun row => match row.notifiable with
        | .intervention id => previousIds.contains id
        | _ => false)
      (fun row => { row with readAt := some now, updatedAt := now }) db.notifications
    interventions := updateAll (fun row => previousIds.contains row.id)
      (fun row => { row with status := .canceled, resolvedAt := some now, updatedAt := now })
      db.interventions
    recoveryPlans := updateAll service.previousPlan?
      (fun row => { row with status := .canceled, completedAt := some now, updatedAt := now })
      db.recoveryPlans }

/-- The six `delete_all` calls, in their order. -/
def deleteRows (db : Database) : Except Failure Database := do
  db.checkDelete .notifications
    ((db.notifications.filter (service.submissionNotification? db)).map (·.id))
  let db := { db with
    notifications := deleteAll (service.submissionNotification? db) db.notifications }
  db.checkDelete .submissions ((db.submissions.filter service.submission?).map (·.id))
  let db := { db with submissions := deleteAll service.submission? db.submissions }
  db.checkDelete .knowledgeCheckAttempts
    ((db.knowledgeCheckAttempts.filter (service.attempt? db)).map (·.id))
  let db := { db with
    knowledgeCheckAttempts := deleteAll (service.attempt? db) db.knowledgeCheckAttempts }
  db.checkDelete .progresses ((db.progresses.filter service.progress?).map (·.id))
  let db := { db with progresses := deleteAll service.progress? db.progresses }
  db.checkDelete .watchProgresses ((db.watchProgresses.filter service.watchProgress?).map (·.id))
  let db := { db with watchProgresses := deleteAll service.watchProgress? db.watchProgresses }
  db.checkDelete .lessonAssignments
    ((db.lessonAssignments.filter service.lessonAssignment?).map (·.id))
  .ok { db with lessonAssignments := deleteAll service.lessonAssignment? db.lessonAssignments }

/-- `module_assignments.update_all` and `enrollment.update!`. -/
def resetEnrollment (now : Time) (db : Database) : Database :=
  { db with
    moduleAssignments := updateAll service.moduleAssignment?
      (fun row => { row with unlockDateOverride := none, updatedAt := now }) db.moduleAssignments
    enrollments := updateAll (fun row => row.id == service.enrollment.id)
      (fun row =>
        { row with
          status := .active
          enrolledAt := some now
          completedAt := none
          learningStateResetAt := some now
          updatedAt := now })
      db.enrollments }

def restartIntervention (id : ℕ) (now : Time) : Intervention where
  id
  enrollmentId := service.enrollment.id
  triggerType := .restart
  status := .monitoring
  ownerId := service.performedBy.id
  createdById := service.performedBy.id
  actionSummary := some (service.reason.getD
    "Support the student's return to a sustainable weekly pace.")
  nextFollowUpAt := some (now + oneWeek)
  createdAt := now
  updatedAt := now

def restartPlan (id restartId interventionId : ℕ) (now : Time) : RecoveryPlan where
  id
  enrollmentId := service.enrollment.id
  enrollmentRestartId := some restartId
  interventionId := some interventionId
  ownerId := service.performedBy.id
  createdById := service.performedBy.id
  source := .restart
  status := .active
  targetPace := "Return to the cohort's current weekly pace"
  requiredScope := "Repeat required curriculum checkpoints from the beginning."
  optionalScope :=
    some "Use optional practice and recordings where they support the required work."
  checkInCadence := "weekly"
  nextCheckInAt := now + oneWeek
  createdAt := now
  updatedAt := now

/-- `EnrollmentRestartService#call`: one transaction, so a failure leaves no trace. -/
def call (now : Time) (db : Database) : Except Failure (Database × EnrollmentRestart) := do
  service.ensureUnambiguousCurriculum! db
  let restart := service.restartRecord db now
  let db := { db with
    enrollmentRestarts := db.enrollmentRestarts ++ [restart], nextId := db.nextId + 1 }
  let db ← service.deleteRows (service.cancelPrevious now db)
  let db := service.resetEnrollment now db
  let intervention := service.restartIntervention db.nextId now
  let db ← db.createIntervention! intervention service.performedBy
  let db ← db.createRecoveryPlan!
    (service.restartPlan db.nextId restart.id intervention.id now) service.performedBy
  .ok (db, restart)

end EnrollmentRestartService

end LearningPlatform
