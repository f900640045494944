import Mathlib.Data.List.Basic
import Mathlib.Data.Int.Basic

/-! # Rows and tables of the platform database

One structure per table of `db/schema.rb`, with the columns that the modelled code reads
or writes. A date is its Julian day number and a time counts microseconds, the precision
of a `datetime` column. -/

namespace LearningPlatform

abbrev Date := ℤ

abbrev Time := ℕ

/-! ## People -/

inductive Role where
  | student
  | instructor
  | admin
  deriving DecidableEq, Repr

structure User where
  id : ℕ
  role : Role := .student
  archivedAt : Option Time := none
  deriving DecidableEq, Repr

def User.archived? (user : User) : Bool :=
  user.archivedAt.isSome

def User.student? (user : User) : Bool :=
  user.role == .student

def User.staff? (user : User) : Bool :=
  user.role == .admin || user.role == .instructor

/-! ## Messaging -/

structure Workspace where
  id : ℕ
  cohortId : Option ℕ := none
  deriving DecidableEq, Repr

inductive ConversationStatus where
  | active
  | archived
  deriving DecidableEq, Repr

structure DirectConversation where
  id : ℕ
  workspaceId : ℕ
  cohortId : Option ℕ := none
  memberKey : String
  status : ConversationStatus := .active
  deriving DecidableEq, Repr

structure DirectConversationMember where
  directConversationId : ℕ
  userId : ℕ
  deriving DecidableEq, Repr

/-! ## Curriculum content -/

/-- The keys of `CurriculumModule::SCHEDULE_PATTERNS`. -/
inductive ScheduleDays where
  | weekdays
  | weekdaysSat
  | mwf
  | tth
  | daily
  deriving DecidableEq, Repr

inductive ModuleType where
  | prework
  | liveClass
  | capstone
  | advanced
  | workshop
  | recording
  deriving DecidableEq, Repr

structure Curriculum where
  id : ℕ
  name : String := "Curriculum"
  deriving DecidableEq, Repr

structure CurriculumModule where
  id : ℕ
  curriculumId : ℕ
  name : String := "Module"
  moduleType : ModuleType := .prework
  position : ℤ := 0
  dayOffset : ℤ := 0
  scheduleDays : ScheduleDays := .weekdays
  deriving DecidableEq, Repr

structure Lesson where
  id : ℕ
  moduleId : ℕ
  title : String := "Lesson"
  position : ℤ := 0
  releaseDay : ℤ := 0
  requiresSubmission : Bool := false
  archivedAt : Option Time := none
  deriving DecidableEq, Repr

inductive BlockType where
  | video
  | text
  | exercise
  | codeChallenge
  | checkpoint
  | recording
  deriving DecidableEq, Repr

inductive SubmissionType where
  | manualComplete
  | textSubmission
  | preworkGithubSync
  | repoUrlSubmission
  | repoAndLiveUrlSubmission
  deriving DecidableEq, Repr

structure ContentBlock where
  id : ℕ
  lessonId : ℕ
  blockType : BlockType := .text
  position : ℤ := 0
  title : Option String := none
  body : Option String := none
  videoUrl : Option String := none
  solution : Option String := none
  filename : Option String := none
  submissionType : Option SubmissionType := none
  rubricId : Option ℕ := none
  metadata : String := "\x7b\x7d"
  s3VideoKey : Option String := none
  s3VideoDurationSeconds : Option ℤ := none
  deriving DecidableEq, Repr

structure Rubric where
  id : ℕ
  curriculumId : ℕ
  deriving DecidableEq, Repr

structure RubricCriterion where
  id : ℕ
  rubricId : ℕ
  deriving DecidableEq, Repr

structure KnowledgeCheck where
  id : ℕ
  contentBlockId : ℕ
  options : List String := ["", ""]
  correctOption : ℤ := 0
  deriving DecidableEq, Repr

/-! ## Cohorts and enrollments -/

structure Cohort where
  id : ℕ
  curriculumId : ℕ
  startDate : Date := 0
  /-- Modules with a truthy `requires_github` in `settings["module_github_config"]`. -/
  githubModules : List ℕ := []
  deriving DecidableEq, Repr

structure CohortModuleSchedule where
  id : ℕ
  cohortId : ℕ
  moduleId : ℕ
  startDate : Date
  deriving DecidableEq, Repr

structure CohortModuleSubmissionWindow where
  cohortId : ℕ
  moduleId : ℕ
  weekNumber : ℤ
  submissionsCloseAt : Option Time
  deriving DecidableEq, Repr

inductive EnrollmentStatus where
  | active
  | paused
  | dropped
  | completed
  deriving DecidableEq, Repr

structure Enrollment where
  id : ℕ
  userId : ℕ
  cohortId : ℕ
  status : EnrollmentStatus := .active
  enrolledAt : Option Time := none
  completedAt : Option Time := none
  learningStateResetAt : Option Time := none
  createdAt : Time := 0
  updatedAt : Time := 0
  deriving DecidableEq, Repr

structure ModuleAssignment where
  id : ℕ
  enrollmentId : ℕ
  moduleId : ℕ
  unlocked : Bool := true
  unlockDateOverride : Option Date := none
  createdAt : Time := 0
  updatedAt : Time := 0
  deriving DecidableEq, Repr

structure LessonAssignment where
  id : ℕ
  enrollmentId : ℕ
  lessonId : ℕ
  unlocked : Bool := false
  unlockDateOverride : Option Date := none
  createdAt : Time := 0
  updatedAt : Time := 0
  deriving DecidableEq, Repr

/-! ## Learning evidence -/

inductive ProgressStatus where
  | notStarted
  | inProgress
  | completed
  deriving DecidableEq, Repr

structure Progress where
  id : ℕ
  userId : ℕ
  contentBlockId : ℕ
  status : ProgressStatus := .notStarted
  completedAt : Option Time := none
  videoLastPosition : ℤ := 0
  videoTotalWatched : ℤ := 0
  videoDuration : Option ℤ := none
  createdAt : Time := 0
  updatedAt : Time := 0
  deriving DecidableEq, Repr

inductive Grade where
  | A
  | B
  | C
  | R
  deriving DecidableEq, Repr

/-- The columns a student fills in through the submission form. -/
structure SubmissionContent where
  text : Option String := none
  githubIssueUrl : Option String := none
  githubCodeUrl : Option String := none
  repoUrl : Option String := none
  prUrl : Option String := none
  liveUrl : Option String := none
  branch : Option String := none
  commitSha : Option String := none
  notes : Option String := none
  deriving DecidableEq, Repr

structure Submission where
  id : ℕ
  userId : ℕ
  contentBlockId : ℕ
  submissionType : Option SubmissionType := none
  content : SubmissionContent := {}
  numSubmissions : ℕ := 1
  grade : Option Grade := none
  feedback : Option String := none
  gradedById : Option ℕ := none
  gradedAt : Option Time := none
  createdAt : Time := 0
  updatedAt : Time := 0
  deriving DecidableEq, Repr

inductive Rating where
  | exceeds
  | meets
  | developing
  | redo
  deriving DecidableEq, Repr

structure SubmissionCriterionResult where
  id : ℕ
  submissionId : ℕ
  rubricCriterionId : ℕ
  rating : Rating
  feedback : Option String := none
  deriving DecidableEq, Repr

structure GithubCheckRun where
  id : ℕ
  submissionId : ℕ
  deriving DecidableEq, Repr

structure KnowledgeCheckAttempt where
  id : ℕ
  userId : ℕ
  knowledgeCheckId : ℕ
  selectedOption : ℤ
  correct : Bool
  createdAt : Time := 0
  updatedAt : Time := 0
  deriving DecidableEq, Repr

structure Recording where
  id : ℕ
  cohortId : ℕ
  durationSeconds : Option ℤ := none
  deriving DecidableEq, Repr

structure WatchProgress where
  id : ℕ
  userId : ℕ
  recordingId : ℕ
  lastPositionSeconds : ℤ := 0
  totalWatchedSeconds : ℤ := 0
  durationSeconds : Option ℤ := none
  completed : Bool := false
  lastWatchedAt : Option Time := none
  createdAt : Time := 0
  updatedAt : Time := 0
  deriving DecidableEq, Repr

/-! ## Notifications and support -/

/-- The polymorphic `notifiable` of a notification. -/
inductive Notifiable where
  | submission (id : ℕ)
  | intervention (id : ℕ)
  | other (type : String) (id : ℕ)
  deriving DecidableEq, Repr

structure Notification where
  id : ℕ
  userId : ℕ
  actorId : Option ℕ := none
  notifiable : Notifiable
  notificationType : String := "system"
  title : String := ""
  body : Option String := none
  path : String := "/"
  readAt : Option Time := none
  createdAt : Time := 0
  updatedAt : Time := 0
  deriving DecidableEq, Repr

inductive TriggerType where
  | manual
  | helpRequest
  | redo
  | ungraded
  | inactivity
  | restart
  | extendedAbsence
  deriving DecidableEq, Repr

inductive InterventionStatus where
  | open
  | contacted
  | waitingOnStudent
  | monitoring
  | resolved
  | canceled
  deriving DecidableEq, Repr

structure Intervention where
  id : ℕ
  enrollmentId : ℕ
  triggerType : TriggerType
  status : InterventionStatus := .open
  ownerId : ℕ
  createdById : ℕ
  actionSummary : Option String := none
  nextFollowUpAt : Option Time := none
  resolvedAt : Option Time := none
  createdAt : Time := 0
  updatedAt : Time := 0
  deriving DecidableEq, Repr

inductive PlanSource where
  | restart
  | extendedAbsence
  | manual
  deriving DecidableEq, Repr

inductive PlanStatus where
  | active
  | completed
  | canceled
  deriving DecidableEq, Repr

structure RecoveryPlan where
  id : ℕ
  enrollmentId : ℕ
  enrollmentRestartId : Option ℕ := none
  interventionId : Option ℕ := none
  ownerId : ℕ
  createdById : ℕ
  source : PlanSource
  status : PlanStatus := .active
  targetPace : String
  requiredScope : String
  optionalScope : Option String := none
  checkInCadence : String := "weekly"
  nextCheckInAt : Time
  completedAt : Option Time := none
  createdAt : Time := 0
  updatedAt : Time := 0
  deriving DecidableEq, Repr

end LearningPlatform
