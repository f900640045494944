import LearningPlatform.Model.Schema
import LearningPlatform.Shared.Table

/-! # The database and its foreign keys -/

namespace LearningPlatform

/-! ## Restart records -/

/-- A value of a column as `attributes` returns it; enumerations appear as their labels. -/
inductive Value where
  | null
  | bool (b : Bool)
  | int (n : ℤ)
  | text (s : String)
  | date (d : Date)
  | time (t : Time)
  deriving DecidableEq, Repr

/-- The result of `attributes`: column names with their values. -/
abbrev Attributes := List (String × Value)

structure RestartSnapshot where
  enrollment : Attributes
  progresses : List Attributes
  submissions : List Attributes
  knowledgeCheckAttempts : List Attributes
  watchProgresses : List Attributes
  lessonAssignments : List Attributes
  moduleAssignments : List Attributes
  submissionNotifications : List Attributes
  deriving DecidableEq, Repr

structure RecordsRemoved where
  progresses : ℕ
  submissions : ℕ
  knowledgeCheckAttempts : ℕ
  watchProgresses : ℕ
  lessonAssignments : ℕ
  submissionNotifications : ℕ
  deriving DecidableEq, Repr

structure EnrollmentRestart where
  id : ℕ
  enrollmentId : Option ℕ
  studentId : ℕ
  cohortId : ℕ
  performedById : ℕ
  reason : Option String
  snapshot : RestartSnapshot
  recordsRemoved : RecordsRemoved
  createdAt : Time
  deriving DecidableEq, Repr

/-! ## Tables -/

structure Database where
  users : List User := []
  directConversations : List DirectConversation := []
  directConversationMembers : List DirectConversationMember := []
  curricula : List Curriculum := []
  modules : List CurriculumModule := []
  lessons : List Lesson := []
  contentBlocks : List ContentBlock := []
  rubrics : List Rubric := []
  rubricCriteria : List RubricCriterion := []
  knowledgeChecks : List KnowledgeCheck := []
  cohorts : List Cohort := []
  cohortModuleSchedules : List CohortModuleSchedule := []
  submissionWindows : List CohortModuleSubmissionWindow := []
  enrollments : List Enrollment := []
  moduleAssignments : List ModuleAssignment := []
  lessonAssignments : List LessonAssignment := []
  progresses : List Progress := []
  submissions : List Submission := []
  submissionCriterionResults : List SubmissionCriterionResult := []
  githubCheckRuns : List GithubCheckRun := []
  knowledgeCheckAttempts : List KnowledgeCheckAttempt := []
  recordings : List Recording := []
  watchProgresses : List WatchProgress := []
  notifications : List Notification := []
  interventions : List Intervention := []
  recoveryPlans : List RecoveryPlan := []
  enrollmentRestarts : List EnrollmentRestart := []
  /-- The next value of the id sequence. -/
  nextId : ℕ := 1

/-! ## Failures -/

/-- What a raised error or an early `render` tells the caller. A failed request leaves
the database as it was. -/
inductive Failure where
  | recordInvalid (messages : List String)
  | recordNotFound
  | recordNotUnique (index : String)
  | invalidForeignKey (table column : String)
  | notNullViolation (column : String)
  | argumentError (message : String)
  | conflict (message : String)
  | unauthorized (message : String)
  | forbidden (message : String)
  | unprocessable (message : String)
  | staleLearningWrite
  deriving DecidableEq, Repr

def failure? {α : Type*} : Except Failure α → Option Failure
  | .error failure => some failure
  | .ok _ => none

/-! ## Lookups by id -/

variable (db : Database)

def Database.user? (id : ℕ) : Option User :=
  db.users.find? (·.id == id)

def Database.cohort? (id : ℕ) : Option Cohort :=
  db.cohorts.find? (·.id == id)

def Database.curriculum? (id : ℕ) : Option Curriculum :=
  db.curricula.find? (·.id == id)

def Database.module? (id : ℕ) : Option CurriculumModule :=
  db.modules.find? (·.id == id)

def Database.lesson? (id : ℕ) : Option Lesson :=
  db.lessons.find? (·.id == id)

def Database.contentBlock? (id : ℕ) : Option ContentBlock :=
  db.contentBlocks.find? (·.id == id)

def Database.rubric? (id : ℕ) : Option Rubric :=
  db.rubrics.find? (·.id == id)

def Database.knowledgeCheck? (id : ℕ) : Option KnowledgeCheck :=
  db.knowledgeChecks.find? (·.id == id)

def Database.submission? (id : ℕ) : Option Submission :=
  db.submissions.find? (·.id == id)

def Database.recording? (id : ℕ) : Option Recording :=
  db.recordings.find? (·.id == id)

def Database.enrollment? (id : ℕ) : Option Enrollment :=
  db.enrollments.find? (·.id == id)

end LearningPlatform
