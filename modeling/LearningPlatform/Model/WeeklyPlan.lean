import LearningPlatform.Model.DailyUnlocks
import LearningPlatform.Model.Learning
import LearningPlatform.Shared.Window
import Mathlib.Data.Prod.Lex

/-! # The weekly plan of a student

`WeeklyPlanProjection`: the lessons of the current week, redos and the next unlocks. -/

namespace LearningPlatform

open Shared

/-! ## The latest submissions -/

/-- `group(...).maximum(:id).values`. -/
def groupMaximumIds {γ : Type*} [DecidableEq γ] (group : Submission → γ) (rows : List Submission) :
    List ℕ :=
  (rows.map group).eraseDups.filterMap fun key =>
    ((rows.filter fun row => group row = key).map (·.id)).max?

def rowsWithIds (ids : List ℕ) (rows : List Submission) : List Submission :=
  rows.filter fun row => ids.contains row.id

/-- `latest_submissions` of the student dashboard and of `WeeklyPlanProjection`. -/
def studentLatestSubmissions (rows : List Submission) (userId : ℕ) (blockIds : List ℕ) :
    List Submission :=
  let submissions := rows.filter (·.userId == userId)
  rowsWithIds (groupMaximumIds (·.contentBlockId)
    (submissions.filter fun row => blockIds.contains row.contentBlockId)) submissions

/-! ## Lessons and submissions of the week -/

inductive LessonType where
  | video
  | exercise
  | reading
  | project
  | checkpoint
  deriving DecidableEq, Repr

/-- The columns of a lesson that only the plan reads. -/
structure LessonColumns where
  lessonType : LessonType := .video
  required : Bool := true
  deriving DecidableEq, Repr

inductive PlanState where
  | completed
  | upcoming
  | closed
  | open
  deriving DecidableEq, Repr

structure PlanLesson where
  id : String
  lessonId : ℕ
  moduleId : ℕ
  title : String
  moduleTitle : String
  lessonType : LessonType
  required : Bool
  scheduledFor : Date
  carriedForward : Bool
  state : PlanState
  submissionCloseAt : Option Time
  submissionsClosed : Bool
  deriving DecidableEq, Repr

structure PlanRedo where
  id : String
  submissionId : ℕ
  lessonId : ℕ
  title : String
  lessonTitle : String
  feedback : Option String
  state : PlanState
  submissionCloseAt : Option Time
  deriving DecidableEq, Repr

structure PlanUnlock where
  id : String
  lessonId : ℕ
  moduleId : ℕ
  title : String
  moduleTitle : String
  unlocksOn : Date
  required : Bool
  deriving DecidableEq, Repr

structure PlanSummary where
  requiredCount : ℕ
  requiredCompletedCount : ℕ
  openRedoCount : ℕ
  optionalCount : ℕ
  deriving DecidableEq, Repr

structure WeeklyPlan where
  cohortId : ℕ
  weekNumber : ℤ
  startsOn : Date
  endsOn : Date
  generatedAt : Time
  summary : PlanSummary
  required : List PlanLesson
  optional : List PlanLesson
  redos : List PlanRedo
  upcomingUnlocks : List PlanUnlock
  deriving DecidableEq, Repr

/-- The instance variables once the enrollment is found. -/
structure WeeklyPlanProjection where
  db : Database
  columns : ℕ → LessonColumns
  user : User
  now : Time
  enrollment : Enrollment
  cohort : Cohort

namespace WeeklyPlanProjection

def upcomingUnlockLimit : ℕ := 5

variable (plan : WeeklyPlanProjection)

def today : Date :=
  LearningCalendar.today plan.now

/-- `@today.beginning_of_week(:monday)`. -/
def weekStart : Date :=
  plan.today - weekdayIndex plan.today

def weekEnd : Date :=
  plan.weekStart + 6

def moduleAssignment (moduleId : ℕ) : Option ModuleAssignment :=
  indexBy ModuleAssignment.moduleId
    (plan.db.moduleAssignments.filter (·.enrollmentId == plan.enrollment.id)) moduleId

def lessonAssignment (lessonId : ℕ) : Option LessonAssignment :=
  indexBy LessonAssignment.lessonId
    (plan.db.lessonAssignments.filter (·.enrollmentId == plan.enrollment.id)) lessonId

def assignedModules : List CurriculumModule :=
  (plan.db.modulesOf plan.cohort.curriculumId).filter fun m =>
    (plan.moduleAssignment m.id).isSome

def lessons : List (CurriculumModule × Lesson) :=
  plan.assignedModules.flatMap fun m => (plan.db.lessonsOf m).map fun lesson => (m, lesson)

def completedBlockIds : List ℕ :=
  let ids := plan.lessons.flatMap fun (_, lesson) => plan.db.completionBlockIds lesson
  (plan.db.progresses.filter fun progress =>
    progress.userId == plan.user.id && progress.status == .completed &&
      ids.contains progress.contentBlockId).map (·.contentBlockId)

def latestSubmissions : List Submission :=
  studentLatestSubmissions plan.db.submissions plan.user.id
    (plan.lessons.flatMap fun (_, lesson) => (plan.db.contentBlocksOf lesson).map (·.id))

/-! ## Lessons -/

variable (m : CurriculumModule)

def lessonUnlockOn (lesson : Lesson) : Date :=
  ((plan.lessonAssignment lesson.id).bind (·.unlockDateOverride)).getD
    (plan.db.unlockDate lesson m plan.cohort (plan.moduleAssignment lesson.moduleId))

def availableOn (lesson : Lesson) (on : Date) : Bool :=
  plan.db.available? lesson m plan.cohort (plan.moduleAssignment lesson.moduleId)
    (plan.lessonAssignment lesson.id) on

def lessonAvailable? (lesson : Lesson) : Bool :=
  plan.availableOn m lesson plan.today

def lessonCompleted? (lesson : Lesson) : Bool :=
  let ids := plan.db.completionBlockIds lesson
  !ids.isEmpty && ids.all fun id => plan.completedBlockIds.contains id

def lessonState (completed available : Bool) (window : WeekStatus) : PlanState :=
  if completed then .completed
  else if !available then .upcoming
  else if window.submissionsClosed then .closed
  else .open

def lessonItem (lesson : Lesson) : Option PlanLesson :=
  let unlockOn := plan.lessonUnlockOn m lesson
  let completed := plan.lessonCompleted? lesson
  let inCurrentWeek := decide (plan.weekStart ≤ unlockOn) && decide (unlockOn ≤ plan.weekEnd)
  let carriedForward :=
    decide (unlockOn < plan.weekStart) && !completed && plan.lessonAvailable? m lesson
  if inCurrentWeek || carriedForward then
    let window := SubmissionWindowStatus.forLesson plan.db plan.cohort lesson plan.now
    some
      { id := "lesson-" ++ toString lesson.id
        lessonId := lesson.id
        moduleId := m.id
        title := lesson.title
        moduleTitle := m.name
        lessonType := (plan.columns lesson.id).lessonType
        required := (plan.columns lesson.id).required
        scheduledFor := unlockOn
        carriedForward
        state := lessonState completed (plan.lessonAvailable? m lesson) window
        submissionCloseAt := window.submissionsCloseAt
        submissionsClosed := window.submissionsClosed }
  else none

def sortLessonItems (items : List PlanLesson) : List PlanLesson :=
  orderBy (fun item => toLex (if item.carriedForward then 0 else 1,
    toLex (item.scheduledFor, toLex (item.moduleId, item.lessonId)))) items

def lessonItems : List PlanLesson :=
  plan.lessons.filterMap fun (m, lesson) => plan.lessonItem m lesson

def required : List PlanLesson :=
  sortLessonItems (plan.lessonItems.filter (·.required))

def optional : List PlanLesson :=
  sortLessonItems (plan.lessonItems.filter fun item => !item.required)

/-! ## Redos -/

def redoItem (submission : Submission) : Option PlanRedo := do
  let block ← plan.db.contentBlock? submission.contentBlockId
  let lesson ← plan.db.lesson? block.lessonId
  let window := SubmissionWindowStatus.forLesson plan.db plan.cohort lesson plan.now
  some
    { id := "redo-" ++ toString submission.id
      submissionId := submission.id
      lessonId := lesson.id
      title := (presence block.title).getD lesson.title
      lessonTitle := lesson.title
      feedback := submission.feedback
      state := if window.submissionsClosed then .closed else .open
      submissionCloseAt := window.submissionsCloseAt }

def redoItems : List PlanRedo :=
  (orderBy (fun submission : Submission => submission.gradedAt.getD 0)
    (plan.latestSubmissions.filter (·.grade == some .R))).reverse.filterMap plan.redoItem

/-! ## Unlocks -/

def unlockItem (lesson : Lesson) : Option PlanUnlock :=
  let unlockOn := plan.lessonUnlockOn m lesson
  if plan.today < unlockOn then
    some
      { id := "unlock-" ++ toString lesson.id
        lessonId := lesson.id
        moduleId := m.id
        title := lesson.title
        moduleTitle := m.name
        unlocksOn := unlockOn
        required := (plan.columns lesson.id).required }
  else none

/-- `[unlocks_on, module_id, lesson_id]`. -/
def unlockKey (item : PlanUnlock) : ℤ ×ₗ ℕ ×ₗ ℕ :=
  toLex (item.unlocksOn, toLex (item.moduleId, item.lessonId))

def upcomingUnlockItems : List PlanUnlock :=
  (orderBy unlockKey
    (plan.lessons.filterMap fun (m, lesson) => plan.unlockItem m lesson)).take upcomingUnlockLimit

/-! ## The plan -/

def cohortWeekNumber : ℤ :=
  max ((plan.weekStart - plan.cohort.startDate) / 7 + 1) 1

def summary : PlanSummary where
  requiredCount := plan.required.length
  requiredCompletedCount := plan.required.countP (·.state == .completed)
  openRedoCount := plan.redoItems.countP (·.state == .open)
  optionalCount := plan.optional.length

def weeklyPlan : WeeklyPlan where
  cohortId := plan.cohort.id
  weekNumber := plan.cohortWeekNumber
  startsOn := plan.weekStart
  endsOn := plan.weekEnd
  generatedAt := plan.now
  summary := plan.summary
  required := plan.required
  optional := plan.optional
  redos := plan.redoItems
  upcomingUnlocks := plan.upcomingUnlockItems

/-- `WeeklyPlanProjection#call`; `none` without an active enrollment. -/
def call (db : Database) (columns : ℕ → LessonColumns) (user : User) (now : Time) :
    Option WeeklyPlan := do
  let enrollment ← db.firstActiveEnrollment user
  let cohort ← db.cohort? enrollment.cohortId
  some (weeklyPlan { db, columns, user, now, enrollment, cohort })

end WeeklyPlanProjection

end LearningPlatform
