import LearningPlatform.Model.Requests
import Mathlib.Algebra.GroupWithZero.Nat

/-! # The cohort's student view

The read-only preview that `cohorts#student_view` renders for staff. Its dates come from the
schedule row of the cohort or from the assignments of all active students. -/

namespace LearningPlatform

/-! ## Lessons -/

structure StudentViewLesson where
  id : ℕ
  title : String
  position : ℤ
  releaseDay : ℤ
  unlockDate : Option Date
  available : Bool
  contentBlocksCount : ℕ
  completionBlocksCount : ℕ
  requiresSubmission : Bool
  submissionType : SubmissionType
  submissionWindow : WeekStatus
  deriving DecidableEq, Repr

def cohortStudentViewLessonJson (db : Database) (cohort : Cohort) (m : CurriculumModule)
    (lesson : Lesson) (moduleStartDate : Option Date) (moduleAvailable requiresGithub : Bool)
    (on : Date) (now : Time) : StudentViewLesson :=
  let unlockDate := moduleStartDate.map (· + m.calendarOffsetFor lesson.releaseDay)
  { id := lesson.id
    title := lesson.title
    position := lesson.position
    releaseDay := lesson.releaseDay
    unlockDate
    available := moduleAvailable && unlockDate.any fun date => decide (date ≤ on)
    contentBlocksCount := (db.contentBlocksOf lesson).length
    completionBlocksCount := (db.completionBlockIds lesson).length
    requiresSubmission := db.effectiveRequiresSubmission lesson m requiresGithub
    submissionType := db.lessonSubmissionType lesson m requiresGithub
    submissionWindow := SubmissionWindowStatus.forLesson db cohort lesson now }

/-! ## Modules -/

/-- `assignment_index[module_id]`: the assignments of the active enrollments. -/
def Database.activeAssignmentsFor (db : Database) (cohort : Cohort) (m : CurriculumModule) :
    List ModuleAssignment :=
  (db.activeEnrollmentsOf cohort).flatMap fun enrollment =>
    db.moduleAssignments.filter fun assignment =>
      assignment.enrollmentId == enrollment.id && assignment.moduleId == m.id

def cohortStudentViewModuleStartDate (db : Database) (cohort : Cohort) (m : CurriculumModule)
    (schedule : Option CohortModuleSchedule) (assignments : List ModuleAssignment)
    (assigned : Bool) : Option Date :=
  match schedule with
  | some schedule => some schedule.startDate
  | none =>
    match (assignments.map fun row => db.effectiveStartDate row m cohort).min? with
    | some date => some date
    | none => if assigned then some (m.legacyStartDateFor cohort) else none

def cohortStudentViewModuleAvailable? (assignments : List ModuleAssignment)
    (startDate : Option Date) (on : Date) : Bool :=
  match startDate with
  | none => false
  | some date => assignments.any (·.unlocked) || decide (date ≤ on)

structure StudentViewModule where
  id : ℕ
  name : String
  moduleType : ModuleType
  position : ℤ
  assigned : Bool
  available : Bool
  moduleStartDate : Option Date
  requiresGithub : Bool
  lessonsCount : ℕ
  visibleLessonsCount : ℕ
  lockedLessonsCount : ℕ
  lessons : List StudentViewLesson
  deriving DecidableEq, Repr

def cohortStudentViewModuleJson (db : Database) (cohort : Cohort) (m : CurriculumModule)
    (schedule : Option CohortModuleSchedule) (assignments : List ModuleAssignment) (on : Date)
    (now : Time) : StudentViewModule :=
  let assigned := schedule.isSome || !assignments.isEmpty
  let startDate := cohortStudentViewModuleStartDate db cohort m schedule assignments assigned
  let available := assigned && cohortStudentViewModuleAvailable? assignments startDate on
  let requiresGithub := cohort.requiresGithub m.id
  let lessons := (db.lessonsOf m).map fun lesson =>
    cohortStudentViewLessonJson db cohort m lesson startDate available requiresGithub on now
  { id := m.id
    name := m.name
    moduleType := m.moduleType
    position := m.position
    assigned
    available
    moduleStartDate := startDate
    requiresGithub
    lessonsCount := lessons.length
    visibleLessonsCount := lessons.countP (·.available)
    lockedLessonsCount := lessons.countP (!·.available)
    lessons }

/-! ## The view of a cohort -/

structure StudentViewSummary where
  assignedModules : ℕ
  availableModules : ℕ
  lockedModules : ℕ
  totalLessons : ℕ
  visibleLessons : ℕ
  lockedLessons : ℕ
  deriving DecidableEq, Repr

structure StudentView where
  activeCount : ℕ
  summary : StudentViewSummary
  modules : List StudentViewModule
  /-- `continue_lesson` of the dashboard preview. -/
  continueLesson : Option (ℕ × String)
  deriving DecidableEq, Repr

/-- `cohort_student_view_json`; the schedule rows are indexed by their module. -/
def cohortStudentViewJson (db : Database) (cohort : Cohort) (on : Date) (now : Time) :
    StudentView :=
  let scheduleOf := indexBy CohortModuleSchedule.moduleId
    (db.cohortModuleSchedules.filter (·.cohortId == cohort.id))
  let modules := (db.modulesOf cohort.curriculumId).map fun m =>
    cohortStudentViewModuleJson db cohort m (scheduleOf m.id) (db.activeAssignmentsFor cohort m)
      on now
  let visibleLessons := (modules.map (·.visibleLessonsCount)).sum
  let totalLessons := (modules.map (·.lessonsCount)).sum
  { activeCount := (db.activeEnrollmentsOf cohort).length
    summary :=
      { assignedModules := modules.countP (·.assigned)
        availableModules := modules.countP (·.available)
        lockedModules := modules.countP fun m => m.assigned && !m.available
        totalLessons
        visibleLessons
        lockedLessons := totalLessons - visibleLessons }
    modules
    continueLesson := (((modules.filter (·.assigned)).flatMap (·.lessons)).find?
      (·.available)).map fun lesson => (lesson.id, lesson.title) }

end LearningPlatform
