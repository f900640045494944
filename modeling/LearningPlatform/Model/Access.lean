import LearningPlatform.Model.Calendar

/-! # Access gates and the content they guard

The lesson, module and content-block gates, `HelpRequestContext`, the student dashboard and
the two endpoints that render lesson content. -/

namespace LearningPlatform

/-! ## Lookups shared by the gates -/

variable (db : Database)

/-- `current_user.enrollments.active.joins(:cohort).find_by(cohorts: { curriculum_id: })`,
with the cohort of the enrollment. -/
def Database.activeEnrollmentFor (user : User) (curriculumId : ℕ) : Option (Enrollment × Cohort) :=
  db.enrollments.findSome? fun enrollment =>
    if enrollment.userId == user.id && enrollment.status == .active then
      (db.cohort? enrollment.cohortId).bind fun cohort =>
        if cohort.curriculumId == curriculumId then some (enrollment, cohort) else none
    else none

def Database.moduleAssignmentFor (enrollment : Enrollment) (moduleId : ℕ) :
    Option ModuleAssignment :=
  db.moduleAssignments.find? fun assignment =>
    assignment.enrollmentId == enrollment.id && assignment.moduleId == moduleId

def Database.lessonAssignmentFor (enrollment : Enrollment) (lessonId : ℕ) :
    Option LessonAssignment :=
  db.lessonAssignments.find? fun assignment =>
    assignment.enrollmentId == enrollment.id && assignment.lessonId == lessonId

/-- `assignment&.accessible?(cohort)`. -/
def Database.moduleOpen? (assignment : Option ModuleAssignment) (m : CurriculumModule)
    (cohort : Cohort) (on : Date) : Bool :=
  (assignment.map fun assignment => db.accessible? assignment m cohort on).getD false

/-- Rows indexed by a key, where a later row replaces an earlier one. -/
def indexBy {ρ : Type*} (key : ρ → ℕ) (rows : List ρ) (k : ℕ) : Option ρ :=
  rows.reverse.find? (key · == k)

/-! ## Lesson gates -/

/-- The check that the three lesson gates share once the enrollment is known: the module is
accessible or the lesson is assigned, and the lesson is available. -/
def Database.checkLesson (enrollment : Enrollment) (cohort : Cohort) (m : CurriculumModule)
    (lesson : Lesson) (on : Date) (inaccessible locked : Failure) : Except Failure Unit :=
  let assignment := db.moduleAssignmentFor enrollment lesson.moduleId
  let lessonAssignment := db.lessonAssignmentFor enrollment lesson.id
  if db.moduleOpen? assignment m cohort on || lessonAssignment.isSome then
    if db.available? lesson m cohort assignment lessonAssignment on then .ok ()
    else .error locked
  else .error inaccessible

def authorizeLessonRead! (user : User) (lesson : Lesson) (on : Date) : Except Failure Unit :=
  if user.staff? then .ok ()
  else if lesson.archived? then .error (.forbidden "Cannot access this lesson")
  else
    match db.module? lesson.moduleId with
    | none => .error .recordNotFound
    | some m =>
      match db.activeEnrollmentFor user m.curriculumId with
      | none => .error (.forbidden "Cannot access this lesson")
      | some (enrollment, cohort) =>
        db.checkLesson enrollment cohort m lesson on
          (.forbidden "Cannot access this lesson") (.forbidden "Lesson is not unlocked yet")

/-- `ApplicationController#authorize_content_block_write!`, returning the enrollment kept
in `@learning_write_enrollment`; staff have none. -/
def authorizeContentBlockWrite! (user : User) (block : ContentBlock) (on : Date) :
    Except Failure (Option (Enrollment × Cohort)) :=
  if user.staff? then .ok none
  else
    match db.lesson? block.lessonId with
    | none => .error .recordNotFound
    | some lesson =>
      match db.module? lesson.moduleId with
      | none => .error .recordNotFound
      | some m =>
        match db.activeEnrollmentFor user m.curriculumId with
        | none => .error (.forbidden "Not enrolled in this curriculum")
        | some (enrollment, cohort) =>
          match db.checkLesson enrollment cohort m lesson on
              (.forbidden "Module is not accessible")
              (.forbidden "Lesson is not unlocked yet") with
          | .error failure => .error failure
          | .ok _ => .ok (some (enrollment, cohort))

def authorizeSubmissionWindowOpen! (user : User) (block : ContentBlock) (now : Time) :
    Except Failure Unit :=
  if user.staff? then .ok ()
  else
    match db.lesson? block.lessonId with
    | none => .error .recordNotFound
    | some lesson =>
      match db.module? lesson.moduleId with
      | none => .error .recordNotFound
      | some m =>
        match db.activeEnrollmentFor user m.curriculumId with
        | none => .ok ()
        | some (_, cohort) =>
          let status := SubmissionWindowStatus.forLesson db cohort lesson now
          if status.submissionsClosed then
            .error (.forbidden
              ("Submissions for Week " ++ toString status.weekNumber ++ " are closed"))
          else .ok ()

namespace HelpRequestContext

/-- `HelpRequestContext#authorize_lesson!`. -/
def authorizeLesson! (db : Database) (enrollment : Enrollment) (cohort : Cohort)
    (lesson : Lesson) (on : Date) : Except Failure Unit :=
  match db.module? lesson.moduleId with
  | none => .error (.unprocessable "This lesson is not available")
  | some m =>
    if m.curriculumId == cohort.curriculumId then
      db.checkLesson enrollment cohort m lesson on
        (.unprocessable "This lesson is not available")
        (.unprocessable "This lesson is not available")
    else .error (.unprocessable "This lesson is not available")

/-- `HelpRequestContext.resolve!` for the context type `lesson` and a primary source. -/
def resolveLesson! (db : Database) (student : User) (cohortId lessonId : ℕ) (on : Date) :
    Except Failure Lesson :=
  match db.enrollments.find? fun enrollment =>
      enrollment.userId == student.id && enrollment.status == .active &&
        enrollment.cohortId == cohortId with
  | none => .error (.unprocessable "You do not have access to this cohort")
  | some enrollment =>
    match db.cohort? enrollment.cohortId with
    | none => .error .recordNotFound
    | some cohort =>
      match db.lesson? lessonId with
      | none => .error (.unprocessable "This lesson is not available")
      | some lesson =>
        match authorizeLesson! db enrollment cohort lesson on with
        | .error failure => .error failure
        | .ok _ => .ok lesson

end HelpRequestContext

/-! ## The student dashboard -/

structure DashboardLesson where
  id : ℕ
  title : String
  releaseDay : ℤ
  available : Bool
  unlockDate : Date
  submissionWindow : WeekStatus
  deriving DecidableEq, Repr

structure DashboardModule where
  id : ℕ
  name : String
  unlocked : Bool
  available : Bool
  lessons : List DashboardLesson
  deriving DecidableEq, Repr

def Database.modulesOf (db : Database) (curriculumId : ℕ) : List CurriculumModule :=
  (db.modules.filter (·.curriculumId == curriculumId)).insertionSort
    fun first second => first.position ≤ second.position

def Database.firstActiveEnrollment (db : Database) (user : User) : Option Enrollment :=
  ((db.enrollments.filter fun enrollment =>
    enrollment.userId == user.id && enrollment.status == .active).insertionSort
      fun first second => first.id ≤ second.id).head?

/-- The module list of `render_student_dashboard`: the assigned modules of the cohort's
curriculum with the access data of their lessons. -/
def renderStudentDashboard (db : Database) (user : User) (on : Date) (now : Time) :
    Option (List DashboardModule) :=
  (db.firstActiveEnrollment user).bind fun enrollment =>
    (db.cohort? enrollment.cohortId).map fun cohort =>
      let assignmentOf := indexBy ModuleAssignment.moduleId
        (db.moduleAssignments.filter (·.enrollmentId == enrollment.id))
      let lessonAssignmentOf := indexBy LessonAssignment.lessonId
        (db.lessonAssignments.filter (·.enrollmentId == enrollment.id))
      let modules := (db.modulesOf cohort.curriculumId).filter fun m => (assignmentOf m.id).isSome
      modules.map fun m =>
        let available lesson :=
          db.available? lesson m cohort (assignmentOf m.id) (lessonAssignmentOf lesson.id) on
        { id := m.id
          name := m.name
          unlocked := db.moduleOpen? (assignmentOf m.id) m cohort on
          available := (db.lessonsOf m).any available
          lessons := (db.lessonsOf m).map fun lesson =>
            { id := lesson.id
              title := lesson.title
              releaseDay := lesson.releaseDay
              available := available lesson
              unlockDate := ((lessonAssignmentOf lesson.id).bind (·.unlockDateOverride)).getD
                (db.unlockDate lesson m cohort (assignmentOf m.id))
              submissionWindow := SubmissionWindowStatus.forLesson db cohort lesson now } }

end LearningPlatform
