import LearningPlatform.Model.Learning
import LearningPlatform.Model.Restart

/-! # Requests that change the database

The writing actions of the modules, lessons, content blocks, cohorts, enrollments,
assignment and restart controllers, and the learning writes. A request either commits a new
database or fails and leaves it unchanged. -/

namespace LearningPlatform

open Shared

/-! ## Modules -/

/-- `module_params`; a present key holds `some` value, and `some none` is `null`. -/
structure ModuleParams where
  name : Option (Option String) := none
  moduleType : Option ModuleType := none
  position : Option (Option ℤ) := none
  dayOffset : Option ℤ := none
  scheduleDays : Option (Option String) := none
  deriving DecidableEq, Repr

/-- `schedule_days` after assignment, if it is a key of `SCHEDULE_PATTERNS`. -/
def CurriculumModule.assignedSchedule (m : CurriculumModule) (params : ModuleParams) :
    Option ScheduleDays :=
  match params.scheduleDays with
  | none => some m.scheduleDays
  | some text => text.bind ScheduleDays.ofString?

variable (db : Database)

/-- `schedule_change_preserves_lesson_release_days` for a module that has an id. -/
def Database.scheduleChangeErrors (m : CurriculumModule) (scheduleDays : ScheduleDays) :
    List String :=
  if scheduleDays = m.scheduleDays then []
  else
    let invalidCount := (db.lessons.filter (·.moduleId == m.id)).countP fun lesson =>
      !({ m with scheduleDays } : CurriculumModule).validReleaseDay? lesson.releaseDay
    if invalidCount = 0 then []
    else
      ["Schedule days would exclude " ++ toString invalidCount ++ " restorable " ++
        (if invalidCount = 1 then "lesson" else "lessons")]

/-- Assigns the parameters to a module and validates it. -/
def Database.validateModule (m : CurriculumModule) (persisted : Bool) (params : ModuleParams) :
    Except Failure CurriculumModule :=
  let name := params.name.getD (some m.name)
  let position := params.position.getD (some m.position)
  let scheduleDays := m.assignedSchedule params
  saveUnless
    (presenceErrors "Name" name ++ countErrors "Position" position ++
      (match scheduleDays with
        | none => ["Schedule days is not included in the list"]
        | some scheduleDays => if persisted then db.scheduleChangeErrors m scheduleDays else []))
    { m with
      name := name.getD ""
      moduleType := params.moduleType.getD m.moduleType
      position := position.getD 0
      dayOffset := params.dayOffset.getD m.dayOffset
      scheduleDays := scheduleDays.getD m.scheduleDays }

def createModule (curriculumId : ℕ) (params : ModuleParams) : Except Failure Database := do
  let curriculum ← orNotFound (db.curriculum? curriculumId)
  let m ← db.validateModule { id := db.nextId, curriculumId := curriculum.id, name := "" }
    false params
  .ok { db with modules := db.modules ++ [m], nextId := db.nextId + 1 }

def updateModule (id : ℕ) (params : ModuleParams) : Except Failure Database := do
  let old ← orNotFound (db.module? id)
  let m ← db.validateModule old true params
  .ok { db with modules := updateAll (·.id == id) (fun _ => m) db.modules }

/-! ## Lessons -/

structure LessonParams where
  title : Option (Option String) := none
  position : Option (Option ℤ) := none
  releaseDay : Option (Option ℤ) := none
  requiresSubmission : Option Bool := none
  deriving DecidableEq, Repr

/-- `release_day_matches_module_schedule`. -/
def releaseDayErrors (m : CurriculumModule) (archived : Bool) (releaseDay : Option ℤ) :
    List String :=
  match releaseDay with
  | none => []
  | some releaseDay =>
    if archived || m.validReleaseDay? releaseDay then []
    else ["Release day must match the module schedule"]

/-- Assigns the parameters to a lesson of `m` and validates it. -/
def validateLesson (m : CurriculumModule) (lesson : Lesson) (params : LessonParams) :
    Except Failure Lesson :=
  let title := params.title.getD (some lesson.title)
  let position := params.position.getD (some lesson.position)
  let releaseDay := params.releaseDay.getD (some lesson.releaseDay)
  saveUnless
    (presenceErrors "Title" title ++ countErrors "Position" position ++
      countErrors "Release day" releaseDay ++ releaseDayErrors m lesson.archived? releaseDay)
    { lesson with
      title := title.getD ""
      position := position.getD 0
      releaseDay := releaseDay.getD 0
      requiresSubmission := params.requiresSubmission.getD lesson.requiresSubmission }

def createLesson (moduleId : ℕ) (params : LessonParams) : Except Failure Database := do
  let m ← orNotFound (db.module? moduleId)
  let lesson ← validateLesson m { id := db.nextId, moduleId := m.id, title := "" } params
  .ok { db with lessons := db.lessons ++ [lesson], nextId := db.nextId + 1 }

/-- `@lesson.update`, after `change` has set the columns that no parameter sets. -/
def saveLesson (id : ℕ) (change : Lesson → Lesson) (params : LessonParams) :
    Except Failure Database := do
  let old ← orNotFound (db.lesson? id)
  match db.module? old.moduleId with
  | none => .error (.recordInvalid ["Curriculum module must exist"])
  | some m =>
    let lesson ← validateLesson m (change old) params
    .ok { db with lessons := updateAll (·.id == id) (fun _ => lesson) db.lessons }

def updateLesson (id : ℕ) (params : LessonParams) : Except Failure Database :=
  saveLesson db id (fun lesson => lesson) params

def archiveLesson (id : ℕ) (now : Time) : Except Failure Database :=
  saveLesson db id (fun lesson => { lesson with archivedAt := some now }) {}

def restoreLesson (id : ℕ) : Except Failure Database :=
  saveLesson db id (fun lesson => { lesson with archivedAt := none }) {}

/-! ## Content blocks -/

/-- `block_params`, with a video URL that is already normalized. -/
structure ContentBlockParams where
  blockType : BlockType := .video
  position : Option ℤ := some 0
  title : Option String := none
  body : Option String := none
  videoUrl : Option String := none
  solution : Option String := none
  filename : Option String := none
  submissionType : Option SubmissionType := none
  s3VideoKey : Option String := none
  deriving DecidableEq, Repr

def createContentBlock (lessonId : ℕ) (params : ContentBlockParams) : Except Failure Database := do
  let lesson ← orNotFound (db.lesson? lessonId)
  let block ← saveUnless (countErrors "Position" params.position)
    ({ id := db.nextId
       lessonId := lesson.id
       blockType := params.blockType
       position := params.position.getD 0
       title := params.title
       body := params.body
       videoUrl := params.videoUrl
       solution := params.solution
       filename := params.filename
       submissionType := params.submissionType
       s3VideoKey := params.s3VideoKey } : ContentBlock)
  .ok { db with contentBlocks := db.contentBlocks ++ [block], nextId := db.nextId + 1 }

/-- The `exercise` part of `editor_params` for an existing block. -/
structure ExerciseParams where
  id : ℕ
  title : Option (Option String) := none
  body : Option (Option String) := none
  solution : Option (Option String) := none
  filename : Option (Option String) := none
  submissionType : Option (Option SubmissionType) := none
  rubricId : Option (Option ℕ) := none
  deriving DecidableEq, Repr

def ContentBlock.assign (block : ContentBlock) (params : ExerciseParams) : ContentBlock :=
  { block with
    title := params.title.getD block.title
    body := params.body.getD block.body
    solution := params.solution.getD block.solution
    filename := params.filename.getD block.filename
    submissionType := params.submissionType.getD block.submissionType
    rubricId := params.rubricId.getD block.rubricId }

/-- `rubric_matches_curriculum` and `rubric_change_preserves_recorded_results`. -/
def Database.rubricErrors (m : CurriculumModule) (old block : ContentBlock) : List String :=
  (match block.rubricId.bind db.rubric? with
    | none => []
    | some rubric =>
      if rubric.curriculumId = m.curriculumId then []
      else ["Rubric must belong to the lesson curriculum"]) ++
    (if block.rubricId ≠ old.rubricId ∧ db.submissions.any (fun submission =>
        submission.contentBlockId == old.id &&
          db.submissionCriterionResults.any (·.submissionId == submission.id)) then
      ["Rubric cannot be changed after criterion feedback has been recorded"]
    else [])

/-- `update_editor_exercise!` for an existing exercise of the lesson. -/
def updateEditorExercise (lessonId : ℕ) (params : ExerciseParams) : Except Failure Database := do
  let lesson ← orNotFound (db.lesson? lessonId)
  let m ← orNotFound (db.module? lesson.moduleId)
  let old ← orNotFound (db.contentBlocks.find? fun block =>
    block.lessonId == lesson.id && block.exerciseLike? && block.id == params.id)
  let _ ← saveUnless (db.rubricErrors m old (old.assign params)) ()
  .ok { db with contentBlocks := updateAll (·.id == old.id) (·.assign params) db.contentBlocks }

/-! ## Cohorts -/

structure CohortParams where
  curriculumId : Option ℕ := none
  startDate : Option (Option Date) := none
  deriving DecidableEq, Repr

def Database.validateCohort (cohort : Cohort) (curriculumId : Option ℕ) (startDate : Option Date) :
    Except Failure Cohort :=
  saveUnless
    ((if (curriculumId.bind db.curriculum?).isNone then ["Curriculum must exist"] else []) ++
      (if startDate.isNone then ["Start date can't be blank"] else []))
    { cohort with curriculumId := curriculumId.getD 0, startDate := startDate.getD 0 }

def createCohort (params : CohortParams) : Except Failure Database := do
  let cohort ← db.validateCohort { id := db.nextId, curriculumId := 0 } params.curriculumId
    (params.startDate.getD none)
  .ok { db with cohorts := db.cohorts ++ [cohort], nextId := db.nextId + 1 }

def updateCohort (id : ℕ) (params : CohortParams) : Except Failure Database := do
  let old ← orNotFound (db.cohort? id)
  let cohort ← db.validateCohort old (params.curriculumId.or (some old.curriculumId))
    (params.startDate.getD (some old.startDate))
  .ok { db with cohorts := updateAll (·.id == id) (fun _ => cohort) db.cohorts }

/-! ## Module access of a cohort -/

/-- `module_access_params`. A start date is absent or blank, a text that is no ISO 8601
date (`some none`), or a date. -/
structure ModuleAccessParams where
  moduleId : ℕ
  assigned : Param := .null
  unlocked : Option Bool := none
  moduleStartDate : Option (Option Date) := none
  requiresGithub : Option Bool := none
  deriving DecidableEq, Repr

/-- The two `destroy_all` calls for one enrollment. -/
def Database.unassignModule (enrollment : Enrollment) (moduleId : ℕ) (lessonIds : List ℕ) :
    Database :=
  { db with
    lessonAssignments := deleteAll (fun assignment =>
      assignment.enrollmentId == enrollment.id && lessonIds.contains assignment.lessonId)
      db.lessonAssignments
    moduleAssignments := deleteAll (fun assignment =>
      assignment.enrollmentId == enrollment.id && assignment.moduleId == moduleId)
      db.moduleAssignments }

/-- `find_or_initialize_by(module_id:)` on the assignments of an enrollment, followed by
the assignment of `unlocked` and `save!`. -/
def Database.assignModule (enrollment : Enrollment) (moduleId : ℕ) (unlocked : Option Bool)
    (now : Time) : Database :=
  match db.moduleAssignmentFor enrollment moduleId with
  | some assignment =>
    { db with
      moduleAssignments := updateAll (·.id == assignment.id)
        (fun row => { row with unlocked := unlocked.getD row.unlocked, updatedAt := now })
        db.moduleAssignments }
  | none =>
    { db with
      moduleAssignments := db.moduleAssignments ++
        [{ id := db.nextId, enrollmentId := enrollment.id, moduleId
           unlocked := unlocked.getD true, createdAt := now, updatedAt := now }]
      nextId := db.nextId + 1 }

/-- The body of the loop over the active enrollments. -/
def Database.moduleAccessFor (m : CurriculumModule) (lessonIds : List ℕ)
    (params : ModuleAccessParams) (startedAt now : Time) (enrollment : Enrollment) :
    Except Failure Database := do
  enrollment.learningWriteGuard startedAt
  if params.assigned = .bool false then
    .ok (db.unassignModule enrollment m.id lessonIds)
  else
    .ok (db.assignModule enrollment m.id params.unlocked now)

/-- `start_date_matches_module_schedule`. -/
def startDateErrors (m : CurriculumModule) (startDate : Date) : List String :=
  if weekdayIndex startDate = m.firstScheduledDayIndex then []
  else
    ["Start date must fall on " ++ dayNames.getD m.firstScheduledDayIndex.toNat "" ++
      " for this module schedule"]

/-- `cohort_module_schedules.find_or_initialize_by(module_id:)` and its `save!`. -/
def Database.saveSchedule (cohort : Cohort) (m : CurriculumModule) (startDate : Option Date)
    (today : Date) : Except Failure Database := do
  let found := db.moduleScheduleFor cohort m
  let date := (startDate.or (found.map (·.startDate))).getD (m.nextStartDateOnOrAfter today)
  let date ← saveUnless (startDateErrors m date) date
  match found with
  | some schedule =>
    .ok { db with
      cohortModuleSchedules := updateAll (·.id == schedule.id)
        (fun row => { row with startDate := date }) db.cohortModuleSchedules }
  | none =>
    .ok { db with
      cohortModuleSchedules := db.cohortModuleSchedules ++
        [{ id := db.nextId, cohortId := cohort.id, moduleId := m.id, startDate := date }]
      nextId := db.nextId + 1 }

/-- The schedule part of the transaction. -/
def Database.updateSchedules (cohort : Cohort) (m : CurriculumModule) (params : ModuleAccessParams)
    (alreadyAssigned : Bool) (today : Date) : Except Failure Database :=
  if params.assigned = .bool false then
    .ok { db with
      cohortModuleSchedules := deleteAll (fun schedule =>
        schedule.cohortId == cohort.id && schedule.moduleId == m.id) db.cohortModuleSchedules }
  else if params.assigned = .bool true || alreadyAssigned then
    db.saveSchedule cohort m (params.moduleStartDate.getD none) today
  else .ok db

/-- `@cohort.update!(settings:)` for the `requires_github` flag of a module. -/
def Database.updateSettings (cohort : Cohort) (moduleId : ℕ) : Option Bool → Database
  | none => db
  | some flag =>
    { db with
      cohorts := updateAll (·.id == cohort.id)
        (fun row =>
          let others := row.githubModules.filter (· != moduleId)
          { row with githubModules := if flag then moduleId :: others else others })
        db.cohorts }

/-- `@cohort.enrollments.active.order(:id)`. -/
def Database.activeEnrollmentsOf (cohort : Cohort) : List Enrollment :=
  (db.enrollments.filter fun enrollment =>
    enrollment.cohortId == cohort.id && enrollment.status == .active).insertionSort
      fun first second => first.id ≤ second.id

def Database.moduleAlreadyAssigned? (cohort : Cohort) (m : CurriculumModule) : Bool :=
  db.cohortModuleSchedules.any (fun schedule =>
    schedule.cohortId == cohort.id && schedule.moduleId == m.id) ||
    (db.activeEnrollmentsOf cohort).any fun enrollment =>
      db.moduleAssignments.any fun assignment =>
        assignment.enrollmentId == enrollment.id && assignment.moduleId == m.id

def moduleAccess (db : Database) (cohortId : ℕ) (params : ModuleAccessParams)
    (startedAt now : Time) (today : Date) : Except Failure Database := do
  let cohort ← orNotFound (db.cohort? cohortId)
  let m ← orNotFound ((db.modulesOf cohort.curriculumId).find? (·.id == params.moduleId))
  if params.moduleStartDate = some none then
    .error (.recordInvalid ["Module start date is invalid"])
  else if params.assigned = .null && !db.moduleAlreadyAssigned? cohort m then
    .error (.recordInvalid ["Module must be assigned before it can be updated"])
  else
    let lessonIds := (db.lessonsOf m).map (·.id)
    let assigned ← (db.activeEnrollmentsOf cohort).foldlM
      (fun db enrollment =>
        db.moduleAccessFor m lessonIds params startedAt now enrollment) db
    let scheduled ← assigned.updateSchedules cohort m params
      (db.moduleAlreadyAssigned? cohort m) today
    .ok (scheduled.updateSettings cohort m.id params.requiresGithub)

/-! ## Enrollments -/

/-- `EnrollmentsController#create`: the enrollment and an assignment of every module of
the curriculum. -/
def createEnrollment (cohortId userId : ℕ) (now : Time) : Except Failure Database := do
  let cohort ← orNotFound (db.cohort? cohortId)
  let user ← orNotFound (db.user? userId)
  let enrollment ← saveUnless
    (if db.enrollments.any fun other =>
        other.userId == user.id && other.cohortId == cohort.id then
      ["User has already been taken"] else [])
    ({ id := db.nextId, userId := user.id, cohortId := cohort.id, enrolledAt := some now
       createdAt := now, updatedAt := now } : Enrollment)
  let enrolled := { db with
    enrollments := db.enrollments ++ [enrollment], nextId := db.nextId + 1 }
  .ok ((db.modulesOf cohort.curriculumId).foldl
    (fun db m => { db with
      moduleAssignments := db.moduleAssignments ++
        [{ id := db.nextId, enrollmentId := enrollment.id, moduleId := m.id
           createdAt := now, updatedAt := now }]
      nextId := db.nextId + 1 }) enrolled)

def updateEnrollment (id : ℕ) (status : EnrollmentStatus) (now : Time) :
    Except Failure Database := do
  let enrollment ← orNotFound (db.enrollment? id)
  .ok { db with
    enrollments := updateAll (·.id == enrollment.id)
      (fun row => { row with status, updatedAt := now }) db.enrollments }

/-- `EnrollmentsController#destroy` with the dependent rows of the enrollment. -/
def destroyEnrollment (id : ℕ) : Except Failure Database := do
  let enrollment ← orNotFound (db.enrollment? id)
  let interventionIds :=
    (db.interventions.filter (·.enrollmentId == enrollment.id)).map (·.id)
  .ok { db with
    moduleAssignments := deleteAll (·.enrollmentId == enrollment.id) db.moduleAssignments
    lessonAssignments := deleteAll (·.enrollmentId == enrollment.id) db.lessonAssignments
    notifications := deleteAll
      (fun row => match row.notifiable with
        | .intervention id => interventionIds.contains id
        | _ => false) db.notifications
    interventions := deleteAll (·.enrollmentId == enrollment.id) db.interventions
    recoveryPlans := deleteAll (·.enrollmentId == enrollment.id) db.recoveryPlans
    enrollmentRestarts := updateAll (·.enrollmentId == some enrollment.id)
      (fun row => { row with enrollmentId := none }) db.enrollmentRestarts
    enrollments := deleteAll (·.id == enrollment.id) db.enrollments }

/-! ## Module and lesson assignments -/

/-- `module_assignment_params` and `lesson_assignment_params`; `targetId` is the module or
the lesson. -/
structure AssignmentParams where
  targetId : Option ℕ := none
  unlocked : Option Bool := none
  unlockDateOverride : Option (Option Date) := none
  deriving DecidableEq, Repr

def ModuleAssignment.assign (row : ModuleAssignment) (params : AssignmentParams) (now : Time) :
    ModuleAssignment :=
  { row with
    moduleId := params.targetId.getD row.moduleId
    unlocked := params.unlocked.getD row.unlocked
    unlockDateOverride := params.unlockDateOverride.getD row.unlockDateOverride
    updatedAt := now }

def LessonAssignment.assign (row : LessonAssignment) (params : AssignmentParams) (now : Time) :
    LessonAssignment :=
  { row with
    lessonId := params.targetId.getD row.lessonId
    unlocked := params.unlocked.getD row.unlocked
    unlockDateOverride := params.unlockDateOverride.getD row.unlockDateOverride
    updatedAt := now }

def Database.validateModuleAssignment (row : ModuleAssignment) : Except Failure ModuleAssignment :=
  saveUnless
    ((if (db.module? row.moduleId).isNone then ["Curriculum module must exist"] else []) ++
      (if db.moduleAssignments.any fun other =>
          other.id != row.id && other.enrollmentId == row.enrollmentId &&
            other.moduleId == row.moduleId then
        ["Module has already been taken"] else []))
    row

def Database.validateLessonAssignment (row : LessonAssignment) : Except Failure LessonAssignment :=
  saveUnless
    ((if (db.lesson? row.lessonId).isNone then ["Lesson must exist"] else []) ++
      (if db.lessonAssignments.any fun other =>
          other.id != row.id && other.enrollmentId == row.enrollmentId &&
            other.lessonId == row.lessonId then
        ["Lesson has already been taken"] else []))
    row

/-- `ModuleAssignmentsController#create`: `find_or_initialize_by(module_id:)`, so an
existing assignment is updated. -/
def createModuleAssignment (enrollmentId : ℕ) (params : AssignmentParams) (startedAt now : Time) :
    Except Failure Database := do
  let enrollment ← orNotFound (db.enrollment? enrollmentId)
  enrollment.learningWriteGuard startedAt
  match params.targetId with
  | none => .error (.recordInvalid ["Curriculum module must exist"])
  | some moduleId =>
    match db.moduleAssignmentFor enrollment moduleId with
    | some found =>
      let row ← db.validateModuleAssignment (found.assign params now)
      .ok { db with
        moduleAssignments :=
          updateAll (·.id == found.id) (fun _ => row) db.moduleAssignments }
    | none =>
      let row ← db.validateModuleAssignment
        (({ id := db.nextId, enrollmentId := enrollment.id, moduleId
            createdAt := now } : ModuleAssignment).assign params now)
      .ok { db with
        moduleAssignments := db.moduleAssignments ++ [row], nextId := db.nextId + 1 }

/-- What `update` and `destroy` of both assignment controllers share: the assignment is found
and its enrollment takes the write. -/
def Database.withAssignment {ρ : Type} (db : Database) (rows : List ρ) (key owner : ρ → ℕ)
    (id : ℕ) (startedAt : Time) (write : ρ → Except Failure Database) :
    Except Failure Database := do
  let found ← orNotFound (rows.find? (key · == id))
  let enrollment ← orNotFound (db.enrollment? (owner found))
  enrollment.learningWriteGuard startedAt
  write found

def updateModuleAssignment (id : ℕ) (params : AssignmentParams) (startedAt now : Time) :
    Except Failure Database :=
  db.withAssignment db.moduleAssignments (·.id) (·.enrollmentId) id startedAt fun found => do
    let row ← db.validateModuleAssignment (found.assign params now)
    .ok { db with
      moduleAssignments := updateAll (·.id == found.id) (fun _ => row) db.moduleAssignments }

def destroyModuleAssignment (id : ℕ) (startedAt : Time) : Except Failure Database :=
  db.withAssignment db.moduleAssignments (·.id) (·.enrollmentId) id startedAt fun found =>
    .ok { db with moduleAssignments := deleteAll (·.id == found.id) db.moduleAssignments }

def createLessonAssignment (enrollmentId : ℕ) (params : AssignmentParams) (startedAt now : Time) :
    Except Failure Database := do
  let enrollment ← orNotFound (db.enrollment? enrollmentId)
  enrollment.learningWriteGuard startedAt
  match params.targetId with
  | none => .error (.recordInvalid ["Lesson must exist"])
  | some lessonId =>
    let row ← db.validateLessonAssignment
      (({ id := db.nextId, enrollmentId := enrollment.id, lessonId
          createdAt := now } : LessonAssignment).assign params now)
    .ok { db with
      lessonAssignments := db.lessonAssignments ++ [row], nextId := db.nextId + 1 }

def updateLessonAssignment (id : ℕ) (params : AssignmentParams) (startedAt now : Time) :
    Except Failure Database :=
  db.withAssignment db.lessonAssignments (·.id) (·.enrollmentId) id startedAt fun found => do
    let row ← db.validateLessonAssignment (found.assign params now)
    .ok { db with
      lessonAssignments := updateAll (·.id == found.id) (fun _ => row) db.lessonAssignments }

def destroyLessonAssignment (id : ℕ) (startedAt : Time) : Except Failure Database :=
  db.withAssignment db.lessonAssignments (·.id) (·.enrollmentId) id startedAt fun found =>
    .ok { db with lessonAssignments := deleteAll (·.id == found.id) db.lessonAssignments }

/-! ## The request system -/

inductive PlatformRequest where
  | createModule (curriculumId : ℕ) (params : ModuleParams)
  | updateModule (id : ℕ) (params : ModuleParams)
  | createLesson (moduleId : ℕ) (params : LessonParams)
  | updateLesson (id : ℕ) (params : LessonParams)
  | archiveLesson (id : ℕ) (now : Time)
  | restoreLesson (id : ℕ)
  | createContentBlock (lessonId : ℕ) (params : ContentBlockParams)
  | updateEditorExercise (lessonId : ℕ) (params : ExerciseParams)
  | createCohort (params : CohortParams)
  | updateCohort (id : ℕ) (params : CohortParams)
  | moduleAccess (cohortId : ℕ) (params : ModuleAccessParams) (startedAt now : Time) (today : Date)
  | createEnrollment (cohortId userId : ℕ) (now : Time)
  | updateEnrollment (id : ℕ) (status : EnrollmentStatus) (now : Time)
  | destroyEnrollment (id : ℕ)
  | createModuleAssignment (enrollmentId : ℕ) (params : AssignmentParams) (startedAt now : Time)
  | updateModuleAssignment (id : ℕ) (params : AssignmentParams) (startedAt now : Time)
  | destroyModuleAssignment (id : ℕ) (startedAt : Time)
  | createLessonAssignment (enrollmentId : ℕ) (params : AssignmentParams) (startedAt now : Time)
  | updateLessonAssignment (id : ℕ) (params : AssignmentParams) (startedAt now : Time)
  | destroyLessonAssignment (id : ℕ) (startedAt : Time)
  | restartEnrollment (id : ℕ) (performedBy : User) (reason : Param) (now : Time)
  | learning (call : LearningCall)

/-- `EnrollmentRestartsController#create` after the confirmation of the email address. -/
def restartEnrollment (id : ℕ) (performedBy : User) (reason : Param) (now : Time) :
    Except Failure Database := do
  let service ← orNotFound (EnrollmentRestartService.new? db id performedBy reason)
  (service.call now db).map (·.1)

def PlatformRequest.execute : PlatformRequest → Except Failure Database
  | .createModule curriculumId params => LearningPlatform.createModule db curriculumId params
  | .updateModule id params => LearningPlatform.updateModule db id params
  | .createLesson moduleId params => LearningPlatform.createLesson db moduleId params
  | .updateLesson id params => LearningPlatform.updateLesson db id params
  | .archiveLesson id now => LearningPlatform.archiveLesson db id now
  | .restoreLesson id => LearningPlatform.restoreLesson db id
  | .createContentBlock lessonId params =>
    LearningPlatform.createContentBlock db lessonId params
  | .updateEditorExercise lessonId params =>
    LearningPlatform.updateEditorExercise db lessonId params
  | .createCohort params => LearningPlatform.createCohort db params
  | .updateCohort id params => LearningPlatform.updateCohort db id params
  | .moduleAccess cohortId params startedAt now today =>
    LearningPlatform.moduleAccess db cohortId params startedAt now today
  | .createEnrollment cohortId userId now =>
    LearningPlatform.createEnrollment db cohortId userId now
  | .updateEnrollment id status now => LearningPlatform.updateEnrollment db id status now
  | .destroyEnrollment id => LearningPlatform.destroyEnrollment db id
  | .createModuleAssignment enrollmentId params startedAt now =>
    LearningPlatform.createModuleAssignment db enrollmentId params startedAt now
  | .updateModuleAssignment id params startedAt now =>
    LearningPlatform.updateModuleAssignment db id params startedAt now
  | .destroyModuleAssignment id startedAt =>
    LearningPlatform.destroyModuleAssignment db id startedAt
  | .createLessonAssignment enrollmentId params startedAt now =>
    LearningPlatform.createLessonAssignment db enrollmentId params startedAt now
  | .updateLessonAssignment id params startedAt now =>
    LearningPlatform.updateLessonAssignment db id params startedAt now
  | .destroyLessonAssignment id startedAt =>
    LearningPlatform.destroyLessonAssignment db id startedAt
  | .restartEnrollment id performedBy reason now =>
    LearningPlatform.restartEnrollment db id performedBy reason now
  | .learning call => call.execute db

/-- A failed request leaves the database as it was. -/
def PlatformRequest.perform (request : PlatformRequest) : Database :=
  match request.execute db with
  | .ok db' => db'
  | .error _ => db

end LearningPlatform
