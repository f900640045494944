import LearningPlatform.Model.Access
import LearningPlatform.Model.Params

/-! # Content blocks and the endpoints that render them

`ContentBlock`, the block lists of `Lesson`, `ModulesController#show` and
`LessonsController#show`. -/

namespace LearningPlatform

/-! ## Block types and submission types -/

namespace ContentBlock

variable (block : ContentBlock)

def exerciseLike? : Bool :=
  block.blockType == .exercise || block.blockType == .codeChallenge

def studentWorkBlock? : Bool :=
  block.exerciseLike? || block.blockType == .checkpoint

def legacySubmissionType (lesson : Lesson) (m : CurriculumModule) (requiresGithub : Bool) :
    SubmissionType :=
  if !block.exerciseLike? then .manualComplete
  else if requiresGithub && (presence block.filename).isSome then .preworkGithubSync
  else if lesson.requiresSubmission then .textSubmission
  else if (presence block.filename).isSome && m.moduleType == .prework then .preworkGithubSync
  else .manualComplete

def effectiveSubmissionType (lesson : Lesson) (m : CurriculumModule) (requiresGithub : Bool) :
    SubmissionType :=
  block.submissionType.getD (block.legacySubmissionType lesson m requiresGithub)

/-- `REVIEW_REQUIRED_SUBMISSION_TYPES` holds every type but `manual_complete`. -/
def reviewRequired? (lesson : Lesson) (m : CurriculumModule) (requiresGithub : Bool) : Bool :=
  block.effectiveSubmissionType lesson m requiresGithub != .manualComplete

end ContentBlock

/-- `cohort.settings.dig("module_github_config", module_id, "requires_github")`. -/
def Cohort.requiresGithub (cohort : Cohort) (moduleId : ℕ) : Bool :=
  cohort.githubModules.contains moduleId

/-! ## Blocks of a lesson -/

variable (db : Database)

def Database.contentBlocksOf (lesson : Lesson) : List ContentBlock :=
  (db.contentBlocks.filter (·.lessonId == lesson.id)).insertionSort
    fun first second => first.position ≤ second.position

def Database.primaryAssignmentBlock (lesson : Lesson) : Option ContentBlock :=
  (db.contentBlocksOf lesson).find? (·.exerciseLike?)

/-- `completion_block_ids`: the student-work blocks, or all blocks if there are none. -/
def Database.completionBlockIds (lesson : Lesson) : List ℕ :=
  let blocks := db.contentBlocksOf lesson
  let actionable := blocks.filter (·.studentWorkBlock?)
  (if actionable.isEmpty then blocks else actionable).map (·.id)

def Database.effectiveRequiresSubmission (lesson : Lesson) (m : CurriculumModule)
    (requiresGithub : Bool) : Bool :=
  match db.primaryAssignmentBlock lesson with
  | none => lesson.requiresSubmission
  | some block => block.reviewRequired? lesson m requiresGithub

/-- `Lesson#effective_submission_type`. -/
def Database.lessonSubmissionType (lesson : Lesson) (m : CurriculumModule) (requiresGithub : Bool) :
    SubmissionType :=
  match db.primaryAssignmentBlock lesson with
  | none => .manualComplete
  | some block => block.effectiveSubmissionType lesson m requiresGithub

/-! ## Rendered blocks -/

/-- The keys that both endpoints render; only staff get the solution. -/
structure BlockJson where
  id : ℕ
  blockType : BlockType
  position : ℤ
  title : Option String
  body : Option String
  videoUrl : Option String
  filename : Option String
  submissionType : SubmissionType
  submissionTypeExplicit : Option SubmissionType
  metadata : String
  solution : Option (Option String)
  deriving DecidableEq, Repr

structure LessonBlockJson extends BlockJson where
  s3VideoKey : Option String
  hasS3Video : Bool
  completionRequired : Bool
  deriving DecidableEq, Repr

def ContentBlock.json (block : ContentBlock) (lesson : Lesson) (m : CurriculumModule)
    (requiresGithub includeSolution : Bool) : BlockJson where
  id := block.id
  blockType := block.blockType
  position := block.position
  title := block.title
  body := block.body
  videoUrl := block.videoUrl
  filename := block.filename
  submissionType := block.effectiveSubmissionType lesson m requiresGithub
  submissionTypeExplicit := block.submissionType
  metadata := block.metadata
  solution := if includeSolution then some block.solution else none

/-! ## Modules -/

def authorizeModuleRead! (user : User) (m : CurriculumModule) (on : Date) : Except Failure Unit :=
  if user.staff? then .ok ()
  else
    match db.activeEnrollmentFor user m.curriculumId with
    | none => .error (.forbidden "Cannot access this module")
    | some (enrollment, cohort) =>
      let assignment := db.moduleAssignmentFor enrollment m.id
      let lessons := db.lessonsOf m
      let lessonAssignments := db.lessonAssignments.filter fun row =>
        row.enrollmentId == enrollment.id && lessons.any (·.id == row.lessonId)
      let lessonAssignmentOf := indexBy LessonAssignment.lessonId lessonAssignments
      if db.moduleOpen? assignment m cohort on || !lessonAssignments.isEmpty then
        if lessons.isEmpty then .ok ()
        else if lessons.any fun lesson =>
            db.available? lesson m cohort assignment (lessonAssignmentOf lesson.id) on then .ok ()
        else .error (.forbidden "Module is not unlocked yet")
      else .error (.forbidden "Cannot access this module")

structure ModuleLessonJson where
  id : ℕ
  title : String
  position : ℤ
  releaseDay : ℤ
  archivedAt : Option Time
  requiresSubmission : Bool
  submissionType : SubmissionType
  contentBlocks : List BlockJson
  deriving DecidableEq, Repr

structure ModuleJson where
  id : ℕ
  curriculumId : ℕ
  name : String
  moduleType : ModuleType
  position : ℤ
  dayOffset : ℤ
  scheduleDays : ScheduleDays
  scheduledDayNames : List String
  weekCount : ℤ
  lessonsCount : ℕ
  archivedLessonsCount : Option ℕ
  lessons : List ModuleLessonJson
  deriving DecidableEq, Repr

def CurriculumModule.scheduledDayNames (m : CurriculumModule) : List String :=
  m.scheduledWeekdayIndices.map fun index => dayNames.getD index.toNat ""

/-- `module_json(@module, include_lessons: true, include_solutions: current_user.staff?)`. -/
def moduleJson (user : User) (m : CurriculumModule) : ModuleJson :=
  let lessons := if user.staff? then db.allLessonsOf m else db.lessonsOf m
  { id := m.id
    curriculumId := m.curriculumId
    name := m.name
    moduleType := m.moduleType
    position := m.position
    dayOffset := m.dayOffset
    scheduleDays := m.scheduleDays
    scheduledDayNames := m.scheduledDayNames
    weekCount := db.weekCount m
    lessonsCount := lessons.countP (!·.archived?)
    archivedLessonsCount := if user.staff? then some (lessons.countP (·.archived?)) else none
    lessons := lessons.map fun lesson =>
      { id := lesson.id
        title := lesson.title
        position := lesson.position
        releaseDay := lesson.releaseDay
        archivedAt := lesson.archivedAt
        requiresSubmission := db.effectiveRequiresSubmission lesson m false
        submissionType := db.lessonSubmissionType lesson m false
        contentBlocks := (db.contentBlocksOf lesson).map fun block =>
          block.json lesson m false user.staff? } }

/-- `GET /api/v1/modules/:id`. -/
def modulesShow (user : User) (id : ℕ) (on : Date) : Except Failure ModuleJson := do
  let m ← orNotFound (db.module? id)
  authorizeModuleRead! db user m on
  .ok (moduleJson db user m)

/-! ## Lessons -/

structure LessonLink where
  id : ℕ
  title : String
  deriving DecidableEq, Repr

structure LessonJson where
  id : ℕ
  curriculumId : ℕ
  moduleId : ℕ
  title : String
  position : ℤ
  releaseDay : ℤ
  archivedAt : Option Time
  contentBlocksCount : ℕ
  cohortId : Option ℕ
  requiresGithub : Option Bool
  submissionWindow : Option WeekStatus
  requiresSubmission : Bool
  submissionType : SubmissionType
  contentBlocks : List LessonBlockJson
  prevLesson : Option LessonLink
  nextLesson : Option LessonLink
  deriving DecidableEq, Repr

def Lesson.link (lesson : Lesson) : LessonLink where
  id := lesson.id
  title := lesson.title

/-- The lessons that `prev_lesson` and `next_lesson` are taken from. -/
def Database.siblingLessons (user : User) (lesson : Lesson) (m : CurriculumModule) (on : Date) :
    List Lesson :=
  let siblings := (db.lessons.filter (·.moduleId == lesson.moduleId)).insertionSort
    fun first second => first.position ≤ second.position
  if user.staff? then siblings
  else
    match db.activeEnrollmentFor user m.curriculumId with
    | none => []
    | some (enrollment, cohort) =>
      let assignment := db.moduleAssignmentFor enrollment lesson.moduleId
      siblings.filter fun sibling =>
        db.available? sibling m cohort assignment
          (db.lessonAssignmentFor enrollment sibling.id) on

/-- `lesson_json(lesson, include_content: true)`. -/
def lessonJson (user : User) (lesson : Lesson) (m : CurriculumModule) (on : Date) (now : Time) :
    LessonJson :=
  let cohort :=
    if user.student? then (db.activeEnrollmentFor user m.curriculumId).map Prod.snd else none
  let requiresGithub := (cohort.map (·.requiresGithub lesson.moduleId)).getD false
  let blocks := db.contentBlocksOf lesson
  let siblings := db.siblingLessons user lesson m on
  let index := siblings.findIdx? (·.id == lesson.id)
  { id := lesson.id
    curriculumId := m.curriculumId
    moduleId := lesson.moduleId
    title := lesson.title
    position := lesson.position
    releaseDay := lesson.releaseDay
    archivedAt := lesson.archivedAt
    contentBlocksCount := blocks.length
    cohortId := cohort.map (·.id)
    requiresGithub := cohort.map fun _ => requiresGithub
    submissionWindow := cohort.map fun cohort =>
      SubmissionWindowStatus.forLesson db cohort lesson now
    requiresSubmission := db.effectiveRequiresSubmission lesson m requiresGithub
    submissionType := db.lessonSubmissionType lesson m requiresGithub
    contentBlocks := blocks.map fun block =>
      { block.json lesson m requiresGithub user.staff? with
        s3VideoKey := block.s3VideoKey
        hasS3Video := (presence block.s3VideoKey).isSome
        completionRequired := (db.completionBlockIds lesson).contains block.id }
    prevLesson := index.bind fun i =>
      if i = 0 then none else (siblings[i - 1]?).map (·.link)
    nextLesson := index.bind fun i => (siblings[i + 1]?).map (·.link) }

/-- `GET /api/v1/lessons/:id`. -/
def lessonsShow (user : User) (id : ℕ) (on : Date) (now : Time) : Except Failure LessonJson := do
  let lesson ← orNotFound (db.lesson? id)
  authorizeLessonRead! db user lesson on
  let m ← orNotFound (db.module? lesson.moduleId)
  .ok (lessonJson db user lesson m on now)

end LearningPlatform
