import LearningPlatform.Verification.Access.Gates

/-! # Content that the endpoints disclose

`LessonsController#show` renders the blocks of the lesson it authorized. `ModulesController#show`
authorizes a module as a whole and renders the blocks of all its active lessons. -/

namespace LearningPlatform

open Shared

/-! ## Disclosure -/

def ModuleJson.blocks (json : ModuleJson) : List BlockJson :=
  json.lessons.flatMap (·.contentBlocks)

def LessonJson.blocks (json : LessonJson) : List BlockJson :=
  json.contentBlocks.map (·.toBlockJson)

/-- Every rendered block belongs to a lesson that the lesson read gate opens to the user. -/
def OnlyReadable (db : Database) (user : User) (on : Date) (blocks : List BlockJson) : Prop :=
  ∀ json ∈ blocks, ∀ block ∈ db.contentBlocks, block.id = json.id →
    ∀ lesson ∈ db.lessons, lesson.id = block.lessonId →
      authorizeLessonRead! db user lesson on = .ok ()

/-- The lesson is released to the enrollment: its module is open or the lesson is assigned,
and the lesson is available. -/
def LessonOpen (db : Database) (enrollment : Enrollment) (cohort : Cohort) (m : CurriculumModule)
    (lesson : Lesson) (on : Date) : Prop :=
  let assignment := db.moduleAssignmentFor enrollment m.id
  let lessonAssignment := db.lessonAssignmentFor enrollment lesson.id
  (db.moduleOpen? assignment m cohort on = true ∨ lessonAssignment.isSome = true) ∧
    db.available? lesson m cohort assignment lessonAssignment on = true

instance (db : Database) (enrollment : Enrollment) (cohort : Cohort) (m : CurriculumModule)
    (lesson : Lesson) (on : Date) : Decidable (LessonOpen db enrollment cohort m lesson on) :=
  inferInstanceAs (Decidable ((_ ∨ _) ∧ _))

variable {db : Database} {m : CurriculumModule} {lesson : Lesson} {on : Date} {user : User}

theorem checkLesson_eq_ok {enrollment : Enrollment} {cohort : Cohort}
    (hmodule : lesson.moduleId = m.id) {inaccessible locked : Failure} :
    db.checkLesson enrollment cohort m lesson on inaccessible locked = .ok () ↔
      LessonOpen db enrollment cohort m lesson on := by
  simp only [Database.checkLesson, LessonOpen, hmodule]
  split
  · rename_i hopen
    rw [Bool.or_eq_true] at hopen
    split <;> simp_all
  · rename_i hclosed
    rw [Bool.or_eq_true] at hclosed
    simp [hclosed]

/-- Once the module or the lesson is assigned, being open is being available. Without an
assignment of its own, a lesson of an unassigned module stays closed on every date. -/
theorem lessonOpen_iff_available {enrollment : Enrollment} {cohort : Cohort} :
    LessonOpen db enrollment cohort m lesson on ↔
      ((db.moduleAssignmentFor enrollment m.id).isSome = true ∨
        (db.lessonAssignmentFor enrollment lesson.id).isSome = true) ∧
      db.available? lesson m cohort (db.moduleAssignmentFor enrollment m.id)
        (db.lessonAssignmentFor enrollment lesson.id) on = true := by
  unfold LessonOpen
  refine and_congr_left fun havailable => ?_
  cases hown : db.lessonAssignmentFor enrollment lesson.id with
  | some row => simp
  | none =>
    cases hassigned : db.moduleAssignmentFor enrollment m.id with
    | none => simp [Database.moduleOpen?]
    | some assignment =>
      -- Without its own assignment the lesson is available only in an accessible module.
      have haccessible : db.accessible? assignment m cohort on = true := by
        by_contra hclosed
        simp [Database.available?, hown, hassigned, hclosed] at havailable
      simp [Database.moduleOpen?, haccessible]

theorem lessonRead_iff_open (hs : CurriculumSchema db) (hstudent : user.staff? = false)
    (hm : m ∈ db.modules) (hlesson : lesson ∈ db.lessonsOf m) :
    authorizeLessonRead! db user lesson on = .ok () ↔
      ∃ enrollment cohort, db.activeEnrollmentFor user m.curriculumId = some (enrollment, cohort) ∧
        LessonOpen db enrollment cohort m lesson on := by
  obtain ⟨-, hmodule, harchived⟩ := mem_lessonsOf.mp hlesson
  have hlookup : db.module? lesson.moduleId = some m := by
    rw [hmodule]
    exact hs.modules.find? hm
  simp only [authorizeLessonRead!, hstudent, harchived, hlookup, Bool.false_eq_true, if_false]
  cases hactive : db.activeEnrollmentFor user m.curriculumId with
  | none => simp
  | some found =>
    obtain ⟨enrollment, cohort⟩ := found
    simp only [Option.some.injEq, Prod.mk.injEq]
    rw [checkLesson_eq_ok hmodule]
    constructor
    · exact fun hopen => ⟨enrollment, cohort, ⟨rfl, rfl⟩, hopen⟩
    · rintro ⟨_, _, ⟨rfl, rfl⟩, hopen⟩
      exact hopen

/-! ## What the endpoints render -/

theorem mem_contentBlocksOf {block : ContentBlock} :
    block ∈ db.contentBlocksOf lesson ↔ block ∈ db.contentBlocks ∧ block.lessonId = lesson.id := by
  simp [Database.contentBlocksOf]

theorem lesson_of_rendered (hs : CurriculumSchema db) (hlesson : lesson ∈ db.lessons)
    {rendered block : ContentBlock} (hrendered : rendered ∈ db.contentBlocksOf lesson)
    (hblock : block ∈ db.contentBlocks) (hid : block.id = rendered.id) {other : Lesson}
    (hother : other ∈ db.lessons) (hlessonId : other.id = block.lessonId) : other = lesson := by
  obtain ⟨hmem, hof⟩ := mem_contentBlocksOf.mp hrendered
  obtain rfl := hs.contentBlocks.eq_of_key hblock hmem hid
  exact hs.lessons.eq_of_key hother hlesson (hlessonId.trans hof)

theorem lessonsShow_onlyReadable (hs : CurriculumSchema db) {id : ℕ} {now : Time}
    {json : LessonJson} (h : lessonsShow db user id on now = .ok json) :
    OnlyReadable db user on json.blocks := by
  obtain ⟨lesson, hlesson, h⟩ := orNotFound_bind_eq_ok.mp h
  obtain ⟨_, hread, h⟩ := bind_eq_ok.mp h
  obtain ⟨m, -, h⟩ := orNotFound_bind_eq_ok.mp h
  cases h
  intro json hjson block hblock hid other hother hlessonId
  simp only [LessonJson.blocks, lessonJson, List.map_map, List.mem_map,
    Function.comp_apply] at hjson
  obtain ⟨rendered, hrendered, rfl⟩ := hjson
  rw [lesson_of_rendered hs (mem_of_lookup hlesson).1 hrendered hblock hid hother hlessonId]
  exact hread

theorem modulesShow_eq_ok (hs : CurriculumSchema db) (hm : m ∈ db.modules) {json : ModuleJson} :
    modulesShow db user m.id on = .ok json ↔
      authorizeModuleRead! db user m on = .ok () ∧ json = moduleJson db user m := by
  have hlookup : db.module? m.id = some m := hs.modules.find? hm
  simp [modulesShow, bind_eq_ok, orNotFound_eq_ok, hlookup, Unique.exists_iff, @eq_comm _ json]

theorem mem_moduleJson_blocks (hstudent : user.staff? = false) {json : BlockJson} :
    json ∈ (moduleJson db user m).blocks ↔ ∃ lesson ∈ db.lessonsOf m,
      ∃ block ∈ db.contentBlocksOf lesson, block.json lesson m false false = json := by
  simp [ModuleJson.blocks, moduleJson, hstudent]

/-! ## Main result -/

/-- A lesson page never shows a student a block of a lesson that is not open to the student.
A module page shows none exactly when, once the module gate lets the student pass, every active
lesson of the module that has a block is open. -/
theorem module_page_discloses_only_open_iff (db : Database) (hreachable : Reachable db)
    (user : User) (hstudent : user.staff? = false) (on : Date) (now : Time) :
    (∀ id json, lessonsShow db user id on now = .ok json → OnlyReadable db user on json.blocks) ∧
      ∀ m ∈ db.modules,
        (∀ json, modulesShow db user m.id on = .ok json → OnlyReadable db user on json.blocks) ↔
          (authorizeModuleRead! db user m on = .ok () → ∀ lesson ∈ db.lessonsOf m,
            db.contentBlocksOf lesson ≠ [] → ∃ enrollment cohort,
              db.activeEnrollmentFor user m.curriculumId = some (enrollment, cohort) ∧
                LessonOpen db enrollment cohort m lesson on) := by
  have hs := hreachable.schema
  refine ⟨fun id json h => lessonsShow_onlyReadable hs h, fun m hm => ⟨?_, ?_⟩⟩
  · intro honly hgate lesson hlesson hblocks
    obtain ⟨block, hblock⟩ := List.exists_mem_of_ne_nil _ hblocks
    obtain ⟨hmem, hof⟩ := mem_contentBlocksOf.mp hblock
    rw [← lessonRead_iff_open hs hstudent hm hlesson]
    refine honly _ ((modulesShow_eq_ok hs hm).mpr ⟨hgate, rfl⟩) _
      ((mem_moduleJson_blocks hstudent).mpr ⟨lesson, hlesson, block, hblock, rfl⟩) block hmem rfl
      lesson (mem_lessonsOf.mp hlesson).1 hof.symm
  · intro hopen json hjson
    obtain ⟨hgate, rfl⟩ := (modulesShow_eq_ok hs hm).mp hjson
    intro rendered hrendered block hblock hid other hother hlessonId
    obtain ⟨lesson, hlesson, source, hsource, rfl⟩ := (mem_moduleJson_blocks hstudent).mp hrendered
    rw [lesson_of_rendered hs (mem_lessonsOf.mp hlesson).1 hsource hblock hid hother hlessonId]
    exact (lessonRead_iff_open hs hstudent hm hlesson).mpr
      (hopen hgate lesson hlesson (List.ne_nil_of_mem hsource))

/-! ## A module page with a future lesson -/

/-- A lesson of the first Monday and a lesson of the first Friday, each with a text, for a
cohort that starts on day 0 and has one student. -/
def mondayAndFriday : List PlatformRequest :=
  [.createModule 1 { name := some (some "Ruby") },
    .createLesson 3 { title := some (some "Loops") },
    .createLesson 3 { title := some (some "Blocks"), releaseDay := some (some 4) },
    .createContentBlock 4 { blockType := .text, body := some "Loops repeat." },
    .createContentBlock 5 { blockType := .text, body := some "Blocks are closures." },
    .createCohort { curriculumId := some 1, startDate := some (some 0) },
    .createEnrollment 8 1 1]

def firstWeek : Database :=
  mondayAndFriday.foldl PlatformRequest.perform twoCurricula

theorem firstWeek_reachable : Reachable firstWeek :=
  ⟨twoCurricula, mondayAndFriday, twoCurricula_noCurriculum, run_foldl _ _ _⟩

def firstWeekModule : CurriculumModule :=
  { id := 3, curriculumId := 1, name := "Ruby" }

def firstWeekEnrollment : Enrollment :=
  { id := 9, userId := 1, cohortId := 8, enrolledAt := some 1, createdAt := 1, updatedAt := 1 }

theorem friday_page_discloses_only_open :
    (modulesShow firstWeek { id := 1 } 3 4).isOk = true ∧
      ∀ json, modulesShow firstWeek { id := 1 } 3 4 = .ok json →
        OnlyReadable firstWeek { id := 1 } 4 json.blocks := by
  have hactive : firstWeek.activeEnrollmentFor { id := 1 } firstWeekModule.curriculumId =
      some (firstWeekEnrollment, { id := 8, curriculumId := 1 }) := by decide +kernel
  have hopen : ∀ lesson ∈ firstWeek.lessonsOf firstWeekModule,
      LessonOpen firstWeek firstWeekEnrollment { id := 8, curriculumId := 1 } firstWeekModule
        lesson 4 := by
    decide +kernel
  exact ⟨by decide +kernel, ((module_page_discloses_only_open_iff firstWeek firstWeek_reachable
    { id := 1 } rfl 4 0).2 firstWeekModule (by decide +kernel)).mpr
      fun _ lesson hlesson _ => ⟨_, _, hactive, hopen lesson hlesson⟩⟩

/-- On Monday the module page shows the body of the Friday lesson, whose own page is
refused. -/
theorem monday_page_discloses_friday_lesson :
    Reachable firstWeek ∧
      ∃ json, modulesShow firstWeek { id := 1 } 3 0 = .ok json ∧
        (∃ block ∈ json.blocks, block.id = 7 ∧ block.body = some "Blocks are closures.") ∧
        (∃ block ∈ firstWeek.contentBlocks, block.id = 7 ∧ block.lessonId = 5) ∧
        lessonsShow firstWeek { id := 1 } 5 0 0 =
          .error (.forbidden "Lesson is not unlocked yet") ∧
        ¬ OnlyReadable firstWeek { id := 1 } 0 json.blocks := by
  refine ⟨firstWeek_reachable, moduleJson firstWeek { id := 1 } firstWeekModule,
    by decide +kernel, by decide +kernel, by decide +kernel, by decide +kernel, ?_⟩
  intro honly
  have hread := honly
    { id := 7, blockType := .text, position := 0, title := none,
      body := some "Blocks are closures.", videoUrl := none, filename := none,
      submissionType := .manualComplete, submissionTypeExplicit := none,
      metadata := "\x7b\x7d", solution := none } (by decide +kernel)
    { id := 7, lessonId := 5, body := some "Blocks are closures." } (by decide +kernel) rfl
    { id := 5, moduleId := 3, title := "Blocks", releaseDay := 4 } (by decide +kernel) rfl
  exact absurd hread (by decide +kernel)

end LearningPlatform
