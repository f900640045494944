import LearningPlatform.Verification.Schedule.Calendar

/-! # Agreement of the lesson gates

The dashboard flag, the lesson read gate, the content-block write gate and the help-request
context decide by one rule. -/

namespace LearningPlatform

open Shared

/-! ## The rule -/

/-- When a lesson of a module assigned by `assignment` is open, stated without the
accessibility test of the module. -/
def lessonAvailable (db : Database) (m : CurriculumModule) (cohort : Cohort)
    (assignment : ModuleAssignment) (lessonAssignment : Option LessonAssignment) (lesson : Lesson)
    (on : Date) : Bool :=
  !lesson.archived? &&
    match lessonAssignment with
    | some row =>
      match row.unlockDateOverride with
      | some date => decide (date ≤ on)
      | none => row.unlocked
    | none => decide (db.unlockDate lesson m cohort (some assignment) ≤ on)

section Lessons

variable {db : Database} (hs : CurriculumSchema db) {m : CurriculumModule} (hm : m ∈ db.modules)
  {lesson : Lesson}

include hs hm

/-- A lesson does not unlock before its module is accessible. -/
theorem accessible_of_unlockDate_le (hlesson : lesson ∈ db.lessonsOf m) {cohort : Cohort}
    {assignment : ModuleAssignment} {on : Date}
    (h : db.unlockDate lesson m cohort (some assignment) ≤ on) :
    db.accessible? assignment m cohort on = true := by
  obtain ⟨hnonneg, hvalid⟩ := hs.lessonValid hm hlesson
  have hoffset := calendarOffsetFor_nonneg hvalid hnonneg
  have hle (start offset day : ℤ) (hoffset : 0 ≤ offset) (h : start + offset ≤ day) :
      start ≤ day := by omega
  have hstart : db.effectiveStartDate assignment m cohort ≤ on := hle _ _ _ hoffset h
  simp [Database.accessible?, hstart]

/-- The accessibility test inside `available?` never refuses an active lesson. -/
theorem available?_eq (hlesson : lesson ∈ db.lessons) (hmodule : lesson.moduleId = m.id)
    (cohort : Cohort) (assignment : ModuleAssignment)
    (lessonAssignment : Option LessonAssignment) (on : Date) :
    db.available? lesson m cohort (some assignment) lessonAssignment on =
      lessonAvailable db m cohort assignment lessonAssignment lesson on := by
  cases harchived : lesson.archived? with
  | true => simp [Database.available?, lessonAvailable, harchived]
  | false =>
    cases lessonAssignment with
    | some row =>
      cases hdate : row.unlockDateOverride <;>
        simp [Database.available?, lessonAvailable, harchived, hdate]
    | none =>
      have haccessible : db.unlockDate lesson m cohort (some assignment) ≤ on →
          db.accessible? assignment m cohort on = true :=
        accessible_of_unlockDate_le hs hm (mem_lessonsOf.mpr ⟨hlesson, hmodule, harchived⟩)
      cases haccess : db.accessible? assignment m cohort on <;>
        simp_all [Database.available?, lessonAvailable]

theorem checkLesson_ok_iff (hlesson : lesson ∈ db.lessons) (hmodule : lesson.moduleId = m.id)
    {enrollment : Enrollment} {cohort : Cohort} {assignment : ModuleAssignment}
    (hassignment : db.moduleAssignmentFor enrollment m.id = some assignment) {on : Date}
    {inaccessible locked : Failure} :
    db.checkLesson enrollment cohort m lesson on inaccessible locked = .ok () ↔
      lessonAvailable db m cohort assignment (db.lessonAssignmentFor enrollment lesson.id) lesson
        on = true := by
  have hopen : lessonAvailable db m cohort assignment
      (db.lessonAssignmentFor enrollment lesson.id) lesson on = true →
      (db.accessible? assignment m cohort on ||
        (db.lessonAssignmentFor enrollment lesson.id).isSome) = true := by
    intro havailable
    cases hla : db.lessonAssignmentFor enrollment lesson.id with
    | some row => simp
    | none =>
      simp only [lessonAvailable, hla, Bool.and_eq_true, Bool.not_eq_true',
        decide_eq_true_eq] at havailable
      simp [accessible_of_unlockDate_le hs hm
        (mem_lessonsOf.mpr ⟨hlesson, hmodule, havailable.1⟩) havailable.2]
  simp only [Database.checkLesson, hmodule, hassignment, Database.moduleOpen?, Option.map_some,
    Option.getD_some, available?_eq hs hm hlesson hmodule]
  split
  · split <;> simp_all
  · simp_all

end Lessons

/-! ## Lookups of a student with one active enrollment -/

theorem findSome?_ite_eq_filter {α β : Type*} (p : α → Bool) (f : α → Option β) (rows : List α) :
    rows.findSome? (fun row => if p row = true then f row else none) =
      (rows.filter p).findSome? f := by
  induction rows with
  | nil => rfl
  | cons row rows ih =>
    cases hp : p row with
    | true => simp [List.findSome?_cons, hp, ih]
    | false => simp [hp, ih]

/-- A student, the only active enrollment of that student and its cohort. -/
structure OnlyActive (db : Database) (user : User) (enrollment : Enrollment) (cohort : Cohort) :
    Prop where
  student : user.staff? = false
  only : (db.enrollments.filter fun row => row.userId == user.id && row.status == .active) =
    [enrollment]
  cohort : db.cohort? enrollment.cohortId = some cohort

namespace OnlyActive

variable {db : Database} {user : User} {enrollment : Enrollment} {cohort : Cohort}
  (h : OnlyActive db user enrollment cohort)

include h

theorem activeEnrollmentFor (curriculumId : ℕ) :
    db.activeEnrollmentFor user curriculumId =
      if cohort.curriculumId = curriculumId then some (enrollment, cohort) else none := by
  unfold Database.activeEnrollmentFor
  rw [findSome?_ite_eq_filter, h.only]
  by_cases hcurriculum : cohort.curriculumId = curriculumId <;> simp [h.cohort, hcurriculum]

theorem firstActiveEnrollment : db.firstActiveEnrollment user = some enrollment := by
  simp [Database.firstActiveEnrollment, h.only]

theorem mem : enrollment ∈ db.enrollments ∧ enrollment.userId = user.id ∧
    enrollment.status = .active := by
  have hmem : enrollment ∈ db.enrollments.filter fun row =>
      row.userId == user.id && row.status == .active := by simp [h.only]
  simpa using hmem

theorem find_by_cohort :
    (db.enrollments.find? fun row => row.userId == user.id && row.status == .active &&
      row.cohortId == enrollment.cohortId) = some enrollment := by
  cases hfind : db.enrollments.find? fun row => row.userId == user.id &&
      row.status == .active && row.cohortId == enrollment.cohortId with
  | none =>
    have := List.find?_eq_none.mp hfind enrollment h.mem.1
    simp [h.mem.2] at this
  | some row =>
    have hrow := List.find?_some hfind
    rw [Bool.and_eq_true] at hrow
    have hmem : row ∈ db.enrollments.filter fun row =>
        row.userId == user.id && row.status == .active :=
      List.mem_filter.mpr ⟨List.mem_of_find?_eq_some hfind, hrow.1⟩
    rw [h.only, List.mem_singleton] at hmem
    rw [hmem]

end OnlyActive

/-! ## The four gates -/

def dashboardAvailable (db : Database) (user : User) (lesson : Lesson) (on : Date) (now : Time) :
    Bool :=
  ((renderStudentDashboard db user on now).getD []).any fun m =>
    m.lessons.any fun shown => shown.id == lesson.id && shown.available

/-- A lesson of a module that is assigned to the only active enrollment of a student. -/
structure AssignedLesson (db : Database) (user : User) (enrollment : Enrollment) (cohort : Cohort)
    (m : CurriculumModule) (assignment : ModuleAssignment) (lesson : Lesson) : Prop where
  active : OnlyActive db user enrollment cohort
  module_mem : m ∈ db.modules
  assignment_mem : assignment ∈ db.moduleAssignments
  enrollment_eq : assignment.enrollmentId = enrollment.id
  module_eq : assignment.moduleId = m.id
  lesson_mem : lesson ∈ db.lessons
  lesson_eq : lesson.moduleId = m.id

namespace AssignedLesson

variable {db : Database} {user : User} {enrollment : Enrollment} {cohort : Cohort}
  {m : CurriculumModule} {assignment : ModuleAssignment} {lesson : Lesson}
  (hs : CurriculumSchema db) (h : AssignedLesson db user enrollment cohort m assignment lesson)

include hs h

theorem moduleAssignmentFor : db.moduleAssignmentFor enrollment m.id = some assignment := by
  unfold Database.moduleAssignmentFor
  rw [← h.enrollment_eq, ← h.module_eq]
  exact hs.moduleAssignments.find? h.assignment_mem

theorem module? : db.module? lesson.moduleId = some m := by
  rw [h.lesson_eq]
  exact hs.modules.find? h.module_mem

theorem checkLesson_ok_iff (on : Date) (inaccessible locked : Failure) :
    db.checkLesson enrollment cohort m lesson on inaccessible locked = .ok () ↔
      lessonAvailable db m cohort assignment (db.lessonAssignmentFor enrollment lesson.id) lesson
        on = true :=
  LearningPlatform.checkLesson_ok_iff hs h.module_mem h.lesson_mem h.lesson_eq
    (h.moduleAssignmentFor hs)

theorem lessonRead_iff (on : Date) :
    authorizeLessonRead! db user lesson on = .ok () ↔
      cohort.curriculumId = m.curriculumId ∧ lessonAvailable db m cohort assignment
        (db.lessonAssignmentFor enrollment lesson.id) lesson on = true := by
  unfold authorizeLessonRead!
  simp only [h.active.student, h.module? hs, h.active.activeEnrollmentFor]
  cases harchived : lesson.archived? with
  | true => simp [lessonAvailable, harchived]
  | false =>
    by_cases hcurriculum : cohort.curriculumId = m.curriculumId
    · simp [hcurriculum, h.checkLesson_ok_iff hs]
    · simp [hcurriculum]

theorem contentBlockWrite_iff {block : ContentBlock} (hblock : block.lessonId = lesson.id)
    (on : Date) :
    (∃ granted, authorizeContentBlockWrite! db user block on = .ok granted) ↔
      cohort.curriculumId = m.curriculumId ∧ lessonAvailable db m cohort assignment
        (db.lessonAssignmentFor enrollment lesson.id) lesson on = true := by
  have hlookup : db.lesson? block.lessonId = some lesson := by
    rw [hblock]
    exact hs.lessons.find? h.lesson_mem
  unfold authorizeContentBlockWrite!
  rw [h.active.student, hlookup]
  simp only [h.module? hs, h.active.activeEnrollmentFor]
  by_cases hcurriculum : cohort.curriculumId = m.curriculumId
  · rw [← h.checkLesson_ok_iff hs on (.forbidden "Module is not accessible")
      (.forbidden "Lesson is not unlocked yet")]
    cases hcheck : db.checkLesson enrollment cohort m lesson on
      (.forbidden "Module is not accessible") (.forbidden "Lesson is not unlocked yet") <;>
      simp [hcurriculum, hcheck]
  · simp [hcurriculum]

theorem helpRequest_iff (on : Date) :
    (∃ found, HelpRequestContext.resolveLesson! db user enrollment.cohortId lesson.id on =
        .ok found) ↔
      cohort.curriculumId = m.curriculumId ∧ lessonAvailable db m cohort assignment
        (db.lessonAssignmentFor enrollment lesson.id) lesson on = true := by
  have hlookup : db.lesson? lesson.id = some lesson := hs.lessons.find? h.lesson_mem
  unfold HelpRequestContext.resolveLesson!
  rw [h.active.find_by_cohort]
  simp only [h.active.cohort, hlookup, HelpRequestContext.authorizeLesson!, h.module? hs]
  by_cases hcurriculum : m.curriculumId = cohort.curriculumId
  · rw [← h.checkLesson_ok_iff hs on (.unprocessable "This lesson is not available")
      (.unprocessable "This lesson is not available")]
    cases db.checkLesson enrollment cohort m lesson on
      (.unprocessable "This lesson is not available")
      (.unprocessable "This lesson is not available") <;> simp [hcurriculum]
  · simp [hcurriculum, Ne.symm hcurriculum]

/-- The dashboard indexes the assignments by module and lesson, which are unique. -/
theorem dashboard_iff (on : Date) (now : Time) :
    dashboardAvailable db user lesson on now = true ↔
      cohort.curriculumId = m.curriculumId ∧ lessonAvailable db m cohort assignment
        (db.lessonAssignmentFor enrollment lesson.id) lesson on = true := by
  have hmodules (k : ℕ) : indexBy ModuleAssignment.moduleId
      (db.moduleAssignments.filter (·.enrollmentId == enrollment.id)) k =
        db.moduleAssignmentFor enrollment k :=
    hs.moduleAssignments.find?_reverse_filter enrollment.id k
  have hlessons (k : ℕ) : indexBy LessonAssignment.lessonId
      (db.lessonAssignments.filter (·.enrollmentId == enrollment.id)) k =
        db.lessonAssignmentFor enrollment k :=
    hs.lessonAssignments.find?_reverse_filter enrollment.id k
  have hma := h.moduleAssignmentFor hs
  have hrule := available?_eq hs h.module_mem h.lesson_mem h.lesson_eq cohort assignment
    (db.lessonAssignmentFor enrollment lesson.id) on
  simp only [dashboardAvailable, renderStudentDashboard, h.active.firstActiveEnrollment,
    h.active.cohort, Option.bind_some, Option.map_some, Option.getD_some, hmodules, hlessons,
    List.any_map, List.any_eq_true, Function.comp_apply, List.mem_filter, mem_modulesOf,
    Bool.and_eq_true, beq_iff_eq]
  constructor
  · rintro ⟨m', ⟨⟨hm', hcurriculum⟩, -⟩, shown, hshown, hid, havailable⟩
    obtain ⟨hmem, hmodule', -⟩ := mem_lessonsOf.mp hshown
    obtain rfl := hs.lessons.eq_of_key hmem h.lesson_mem hid
    obtain rfl := hs.modules.eq_of_key hm' h.module_mem (hmodule'.symm.trans h.lesson_eq)
    rw [hma, hrule] at havailable
    exact ⟨hcurriculum.symm, havailable⟩
  · rintro ⟨hcurriculum, havailable⟩
    have harchived : lesson.archived? = false := by
      simp only [lessonAvailable, Bool.and_eq_true, Bool.not_eq_true'] at havailable
      exact havailable.1
    refine ⟨m, ⟨⟨h.module_mem, hcurriculum.symm⟩, by simp [hma]⟩, lesson,
      mem_lessonsOf.mpr ⟨h.lesson_mem, h.lesson_eq, harchived⟩, rfl, ?_⟩
    rw [hma, hrule]
    exact havailable

end AssignedLesson

/-! ## Main result -/

/-- For a student with one active enrollment and a lesson of an assigned module, the four
gates give one answer in every reachable state: the rule, for modules of the curriculum of
the cohort, and a refusal for other modules. -/
theorem lesson_gates_agree (db : Database) (hreachable : Reachable db) (user : User)
    (enrollment : Enrollment) (cohort : Cohort) (m : CurriculumModule)
    (assignment : ModuleAssignment) (lesson : Lesson)
    (h : AssignedLesson db user enrollment cohort m assignment lesson) (on : Date) (now : Time) :
    let decision := cohort.curriculumId == m.curriculumId && lessonAvailable db m cohort
      assignment (db.lessonAssignmentFor enrollment lesson.id) lesson on
    dashboardAvailable db user lesson on now = decision ∧
      (authorizeLessonRead! db user lesson on = .ok () ↔ decision = true) ∧
      (∀ block ∈ db.contentBlocks, block.lessonId = lesson.id →
        ((∃ granted, authorizeContentBlockWrite! db user block on = .ok granted) ↔
          decision = true)) ∧
      ((∃ found, HelpRequestContext.resolveLesson! db user enrollment.cohortId lesson.id on =
        .ok found) ↔ decision = true) := by
  intro decision
  have hs := hreachable.schema
  have hdecision : decision = true ↔ cohort.curriculumId = m.curriculumId ∧
      lessonAvailable db m cohort assignment (db.lessonAssignmentFor enrollment lesson.id) lesson
        on = true := by
    simp [decision]
  refine ⟨?_, ?_, ?_, ?_⟩
  · rw [Bool.eq_iff_iff, hdecision]
    exact h.dashboard_iff hs on now
  · rw [hdecision]
    exact h.lessonRead_iff hs on
  · intro block _ hblock
    rw [hdecision]
    exact h.contentBlockWrite_iff hs hblock on
  · rw [hdecision]
    exact h.helpRequest_iff hs on

def twoCurricula : Database :=
  { users := [{ id := 1 }], curricula := [{ id := 1 }, { id := 2 }], nextId := 3 }

theorem twoCurricula_noCurriculum : NoCurriculum twoCurricula :=
  ⟨rfl, rfl, rfl, rfl, rfl, rfl, rfl, rfl⟩

/-- A lesson in each curriculum and an enrollment in a cohort of the first one, to which
the module of the second curriculum is assigned as well. -/
def assignedAcrossCurricula : List PlatformRequest :=
  [.createModule 1 { name := some (some "Ruby") },
    .createLesson 3 { title := some (some "Loops"), releaseDay := some (some 2) },
    .createModule 2 { name := some (some "Rails") },
    .createLesson 5 { title := some (some "Models") },
    .createCohort { curriculumId := some 1, startDate := some (some 0) },
    .createEnrollment 7 1 1,
    .createModuleAssignment 8 { targetId := some 5 } 2 2]

def acrossCurricula : Database :=
  assignedAcrossCurricula.foldl PlatformRequest.perform twoCurricula

theorem acrossCurricula_reachable : Reachable acrossCurricula :=
  ⟨twoCurricula, assignedAcrossCurricula, twoCurricula_noCurriculum, run_foldl _ _ _⟩

def acrossAssignment (id moduleId : ℕ) (time : Time) : ModuleAssignment :=
  { id, enrollmentId := 8, moduleId, createdAt := time, updatedAt := time }

def acrossEnrollment : Enrollment :=
  { id := 8, userId := 1, cohortId := 7, enrolledAt := some 1, createdAt := 1, updatedAt := 1 }

theorem acrossCurricula_onlyActive :
    OnlyActive acrossCurricula { id := 1 } acrossEnrollment { id := 7, curriculumId := 1 } :=
  ⟨by decide, by decide +kernel, by decide +kernel⟩

theorem gates_agree_on_released_lesson :
    let lesson : Lesson := { id := 4, moduleId := 3, title := "Loops", releaseDay := 2 }
    dashboardAvailable acrossCurricula { id := 1 } lesson 2 0 = true ∧
      authorizeLessonRead! acrossCurricula { id := 1 } lesson 2 = .ok () := by
  intro lesson
  have hgates := lesson_gates_agree acrossCurricula acrossCurricula_reachable { id := 1 }
    acrossEnrollment { id := 7, curriculumId := 1 } { id := 3, curriculumId := 1, name := "Ruby" }
    (acrossAssignment 9 3 1) lesson
    ⟨acrossCurricula_onlyActive, by decide +kernel, by decide +kernel, rfl, rfl,
      by decide +kernel, rfl⟩ 2 0
  exact ⟨hgates.1.trans (by decide +kernel), hgates.2.1.mpr (by decide +kernel)⟩

/-- The module of the other curriculum is assigned and its lesson is released, yet the
dashboard does not list it and the read gate refuses it. -/
theorem assigned_module_of_other_curriculum_refused :
    let lesson : Lesson := { id := 6, moduleId := 5, title := "Models" }
    let m : CurriculumModule := { id := 5, curriculumId := 2, name := "Rails" }
    Reachable acrossCurricula ∧
      AssignedLesson acrossCurricula { id := 1 } acrossEnrollment { id := 7, curriculumId := 1 } m
        (acrossAssignment 10 5 2) lesson ∧
      lessonAvailable acrossCurricula m { id := 7, curriculumId := 1 } (acrossAssignment 10 5 2)
        (acrossCurricula.lessonAssignmentFor acrossEnrollment 6) lesson 0 = true ∧
      dashboardAvailable acrossCurricula { id := 1 } lesson 0 0 = false ∧
      authorizeLessonRead! acrossCurricula { id := 1 } lesson 0 =
        .error (.forbidden "Cannot access this lesson") :=
  ⟨acrossCurricula_reachable,
    ⟨acrossCurricula_onlyActive, by decide +kernel, by decide +kernel, rfl, rfl,
      by decide +kernel, rfl⟩,
    by decide +kernel, by decide +kernel, by decide +kernel⟩

end LearningPlatform
