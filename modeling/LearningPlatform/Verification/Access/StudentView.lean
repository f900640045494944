import LearningPlatform.Model.StudentView
import LearningPlatform.Verification.Access.Gates

/-! # The student view and the student

The preview counts from one start date for all students. It shows the dates of a student
without an override exactly if no other assignment starts the module earlier. -/

namespace LearningPlatform

open Shared

/-! ## Schedule rows -/

/-- A cohort has at most one schedule row for a module. -/
def SchedulesUnique (db : Database) : Prop :=
  PairUnique CohortModuleSchedule.id CohortModuleSchedule.cohortId CohortModuleSchedule.moduleId
    db.cohortModuleSchedules

section Unique

variable {Allowed : Database → CurriculumModule → CurriculumModule → Prop} {db db' : Database}

theorem RowChange.schedulesUnique (hchange : RowChange Allowed db db') (h : SchedulesUnique db) :
    SchedulesUnique db' := by
  cases hchange with
  | insertSchedule m row _ _ _ _ hnew => exact PairUnique.append h hnew
  | updateSchedule m found date _ _ _ _ => exact PairUnique.touch h fun _ _ => ⟨rfl, rfl, rfl⟩
  | deleteSchedules p => exact PairUnique.deleteAll h p
  | elsewhere db' hkept =>
    unfold SchedulesUnique
    rw [hkept.schedules]
    exact h
  | _ => exact h

theorem Changes.schedulesUnique (hchanges : Changes Allowed db db') (h : SchedulesUnique db) :
    SchedulesUnique db' := by
  induction hchanges with
  | refl => exact h
  | tail _ hchange ih => exact hchange.schedulesUnique ih

theorem Reachable.schedulesUnique (h : Reachable db) : SchedulesUnique db := by
  obtain ⟨start, requests, hstart, hrun⟩ := h
  have hempty : SchedulesUnique start := by simp [SchedulesUnique, PairUnique, hstart.schedules]
  refine (hrun.invariant (fun s => CurriculumSchema s ∧ SchedulesUnique s) ?_
    ⟨hstart.schema, hempty⟩).2
  rintro s request _ ⟨hs, hunique⟩ rfl
  have hchanges := perform_any_changes hs request
  exact ⟨hchanges.schema hs, hchanges.schedulesUnique hunique⟩

end Unique

theorem indexBy_schedules {db : Database} (hs : CurriculumSchema db) (hunique : SchedulesUnique db)
    (cohort : Cohort) (m : CurriculumModule) :
    indexBy CohortModuleSchedule.moduleId
      (db.cohortModuleSchedules.filter (·.cohortId == cohort.id)) m.id =
        db.moduleScheduleFor cohort m := by
  refine find?_reverse_filter_of_unique (fun row hrow other hother hcohort hmodule => ?_) _ _
  exact hs.schedules.eq_of_key hrow hother (hunique row hrow other hother hcohort hmodule)

/-! ## What the view shows -/

def StudentView.lesson? (view : StudentView) (moduleId lessonId : ℕ) : Option StudentViewLesson :=
  (view.modules.find? (·.id == moduleId)).bind fun m => m.lessons.find? (·.id == lessonId)

/-- An active lesson of a module that is assigned, without an override date and without an
assignment of the lesson, to an active enrollment of the cohort. -/
structure PlainlyAssigned (db : Database) (cohort : Cohort) (m : CurriculumModule)
    (enrollment : Enrollment) (assignment : ModuleAssignment) (lesson : Lesson) : Prop where
  module_mem : m ∈ db.modules
  curriculum_eq : m.curriculumId = cohort.curriculumId
  enrollment_mem : enrollment ∈ db.enrollments
  cohort_eq : enrollment.cohortId = cohort.id
  active : enrollment.status = .active
  assignment_mem : assignment ∈ db.moduleAssignments
  enrollment_eq : assignment.enrollmentId = enrollment.id
  module_eq : assignment.moduleId = m.id
  no_override : assignment.unlockDateOverride = none
  lesson_mem : lesson ∈ db.lessonsOf m
  not_assigned : db.lessonAssignmentFor enrollment lesson.id = none

/-- No active student of the cohort starts the module before its start date: there is a
schedule row, which the view prefers to the assignments, or no override is earlier. -/
def NoEarlierStart (db : Database) (cohort : Cohort) (m : CurriculumModule) : Prop :=
  (db.moduleScheduleFor cohort m).isSome = true ∨
    ∀ row ∈ db.activeAssignmentsFor cohort m, ∀ date, row.unlockDateOverride = some date →
      db.startDateFor m cohort ≤ date

namespace PlainlyAssigned

variable {db : Database} {cohort : Cohort} {m : CurriculumModule} {enrollment : Enrollment}
  {assignment : ModuleAssignment} {lesson : Lesson}
  (h : PlainlyAssigned db cohort m enrollment assignment lesson)

include h

theorem mem_activeAssignmentsFor : assignment ∈ db.activeAssignmentsFor cohort m := by
  refine List.mem_flatMap.mpr ⟨enrollment,
    mem_activeEnrollmentsOf.mpr ⟨h.enrollment_mem, h.cohort_eq, h.active⟩, ?_⟩
  simp [h.assignment_mem, h.enrollment_eq, h.module_eq]

theorem effectiveStartDate :
    db.effectiveStartDate assignment m cohort = db.startDateFor m cohort := by
  simp [Database.effectiveStartDate, h.no_override]

/-- The start date of the view is the module's exactly if no other assignment is earlier. -/
theorem startDate_spec :
    ∃ start, cohortStudentViewModuleStartDate db cohort m (db.moduleScheduleFor cohort m)
        (db.activeAssignmentsFor cohort m) true = some start ∧
      (start = db.startDateFor m cohort ↔ NoEarlierStart db cohort m) := by
  unfold cohortStudentViewModuleStartDate NoEarlierStart
  cases hschedule : db.moduleScheduleFor cohort m with
  | some schedule => exact ⟨schedule.startDate, rfl, by simp [Database.startDateFor, hschedule]⟩
  | none =>
    have hown : db.startDateFor m cohort ∈
        (db.activeAssignmentsFor cohort m).map fun row => db.effectiveStartDate row m cohort :=
      List.mem_map.mpr ⟨assignment, h.mem_activeAssignmentsFor, h.effectiveStartDate⟩
    obtain ⟨start, hmin⟩ := Option.isSome_iff_exists.mp (List.isSome_min?_of_mem hown)
    obtain ⟨hmem, hle⟩ := List.min?_eq_some_iff.mp hmin
    refine ⟨start, by simp [hmin], ?_⟩
    simp only [Option.isSome_none, Bool.false_eq_true, false_or]
    constructor
    · intro heq row hrow date hdate
      have hrowLe := hle _ (List.mem_map_of_mem hrow)
      simpa [Database.effectiveStartDate, hdate, heq] using hrowLe
    · intro hnone
      refine le_antisymm (hle _ hown) ?_
      obtain ⟨row, hrow, rfl⟩ := List.mem_map.mp hmem
      unfold Database.effectiveStartDate
      cases hdate : row.unlockDateOverride with
      | none => exact le_refl _
      | some date => exact hnone row hrow date hdate

variable (hs : CurriculumSchema db) (hunique : SchedulesUnique db)

include hs

/-- The module test of the view never refuses a lesson whose unlock date is reached. -/
theorem lesson_available {start : Date} (requiresGithub : Bool) (on : Date) (now : Time) :
    (cohortStudentViewLessonJson db cohort m lesson (some start)
      (cohortStudentViewModuleAvailable? (db.activeAssignmentsFor cohort m) (some start) on)
      requiresGithub on now).available =
        decide (start + m.calendarOffsetFor lesson.releaseDay ≤ on) := by
  obtain ⟨hnonneg, hvalid⟩ := hs.lessonValid h.module_mem h.lesson_mem
  have hoffset := calendarOffsetFor_nonneg hvalid hnonneg
  have hstart : start + m.calendarOffsetFor lesson.releaseDay ≤ on → start ≤ on := by
    intro hreached
    have harith (a b c : ℤ) (hb : 0 ≤ b) (hle : a + b ≤ c) : a ≤ c := by omega
    exact harith _ _ _ hoffset hreached
  by_cases hreached : start + m.calendarOffsetFor lesson.releaseDay ≤ on
  · simp [cohortStudentViewLessonJson, cohortStudentViewModuleAvailable?, hreached,
      hstart hreached]
  · simp [cohortStudentViewLessonJson, hreached]

theorem student_available (on : Date) :
    db.available? lesson m cohort (some assignment)
      (db.lessonAssignmentFor enrollment lesson.id) on =
        decide (db.startDateFor m cohort + m.calendarOffsetFor lesson.releaseDay ≤ on) := by
  obtain ⟨hlesson, hmodule, hactive⟩ := mem_lessonsOf.mp h.lesson_mem
  rw [available?_eq hs h.module_mem hlesson hmodule, h.not_assigned]
  simp [lessonAvailable, hactive, Database.unlockDate, h.effectiveStartDate]

include hunique

theorem lesson?_eq (on : Date) (now : Time) :
    (cohortStudentViewJson db cohort on now).lesson? m.id lesson.id =
      let startDate := cohortStudentViewModuleStartDate db cohort m
        (db.moduleScheduleFor cohort m) (db.activeAssignmentsFor cohort m) true
      some (cohortStudentViewLessonJson db cohort m lesson startDate
        (cohortStudentViewModuleAvailable? (db.activeAssignmentsFor cohort m) startDate on)
        (cohort.requiresGithub m.id) on now) := by
  have hmodule : (db.modulesOf cohort.curriculumId).find? (·.id == m.id) = some m := by
    refine find?_eq_some_of_unique (mem_modulesOf.mpr ⟨h.module_mem, h.curriculum_eq⟩) (by simp)
      fun other hother hid => ?_
    exact hs.modules.eq_of_key (mem_modulesOf.mp hother).1 h.module_mem (by simpa using hid)
  have hlesson : (db.lessonsOf m).find? (·.id == lesson.id) = some lesson := by
    refine find?_eq_some_of_unique h.lesson_mem (by simp) fun other hother hid => ?_
    exact hs.lessons.eq_of_key (mem_lessonsOf.mp hother).1 (mem_lessonsOf.mp h.lesson_mem).1
      (by simpa using hid)
  have hassigned : (db.activeAssignmentsFor cohort m).isEmpty = false := by
    rw [List.isEmpty_eq_false_iff_exists_mem]
    exact ⟨assignment, h.mem_activeAssignmentsFor⟩
  unfold StudentView.lesson? cohortStudentViewJson
  simp only [indexBy_schedules hs hunique, List.find?_map]
  rw [show ((fun entry : StudentViewModule => entry.id == m.id) ∘ fun other =>
    cohortStudentViewModuleJson db cohort other (db.moduleScheduleFor cohort other)
      (db.activeAssignmentsFor cohort other) on now) = fun other => other.id == m.id from rfl,
    hmodule]
  simp only [Option.map_some, Option.bind_some, cohortStudentViewModuleJson, hassigned,
    Bool.not_false, Bool.or_true, Bool.true_and, List.find?_map]
  rw [show ((fun entry : StudentViewLesson => entry.id == lesson.id) ∘ fun other =>
    cohortStudentViewLessonJson db cohort m other _ _ (cohort.requiresGithub m.id) on now) =
      fun other => other.id == lesson.id from rfl, hlesson]
  rfl

end PlainlyAssigned

/-! ## Main result -/

/-- In a reachable state the view reports, on every date, the unlock date and the availability
that a student without overrides has, exactly if no other active student starts earlier. -/
theorem student_view_matches_student_iff (db : Database) (hreachable : Reachable db)
    (cohort : Cohort) (m : CurriculumModule) (enrollment : Enrollment)
    (assignment : ModuleAssignment) (lesson : Lesson)
    (h : PlainlyAssigned db cohort m enrollment assignment lesson) :
    (∀ on now, ∃ shown,
      (cohortStudentViewJson db cohort on now).lesson? m.id lesson.id = some shown ∧
      shown.unlockDate = some (db.unlockDate lesson m cohort (some assignment)) ∧
      shown.available = db.available? lesson m cohort (some assignment)
        (db.lessonAssignmentFor enrollment lesson.id) on) ↔
      NoEarlierStart db cohort m := by
  have hs := hreachable.schema
  obtain ⟨start, hstart, hiff⟩ := h.startDate_spec
  have hunlock : db.unlockDate lesson m cohort (some assignment) =
      db.startDateFor m cohort + m.calendarOffsetFor lesson.releaseDay := by
    simp [Database.unlockDate, h.effectiveStartDate]
  rw [← hiff]
  constructor
  · intro hmatches
    obtain ⟨shown, hshown, hdate, -⟩ := hmatches 0 0
    rw [h.lesson?_eq hs hreachable.schedulesUnique, hstart] at hshown
    cases hshown
    have hsame := Option.some.inj hdate
    rw [hunlock] at hsame
    exact (Int.add_left_inj _).mp hsame
  · rintro rfl on now
    rw [h.lesson?_eq hs hreachable.schedulesUnique, hstart]
    refine ⟨_, rfl, by rw [hunlock]; rfl, ?_⟩
    rw [h.lesson_available hs, h.student_available hs]

/-! ## Two students of a cohort without a schedule row -/

def twoStudents : Database :=
  { users := [{ id := 1 }, { id := 2 }], curricula := [{ id := 1 }], nextId := 3 }

theorem twoStudents_noCurriculum : NoCurriculum twoStudents :=
  ⟨rfl, rfl, rfl, rfl, rfl, rfl, rfl, rfl⟩

/-- A module that starts on day 7 with a lesson on its third day. The second student's
assignment gets an override date. -/
def overridden (date : Date) : Database :=
  [.createModule 1 { name := some (some "Ruby") },
    .createLesson 3 { title := some (some "Loops"), releaseDay := some (some 2) },
    .createCohort { curriculumId := some 1, startDate := some (some 7) },
    .createEnrollment 5 1 1,
    .createEnrollment 5 2 1,
    .updateModuleAssignment 9 { unlockDateOverride := some (some date) } 2 2].foldl
      PlatformRequest.perform twoStudents

theorem overridden_reachable (date : Date) : Reachable (overridden date) :=
  ⟨twoStudents, _, twoStudents_noCurriculum, run_foldl _ _ _⟩

def overriddenCohort : Cohort :=
  { id := 5, curriculumId := 1, startDate := 7 }

def overriddenModule : CurriculumModule :=
  { id := 3, curriculumId := 1, name := "Ruby" }

def firstEnrollment : Enrollment :=
  { id := 6, userId := 1, cohortId := 5, enrolledAt := some 1, createdAt := 1, updatedAt := 1 }

def firstAssignment : ModuleAssignment :=
  { id := 7, enrollmentId := 6, moduleId := 3, createdAt := 1, updatedAt := 1 }

def thirdDayLesson : Lesson :=
  { id := 4, moduleId := 3, title := "Loops", releaseDay := 2 }

/-- With a later override of the other student the view shows the first student's date. -/
theorem later_override_keeps_student_view :
    PlainlyAssigned (overridden 14) overriddenCohort overriddenModule firstEnrollment
        firstAssignment thirdDayLesson ∧
      ∃ shown, (cohortStudentViewJson (overridden 14) overriddenCohort 9 0).lesson? 3 4 =
          some shown ∧ shown.unlockDate = some 9 ∧ shown.available = true := by
  have hassigned : PlainlyAssigned (overridden 14) overriddenCohort overriddenModule
      firstEnrollment firstAssignment thirdDayLesson :=
    ⟨by decide +kernel, rfl, by decide +kernel, rfl, rfl, by decide +kernel, rfl, rfl, rfl,
      by decide +kernel, by decide +kernel⟩
  have hnone : NoEarlierStart (overridden 14) overriddenCohort overriddenModule := by
    right
    intro row hrow date hdate
    have hdates : ∀ row ∈ (overridden 14).activeAssignmentsFor overriddenCohort overriddenModule,
        row.unlockDateOverride = none ∨ row.unlockDateOverride = some 14 := by decide +kernel
    have hstart : (overridden 14).startDateFor overriddenModule overriddenCohort = 7 := by
      decide +kernel
    rcases hdates row hrow with hrow | hrow
    · cases hrow ▸ hdate
    · cases hrow ▸ hdate
      rw [hstart]
      decide
  obtain ⟨shown, hshown, hdate, havailable⟩ :=
    (student_view_matches_student_iff (overridden 14) (overridden_reachable 14) overriddenCohort
      overriddenModule firstEnrollment firstAssignment thirdDayLesson hassigned).mpr hnone 9 0
  exact ⟨hassigned, shown, hshown, hdate.trans (by decide +kernel),
    havailable.trans (by decide +kernel)⟩

/-- With an earlier override of the other student the view opens the lesson on day 2, while
the first student waits until day 9. -/
theorem earlier_override_moves_student_view :
    Reachable (overridden 0) ∧
      PlainlyAssigned (overridden 0) overriddenCohort overriddenModule firstEnrollment
        firstAssignment thirdDayLesson ∧
      ((cohortStudentViewJson (overridden 0) overriddenCohort 2 0).lesson? 3 4).map
        (fun shown => (shown.unlockDate, shown.available)) = some (some 2, true) ∧
      (overridden 0).unlockDate thirdDayLesson overriddenModule overriddenCohort
        (some firstAssignment) = 9 ∧
      (overridden 0).available? thirdDayLesson overriddenModule overriddenCohort
        (some firstAssignment) none 2 = false :=
  ⟨overridden_reachable 0,
    ⟨by decide +kernel, rfl, by decide +kernel, rfl, rfl, by decide +kernel, rfl, rfl, rfl,
      by decide +kernel, by decide +kernel⟩,
    by decide +kernel, by decide +kernel, by decide +kernel⟩

end LearningPlatform
