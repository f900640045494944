import LearningPlatform.Model.Requests
import Mathlib.Logic.Relation

/-! # Row changes and the curriculum schema

Every request changes the curriculum tables by single-row writes that passed their
validations. The relation `RowChange` lists these writes, and `CurriculumSchema` is the
invariant they keep. -/

namespace LearningPlatform

open Shared

/-! ## The invariant -/

/-- The release-day validations of a lesson of module `m`. -/
structure LessonValid (m : CurriculumModule) (lesson : Lesson) : Prop where
  nonneg : 0 ≤ lesson.releaseDay
  scheduled : lesson.archived? = false → m.validReleaseDay? lesson.releaseDay = true

/-- Primary keys, unique indexes and release days of the curriculum tables. -/
structure CurriculumSchema (db : Database) : Prop where
  modules : Keyed CurriculumModule.id db.modules db.nextId
  lessons : Keyed Lesson.id db.lessons db.nextId
  cohorts : Keyed Cohort.id db.cohorts db.nextId
  schedules : Keyed CohortModuleSchedule.id db.cohortModuleSchedules db.nextId
  enrollments : Keyed Enrollment.id db.enrollments db.nextId
  moduleAssignments : PairKeyed ModuleAssignment.id ModuleAssignment.enrollmentId
    ModuleAssignment.moduleId db.moduleAssignments db.nextId
  lessonAssignments : PairKeyed LessonAssignment.id LessonAssignment.enrollmentId
    LessonAssignment.lessonId db.lessonAssignments db.nextId
  contentBlocks : Keyed ContentBlock.id db.contentBlocks db.nextId
  lessonModule : ∀ lesson ∈ db.lessons, ∃ m ∈ db.modules, m.id = lesson.moduleId
  releaseDays : ∀ lesson ∈ db.lessons, ∀ m ∈ db.modules, m.id = lesson.moduleId →
    LessonValid m lesson

/-- No curriculum, cohort or enrollment exists yet. -/
structure NoCurriculum (db : Database) : Prop where
  modules : db.modules = []
  lessons : db.lessons = []
  cohorts : db.cohorts = []
  schedules : db.cohortModuleSchedules = []
  enrollments : db.enrollments = []
  moduleAssignments : db.moduleAssignments = []
  lessonAssignments : db.lessonAssignments = []
  contentBlocks : db.contentBlocks = []

theorem NoCurriculum.schema {db : Database} (h : NoCurriculum db) : CurriculumSchema db := by
  constructor <;> simp [h.modules, h.lessons, h.cohorts, h.schedules, h.enrollments,
    h.moduleAssignments, h.lessonAssignments, h.contentBlocks, Keyed.empty, PairKeyed.empty]

/-! ## Writes to one table -/

/-- The curriculum tables are the same, and the sequence has not gone back. -/
structure CurriculumKept (db db' : Database) : Prop where
  modules : db'.modules = db.modules
  lessons : db'.lessons = db.lessons
  cohorts : db'.cohorts = db.cohorts
  schedules : db'.cohortModuleSchedules = db.cohortModuleSchedules
  enrollments : db'.enrollments = db.enrollments
  moduleAssignments : db'.moduleAssignments = db.moduleAssignments
  lessonAssignments : db'.lessonAssignments = db.lessonAssignments
  contentBlocks : db'.contentBlocks = db.contentBlocks
  nextId : db.nextId ≤ db'.nextId

variable (Allowed : Database → CurriculumModule → CurriculumModule → Prop) (db : Database) in
/-- One validated write. `Allowed db old m` restricts how a module may be updated. -/
inductive RowChange : Database → Prop where
  | insertModule (m : CurriculumModule) (hid : m.id = db.nextId) :
      RowChange { db with modules := db.modules ++ [m], nextId := db.nextId + 1 }
  | updateModule (old m : CurriculumModule) (hold : old ∈ db.modules) (hid : m.id = old.id)
      (hdays : m.scheduleDays ≠ old.scheduleDays → ∀ lesson ∈ db.lessons,
        lesson.moduleId = m.id → m.validReleaseDay? lesson.releaseDay = true)
      (hallowed : Allowed db old m) :
      RowChange { db with modules := updateAll (·.id == old.id) (fun _ => m) db.modules }
  | insertLesson (m : CurriculumModule) (lesson : Lesson) (hm : m ∈ db.modules)
      (hmodule : lesson.moduleId = m.id) (hid : lesson.id = db.nextId)
      (hvalid : LessonValid m lesson) :
      RowChange { db with lessons := db.lessons ++ [lesson], nextId := db.nextId + 1 }
  | updateLesson (m : CurriculumModule) (old lesson : Lesson) (hm : m ∈ db.modules)
      (hmodule : old.moduleId = m.id) (hold : old ∈ db.lessons) (hid : lesson.id = old.id)
      (hkeep : lesson.moduleId = old.moduleId) (hvalid : LessonValid m lesson) :
      RowChange { db with lessons := updateAll (·.id == old.id) (fun _ => lesson) db.lessons }
  | insertCohort (cohort : Cohort) (hid : cohort.id = db.nextId) :
      RowChange { db with cohorts := db.cohorts ++ [cohort], nextId := db.nextId + 1 }
  | updateCohorts (p : Cohort → Bool) (f : Cohort → Cohort)
      (hf : ∀ row, p row = true → (f row).id = row.id) :
      RowChange { db with cohorts := updateAll p f db.cohorts }
  | insertSchedule (m : CurriculumModule) (row : CohortModuleSchedule) (hm : m ∈ db.modules)
      (hmodule : row.moduleId = m.id) (hid : row.id = db.nextId)
      (hday : weekdayIndex row.startDate = m.firstScheduledDayIndex)
      (hnew : ∀ other ∈ db.cohortModuleSchedules, other.cohortId = row.cohortId →
        other.moduleId ≠ row.moduleId) :
      RowChange { db with
        cohortModuleSchedules := db.cohortModuleSchedules ++ [row], nextId := db.nextId + 1 }
  | updateSchedule (m : CurriculumModule) (found : CohortModuleSchedule) (date : Date)
      (hm : m ∈ db.modules) (hmodule : found.moduleId = m.id)
      (hfound : found ∈ db.cohortModuleSchedules)
      (hday : weekdayIndex date = m.firstScheduledDayIndex) :
      RowChange { db with
        cohortModuleSchedules := updateAll (·.id == found.id)
          (fun row => { row with startDate := date }) db.cohortModuleSchedules }
  | deleteSchedules (p : CohortModuleSchedule → Bool) :
      RowChange { db with cohortModuleSchedules := deleteAll p db.cohortModuleSchedules }
  | insertEnrollment (row : Enrollment) (hid : row.id = db.nextId) :
      RowChange { db with enrollments := db.enrollments ++ [row], nextId := db.nextId + 1 }
  | updateEnrollments (p : Enrollment → Bool) (f : Enrollment → Enrollment)
      (hf : ∀ row, p row = true → (f row).id = row.id ∧ (f row).userId = row.userId ∧
        (f row).cohortId = row.cohortId) :
      RowChange { db with enrollments := updateAll p f db.enrollments }
  | deleteEnrollments (p : Enrollment → Bool) :
      RowChange { db with enrollments := deleteAll p db.enrollments }
  | insertModuleAssignment (row : ModuleAssignment) (hid : row.id = db.nextId)
      (henrollment : ∃ enrollment ∈ db.enrollments, enrollment.id = row.enrollmentId)
      (hnew : ∀ other ∈ db.moduleAssignments, other.enrollmentId = row.enrollmentId →
        other.moduleId ≠ row.moduleId) :
      RowChange { db with
        moduleAssignments := db.moduleAssignments ++ [row], nextId := db.nextId + 1 }
  | touchModuleAssignments (p : ModuleAssignment → Bool) (f : ModuleAssignment → ModuleAssignment)
      (hf : ∀ row, p row = true → (f row).id = row.id ∧
        (f row).enrollmentId = row.enrollmentId ∧ (f row).moduleId = row.moduleId) :
      RowChange { db with moduleAssignments := updateAll p f db.moduleAssignments }
  | retargetModuleAssignment (found row : ModuleAssignment) (hfound : found ∈ db.moduleAssignments)
      (hid : row.id = found.id) (hkeep : row.enrollmentId = found.enrollmentId)
      (hnew : ∀ other ∈ db.moduleAssignments, other.id ≠ row.id →
        other.enrollmentId = row.enrollmentId → other.moduleId ≠ row.moduleId) :
      RowChange { db with
        moduleAssignments := updateAll (·.id == found.id) (fun _ => row) db.moduleAssignments }
  | deleteModuleAssignments (p : ModuleAssignment → Bool) :
      RowChange { db with moduleAssignments := deleteAll p db.moduleAssignments }
  | insertLessonAssignment (row : LessonAssignment) (hid : row.id = db.nextId)
      (henrollment : ∃ enrollment ∈ db.enrollments, enrollment.id = row.enrollmentId)
      (hnew : ∀ other ∈ db.lessonAssignments, other.enrollmentId = row.enrollmentId →
        other.lessonId ≠ row.lessonId) :
      RowChange { db with
        lessonAssignments := db.lessonAssignments ++ [row], nextId := db.nextId + 1 }
  | retargetLessonAssignment (found row : LessonAssignment) (hfound : found ∈ db.lessonAssignments)
      (hid : row.id = found.id) (hkeep : row.enrollmentId = found.enrollmentId)
      (hnew : ∀ other ∈ db.lessonAssignments, other.id ≠ row.id →
        other.enrollmentId = row.enrollmentId → other.lessonId ≠ row.lessonId) :
      RowChange { db with
        lessonAssignments := updateAll (·.id == found.id) (fun _ => row) db.lessonAssignments }
  | deleteLessonAssignments (p : LessonAssignment → Bool) :
      RowChange { db with lessonAssignments := deleteAll p db.lessonAssignments }
  | insertContentBlock (block : ContentBlock) (hid : block.id = db.nextId) :
      RowChange { db with contentBlocks := db.contentBlocks ++ [block], nextId := db.nextId + 1 }
  | touchContentBlocks (p : ContentBlock → Bool) (f : ContentBlock → ContentBlock)
      (hf : ∀ block, p block = true → (f block).id = block.id) :
      RowChange { db with contentBlocks := updateAll p f db.contentBlocks }
  | elsewhere (db' : Database) (hkept : CurriculumKept db db') : RowChange db'

/-- The effect of a request: any number of validated writes. -/
abbrev Changes (Allowed : Database → CurriculumModule → CurriculumModule → Prop) :
    Database → Database → Prop :=
  Relation.ReflTransGen (RowChange Allowed)

theorem RowChange.nextId_le {Allowed : Database → CurriculumModule → CurriculumModule → Prop}
    {db db' : Database} (h : RowChange Allowed db db') : db.nextId ≤ db'.nextId := by
  cases h <;> first | exact Nat.le_refl _ | exact Nat.le_succ _ | exact CurriculumKept.nextId ‹_›

/-! ## Preservation -/

theorem validReleaseDay?_congr {m m' : CurriculumModule} (h : m'.scheduleDays = m.scheduleDays)
    (releaseDay : ℤ) : m'.validReleaseDay? releaseDay = m.validReleaseDay? releaseDay := by
  simp only [CurriculumModule.validReleaseDay?, CurriculumModule.scheduledWeekdayIndices, h]

theorem CurriculumSchema.mono {db db' : Database} (h : CurriculumSchema db)
    (hkept : CurriculumKept db db') : CurriculumSchema db' where
  modules := hkept.modules ▸ h.modules.mono hkept.nextId
  lessons := hkept.lessons ▸ h.lessons.mono hkept.nextId
  cohorts := hkept.cohorts ▸ h.cohorts.mono hkept.nextId
  schedules := hkept.schedules ▸ h.schedules.mono hkept.nextId
  enrollments := hkept.enrollments ▸ h.enrollments.mono hkept.nextId
  moduleAssignments := hkept.moduleAssignments ▸ h.moduleAssignments.mono hkept.nextId
  lessonAssignments := hkept.lessonAssignments ▸ h.lessonAssignments.mono hkept.nextId
  contentBlocks := hkept.contentBlocks ▸ h.contentBlocks.mono hkept.nextId
  lessonModule := by rw [hkept.modules, hkept.lessons]; exact h.lessonModule
  releaseDays := by rw [hkept.modules, hkept.lessons]; exact h.releaseDays

/-- The schema with a larger sequence value, as an insertion into another table needs it. -/
theorem CurriculumSchema.succ {db : Database} (h : CurriculumSchema db) :
    CurriculumSchema { db with nextId := db.nextId + 1 } :=
  h.mono ⟨rfl, rfl, rfl, rfl, rfl, rfl, rfl, rfl, Nat.le_succ _⟩

section Modules

variable {db : Database} (h : CurriculumSchema db)

include h

theorem CurriculumSchema.refers :
    Refers CurriculumModule.id Lesson.moduleId LessonValid db.modules db.lessons :=
  ⟨h.lessonModule, h.releaseDays⟩

theorem CurriculumSchema.insertModule {m : CurriculumModule} (hid : m.id = db.nextId) :
    CurriculumSchema { db with modules := db.modules ++ [m], nextId := db.nextId + 1 } :=
  have hrefers := h.refers.insertParent h.modules hid
  { h.succ with
    modules := h.modules.append hid
    lessonModule := hrefers.parent
    releaseDays := hrefers.related }

theorem CurriculumSchema.updateModule {old m : CurriculumModule} (hold : old ∈ db.modules)
    (hid : m.id = old.id) (hdays : m.scheduleDays ≠ old.scheduleDays → ∀ lesson ∈ db.lessons,
      lesson.moduleId = m.id → m.validReleaseDay? lesson.releaseDay = true) :
    CurriculumSchema { db with
      modules := updateAll (·.id == old.id) (fun _ => m) db.modules } := by
  have hrefers := h.refers.updateParent hid fun lesson hlesson hmodule => by
    have hvalid := h.releaseDays lesson hlesson old hold hmodule
    refine ⟨hvalid.nonneg, fun harchived => ?_⟩
    by_cases hsame : m.scheduleDays = old.scheduleDays
    · rw [validReleaseDay?_congr hsame]
      exact hvalid.scheduled harchived
    · exact hdays hsame lesson hlesson (hid.trans hmodule).symm
  refine { h with
    modules := h.modules.updateAll fun row hrow => ?_
    lessonModule := hrefers.parent
    releaseDays := hrefers.related }
  rw [hid]
  exact (beq_iff_eq.mp hrow).symm

theorem CurriculumSchema.insertLesson {m : CurriculumModule} {lesson : Lesson}
    (hm : m ∈ db.modules) (hmodule : lesson.moduleId = m.id) (hid : lesson.id = db.nextId)
    (hvalid : LessonValid m lesson) :
    CurriculumSchema { db with lessons := db.lessons ++ [lesson], nextId := db.nextId + 1 } :=
  have hrefers := h.refers.append h.modules hm hmodule.symm hvalid
  { h.succ with
    lessons := h.lessons.append hid
    lessonModule := hrefers.parent
    releaseDays := hrefers.related }

theorem CurriculumSchema.updateLesson {m : CurriculumModule} {old lesson : Lesson}
    (hm : m ∈ db.modules) (hmodule : old.moduleId = m.id) (hid : lesson.id = old.id)
    (hkeep : lesson.moduleId = old.moduleId) (hvalid : LessonValid m lesson) :
    CurriculumSchema { db with
      lessons := updateAll (·.id == old.id) (fun _ => lesson) db.lessons } := by
  have hrefers : Refers CurriculumModule.id Lesson.moduleId LessonValid db.modules
      (updateAll (·.id == old.id) (fun _ => lesson) db.lessons) := by
    refine h.refers.of_rows h.modules fun row hrow => ?_
    rcases mem_updateAll.mp hrow with ⟨_, _, _, rfl⟩ | ⟨hrow, _⟩
    · exact .inr ⟨m, hm, (hkeep.trans hmodule).symm, hvalid⟩
    · exact .inl hrow
  refine { h with
    lessons := h.lessons.updateAll fun row hrow => ?_
    lessonModule := hrefers.parent
    releaseDays := hrefers.related }
  rw [hid]
  exact (beq_iff_eq.mp hrow).symm

end Modules

theorem RowChange.schema {Allowed : Database → CurriculumModule → CurriculumModule → Prop}
    {db db' : Database} (hchange : RowChange Allowed db db') (h : CurriculumSchema db) :
    CurriculumSchema db' := by
  cases hchange with
  | insertModule m hid => exact h.insertModule hid
  | updateModule old m hold hid hdays _ => exact h.updateModule hold hid hdays
  | insertLesson m lesson hm hmodule hid hvalid => exact h.insertLesson hm hmodule hid hvalid
  | updateLesson m old lesson hm hmodule _ hid hkeep hvalid =>
    exact h.updateLesson hm hmodule hid hkeep hvalid
  | insertCohort cohort hid => exact { h.succ with cohorts := h.cohorts.append hid }
  | updateCohorts p f hf => exact { h with cohorts := h.cohorts.updateAll hf }
  | insertSchedule m row _ _ hid _ _ => exact { h.succ with schedules := h.schedules.append hid }
  | updateSchedule m found date _ _ _ _ =>
    exact { h with schedules := h.schedules.updateAll fun _ _ => rfl }
  | deleteSchedules p => exact { h with schedules := h.schedules.deleteAll p }
  | insertEnrollment row hid => exact { h.succ with enrollments := h.enrollments.append hid }
  | updateEnrollments p f hf =>
    exact { h with enrollments := h.enrollments.updateAll fun row hp => (hf row hp).1 }
  | deleteEnrollments p => exact { h with enrollments := h.enrollments.deleteAll p }
  | insertModuleAssignment row hid henrollment hnew =>
    obtain ⟨enrollment, hmem, heq⟩ := henrollment
    have hlt : row.enrollmentId < db.nextId := heq ▸ h.enrollments.lt enrollment hmem
    exact { h.succ with moduleAssignments := h.moduleAssignments.append hid hlt hnew }
  | touchModuleAssignments p f hf =>
    exact { h with moduleAssignments := h.moduleAssignments.touch hf }
  | retargetModuleAssignment found row hfound hid hkeep hnew =>
    exact { h with moduleAssignments := h.moduleAssignments.retarget hfound hid hkeep hnew }
  | deleteModuleAssignments p =>
    exact { h with moduleAssignments := h.moduleAssignments.deleteAll p }
  | insertLessonAssignment row hid henrollment hnew =>
    obtain ⟨enrollment, hmem, heq⟩ := henrollment
    have hlt : row.enrollmentId < db.nextId := heq ▸ h.enrollments.lt enrollment hmem
    exact { h.succ with lessonAssignments := h.lessonAssignments.append hid hlt hnew }
  | retargetLessonAssignment found row hfound hid hkeep hnew =>
    exact { h with lessonAssignments := h.lessonAssignments.retarget hfound hid hkeep hnew }
  | deleteLessonAssignments p =>
    exact { h with lessonAssignments := h.lessonAssignments.deleteAll p }
  | insertContentBlock block hid =>
    exact { h.succ with contentBlocks := h.contentBlocks.append hid }
  | touchContentBlocks p f hf =>
    exact { h with contentBlocks := h.contentBlocks.updateAll hf }
  | elsewhere db' hkept => exact h.mono hkept

theorem Changes.schema {Allowed : Database → CurriculumModule → CurriculumModule → Prop}
    {db db' : Database} (hchanges : Changes Allowed db db') (h : CurriculumSchema db) :
    CurriculumSchema db' := by
  induction hchanges with
  | refl => exact h
  | tail _ hchange ih => exact hchange.schema ih

end LearningPlatform
