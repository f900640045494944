import LearningPlatform.Verification.Schedule.ReleaseDays

/-! # Start dates of cohort schedules

A schedule row is checked against its module when it is saved, but not when the pattern of
the module changes later. -/

namespace LearningPlatform

open Shared

/-! ## The invariant -/

/-- Every schedule row starts on the first scheduled weekday of its module. -/
structure StartDatesMatch (db : Database) : Prop where
  module : ∀ row ∈ db.cohortModuleSchedules, ∃ m ∈ db.modules, m.id = row.moduleId
  weekday : ∀ row ∈ db.cohortModuleSchedules, ∀ m ∈ db.modules, m.id = row.moduleId →
    weekdayIndex row.startDate = m.firstScheduledDayIndex

theorem NoCurriculum.startDatesMatch {db : Database} (h : NoCurriculum db) :
    StartDatesMatch db := by
  constructor <;> simp [h.schedules]

/-- The module has no schedule row, or the update keeps its first scheduled weekday. -/
def FirstDayKept (db : Database) (old m : CurriculumModule) : Prop :=
  (∃ row ∈ db.cohortModuleSchedules, row.moduleId = old.id) →
    m.firstScheduledDayIndex = old.firstScheduledDayIndex

section Steps

variable {db : Database}

theorem startDatesMatch_iff : StartDatesMatch db ↔
    Refers CurriculumModule.id CohortModuleSchedule.moduleId
      (fun m row => weekdayIndex row.startDate = m.firstScheduledDayIndex)
      db.modules db.cohortModuleSchedules :=
  ⟨fun h => ⟨h.module, h.weekday⟩, fun h => ⟨h.parent, h.related⟩⟩

variable (h : StartDatesMatch db)

include h

theorem StartDatesMatch.updateModule {old m : CurriculumModule} (hold : old ∈ db.modules)
    (hid : m.id = old.id) (hkept : FirstDayKept db old m) :
    StartDatesMatch { db with
      modules := updateAll (·.id == old.id) (fun _ => m) db.modules } :=
  startDatesMatch_iff.mpr <| (startDatesMatch_iff.mp h).updateParent hid fun row hrow hmodule =>
    (h.weekday row hrow old hold hmodule).trans (hkept ⟨row, hrow, hmodule.symm⟩).symm

variable (hs : CurriculumSchema db) {m : CurriculumModule}

include hs

theorem StartDatesMatch.insertModule (hid : m.id = db.nextId) :
    StartDatesMatch { db with modules := db.modules ++ [m], nextId := db.nextId + 1 } :=
  startDatesMatch_iff.mpr ((startDatesMatch_iff.mp h).insertParent hs.modules hid)

theorem StartDatesMatch.insertSchedule {row : CohortModuleSchedule} (hm : m ∈ db.modules)
    (hmodule : row.moduleId = m.id) (hday : weekdayIndex row.startDate = m.firstScheduledDayIndex) :
    StartDatesMatch { db with
      cohortModuleSchedules := db.cohortModuleSchedules ++ [row], nextId := db.nextId + 1 } :=
  startDatesMatch_iff.mpr ((startDatesMatch_iff.mp h).append hs.modules hm hmodule.symm hday)

theorem StartDatesMatch.updateSchedule {found : CohortModuleSchedule} {date : Date}
    (hm : m ∈ db.modules) (hmodule : found.moduleId = m.id)
    (hfound : found ∈ db.cohortModuleSchedules)
    (hday : weekdayIndex date = m.firstScheduledDayIndex) :
    StartDatesMatch { db with
      cohortModuleSchedules := updateAll (·.id == found.id)
        (fun row => { row with startDate := date }) db.cohortModuleSchedules } := by
  refine startDatesMatch_iff.mpr ((startDatesMatch_iff.mp h).of_rows hs.modules fun row hrow => ?_)
  rcases mem_updateAll.mp hrow with ⟨old, hold, hp, rfl⟩ | ⟨hrow, -⟩
  · rw [hs.schedules.eq_of_key hold hfound (beq_iff_eq.mp hp)]
    exact .inr ⟨m, hm, hmodule.symm, hday⟩
  · exact .inl hrow

end Steps

variable {db db' : Database}

theorem StartDatesMatch.of_eq (h : StartDatesMatch db) (hmodules : db'.modules = db.modules)
    (hschedules : db'.cohortModuleSchedules = db.cohortModuleSchedules) : StartDatesMatch db' := by
  constructor
  · rw [hmodules, hschedules]
    exact h.module
  · rw [hmodules, hschedules]
    exact h.weekday

/-- Writes that keep the first weekday of scheduled modules keep the start dates right. -/
theorem RowChange.startDatesMatch (hchange : RowChange FirstDayKept db db')
    (hs : CurriculumSchema db) (h : StartDatesMatch db) : StartDatesMatch db' := by
  cases hchange with
  | insertModule m hid => exact h.insertModule hs hid
  | updateModule old m hold hid _ hkept => exact h.updateModule hold hid hkept
  | insertSchedule m row hm hmodule _ hday _ => exact h.insertSchedule hs hm hmodule hday
  | updateSchedule m found date hm hmodule hfound hday =>
    exact h.updateSchedule hs hm hmodule hfound hday
  | deleteSchedules p =>
    exact ⟨fun row hrow => h.module row (mem_deleteAll.mp hrow).1,
      fun row hrow => h.weekday row (mem_deleteAll.mp hrow).1⟩
  | elsewhere db' hkept => exact h.of_eq hkept.modules hkept.schedules
  | _ => exact h.of_eq rfl rfl

theorem Changes.startDatesMatch (hchanges : Changes FirstDayKept db db') (hs : CurriculumSchema db)
    (h : StartDatesMatch db) : CurriculumSchema db' ∧ StartDatesMatch db' := by
  induction hchanges with
  | refl => exact ⟨hs, h⟩
  | tail _ hchange ih => exact ⟨hchange.schema ih.1, hchange.startDatesMatch ih.1 ih.2⟩

/-! ## Runs that keep the first weekday -/

/-- A module that a cohort has scheduled is only given a pattern with the same first weekday. -/
def KeepsFirstDay (db : Database) : PlatformRequest → Prop
  | .updateModule id params => ∀ old days, db.module? id = some old →
      old.assignedSchedule params = some days →
      (∃ row ∈ db.cohortModuleSchedules, row.moduleId = id) →
      ({ old with scheduleDays := days } : CurriculumModule).firstScheduledDayIndex =
        old.firstScheduledDayIndex
  | _ => True

theorem KeepsFirstDay.respects {request : PlatformRequest} (h : KeepsFirstDay db request) :
    request.Respects FirstDayKept db := by
  cases request with
  | updateModule id params =>
    intro old m hold hm hscheduled
    obtain ⟨-, -, hdays, -⟩ := validateModule_spec hm
    obtain ⟨row, hrow, hmodule⟩ := hscheduled
    have hkept := h old m.scheduleDays hold hdays
      ⟨row, hrow, hmodule.trans (mem_of_lookup hold).2⟩
    simpa [CurriculumModule.firstScheduledDayIndex,
      CurriculumModule.scheduledWeekdayIndices] using hkept
  | _ => trivial

theorem StartDatesMatch.weekday_unlockDate (h : StartDatesMatch db) {cohort : Cohort}
    {m : CurriculumModule} (hm : m ∈ db.modules) {schedule : CohortModuleSchedule}
    (hschedule : db.moduleScheduleFor cohort m = some schedule) {lesson : Lesson}
    {assignment : Option ModuleAssignment}
    (hoverride : ∀ row, assignment = some row → row.unlockDateOverride = none) :
    weekdayIndex (db.unlockDate lesson m cohort assignment) = lesson.releaseDay % 7 := by
  have hfound := List.find?_some hschedule
  simp only [Bool.and_eq_true, beq_iff_eq] at hfound
  have hday := h.weekday schedule (List.mem_of_find?_eq_some hschedule) m hm hfound.2.symm
  have hstart : db.startDateFor m cohort = schedule.startDate := by
    simp [Database.startDateFor, hschedule]
  have harith (start : ℤ) (hstart : start % 7 = m.firstScheduledDayIndex) :
      (start + (lesson.releaseDay - m.firstScheduledDayIndex)) % 7 = lesson.releaseDay % 7 := by
    omega
  rw [unlockDate_of_no_override hoverride, hstart, weekdayIndex_eq]
  exact harith _ ((weekdayIndex_eq _).symm.trans hday)

/-- In every run whose pattern changes keep the first weekday of the modules that a cohort
has scheduled, lessons of scheduled modules unlock on the weekday of their release day. -/
theorem unlock_weekday_along_kept_first_days (start db : Database)
    (requests : List PlatformRequest) (hstart : NoCurriculum start)
    (hrun : Run (Meeting KeepsFirstDay (Performs PlatformRequest.perform)) start requests db)
    (cohort : Cohort) (m : CurriculumModule) (hm : m ∈ db.modules)
    (schedule : CohortModuleSchedule) (hschedule : db.moduleScheduleFor cohort m = some schedule)
    (assignment : Option ModuleAssignment)
    (hoverride : ∀ row, assignment = some row → row.unlockDateOverride = none) :
    ∀ lesson ∈ db.lessonsOf m,
      weekdayIndex (db.unlockDate lesson m cohort assignment) = lesson.releaseDay % 7 := by
  have hinv := hrun.invariant (fun db => CurriculumSchema db ∧ StartDatesMatch db)
    (fun s request t hs hstep => by
      obtain ⟨hkeeps, rfl⟩ := hstep
      exact (perform_changes hs.1 hkeeps.respects).startDatesMatch hs.1 hs.2)
    ⟨hstart.schema, hstart.startDatesMatch⟩
  intro lesson _
  exact hinv.2.weekday_unlockDate hm hschedule hoverride

/-! ## A kept and a moved first weekday -/

/-- A weekday module with one lesson, scheduled for a cohort from a Monday on, whose pattern
then changes. -/
def scheduledThenChanged (releaseDay : ℤ) (pattern : String) : List PlatformRequest :=
  [.createModule 1 { name := some (some "Ruby") },
    .createLesson 2 { title := some (some "Loops"), releaseDay := some (some releaseDay) },
    .createCohort { curriculumId := some 1, startDate := some (some 0) },
    .moduleAccess 4 { moduleId := 2, assigned := .bool true, moduleStartDate := some (some 7) }
      1 1 0,
    .updateModule 2 { scheduleDays := some (some pattern) }]

theorem weekday_kept_from_weekdays_to_mwf :
    let db := (scheduledThenChanged 2 "mwf").foldl PlatformRequest.perform oneCurriculum
    let m : CurriculumModule :=
      { id := 2, curriculumId := 1, name := "Ruby", scheduleDays := .mwf }
    let cohort : Cohort := { id := 4, curriculumId := 1 }
    (db.lessonsOf m).map (·.releaseDay) = [2] ∧
      ∀ lesson ∈ db.lessonsOf m,
        weekdayIndex (db.unlockDate lesson m cohort none) = lesson.releaseDay % 7 := by
  intro db m cohort
  have hrun : Run (Meeting KeepsFirstDay (Performs PlatformRequest.perform)) oneCurriculum
      (scheduledThenChanged 2 "mwf") db := by
    refine .cons ⟨trivial, rfl⟩ (.cons ⟨trivial, rfl⟩ (.cons ⟨trivial, rfl⟩
      (.cons ⟨trivial, rfl⟩ (.cons ⟨?_, rfl⟩ (.nil _)))))
    intro old days hold hdays _
    obtain rfl : { id := 2, curriculumId := 1, name := "Ruby" } = old :=
      Option.some.inj (Eq.trans (by decide +kernel) hold)
    obtain rfl : ScheduleDays.mwf = days := Option.some.inj hdays
    decide
  exact ⟨by decide +kernel, unlock_weekday_along_kept_first_days oneCurriculum db _
    oneCurriculum_noCurriculum hrun cohort m (by decide +kernel)
    { id := 5, cohortId := 4, moduleId := 2, startDate := 7 } (by decide +kernel) none (by simp)⟩

/-- A Tuesday lesson of a module scheduled from a Monday unlocks on that Monday once the
pattern is changed to Tuesdays and Thursdays. -/
theorem tuesday_lesson_unlocks_on_monday :
    let db := (scheduledThenChanged 1 "tth").foldl PlatformRequest.perform oneCurriculum
    NoCurriculum oneCurriculum ∧
      Run (Performs PlatformRequest.perform) oneCurriculum (scheduledThenChanged 1 "tth") db ∧
      ∃ m ∈ db.modules, ∃ lesson ∈ db.lessonsOf m, ∃ cohort ∈ db.cohorts,
        (db.moduleScheduleFor cohort m).isSome = true ∧
          weekdayIndex (db.unlockDate lesson m cohort none) = 0 ∧ lesson.releaseDay % 7 = 1 :=
  ⟨oneCurriculum_noCurriculum, run_foldl _ _ _, by decide +kernel⟩

end LearningPlatform
