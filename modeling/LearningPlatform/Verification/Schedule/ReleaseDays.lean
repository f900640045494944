import LearningPlatform.Verification.Schedule.Calendar
import Mathlib.Algebra.BigOperators.Group.Finset.Piecewise
import Mathlib.Data.Int.ConditionallyCompleteOrder
import Mathlib.Data.Int.Interval
import Mathlib.Tactic.NormNum

/-! # Release days, weeks and unlock dates

Active lessons keep to the weekday pattern of their module, unlock inside their week and
are counted in exactly one week. -/

namespace LearningPlatform

open Shared

/-! ## Week counts -/

/-- Days 7(w-1) to 7(w-1)+6 of the weeks 1 to `weeks` count every row once. -/
theorem sum_countP_weeks {ρ : Type*} (day : ρ → ℤ) (weeks : ℤ) (rows : List ρ)
    (h : ∀ row ∈ rows, 0 ≤ day row ∧ day row / 7 + 1 ≤ weeks) :
    ∑ week ∈ Finset.Icc 1 weeks, rows.countP (fun row =>
      decide ((week - 1) * 7 ≤ day row) && decide (day row ≤ (week - 1) * 7 + 6)) =
      rows.length := by
  induction rows with
  | nil => simp
  | cons row rows ih =>
    have hrow := h row (by simp)
    -- Only the week of `day row` counts the first row.
    have hone : ∑ week ∈ Finset.Icc 1 weeks,
        (if (decide ((week - 1) * 7 ≤ day row) && decide (day row ≤ (week - 1) * 7 + 6)) = true
          then 1 else 0) = 1 := by
      rw [Finset.sum_congr rfl (g := fun week => if week = day row / 7 + 1 then 1 else 0)]
      · rw [Finset.sum_ite_eq' (Finset.Icc 1 weeks)]
        exact if_pos (Finset.mem_Icc.mpr ⟨by omega, hrow.2⟩)
      · intro week _
        refine if_congr ?_ rfl rfl
        simp only [Bool.and_eq_true, decide_eq_true_eq]
        omega
    simp only [List.countP_cons, Finset.sum_add_distrib, List.length_cons]
    rw [ih fun row' hrow' => h row' (List.mem_cons_of_mem _ hrow'), hone]

theorem sum_lessonsCountForWeek {db : Database} (hs : CurriculumSchema db) {m : CurriculumModule}
    (hm : m ∈ db.modules) :
    ∑ week ∈ Finset.Icc 1 (db.weekCount m), SubmissionWindowStatus.lessonsCountForWeek db m week =
      (db.lessonsOf m).length := by
  apply sum_countP_weeks
  intro lesson hlesson
  have hmax := releaseDay_le_max hlesson
  refine ⟨(hs.lessonValid hm hlesson).1, ?_⟩
  unfold Database.weekCount
  omega

/-! ## Main result -/

/-- An active lesson of `m` is on a scheduled weekday, and it unlocks inside the week that
its release day names, counted from the start of the module. -/
structure UnlocksInWeek (db : Database) (m : CurriculumModule) (cohort : Cohort) (now : Time)
    (lesson : Lesson) : Prop where
  scheduled : m.validReleaseDay? lesson.releaseDay = true
  offset : 0 ≤ m.calendarOffsetFor lesson.releaseDay
  window : ∀ assignment : Option ModuleAssignment,
    (∀ row, assignment = some row → row.unlockDateOverride = none) →
      ∃ startsOn endsOn,
        let week := SubmissionWindowStatus.forWeek db cohort m
          (SubmissionWindowStatus.weekNumberForReleaseDay lesson.releaseDay)
          (some (db.startDateFor m cohort)) now
        week.startsOn = some startsOn ∧ week.endsOn = some endsOn ∧
          startsOn ≤ db.unlockDate lesson m cohort assignment ∧
          db.unlockDate lesson m cohort assignment ≤ endsOn

theorem CurriculumSchema.unlocksInWeek {db : Database} (hs : CurriculumSchema db)
    {m : CurriculumModule} (hm : m ∈ db.modules) (cohort : Cohort) (now : Time) {lesson : Lesson}
    (hlesson : lesson ∈ db.lessonsOf m) : UnlocksInWeek db m cohort now lesson := by
  obtain ⟨hnonneg, hvalid⟩ := hs.lessonValid hm hlesson
  refine ⟨hvalid, calendarOffsetFor_nonneg hvalid hnonneg, ?_⟩
  intro assignment hoverride
  have hfirst := firstScheduledDayIndex_le hvalid
  have hrange := firstScheduledDayIndex_mem_range m
  have hlower (day : ℤ) : day + (lesson.releaseDay / 7 + 1 - 1) * 7 ≤
      day + (lesson.releaseDay - m.firstScheduledDayIndex) := by omega
  have hupper (day : ℤ) : day + (lesson.releaseDay - m.firstScheduledDayIndex) ≤
      day + (lesson.releaseDay / 7 + 1 - 1) * 7 + 6 := by omega
  rw [unlockDate_of_no_override hoverride]
  exact ⟨_, _, rfl, rfl, hlower _, hupper _⟩

/-- After any run of requests, every active lesson unlocks inside its week, and the weekly
lesson counts add up to the number of active lessons. -/
theorem active_lessons_fit_their_weeks (start db : Database) (requests : List PlatformRequest)
    (hstart : NoCurriculum start)
    (hrun : Run (Performs PlatformRequest.perform) start requests db) (m : CurriculumModule)
    (hm : m ∈ db.modules) (cohort : Cohort) (now : Time) :
    (∀ lesson ∈ db.lessonsOf m, UnlocksInWeek db m cohort now lesson) ∧
      ∑ week ∈ Finset.Icc 1 (db.weekCount m),
        (SubmissionWindowStatus.forWeek db cohort m week
          (some (db.startDateFor m cohort)) now).lessonsCount = (db.lessonsOf m).length := by
  have hs := Reachable.schema ⟨start, requests, hstart, hrun⟩
  exact ⟨fun lesson hlesson => hs.unlocksInWeek hm cohort now hlesson,
    sum_lessonsCountForWeek hs hm⟩

def oneCurriculum : Database :=
  { curricula := [{ id := 1 }], nextId := 2 }

theorem oneCurriculum_noCurriculum : NoCurriculum oneCurriculum :=
  ⟨rfl, rfl, rfl, rfl, rfl, rfl, rfl, rfl⟩

/-- A Tuesday and Thursday module with two lessons. The first is archived, moved to a
Wednesday, refused by the restore, moved to a Thursday and restored. -/
def movedWhileArchived : List PlatformRequest :=
  [.createModule 1 { name := some (some "Ruby"), scheduleDays := some (some "tth") },
    .createLesson 2 { title := some (some "Loops"), releaseDay := some (some 1) },
    .createLesson 2 { title := some (some "Hashes"), releaseDay := some (some 10) },
    .archiveLesson 3 100, .updateLesson 3 { releaseDay := some (some 2) }, .restoreLesson 3,
    .updateLesson 3 { releaseDay := some (some 3) }, .restoreLesson 3]

theorem weeks_count_moved_lessons :
    let db := movedWhileArchived.foldl PlatformRequest.perform oneCurriculum
    let m : CurriculumModule :=
      { id := 2, curriculumId := 1, name := "Ruby", scheduleDays := .tth }
    (db.lessonsOf m).map (·.releaseDay) = [3, 10] ∧
      (∀ lesson ∈ db.lessonsOf m, UnlocksInWeek db m { id := 9, curriculumId := 1 } 0 lesson) ∧
      ∑ week ∈ Finset.Icc 1 (db.weekCount m),
        (SubmissionWindowStatus.forWeek db { id := 9, curriculumId := 1 } m week
          (some (db.startDateFor m { id := 9, curriculumId := 1 })) 0).lessonsCount = 2 := by
  intro db m
  have hweeks := active_lessons_fit_their_weeks oneCurriculum db movedWhileArchived
    oneCurriculum_noCurriculum (run_foldl _ _ _) m (by decide +kernel)
    { id := 9, curriculumId := 1 } 0
  have hdays : (db.lessonsOf m).map (·.releaseDay) = [3, 10] := by decide +kernel
  refine ⟨hdays, hweeks.1, hweeks.2.trans ?_⟩
  simpa using congrArg List.length hdays

end LearningPlatform
