import LearningPlatform.Verification.Curriculum.Changes

/-! # Weekdays, unlock dates and the lessons of a module -/

namespace LearningPlatform

/-! ## Calendar arithmetic -/

theorem weekdayIndex_eq (date : Date) : weekdayIndex date = date % 7 := by
  unfold weekdayIndex wday
  omega

theorem firstScheduledDayIndex_mem_range (m : CurriculumModule) :
    0 ≤ m.firstScheduledDayIndex ∧ m.firstScheduledDayIndex ≤ 6 := by
  unfold CurriculumModule.firstScheduledDayIndex CurriculumModule.scheduledWeekdayIndices
  cases m.scheduleDays <;> decide

variable {m : CurriculumModule} {db : Database} {lesson : Lesson}

theorem firstScheduledDayIndex_le {releaseDay : ℤ} (h : m.validReleaseDay? releaseDay = true) :
    m.firstScheduledDayIndex ≤ releaseDay % 7 := by
  have hmin : ∀ days : ScheduleDays, ∀ day ∈ days.pattern, days.pattern.min?.getD 0 ≤ day := by
    intro days
    cases days <;> decide
  exact hmin m.scheduleDays _ (by simpa [CurriculumModule.validReleaseDay?,
    CurriculumModule.scheduledWeekdayIndices] using h)

theorem calendarOffsetFor_nonneg {releaseDay : ℤ} (hvalid : m.validReleaseDay? releaseDay = true)
    (hnonneg : 0 ≤ releaseDay) : 0 ≤ m.calendarOffsetFor releaseDay := by
  have hfirst := firstScheduledDayIndex_le hvalid
  unfold CurriculumModule.calendarOffsetFor
  omega

theorem unlockDate_of_no_override {cohort : Cohort} {assignment : Option ModuleAssignment}
    (h : ∀ row, assignment = some row → row.unlockDateOverride = none) :
    db.unlockDate lesson m cohort assignment =
      db.startDateFor m cohort + m.calendarOffsetFor lesson.releaseDay := by
  cases assignment with
  | none => rfl
  | some row => simp [Database.unlockDate, Database.effectiveStartDate, h row rfl]

/-! ## Lessons of a module -/

theorem mem_lessonsOf :
    lesson ∈ db.lessonsOf m ↔
      lesson ∈ db.lessons ∧ lesson.moduleId = m.id ∧ lesson.archived? = false := by
  simp [Database.lessonsOf]

theorem CurriculumSchema.lessonValid (hs : CurriculumSchema db) (hm : m ∈ db.modules)
    (hlesson : lesson ∈ db.lessonsOf m) :
    0 ≤ lesson.releaseDay ∧ m.validReleaseDay? lesson.releaseDay = true := by
  obtain ⟨hmem, hmodule, hactive⟩ := mem_lessonsOf.mp hlesson
  have hvalid := hs.releaseDays lesson hmem m hm hmodule.symm
  exact ⟨hvalid.nonneg, hvalid.scheduled hactive⟩

theorem releaseDay_le_max (hlesson : lesson ∈ db.lessonsOf m) :
    lesson.releaseDay ≤ ((db.lessonsOf m).map (·.releaseDay)).max?.getD 0 := by
  have hmem := List.mem_map_of_mem (f := Lesson.releaseDay) hlesson
  cases hmax : ((db.lessonsOf m).map (·.releaseDay)).max? with
  | none =>
    rw [List.max?_eq_none_iff.mp hmax] at hmem
    simp at hmem
  | some day => exact (List.max?_eq_some_iff.mp hmax).2 _ hmem

end LearningPlatform
