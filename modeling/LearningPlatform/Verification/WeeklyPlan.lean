import LearningPlatform.Model.WeeklyPlan
import LearningPlatform.Verification.Access.Gates

/-! # The weekly plan and the availability of lessons

A lesson assignment without a date fixes the availability of its lesson, whatever the schedule
says; all other lessons are available from the date on that the plan shows for them. -/

namespace LearningPlatform

open Shared

namespace WeeklyPlanProjection

variable {plan : WeeklyPlanProjection} {m : CurriculumModule} {lesson : Lesson}

/-! ## Lessons of the plan -/

theorem mem_lessons : (m, lesson) ∈ plan.lessons ↔
    m ∈ plan.assignedModules ∧ lesson ∈ plan.db.lessonsOf m := by
  simp [lessons]

theorem assignedModules_subset (h : m ∈ plan.assignedModules) : m ∈ plan.db.modules :=
  (mem_modulesOf.mp (List.mem_filter.mp h).1).1

theorem of_mem_lessons (h : (m, lesson) ∈ plan.lessons) :
    m ∈ plan.db.modules ∧ lesson ∈ plan.db.lessons ∧ lesson.moduleId = m.id ∧
      lesson.archived? = false ∧
        ∃ assignment, plan.moduleAssignment lesson.moduleId = some assignment := by
  obtain ⟨hm, hlesson⟩ := mem_lessons.mp h
  obtain ⟨hmem, hmodule, hactive⟩ := mem_lessonsOf.mp hlesson
  have hassigned : (plan.moduleAssignment m.id).isSome = true := (List.mem_filter.mp hm).2
  rw [← hmodule] at hassigned
  exact ⟨assignedModules_subset hm, hmem, hmodule, hactive, Option.isSome_iff_exists.mp hassigned⟩

theorem eq_of_lesson_id (hs : CurriculumSchema plan.db) {m' : CurriculumModule} {lesson' : Lesson}
    (h : (m, lesson) ∈ plan.lessons) (h' : (m', lesson') ∈ plan.lessons)
    (hid : lesson.id = lesson'.id) : m = m' ∧ lesson = lesson' := by
  obtain ⟨hm, hlesson, hmodule, -⟩ := of_mem_lessons h
  obtain ⟨hm', hlesson', hmodule', -⟩ := of_mem_lessons h'
  obtain rfl := hs.lessons.eq_of_key hlesson hlesson' hid
  exact ⟨hs.modules.eq_of_key hm hm' (hmodule.symm.trans hmodule'), rfl⟩

theorem nodup_lessons (hs : CurriculumSchema plan.db) : plan.lessons.Nodup := by
  have hmodules : plan.assignedModules.Nodup :=
    ((nodup_modulesOf hs plan.cohort.curriculumId).of_map _).filter _
  refine List.nodup_flatMap.mpr ⟨?_, ?_⟩
  · intro m _
    have hlessons : (plan.db.lessonsOf m).Nodup :=
      (List.perm_insertionSort _ _).nodup_iff.mpr ((hs.lessons.nodup.of_map _).filter _)
    exact hlessons.map fun _ _ heq => (Prod.mk.inj heq).2
  · refine hmodules.imp ?_
    intro first second hne pair hfirst hsecond
    obtain ⟨_, _, rfl⟩ := List.mem_map.mp hfirst
    obtain ⟨_, _, heq⟩ := List.mem_map.mp hsecond
    exact hne (Prod.mk.inj heq).1.symm

/-! ## Availability -/

/-- What a lesson assignment without a date says for all days. -/
def fixedAvailability (plan : WeeklyPlanProjection) (lessonId : ℕ) : Option Bool :=
  (plan.lessonAssignment lessonId).bind fun assignment =>
    if assignment.unlockDateOverride.isSome then none else some assignment.unlocked

theorem availableOn_eq (hs : CurriculumSchema plan.db) (h : (m, lesson) ∈ plan.lessons)
    (on : Date) :
    plan.availableOn m lesson on =
      (plan.fixedAvailability lesson.id).getD (decide (plan.lessonUnlockOn m lesson ≤ on)) := by
  obtain ⟨hm, hlesson, hmodule, hactive, assignment, hassignment⟩ := of_mem_lessons h
  rw [availableOn, hassignment, available?_eq hs hm hlesson hmodule, fixedAvailability,
    lessonUnlockOn, hassignment]
  cases hrow : plan.lessonAssignment lesson.id with
  | none => simp [lessonAvailable, hactive]
  | some row =>
    cases hdate : row.unlockDateOverride with
    | none => simp [lessonAvailable, hactive, hdate]
    | some date => simp [lessonAvailable, hactive, hdate]

theorem active_of_availableOn {on : Date} (h : plan.availableOn m lesson on = true) :
    lesson.archived? = false := by
  unfold availableOn Database.available? at h
  cases harchived : lesson.archived? with
  | false => rfl
  | true => simp [harchived] at h

theorem today_le_weekEnd (plan : WeeklyPlanProjection) : plan.today ≤ plan.weekEnd := by
  have hweek : ∀ day : ℤ, day ≤ day - day % 7 + 6 := by omega
  rw [weekEnd, weekStart, weekdayIndex_eq]
  exact hweek plan.today

/-! ## The lists of the plan -/

theorem lessonItem_eq_some_iff :
    (∃ item, plan.lessonItem m lesson = some item) ↔
      (plan.weekStart ≤ plan.lessonUnlockOn m lesson ∧
        plan.lessonUnlockOn m lesson ≤ plan.weekEnd) ∨
      (plan.lessonUnlockOn m lesson < plan.weekStart ∧ plan.lessonCompleted? lesson = false ∧
        plan.lessonAvailable? m lesson = true) := by
  rw [← Option.isSome_iff_exists, lessonItem]
  simp only [Option.isSome_ite, Bool.or_eq_true, Bool.and_eq_true, decide_eq_true_eq,
    Bool.not_eq_true', and_assoc]

theorem lessonId_of_lessonItem {item : PlanLesson} (h : plan.lessonItem m lesson = some item) :
    item.lessonId = lesson.id := by
  simp only [lessonItem, Option.ite_none_right_eq_some, Option.some.injEq] at h
  rw [← h.2]

theorem mem_required_or_optional {item : PlanLesson} :
    item ∈ plan.weeklyPlan.required ++ plan.weeklyPlan.optional ↔
      ∃ m lesson, (m, lesson) ∈ plan.lessons ∧ plan.lessonItem m lesson = some item := by
  have hitems : item ∈ plan.weeklyPlan.required ++ plan.weeklyPlan.optional ↔
      item ∈ plan.lessonItems := by
    simp only [weeklyPlan, required, optional, sortLessonItems, List.mem_append, mem_orderBy,
      List.mem_filter, ← and_or_left, Bool.not_eq_true']
    cases item.required <;> simp
  rw [hitems, lessonItems, List.mem_filterMap]
  exact Prod.exists

/-- The place of a lesson in the order of the unlocks. -/
def lessonKey (plan : WeeklyPlanProjection) (m : CurriculumModule) (lesson : Lesson) :
    ℤ ×ₗ ℕ ×ₗ ℕ :=
  toLex (plan.lessonUnlockOn m lesson, toLex (m.id, lesson.id))

/-- The number of lessons scheduled later than today that come before a lesson. -/
def earlierUnlocks (plan : WeeklyPlanProjection) (m : CurriculumModule) (lesson : Lesson) : ℕ :=
  plan.lessons.countP fun (other, earlier) =>
    decide (plan.today < plan.lessonUnlockOn other earlier) &&
      decide (plan.lessonKey other earlier < plan.lessonKey m lesson)

theorem unlockItem_eq_some {item : PlanUnlock} (h : plan.unlockItem m lesson = some item) :
    plan.today < plan.lessonUnlockOn m lesson ∧ item.lessonId = lesson.id ∧
      item.unlocksOn = plan.lessonUnlockOn m lesson ∧
      unlockKey item = plan.lessonKey m lesson := by
  simp only [unlockItem, Option.ite_none_right_eq_some, Option.some.injEq] at h
  obtain ⟨hlater, rfl⟩ := h
  exact ⟨hlater, rfl, rfl, rfl⟩

theorem nodup_unlockKeys (hs : CurriculumSchema plan.db) :
    ((plan.lessons.filterMap fun (m, lesson) => plan.unlockItem m lesson).map unlockKey).Nodup := by
  refine List.pairwise_map.mpr (List.pairwise_filterMap.mpr
    (List.Pairwise.imp_of_mem ?_ (nodup_lessons hs)))
  rintro ⟨m, lesson⟩ ⟨m', lesson'⟩ hmem hmem' hne item hitem item' hitem' hkey
  obtain ⟨-, -, -, hkey₁⟩ := unlockItem_eq_some hitem
  obtain ⟨-, -, -, hkey₂⟩ := unlockItem_eq_some hitem'
  rw [hkey₁, hkey₂] at hkey
  have hid : lesson.id = lesson'.id := congrArg (fun key => (ofLex (ofLex key).2).2) hkey
  obtain ⟨rfl, rfl⟩ := eq_of_lesson_id hs hmem hmem' hid
  exact hne rfl

theorem mem_upcomingUnlocks (hs : CurriculumSchema plan.db) {item : PlanUnlock} :
    item ∈ plan.weeklyPlan.upcomingUnlocks ↔
      ∃ m lesson, (m, lesson) ∈ plan.lessons ∧ plan.unlockItem m lesson = some item ∧
        plan.earlierUnlocks m lesson < upcomingUnlockLimit := by
  have hcount : ∀ {m lesson}, plan.unlockItem m lesson = some item →
      (plan.lessons.filterMap fun (m, lesson) => plan.unlockItem m lesson).countP
        (fun other => unlockKey other < unlockKey item) = plan.earlierUnlocks m lesson := by
    intro m lesson hitem
    rw [List.countP_filterMap, earlierUnlocks, (unlockItem_eq_some hitem).2.2.2]
    congr 1
    funext ⟨other, earlier⟩
    cases hother : plan.unlockItem other earlier with
    | none =>
      have hnow : ¬ plan.today < plan.lessonUnlockOn other earlier := by
        simpa [unlockItem] using hother
      simp [hother, hnow]
    | some entry =>
      obtain ⟨hlater, -, -, hkey⟩ := unlockItem_eq_some hother
      simp only [hother, hlater, decide_true, Bool.true_and]
      exact decide_eq_decide.mpr (by rw [hkey])
  rw [weeklyPlan, upcomingUnlockItems, mem_take_orderBy_iff (nodup_unlockKeys hs),
    List.mem_filterMap]
  constructor
  · rintro ⟨⟨⟨m, lesson⟩, hmem, hitem⟩, hlt⟩
    exact ⟨m, lesson, hmem, hitem, by rwa [hcount hitem] at hlt⟩
  · rintro ⟨m, lesson, hmem, hitem, hlt⟩
    exact ⟨⟨(m, lesson), hmem, hitem⟩, by rwa [hcount hitem]⟩

/-! ## Consistency -/

/-- The plan agrees with the availability of the lessons of the assigned modules. -/
structure Consistent (plan : WeeklyPlanProjection) : Prop where
  listed : ∀ m ∈ plan.assignedModules, ∀ lesson ∈ plan.db.lessons, lesson.moduleId = m.id →
    plan.availableOn m lesson plan.today = true → plan.lessonCompleted? lesson = false →
    ∃ item ∈ plan.weeklyPlan.required ++ plan.weeklyPlan.optional, item.lessonId = lesson.id
  locked : ∀ item ∈ plan.weeklyPlan.upcomingUnlocks, ∀ m ∈ plan.assignedModules,
    ∀ lesson ∈ plan.db.lessons, lesson.moduleId = m.id → lesson.id = item.lessonId →
    plan.availableOn m lesson plan.today = false
  unlocks : ∀ item ∈ plan.weeklyPlan.upcomingUnlocks, ∀ m ∈ plan.assignedModules,
    ∀ lesson ∈ plan.db.lessons, lesson.moduleId = m.id → lesson.id = item.lessonId →
    ∀ day, plan.today ≤ day → (plan.availableOn m lesson day = true ↔ item.unlocksOn ≤ day)

/-- An unfinished lesson that is open without a date is scheduled until the end of the week, and a
lesson with fixed availability that is scheduled later than today is not among the next unlocks. -/
def FixedFits (plan : WeeklyPlanProjection) (m : CurriculumModule) (lesson : Lesson) : Prop :=
  ∀ fixed, plan.fixedAvailability lesson.id = some fixed →
    (fixed = true → plan.lessonCompleted? lesson = false →
      plan.lessonUnlockOn m lesson ≤ plan.weekEnd) ∧
    (plan.today < plan.lessonUnlockOn m lesson →
      upcomingUnlockLimit ≤ plan.earlierUnlocks m lesson)

/-- An available lesson is listed exactly if it is scheduled until the end of the week. -/
theorem listed_iff (hs : CurriculumSchema plan.db) (h : (m, lesson) ∈ plan.lessons)
    (havailable : plan.availableOn m lesson plan.today = true)
    (hopen : plan.lessonCompleted? lesson = false) :
    (∃ item ∈ plan.weeklyPlan.required ++ plan.weeklyPlan.optional,
        item.lessonId = lesson.id) ↔
      plan.lessonUnlockOn m lesson ≤ plan.weekEnd := by
  have hweek : plan.weekStart ≤ plan.weekEnd := Int.le_add_of_nonneg_right (by decide)
  have hitem : (∃ item ∈ plan.weeklyPlan.required ++ plan.weeklyPlan.optional,
      item.lessonId = lesson.id) ↔ ∃ item, plan.lessonItem m lesson = some item := by
    constructor
    · rintro ⟨item, hmem, hid⟩
      obtain ⟨m', lesson', h', hitem⟩ := mem_required_or_optional.mp hmem
      obtain ⟨rfl, rfl⟩ := eq_of_lesson_id hs h h' (hid ▸ lessonId_of_lessonItem hitem)
      exact ⟨item, hitem⟩
    · rintro ⟨item, hitem⟩
      exact ⟨item, mem_required_or_optional.mpr ⟨m, lesson, h, hitem⟩,
        lessonId_of_lessonItem hitem⟩
  rw [hitem, lessonItem_eq_some_iff]
  constructor
  · rintro (⟨-, hle⟩ | ⟨hlt, -⟩)
    · exact hle
    · exact hlt.le.trans hweek
  · intro hle
    by_cases hstart : plan.weekStart ≤ plan.lessonUnlockOn m lesson
    · exact .inl ⟨hstart, hle⟩
    · exact .inr ⟨not_le.mp hstart, hopen, havailable⟩

/-- A lesson that unlocks later does so on the date of the schedule exactly if its availability
is not fixed. -/
theorem unlocks_iff (hs : CurriculumSchema plan.db) (h : (m, lesson) ∈ plan.lessons)
    (hlater : plan.today < plan.lessonUnlockOn m lesson) :
    (∀ day, plan.today ≤ day → (plan.availableOn m lesson day = true ↔
        plan.lessonUnlockOn m lesson ≤ day)) ↔
      plan.fixedAvailability lesson.id = none := by
  cases hfixed : plan.fixedAvailability lesson.id with
  | none => simp [availableOn_eq hs h, hfixed]
  | some fixed =>
    simp only [availableOn_eq hs h, hfixed, Option.getD_some, reduceCtorEq, iff_false]
    intro hdays
    have htoday := hdays plan.today le_rfl
    have hdate := hdays (plan.lessonUnlockOn m lesson) hlater.le
    exact absurd (htoday.mp (hdate.mpr le_rfl)) (not_le.mpr hlater)

/-- The plan is consistent exactly if the lessons whose availability an assignment fixes fit. -/
theorem weekly_plan_consistent_iff (plan : WeeklyPlanProjection) (hs : CurriculumSchema plan.db) :
    plan.Consistent ↔ ∀ m lesson, (m, lesson) ∈ plan.lessons → plan.FixedFits m lesson := by
  have hmem : ∀ {m lesson}, (m, lesson) ∈ plan.lessons →
      m ∈ plan.assignedModules ∧ lesson ∈ plan.db.lessons ∧ lesson.moduleId = m.id := by
    intro m lesson h
    obtain ⟨-, hlesson, hmodule, -⟩ := of_mem_lessons h
    exact ⟨(mem_lessons.mp h).1, hlesson, hmodule⟩
  constructor
  · intro hconsistent m lesson h fixed hfixed
    obtain ⟨hm, hlesson, hmodule⟩ := hmem h
    constructor
    · rintro rfl hopen
      have havailable : plan.availableOn m lesson plan.today = true := by
        rw [availableOn_eq hs h, hfixed, Option.getD_some]
      exact (listed_iff hs h havailable hopen).mp
        (hconsistent.listed m hm lesson hlesson hmodule havailable hopen)
    · intro hlater
      by_contra hfew
      obtain ⟨item, hitem⟩ : ∃ item, plan.unlockItem m lesson = some item := by
        simp [unlockItem, hlater]
      obtain ⟨-, hid, hdate, -⟩ := unlockItem_eq_some hitem
      have hunlock := hconsistent.unlocks item
        ((mem_upcomingUnlocks hs).mpr ⟨m, lesson, h, hitem, not_le.mp hfew⟩) m hm lesson hlesson
        hmodule hid.symm
      rw [hdate, unlocks_iff hs h hlater, hfixed] at hunlock
      cases hunlock
  · intro hfits
    have hunlocks : ∀ item ∈ plan.weeklyPlan.upcomingUnlocks, ∀ m ∈ plan.assignedModules,
        ∀ lesson ∈ plan.db.lessons, lesson.moduleId = m.id → lesson.id = item.lessonId →
        plan.today < item.unlocksOn ∧ ∀ day, plan.today ≤ day →
          (plan.availableOn m lesson day = true ↔ item.unlocksOn ≤ day) := by
      intro item hitem m hm lesson hlesson hmodule hid
      obtain ⟨m', lesson', h, hitem, hfew⟩ := (mem_upcomingUnlocks hs).mp hitem
      obtain ⟨hlater, hid', hdate, -⟩ := unlockItem_eq_some hitem
      obtain ⟨hm', hlesson', hmodule', -⟩ := of_mem_lessons h
      obtain rfl := hs.lessons.eq_of_key hlesson hlesson' (hid.trans hid')
      obtain rfl := hs.modules.eq_of_key (assignedModules_subset hm) hm'
        (hmodule.symm.trans hmodule')
      rw [hdate]
      refine ⟨hlater, (unlocks_iff hs h hlater).mpr ?_⟩
      cases hfixed : plan.fixedAvailability lesson.id with
      | none => rfl
      | some fixed => exact absurd ((hfits m lesson h fixed hfixed).2 hlater) (not_le.mpr hfew)
    refine ⟨?_, ?_, ?_⟩
    · intro m hm lesson hlesson hmodule havailable hopen
      have h : (m, lesson) ∈ plan.lessons :=
        mem_lessons.mpr ⟨hm, mem_lessonsOf.mpr ⟨hlesson, hmodule, active_of_availableOn havailable⟩⟩
      refine (listed_iff hs h havailable hopen).mpr ?_
      rw [availableOn_eq hs h] at havailable
      cases hfixed : plan.fixedAvailability lesson.id with
      | none =>
        rw [hfixed, Option.getD_none, decide_eq_true_eq] at havailable
        exact havailable.trans plan.today_le_weekEnd
      | some fixed =>
        rw [hfixed, Option.getD_some] at havailable
        exact (hfits m lesson h fixed hfixed).1 havailable hopen
    · intro item hitem m hm lesson hlesson hmodule hid
      obtain ⟨hlater, hdays⟩ := hunlocks item hitem m hm lesson hlesson hmodule hid
      rw [Bool.eq_false_iff, ne_eq, hdays plan.today le_rfl]
      exact not_le.mpr hlater
    · intro item hitem m hm lesson hlesson hmodule hid
      exact (hunlocks item hitem m hm lesson hlesson hmodule hid).2

namespace WeeklyPlanExample

/-- A cohort that starts on Monday 1970-01-05 with lessons on Monday, Wednesday and the Monday
after. -/
def db (lessonAssignments : List LessonAssignment) : Database where
  curricula := [{ id := 1 }]
  modules := [{ id := 2, curriculumId := 1 }]
  lessons := [{ id := 3, moduleId := 2 }, { id := 4, moduleId := 2, releaseDay := 2 },
    { id := 5, moduleId := 2, releaseDay := 7 }]
  cohorts := [{ id := 6, curriculumId := 1, startDate := epochDate + 4 }]
  enrollments := [{ id := 8, userId := 7, cohortId := 6 }]
  moduleAssignments := [{ id := 9, enrollmentId := 8, moduleId := 2 }]
  lessonAssignments
  nextId := 20

def onTuesday (lessonAssignments : List LessonAssignment) : WeeklyPlanProjection where
  db := db lessonAssignments
  columns _ := {}
  user := { id := 7 }
  now := (5 * 24 + 2) * microsecondsPerHour
  enrollment := { id := 8, userId := 7, cohortId := 6 }
  cohort := { id := 6, curriculumId := 1, startDate := epochDate + 4 }

/-- Monday's lesson is open and the one on Wednesday is to be unlocked on Thursday. -/
def dated : List LessonAssignment :=
  [{ id := 10, enrollmentId := 8, lessonId := 3, unlocked := true },
    { id := 11, enrollmentId := 8, lessonId := 4, unlockDateOverride := some (epochDate + 7) }]

theorem schema_dated : CurriculumSchema (db dated) where
  modules := ⟨by decide, by decide⟩
  lessons := ⟨by decide, by decide⟩
  cohorts := ⟨by decide, by decide⟩
  schedules := ⟨by decide, by decide⟩
  enrollments := ⟨by decide, by decide⟩
  moduleAssignments := ⟨⟨by decide, by decide⟩, by decide, by decide⟩
  lessonAssignments := ⟨⟨by decide, by decide⟩, by decide, by decide⟩
  contentBlocks := ⟨by decide, by decide⟩
  lessonModule := by decide
  releaseDays lesson hlesson m hm hmodule := by
    have hvalid : ∀ lesson ∈ (db dated).lessons, ∀ m ∈ (db dated).modules,
        0 ≤ lesson.releaseDay ∧ m.validReleaseDay? lesson.releaseDay = true := by decide
    exact ⟨(hvalid lesson hlesson m hm).1, fun _ => (hvalid lesson hlesson m hm).2⟩

theorem dated_assignments_consistent :
    (onTuesday dated).Consistent ∧
      (onTuesday dated).weeklyPlan.required.map (·.lessonId) = [3, 4] ∧
      (onTuesday dated).weeklyPlan.upcomingUnlocks.map (·.lessonId) = [4, 5] := by
  refine ⟨(weekly_plan_consistent_iff (onTuesday dated) schema_dated).mpr ?_, by decide +kernel,
    by decide +kernel⟩
  have hfits : ∀ pair ∈ (onTuesday dated).lessons,
      (onTuesday dated).fixedAvailability pair.2.id = none ∨
        (onTuesday dated).lessonUnlockOn pair.1 pair.2 ≤ (onTuesday dated).today := by
    decide +kernel
  intro m lesson h fixed hfixed
  rcases hfits (m, lesson) h with hnone | hle
  · cases hnone ▸ hfixed
  · exact ⟨fun _ _ => hle.trans (today_le_weekEnd _), fun hlater => absurd hle (not_le.mpr hlater)⟩

/-- The lesson of next Monday is open already, but it is listed as the next unlock and not among
the lessons of the week. -/
theorem open_lesson_listed_as_unlock :
    let plan := onTuesday [{ id := 10, enrollmentId := 8, lessonId := 5, unlocked := true }]
    plan.availableOn { id := 2, curriculumId := 1 } { id := 5, moduleId := 2, releaseDay := 7 }
        plan.today = true ∧
      (plan.weeklyPlan.required ++ plan.weeklyPlan.optional).map (·.lessonId) = [3, 4] ∧
      plan.weeklyPlan.upcomingUnlocks.map (fun item => (item.lessonId, item.unlocksOn)) =
        [(4, epochDate + 6), (5, epochDate + 11)] := by
  decide +kernel

end WeeklyPlanExample

end WeeklyPlanProjection

end LearningPlatform
