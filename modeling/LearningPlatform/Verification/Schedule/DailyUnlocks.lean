import LearningPlatform.Model.DailyUnlocks
import LearningPlatform.Verification.Schedule.Calendar

/-! # Lessons that the daily task announces

The task compares unlock dates with the date in UTC and does not look at lesson assignments. What
it lists is compared with the lessons that become available on the learning date. -/

namespace LearningPlatform

/-! ## The day on which a lesson becomes available -/

section Opening

variable (db : Database) (lesson : Lesson) (m : CurriculumModule) (cohort : Cohort)
  (assignment : ModuleAssignment) (lessonAssignment : Option LessonAssignment)

/-- The day on which the schedule makes a lesson available. -/
def Database.scheduledDay : Date :=
  if assignment.unlocked then db.unlockDate lesson m cohort (some assignment)
  else max (db.effectiveStartDate assignment m cohort)
    (db.unlockDate lesson m cohort (some assignment))

/-- The day on which a lesson becomes available, if its availability ever changes. -/
def Database.openingDay : Option Date :=
  match lessonAssignment with
  | some lessonAssignment => lessonAssignment.unlockDateOverride
  | none => some (db.scheduledDay lesson m cohort assignment)

/-- Available on a day and not on the day before. -/
def Database.BecomesAvailable (on : Date) : Prop :=
  db.available? lesson m cohort (some assignment) lessonAssignment on = true ∧
    db.available? lesson m cohort (some assignment) lessonAssignment (on - 1) = false

instance (on : Date) : Decidable
    (db.BecomesAvailable lesson m cohort assignment lessonAssignment on) :=
  inferInstanceAs (Decidable (_ ∧ _))

variable {db lesson m cohort assignment lessonAssignment}

theorem scheduledDay_le_iff {on : Date} :
    db.scheduledDay lesson m cohort assignment ≤ on ↔
      db.accessible? assignment m cohort on = true ∧
        db.unlockDate lesson m cohort (some assignment) ≤ on := by
  unfold Database.scheduledDay Database.accessible?
  by_cases hunlocked : assignment.unlocked = true
  · simp [hunlocked]
  · simp [hunlocked]

theorem le_and_not_le_pred_iff (first on : ℤ) : first ≤ on ∧ ¬ first ≤ on - 1 ↔ first = on := by
  omega

theorem becomesAvailable_iff (hactive : lesson.archived? = false) {on : Date} :
    db.BecomesAvailable lesson m cohort assignment lessonAssignment on ↔
      db.openingDay lesson m cohort assignment lessonAssignment = some on := by
  have hscheduled : ∀ day : Date, (if db.accessible? assignment m cohort day then
      decide (db.unlockDate lesson m cohort (some assignment) ≤ day) else false) =
        decide (db.scheduledDay lesson m cohort assignment ≤ day) := by
    intro day
    rw [Bool.eq_iff_iff, decide_eq_true_eq, scheduledDay_le_iff]
    by_cases hday : db.accessible? assignment m cohort day = true
    · simp [hday]
    · simp [hday]
  unfold Database.BecomesAvailable Database.available? Database.openingDay
  simp only [hactive, Bool.false_eq_true, if_false]
  cases lessonAssignment with
  | none =>
    simp only [hscheduled, decide_eq_true_eq, decide_eq_false_iff_not, Option.some.injEq]
    exact le_and_not_le_pred_iff _ _
  | some lessonAssignment =>
    cases hdate : lessonAssignment.unlockDateOverride with
    | none => cases hunlocked : lessonAssignment.unlocked <;> simp [hdate, hunlocked]
    | some date =>
      simp only [hdate, decide_eq_true_eq, decide_eq_false_iff_not, Option.some.injEq]
      exact le_and_not_le_pred_iff _ _

end Opening

/-! ## Lessons of assigned modules -/

/-- A module that the student is assigned to, with one of its active lessons. -/
structure Database.Offers (db : Database) (enrollment : Enrollment)
    (assignment : ModuleAssignment) (m : CurriculumModule) (lesson : Lesson) : Prop where
  assigned : assignment ∈ db.moduleAssignmentsOf enrollment
  module : db.module? assignment.moduleId = some m
  lesson : lesson ∈ db.lessonsOf m

/-- The offered lessons that meet a condition, module by module. -/
def Database.lessonsWhere (db : Database) (enrollment : Enrollment)
    (p : ModuleAssignment → CurriculumModule → Lesson → Bool) : List Lesson :=
  (db.moduleAssignmentsOf enrollment).flatMap fun assignment =>
    match db.module? assignment.moduleId with
    | none => []
    | some m => (db.lessonsOf m).filter (p assignment m)

section Offered

variable {db : Database} {enrollment : Enrollment} {assignment other : ModuleAssignment}
  {m m' : CurriculumModule} {lesson : Lesson}
  {p q : ModuleAssignment → CurriculumModule → Lesson → Bool}

theorem mem_lessonsWhere : lesson ∈ db.lessonsWhere enrollment p ↔
    ∃ assignment m, db.Offers enrollment assignment m lesson ∧ p assignment m lesson = true := by
  unfold Database.lessonsWhere
  rw [List.mem_flatMap]
  constructor
  · rintro ⟨assignment, hassigned, hlesson⟩
    cases hmodule : db.module? assignment.moduleId with
    | none => simp [hmodule] at hlesson
    | some m =>
      rw [hmodule] at hlesson
      obtain ⟨hlesson, hp⟩ := List.mem_filter.mp hlesson
      exact ⟨assignment, m, ⟨hassigned, hmodule, hlesson⟩, hp⟩
  · rintro ⟨assignment, m, hoffers, hp⟩
    refine ⟨assignment, hoffers.assigned, ?_⟩
    rw [hoffers.module]
    exact List.mem_filter.mpr ⟨hoffers.lesson, hp⟩

/-- The unique index of the module assignments. -/
def Database.AssignmentsUnique (db : Database) : Prop :=
  ∀ first ∈ db.moduleAssignments, ∀ second ∈ db.moduleAssignments,
    first.enrollmentId = second.enrollmentId → first.moduleId = second.moduleId → first = second

theorem Database.Offers.moduleId (h : db.Offers enrollment assignment m lesson) :
    assignment.moduleId = lesson.moduleId := by
  have hid : m.id = assignment.moduleId := by simpa using List.find?_some h.module
  rw [← hid, (mem_lessonsOf.mp h.lesson).2.1]

theorem Database.Offers.unique (hunique : db.AssignmentsUnique)
    (h : db.Offers enrollment assignment m lesson) (h' : db.Offers enrollment other m' lesson) :
    assignment = other ∧ m = m' := by
  obtain ⟨hmem, howner⟩ := List.mem_filter.mp h.assigned
  obtain ⟨hmem', howner'⟩ := List.mem_filter.mp h'.assigned
  have hsame : assignment = other := by
    refine hunique assignment hmem other hmem' ?_ (h.moduleId.trans h'.moduleId.symm)
    exact (beq_iff_eq.mp howner).trans (beq_iff_eq.mp howner').symm
  subst hsame
  exact ⟨rfl, Option.some.inj (h.module.symm.trans h'.module)⟩

theorem mem_lessonsWhere_of_offers (hunique : db.AssignmentsUnique)
    (h : db.Offers enrollment assignment m lesson) :
    lesson ∈ db.lessonsWhere enrollment p ↔ p assignment m lesson = true := by
  rw [mem_lessonsWhere]
  constructor
  · rintro ⟨assignment', m', hoffers, hp⟩
    obtain ⟨rfl, rfl⟩ := h.unique hunique hoffers
    exact hp
  · intro hp
    exact ⟨assignment, m, h, hp⟩

/-- Two selections are the same list exactly if they agree on every offered lesson. -/
theorem lessonsWhere_eq_iff (hunique : db.AssignmentsUnique) :
    db.lessonsWhere enrollment p = db.lessonsWhere enrollment q ↔
      ∀ assignment m lesson, db.Offers enrollment assignment m lesson →
        (p assignment m lesson = true ↔ q assignment m lesson = true) := by
  constructor
  · intro h assignment m lesson hoffers
    rw [← mem_lessonsWhere_of_offers hunique hoffers, h,
      mem_lessonsWhere_of_offers hunique hoffers]
  · intro h
    unfold Database.lessonsWhere
    apply List.flatMap_congr
    intro assignment hassigned
    cases hmodule : db.module? assignment.moduleId with
    | none => rfl
    | some m =>
      apply List.filter_congr
      intro lesson hlesson
      exact Bool.eq_iff_iff.mpr (h assignment m lesson ⟨hassigned, hmodule, hlesson⟩)

end Offered

/-! ## The task -/

section Task

variable (db : Database) (cohort : Cohort) (enrollment : Enrollment) (now : Time)

/-- The lessons that the task lists for a student. -/
def Database.announced : List Lesson :=
  db.lessonsUnlockingTodayFor cohort enrollment (dateCurrent now) now

/-- The notices of the task are the lists that are not empty. -/
theorem mem_sendDailyUnlocks (active : Cohort → Bool) {notice : UnlockNotice} :
    notice ∈ db.sendDailyUnlocks active now ↔
      ∃ cohort ∈ db.cohorts, active cohort = true ∧ ∃ enrollment ∈ db.enrollments,
        enrollment.cohortId = cohort.id ∧ enrollment.status = .active ∧
        db.announced cohort enrollment now ≠ [] ∧
        notice = ⟨enrollment.userId, cohort.id, db.announced cohort enrollment now⟩ := by
  simp only [Database.sendDailyUnlocks, List.mem_flatMap, List.mem_filterMap, List.mem_filter,
    Bool.and_eq_true, beq_iff_eq, and_assoc]
  refine exists_congr fun cohort => and_congr_right fun _ => and_congr_right fun _ =>
    exists_congr fun enrollment => and_congr_right fun _ => and_congr_right fun _ =>
      and_congr_right fun _ => ?_
  unfold Database.announced
  cases db.lessonsUnlockingTodayFor cohort enrollment (dateCurrent now) now <;> simp [eq_comm]

/-- The active lessons of assigned modules that become available on the learning date. -/
def Database.lessonsBecomingAvailable : List Lesson :=
  db.lessonsWhere enrollment fun assignment m lesson =>
    decide (db.BecomesAvailable lesson m cohort assignment
      (db.lessonAssignmentFor enrollment lesson.id) (LearningCalendar.today now))

/-- How the dates of a lesson lie to the date in UTC and to the learning date: it opens on the
learning date exactly if the schedule unlocks it on the date in UTC. -/
def Database.DatesFit (assignment : ModuleAssignment) (m : CurriculumModule) (lesson : Lesson) :
    Prop :=
  db.openingDay lesson m cohort assignment (db.lessonAssignmentFor enrollment lesson.id) =
      some (LearningCalendar.today now) ↔
    db.unlockDate lesson m cohort (some assignment) = dateCurrent now ∧
      (assignment.unlocked = true ∨
        db.effectiveStartDate assignment m cohort ≤ LearningCalendar.today now)

variable {db cohort enrollment now}

theorem announced_eq_lessonsWhere :
    db.announced cohort enrollment now = db.lessonsWhere enrollment fun assignment m lesson =>
      db.accessible? assignment m cohort (LearningCalendar.today now) &&
        db.unlockDate lesson m cohort (some assignment) == dateCurrent now := by
  unfold Database.announced Database.lessonsUnlockingTodayFor Database.lessonsWhere
  apply List.flatMap_congr
  intro assignment _
  cases db.module? assignment.moduleId with
  | none => rfl
  | some m =>
    by_cases haccessible :
        db.accessible? assignment m cohort (LearningCalendar.today now) = true
    · simp [haccessible]
    · simp [haccessible]

theorem announced_eq_iff (hunique : db.AssignmentsUnique) :
    db.announced cohort enrollment now = db.lessonsBecomingAvailable cohort enrollment now ↔
      ∀ assignment m lesson, db.Offers enrollment assignment m lesson →
        db.DatesFit cohort enrollment now assignment m lesson := by
  rw [announced_eq_lessonsWhere, Database.lessonsBecomingAvailable, lessonsWhere_eq_iff hunique]
  apply forall_congr'
  intro assignment
  apply forall_congr'
  intro m
  apply forall_congr'
  intro lesson
  apply forall_congr'
  intro hoffers
  have hactive := (mem_lessonsOf.mp hoffers.lesson).2.2
  rw [Database.DatesFit, decide_eq_true_eq, becomesAvailable_iff hactive, Bool.and_eq_true,
    beq_iff_eq, Database.accessible?, Bool.or_eq_true, decide_eq_true_eq, and_comm]
  exact Iff.comm

/-- The dates fit while the date in UTC is the learning date, for a lesson without an assignment of
its own that is not released before its module. -/
theorem datesFit_of_same_date {assignment : ModuleAssignment} {m : CurriculumModule}
    {lesson : Lesson} (hdate : dateCurrent now = LearningCalendar.today now)
    (hnone : db.lessonAssignmentFor enrollment lesson.id = none)
    (hstart : assignment.unlocked = true ∨ db.effectiveStartDate assignment m cohort ≤
      db.unlockDate lesson m cohort (some assignment)) :
    db.DatesFit cohort enrollment now assignment m lesson := by
  rw [Database.DatesFit, hnone, hdate, Database.openingDay, Option.some.injEq,
    Database.scheduledDay]
  by_cases hunlocked : assignment.unlocked = true
  · simp [hunlocked]
  · have hle := hstart.resolve_left hunlocked
    rw [if_neg hunlocked, max_eq_right hle]
    constructor
    · intro hday
      exact ⟨hday, .inr (hday ▸ hle)⟩
    · exact fun h => h.1

end Task

/-- What the task lists is what becomes available on the learning date exactly if the dates of every
offered lesson fit. If they fit on every learning day, one run a day announces a lesson once, on the
day it becomes available. They fit while the date in UTC is the learning date, for a lesson without
an assignment of its own that is not released before its module. -/
theorem daily_unlocks_exact_iff {db : Database} (hunique : db.AssignmentsUnique) (cohort : Cohort)
    (enrollment : Enrollment) :
    (∀ now, db.announced cohort enrollment now =
        db.lessonsBecomingAvailable cohort enrollment now ↔
      ∀ assignment m lesson, db.Offers enrollment assignment m lesson →
        db.DatesFit cohort enrollment now assignment m lesson) ∧
    (∀ now assignment m lesson, dateCurrent now = LearningCalendar.today now →
      db.lessonAssignmentFor enrollment lesson.id = none →
      assignment.unlocked = true ∨ db.effectiveStartDate assignment m cohort ≤
        db.unlockDate lesson m cohort (some assignment) →
      db.DatesFit cohort enrollment now assignment m lesson) ∧
    ∀ (first : Date) (runAt : Date → Time),
      (∀ day, first ≤ day → LearningCalendar.today (runAt day) = day) →
      (∀ day, first ≤ day → ∀ assignment m lesson, db.Offers enrollment assignment m lesson →
        db.DatesFit cohort enrollment (runAt day) assignment m lesson) →
      ∀ assignment m lesson, db.Offers enrollment assignment m lesson →
        ∀ day, first ≤ day → db.BecomesAvailable lesson m cohort assignment
            (db.lessonAssignmentFor enrollment lesson.id) day →
          ∀ run, first ≤ run →
            (lesson ∈ db.announced cohort enrollment (runAt run) ↔ run = day) := by
  refine ⟨fun now => announced_eq_iff hunique,
    fun now assignment m lesson => datesFit_of_same_date, ?_⟩
  intro first runAt htoday hfit assignment m lesson hoffers day _ hday run hrun
  have hactive := (mem_lessonsOf.mp hoffers.lesson).2.2
  rw [(announced_eq_iff hunique).mpr (hfit run hrun), Database.lessonsBecomingAvailable,
    mem_lessonsWhere_of_offers hunique hoffers, decide_eq_true_eq, htoday run hrun,
    becomesAvailable_iff hactive]
  rw [becomesAvailable_iff hactive] at hday
  rw [hday, Option.some.injEq]
  exact eq_comm

/-! ## A module of two lessons -/

namespace DailyUnlocksExample

def cohort : Cohort where
  id := 5
  curriculumId := 1
  startDate := epochDate

def enrollment : Enrollment where
  id := 7
  userId := 1
  cohortId := 5

def curriculumModule : CurriculumModule where
  id := 3
  curriculumId := 1

def assignment : ModuleAssignment where
  id := 8
  enrollmentId := 7
  moduleId := 3
  unlocked := false

def lesson (day : ℕ) : Lesson where
  id := 10 + day
  moduleId := 3
  releaseDay := day

def db (lessonAssignments : List LessonAssignment) : Database where
  modules := [curriculumModule]
  lessons := [lesson 0, lesson 1]
  cohorts := [cohort]
  enrollments := [enrollment]
  moduleAssignments := [assignment]
  lessonAssignments

/-- One hour after midnight in UTC. -/
def morning (day : Date) : Time :=
  ((day - epochDate).toNat * 24 + 1) * microsecondsPerHour

theorem dates_morning {day : Date} (h : epochDate ≤ day) :
    dateCurrent (morning day) = day ∧ LearningCalendar.today (morning day) = day := by
  obtain ⟨n, rfl⟩ := Int.le.dest h
  have hpositive : 0 < microsecondsPerHour := by decide
  have hmorning : morning (epochDate + n) = (n * 24 + 1) * microsecondsPerHour := by
    rw [morning, Int.add_comm, Int.add_sub_cancel, Int.toNat_natCast]
  rw [dateCurrent, LearningCalendar.today, hmorning, ← Nat.add_mul,
    Nat.mul_div_mul_right _ _ hpositive, Nat.mul_div_mul_right _ _ hpositive]
  constructor
  · rw [show (n * 24 + 1) / 24 = n by omega]
  · rw [show (n * 24 + 1 + 10) / 24 = n by omega]

theorem offers_iff {a : ModuleAssignment} {m : CurriculumModule} {l : Lesson}
    (h : (db []).Offers enrollment a m l) :
    a = assignment ∧ m = curriculumModule ∧ (l = lesson 0 ∨ l = lesson 1) := by
  obtain ⟨ha, hm, hl⟩ := h
  obtain rfl : a = assignment := List.mem_singleton.mp ha
  obtain rfl : m = curriculumModule := (Option.some.inj hm).symm
  refine ⟨rfl, rfl, ?_⟩
  have hl := (mem_lessonsOf.mp hl).1
  simpa [db] using hl

/-- The second lesson is announced on the second day, and not on the first. -/
theorem second_lesson_announced_once :
    lesson 1 ∈ (db []).announced cohort enrollment (morning (epochDate + 1)) ∧
      lesson 1 ∉ (db []).announced cohort enrollment (morning epochDate) := by
  have honce : ∀ run, epochDate ≤ run →
      (lesson 1 ∈ (db []).announced cohort enrollment (morning run) ↔ run = epochDate + 1) := by
    refine (daily_unlocks_exact_iff (by unfold Database.AssignmentsUnique; decide) cohort
      enrollment).2.2 epochDate morning (fun day hday => (dates_morning hday).2) ?_ assignment
      curriculumModule (lesson 1) ⟨by decide, by decide, by decide⟩ (epochDate + 1) (by decide)
      (by decide)
    intro day hday a m l hoffers
    obtain ⟨hdate, htoday⟩ := dates_morning hday
    obtain ⟨rfl, rfl, hl⟩ := offers_iff hoffers
    refine datesFit_of_same_date (hdate.trans htoday.symm) ?_ (.inr ?_)
    · rcases hl with rfl | rfl <;> rfl
    · rcases hl with rfl | rfl <;> decide
  refine ⟨(honce _ (by decide)).mpr rfl, ?_⟩
  intro hfirst
  exact absurd ((honce epochDate le_rfl).mp hfirst) (by decide)

/-- In the afternoon (UTC) the next learning day has begun, and the task still lists the lesson of
the day before. A lesson assignment that opens the first lesson a week later is not looked at. -/
theorem announced_on_other_days :
    (db []).announced cohort enrollment (15 * microsecondsPerHour) = [lesson 0] ∧
      (db []).lessonsBecomingAvailable cohort enrollment (15 * microsecondsPerHour) =
        [lesson 1] ∧
      (db [⟨20, 7, 10, false, some (epochDate + 7), 0, 0⟩]).announced cohort enrollment
        (morning epochDate) = [lesson 0] ∧
      (db [⟨20, 7, 10, false, some (epochDate + 7), 0, 0⟩]).lessonsBecomingAvailable cohort
        enrollment (morning epochDate) = [] := by
  decide

end DailyUnlocksExample

end LearningPlatform
