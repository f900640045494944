import LearningPlatform.Model.Database
import Mathlib.Data.List.Sort

/-! # Module schedules, unlock dates and submission windows

`CurriculumModule`, `Lesson`, `ModuleAssignment` and `SubmissionWindowStatus`. An
association such as `lesson.curriculum_module` is passed as an argument. -/

namespace LearningPlatform

/-! ## Days of the week -/

/-- `Date#wday`, with Sunday as 0: Julian day 0 is a Monday. -/
def wday (date : Date) : ℤ :=
  (date + 1) % 7

/-- `(date.wday + 6) % 7`, with Monday as 0. -/
def weekdayIndex (date : Date) : ℤ :=
  (wday date + 6) % 7

def dayNames : List String :=
  ["Monday", "Tuesday", "Wednesday", "Thursday", "Friday", "Saturday", "Sunday"]

/-! ## Module schedules -/

/-- `SCHEDULE_PATTERNS`. -/
def ScheduleDays.pattern : ScheduleDays → List ℤ
  | .weekdays => [0, 1, 2, 3, 4]
  | .weekdaysSat => [0, 1, 2, 3, 4, 5]
  | .mwf => [0, 2, 4]
  | .tth => [1, 3]
  | .daily => [0, 1, 2, 3, 4, 5, 6]

/-- The pattern named by a parameter; other texts are not included in the list. -/
def ScheduleDays.ofString? : String → Option ScheduleDays
  | "weekdays" => some .weekdays
  | "weekdays_sat" => some .weekdaysSat
  | "mwf" => some .mwf
  | "tth" => some .tth
  | "daily" => some .daily
  | _ => none

namespace CurriculumModule

variable (m : CurriculumModule)

def scheduledWeekdayIndices : List ℤ :=
  m.scheduleDays.pattern

def firstScheduledDayIndex : ℤ :=
  m.scheduledWeekdayIndices.min?.getD 0

def validReleaseDay? (releaseDay : ℤ) : Bool :=
  m.scheduledWeekdayIndices.contains (releaseDay % 7)

def calendarOffsetFor (releaseDay : ℤ) : ℤ :=
  releaseDay - m.firstScheduledDayIndex

def nextStartDateOnOrAfter (date : Date) : Date :=
  date + (m.firstScheduledDayIndex - weekdayIndex date) % 7

def legacyStartDateFor (cohort : Cohort) : Date :=
  cohort.startDate + m.dayOffset + m.firstScheduledDayIndex

end CurriculumModule

/-! ## Lessons of a module -/

def Lesson.archived? (lesson : Lesson) : Bool :=
  lesson.archivedAt.isSome

/-- The order `(release_day, position, id)`. -/
def Lesson.precedes (first second : Lesson) : Prop :=
  first.releaseDay < second.releaseDay ∨ (first.releaseDay = second.releaseDay ∧
    (first.position < second.position ∨
      (first.position = second.position ∧ first.id ≤ second.id)))

instance : DecidableRel Lesson.precedes :=
  fun _ _ => inferInstanceAs (Decidable (_ ∨ _))

variable (db : Database)

def Database.allLessonsOf (m : CurriculumModule) : List Lesson :=
  (db.lessons.filter (·.moduleId == m.id)).insertionSort Lesson.precedes

/-- `curriculum_module.lessons`, without the archived ones. -/
def Database.lessonsOf (m : CurriculumModule) : List Lesson :=
  (db.lessons.filter fun lesson => lesson.moduleId == m.id && !lesson.archived?)
    |>.insertionSort Lesson.precedes

def Database.weekCount (m : CurriculumModule) : ℤ :=
  ((db.lessonsOf m).map (·.releaseDay)).max?.getD 0 / 7 + 1

/-! ## Start and unlock dates -/

def Database.moduleScheduleFor (cohort : Cohort) (m : CurriculumModule) :
    Option CohortModuleSchedule :=
  db.cohortModuleSchedules.find? fun schedule =>
    schedule.cohortId == cohort.id && schedule.moduleId == m.id

def Database.startDateFor (m : CurriculumModule) (cohort : Cohort) : Date :=
  match db.moduleScheduleFor cohort m with
  | some schedule => schedule.startDate
  | none => m.legacyStartDateFor cohort

def Database.effectiveStartDate (assignment : ModuleAssignment) (m : CurriculumModule)
    (cohort : Cohort) : Date :=
  match assignment.unlockDateOverride with
  | some date => date
  | none => db.startDateFor m cohort

def Database.accessible? (assignment : ModuleAssignment) (m : CurriculumModule) (cohort : Cohort)
    (on : Date) : Bool :=
  assignment.unlocked || decide (db.effectiveStartDate assignment m cohort ≤ on)

def Database.unlockDate (lesson : Lesson) (m : CurriculumModule) (cohort : Cohort)
    (assignment : Option ModuleAssignment) : Date :=
  let baseDate :=
    match assignment with
    | some assignment => db.effectiveStartDate assignment m cohort
    | none => db.startDateFor m cohort
  baseDate + m.calendarOffsetFor lesson.releaseDay

def Database.available? (db : Database) (lesson : Lesson) (m : CurriculumModule)
    (cohort : Cohort) (assignment : Option ModuleAssignment)
    (lessonAssignment : Option LessonAssignment) (on : Date) : Bool :=
  if lesson.archived? then false
  else
    match lessonAssignment with
    | some lessonAssignment =>
      match lessonAssignment.unlockDateOverride with
      | some date => decide (date ≤ on)
      | none => lessonAssignment.unlocked
    | none =>
      match assignment with
      | some assignment =>
        if db.accessible? assignment m cohort on then
          decide (db.unlockDate lesson m cohort (some assignment) ≤ on)
        else false
      | none => decide (db.unlockDate lesson m cohort none ≤ on)

/-! ## Submission windows -/

structure WeekStatus where
  weekNumber : ℤ
  submissionsCloseAt : Option Time
  submissionsClosed : Bool
  status : String
  deriving DecidableEq, Repr

structure WeekOverview extends WeekStatus where
  startsOn : Option Date
  endsOn : Option Date
  lessonsCount : ℕ
  deriving DecidableEq, Repr

def Database.submissionWindowFor (cohort : Cohort) (moduleId : ℕ) (weekNumber : ℤ) :
    Option CohortModuleSubmissionWindow :=
  db.submissionWindows.find? fun window =>
    window.cohortId == cohort.id && window.moduleId == moduleId && window.weekNumber == weekNumber

namespace SubmissionWindowStatus

def weekNumberForReleaseDay (releaseDay : ℤ) : ℤ :=
  releaseDay / 7 + 1

def buildStatus (weekNumber : ℤ) (window : Option CohortModuleSubmissionWindow) (now : Time) :
    WeekStatus :=
  match window.bind (·.submissionsCloseAt) with
  | none =>
    { weekNumber, submissionsCloseAt := none, submissionsClosed := false, status := "open" }
  | some closeAt =>
    { weekNumber
      submissionsCloseAt := some closeAt
      submissionsClosed := decide (closeAt ≤ now)
      status := if closeAt ≤ now then "closed" else "scheduled" }

def forLesson (db : Database) (cohort : Cohort) (lesson : Lesson) (now : Time) : WeekStatus :=
  let weekNumber := weekNumberForReleaseDay lesson.releaseDay
  buildStatus weekNumber (db.submissionWindowFor cohort lesson.moduleId weekNumber) now

def lessonsCountForWeek (db : Database) (m : CurriculumModule) (weekNumber : ℤ) : ℕ :=
  let lowerBound := (weekNumber - 1) * 7
  let upperBound := lowerBound + 6
  (db.lessonsOf m).countP fun lesson =>
    decide (lowerBound ≤ lesson.releaseDay) && decide (lesson.releaseDay ≤ upperBound)

def forWeek (db : Database) (cohort : Cohort) (m : CurriculumModule) (weekNumber : ℤ)
    (moduleStartDate : Option Date) (now : Time) : WeekOverview :=
  let startsOn := moduleStartDate.map fun date => date + (weekNumber - 1) * 7
  { buildStatus weekNumber (db.submissionWindowFor cohort m.id weekNumber) now with
    startsOn
    endsOn := startsOn.map (· + 6)
    lessonsCount := lessonsCountForWeek db m weekNumber }

end SubmissionWindowStatus

end LearningPlatform
