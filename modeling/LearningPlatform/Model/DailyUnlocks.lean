import LearningPlatform.Model.Access
import Mathlib.Algebra.Group.Nat.Defs

/-! # The daily unlock task

`notifications:send_daily_unlocks` and `LearningCalendar`. -/

namespace LearningPlatform

/-! ## Dates of an instant -/

def microsecondsPerHour : Time :=
  60 * 60 * 10 ^ 6

/-- The Julian day of 1 January 1970. -/
def epochDate : Date :=
  2440588

/-- `Date.current`: no `config.time_zone` is set, so that it is the date in UTC. -/
def dateCurrent (now : Time) : Date :=
  epochDate + (now / (24 * microsecondsPerHour) : ℕ)

/-- `LearningCalendar.today`: `Pacific/Guam` has been ten hours ahead of UTC since 1977. -/
def LearningCalendar.today (now : Time) : Date :=
  epochDate + ((now + 10 * microsecondsPerHour) / (24 * microsecondsPerHour) : ℕ)

/-! ## The task -/

def Database.moduleAssignmentsOf (db : Database) (enrollment : Enrollment) :
    List ModuleAssignment :=
  db.moduleAssignments.filter (·.enrollmentId == enrollment.id)

/-- `lessons_unlocking_today_for`; `accessible?` is asked without a date. -/
def Database.lessonsUnlockingTodayFor (db : Database) (cohort : Cohort) (enrollment : Enrollment)
    (today : Date) (now : Time) : List Lesson :=
  (db.moduleAssignmentsOf enrollment).flatMap fun assignment =>
    match db.module? assignment.moduleId with
    | none => []
    | some m =>
      if db.accessible? assignment m cohort (LearningCalendar.today now) then
        (db.lessonsOf m).filter fun lesson =>
          db.unlockDate lesson m cohort (some assignment) == today
      else []

structure UnlockNotice where
  userId : ℕ
  cohortId : ℕ
  lessons : List Lesson
  deriving DecidableEq, Repr

/-- `send_daily_unlocks`: the mails to the active enrollments of active cohorts. -/
def Database.sendDailyUnlocks (db : Database) (active : Cohort → Bool) (now : Time) :
    List UnlockNotice :=
  (db.cohorts.filter active).flatMap fun cohort =>
    (db.enrollments.filter fun enrollment =>
        enrollment.cohortId == cohort.id && enrollment.status == .active).filterMap
      fun enrollment =>
        match db.lessonsUnlockingTodayFor cohort enrollment (dateCurrent now) now with
        | [] => none
        | lessons => some { userId := enrollment.userId, cohortId := cohort.id, lessons }

end LearningPlatform
