import LearningPlatform.Shared.Window
import LearningPlatform.Shared.ZonedTime

/-! # Office hours

Sessions of a cohort that take place once or every week at the same local time, and the lists of
their next occurrences. Instants are microseconds since the epoch. Ruby computes the duration of a
session as a floating-point number of seconds; here it is exact. -/

namespace LearningPlatform

open Shared

abbrev Instant := ℤ

def microsecondsPerSecond : ℤ := 1000000

inductive Recurrence where
  | once
  | weekly
  deriving DecidableEq, Repr

inductive EventKind where
  | officeHours
  | liveClass
  deriving DecidableEq, Repr

structure OfficeHour where
  id : ℕ
  cohortId : ℕ
  title : String
  description : Option String := none
  startsAt : Instant
  endsAt : Instant
  meetingUrl : String
  timezone : String := "Pacific/Guam"
  recurrence : Recurrence := .once
  eventKind : EventKind := .officeHours
  active : Bool := true
  createdById : Option ℕ := none
  deriving DecidableEq, Repr

structure Occurrence where
  startsAt : Instant
  endsAt : Instant
  deriving DecidableEq, Repr

/-! ## Clock times -/

/-- `hour`, `min` and `sec` of a local time. -/
structure ClockTime where
  hour : ℤ
  min : ℤ
  sec : ℤ
  deriving DecidableEq, Repr

def clockTime (wall : ℤ) : ClockTime where
  hour := wall % 86400 / 3600
  min := wall % 3600 / 60
  sec := wall % 60

/-- `Time.utc(year, month, day, hour, min, sec)`. -/
def timeUtc (date : ℤ) (clock : ClockTime) : ℤ :=
  date * 86400 + clock.hour * 3600 + clock.min * 60 + clock.sec

namespace OfficeHour

variable (zone : Zone) (fuel : ℕ) (officeHour : OfficeHour)

/-- `duration_seconds`, in microseconds. -/
def duration : ℤ :=
  max (officeHour.endsAt - officeHour.startsAt) 0

def occurrenceFor (startTime : Instant) : Occurrence where
  startsAt := startTime
  endsAt := startTime + officeHour.duration

/-- The whole second of `starts_at`. -/
def anchorSecond : ℤ :=
  officeHour.startsAt / microsecondsPerSecond

/-- `anchor_local.to_date + week_offset.weeks` with the clock time of the anchor. -/
def localWallTime (weekOffset : ℕ) : ℤ :=
  timeUtc (zone.localDate officeHour.anchorSecond + 7 * weekOffset)
    (clockTime (zone.localSecond officeHour.anchorSecond))

/-- The period of a local time that occurs: one with the anchor's offset, else one that agrees
with the anchor on daylight saving, else the last. -/
def choosePeriod (periods : List ZonePeriod) : Option ZonePeriod :=
  let anchor := zone.periodForUtc officeHour.anchorSecond
  (periods.find? (·.utcTotalOffset == anchor.utcTotalOffset)).or
    ((periods.find? (·.dst == anchor.dst)).or periods.getLast?)

/-- `weekly_start_at`; `none` if the retries of `zone.local` do not suffice. -/
def weeklyStartAt (weekOffset : ℕ) : Option Instant := do
  let wall := officeHour.localWallTime zone weekOffset
  let periods := zone.periodsForLocal wall
  let second ←
    if periods.isEmpty then zone.atLocal fuel wall
    else (officeHour.choosePeriod zone periods).map fun period => wall - period.utcTotalOffset
  some (second * microsecondsPerSecond)

/-- The week from which `next_weekly_start` searches. -/
def searchWeek (fromTime : Instant) : ℕ :=
  if fromTime ≤ officeHour.startsAt then 0
  else
    ((zone.localDate (fromTime / microsecondsPerSecond) -
      zone.localDate officeHour.anchorSecond) / 7).toNat

/-- The loop of `next_weekly_start`. -/
def skipEnded (fromTime : Instant) : ℕ → ℕ → Instant → Option (ℕ × Instant)
  | 0, _, _ => none
  | rounds + 1, weekOffset, currentStart =>
    if currentStart + officeHour.duration < fromTime then do
      let nextStart ← officeHour.weeklyStartAt zone fuel (weekOffset + 1)
      skipEnded fromTime rounds (weekOffset + 1) nextStart
    else some (weekOffset, currentStart)

def nextWeeklyStart (fromTime : Instant) : Option (ℕ × Instant) := do
  let weekOffset := officeHour.searchWeek zone fromTime
  let currentStart ← officeHour.weeklyStartAt zone fuel weekOffset
  officeHour.skipEnded zone fuel fromTime fuel weekOffset currentStart

/-- The loop over `limit.times`, which also computes the start after the last occurrence. -/
def weeklyOccurrences : ℕ → ℕ → Instant → Option (List Occurrence)
  | 0, _, _ => some []
  | limit + 1, weekOffset, currentStart => do
    let nextStart ← officeHour.weeklyStartAt zone fuel (weekOffset + 1)
    let rest ← weeklyOccurrences limit (weekOffset + 1) nextStart
    some (officeHour.occurrenceFor currentStart :: rest)

/-- `upcoming_occurrences`; `none` if `fuel` rounds of its loops do not suffice. -/
def upcomingOccurrences (limit : ℕ) (fromTime : Instant) : Option (List Occurrence) :=
  if !officeHour.active then some []
  else
    match officeHour.recurrence with
    | .once =>
      if officeHour.endsAt < fromTime then some []
      else some ([officeHour.occurrenceFor officeHour.startsAt].take limit)
    | .weekly => do
      let (weekOffset, currentStart) ← officeHour.nextWeeklyStart zone fuel fromTime
      officeHour.weeklyOccurrences zone fuel limit weekOffset currentStart

end OfficeHour

/-! ## The serialized lists -/

structure OccurrenceJson where
  officeHourId : ℕ
  title : String
  description : Option String
  startsAt : Instant
  endsAt : Instant
  meetingUrl : String
  timezone : String
  recurrence : Recurrence
  eventKind : EventKind
  deriving DecidableEq, Repr

structure CreatorJson where
  id : ℕ
  fullName : String
  email : String
  deriving DecidableEq, Repr

structure OfficeHourJson where
  id : ℕ
  cohortId : ℕ
  title : String
  description : Option String
  startsAt : Instant
  endsAt : Instant
  meetingUrl : String
  timezone : String
  recurrence : Recurrence
  eventKind : EventKind
  active : Bool
  occurrences : List OccurrenceJson
  createdBy : Option CreatorJson
  deriving DecidableEq, Repr

structure CollectionJson where
  officeHours : List OfficeHourJson
  upcoming : List OccurrenceJson
  deriving DecidableEq, Repr

namespace OfficeHourSerializer

/-- `occurrences_by_office_hour`, in the order of insertion. Records are equal as keys of a hash
when their ids are, and the value stored last is the one found. -/
abbrev Expansion := List (OfficeHour × List Occurrence)

def fetch (occurrencesByOfficeHour : Expansion) (officeHour : OfficeHour) : List Occurrence :=
  ((occurrencesByOfficeHour.findRev? fun entry => entry.1.id == officeHour.id).map
    (·.2)).getD []

def occurrenceJson (officeHour : OfficeHour) (occurrence : Occurrence) : OccurrenceJson where
  officeHourId := officeHour.id
  title := officeHour.title
  description := officeHour.description
  startsAt := occurrence.startsAt
  endsAt := occurrence.endsAt
  meetingUrl := officeHour.meetingUrl
  timezone := officeHour.timezone
  recurrence := officeHour.recurrence
  eventKind := officeHour.eventKind

def asJson (users : ℕ → Option CreatorJson) (officeHour : OfficeHour) (occurrenceLimit : ℕ)
    (occurrences : List Occurrence) : OfficeHourJson where
  id := officeHour.id
  cohortId := officeHour.cohortId
  title := officeHour.title
  description := officeHour.description
  startsAt := officeHour.startsAt
  endsAt := officeHour.endsAt
  meetingUrl := officeHour.meetingUrl
  timezone := officeHour.timezone
  recurrence := officeHour.recurrence
  eventKind := officeHour.eventKind
  active := officeHour.active
  occurrences := (occurrences.take occurrenceLimit).map (occurrenceJson officeHour)
  createdBy := officeHour.createdById.bind users

/-- `sort_by` by `starts_at`, which leaves the order of entries with equal keys open. -/
structure SortsByStart (sortBy : List OccurrenceJson → List OccurrenceJson) : Prop where
  perm : ∀ entries, (sortBy entries).Perm entries
  ordered : ∀ entries, (sortBy entries).Pairwise (·.startsAt ≤ ·.startsAt)

variable (sortBy : List OccurrenceJson → List OccurrenceJson)

def upcoming (officeHours : List OfficeHour) (limit : ℕ) (occurrencesByOfficeHour : Expansion) :
    List OccurrenceJson :=
  let entries := officeHours.flatMap fun officeHour =>
    ((fetch occurrencesByOfficeHour officeHour).take limit).map (occurrenceJson officeHour)
  (sortBy entries).take limit

/-- `collection_json`, where `upcomingOccurrences` is the method at the time of the request. -/
def collectionJson (upcomingOccurrences : OfficeHour → ℕ → List Occurrence)
    (users : ℕ → Option CreatorJson) (officeHours : List OfficeHour) (occurrenceLimit : ℕ := 3)
    (upcomingLimit : ℕ := 3) : CollectionJson :=
  let expansionLimit := max occurrenceLimit upcomingLimit
  let occurrencesByOfficeHour := officeHours.map fun officeHour =>
    (officeHour, upcomingOccurrences officeHour expansionLimit)
  { officeHours := officeHours.map fun officeHour =>
      asJson users officeHour occurrenceLimit (fetch occurrencesByOfficeHour officeHour)
    upcoming := upcoming sortBy officeHours upcomingLimit occurrencesByOfficeHour }

end OfficeHourSerializer

end LearningPlatform
