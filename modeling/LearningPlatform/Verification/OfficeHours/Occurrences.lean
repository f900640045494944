import LearningPlatform.Verification.OfficeHours.WeeklyStarts
import Mathlib.Data.Nat.Nth

/-! # The upcoming occurrences of an office hour

The search starts in the week of the local date and skips the occurrences that have ended. -/

namespace LearningPlatform

open Shared

namespace OfficeHour

variable {zone : Zone} {officeHour : OfficeHour} {fromTime : Instant} {fuel : ℕ}

def weeklyOccurrence (zone : Zone) (officeHour : OfficeHour) (week : ℕ) : Occurrence :=
  officeHour.occurrenceFor (officeHour.weeklyStart zone week)

theorem weeklyOccurrence_endsAt_strictMono (zone : Zone) (officeHour : OfficeHour) :
    StrictMono fun week => (officeHour.weeklyOccurrence zone week).endsAt := by
  intro first second hlt
  exact Int.add_lt_add_right (officeHour.weeklyStart_strictMono zone hlt) officeHour.duration

theorem exists_current (zone : Zone) (officeHour : OfficeHour) (fromTime : Instant) (week : ℕ) :
    ∃ later, week ≤ later ∧ fromTime ≤ (officeHour.weeklyOccurrence zone later).endsAt := by
  obtain ⟨last, hlast⟩ := officeHour.exists_le_weeklyStart zone fromTime
  have hmono : officeHour.weeklyStart zone last ≤ officeHour.weeklyStart zone (max week last) :=
    (officeHour.weeklyStart_strictMono zone).monotone (le_max_right week last)
  have hduration : (0 : ℤ) ≤ officeHour.duration := le_max_right _ _
  refine ⟨max week last, le_max_left week last, ?_⟩
  exact (hlast.trans hmono).trans (Int.le_add_of_nonneg_right hduration)

/-! ## The loops -/

theorem skipEnded_eq {rounds week found : ℕ} (hfuel : 49 ≤ fuel) (hle : week ≤ found)
    (hrounds : found - week < rounds) (hended : ∀ earlier, week ≤ earlier → earlier < found →
      (officeHour.weeklyOccurrence zone earlier).endsAt < fromTime)
    (hcurrent : fromTime ≤ (officeHour.weeklyOccurrence zone found).endsAt) :
    officeHour.skipEnded zone fuel fromTime rounds week (officeHour.weeklyStart zone week) =
      some (found, officeHour.weeklyStart zone found) := by
  induction rounds generalizing week with
  | zero => exact absurd hrounds (Nat.not_lt_zero _)
  | succ rounds ih =>
    by_cases heq : week = found
    · subst heq
      exact if_neg (not_lt.mpr hcurrent)
    · have hlt : week < found := lt_of_le_of_ne hle heq
      have hover : officeHour.weeklyStart zone week + officeHour.duration < fromTime :=
        hended week le_rfl hlt
      rw [skipEnded, if_pos hover, weeklyStartAt_eq zone officeHour hfuel]
      refine ih hlt (by omega) ?_
      intro earlier hearlier
      exact hended earlier (Nat.le_of_succ_le hearlier)

theorem weeklyOccurrences_eq (hfuel : 49 ≤ fuel) (limit week : ℕ) :
    officeHour.weeklyOccurrences zone fuel limit week (officeHour.weeklyStart zone week) =
      some ((List.range limit).map fun index =>
        officeHour.weeklyOccurrence zone (week + index)) := by
  induction limit generalizing week with
  | zero => rfl
  | succ limit ih =>
    have hshift : (fun index => officeHour.weeklyOccurrence zone (week + 1 + index)) =
        fun index => officeHour.weeklyOccurrence zone (week + (index + 1)) := by
      funext index
      rw [Nat.add_assoc, Nat.add_comm 1 index]
    rw [weeklyOccurrences, weeklyStartAt_eq zone officeHour hfuel]
    simp only [Option.bind_eq_bind, Option.bind_some, ih, hshift, List.range_succ_eq_map,
      List.map_cons, List.map_map]
    rfl

/-- The first week of the search whose occurrence has not ended. -/
def foundWeek (zone : Zone) (officeHour : OfficeHour) (fromTime : Instant) : ℕ :=
  Nat.find (officeHour.exists_current zone fromTime (officeHour.searchWeek zone fromTime))

theorem searchWeek_le_foundWeek (zone : Zone) (officeHour : OfficeHour) (fromTime : Instant) :
    officeHour.searchWeek zone fromTime ≤ officeHour.foundWeek zone fromTime :=
  (Nat.find_spec
    (officeHour.exists_current zone fromTime (officeHour.searchWeek zone fromTime))).1

theorem foundWeek_current (zone : Zone) (officeHour : OfficeHour) (fromTime : Instant) :
    fromTime ≤ (officeHour.weeklyOccurrence zone (officeHour.foundWeek zone fromTime)).endsAt :=
  (Nat.find_spec
    (officeHour.exists_current zone fromTime (officeHour.searchWeek zone fromTime))).2

theorem ended_of_lt_foundWeek {week : ℕ} (hsearch : officeHour.searchWeek zone fromTime ≤ week)
    (h : week < officeHour.foundWeek zone fromTime) :
    (officeHour.weeklyOccurrence zone week).endsAt < fromTime := by
  have hmin := Nat.find_min
    (officeHour.exists_current zone fromTime (officeHour.searchWeek zone fromTime)) h
  exact not_le.mp fun hcurrent => hmin ⟨hsearch, hcurrent⟩

/-- With enough fuel the result is the occurrences of consecutive weeks. -/
theorem upcomingOccurrences_eq (hactive : officeHour.active = true)
    (hweekly : officeHour.recurrence = .weekly)
    (hfuel : 49 + officeHour.foundWeek zone fromTime ≤ fuel) (limit : ℕ) :
    officeHour.upcomingOccurrences zone fuel limit fromTime =
      some ((List.range limit).map fun index =>
        officeHour.weeklyOccurrence zone (officeHour.foundWeek zone fromTime + index)) := by
  have hretries : 49 ≤ fuel := by omega
  have hsearch := officeHour.searchWeek_le_foundWeek zone fromTime
  have hfound : officeHour.nextWeeklyStart zone fuel fromTime =
      some (officeHour.foundWeek zone fromTime,
        officeHour.weeklyStart zone (officeHour.foundWeek zone fromTime)) := by
    rw [nextWeeklyStart, weeklyStartAt_eq zone officeHour hretries]
    exact skipEnded_eq hretries hsearch (by omega) (fun _ => ended_of_lt_foundWeek)
      (officeHour.foundWeek_current zone fromTime)
  simp only [upcomingOccurrences, hactive, Bool.not_true, Bool.false_eq_true, if_false, hweekly,
    hfound, Option.bind_eq_bind, Option.bind_some, weeklyOccurrences_eq hretries]

/-! ## Local times of the starts -/

/-- The second has the anchor's clock time, as many weeks after the anchor's date. -/
def AtWeek (zone : Zone) (officeHour : OfficeHour) (week : ℕ) (second : ℤ) : Prop :=
  zone.localDate second = zone.localDate officeHour.anchorSecond + 7 * week ∧
    clockTime (zone.localSecond second) = clockTime (zone.localSecond officeHour.anchorSecond)

theorem atWeek_iff {week : ℕ} {second : ℤ} :
    officeHour.AtWeek zone week second ↔
      zone.localSecond second = officeHour.localWallTime zone week := by
  have hself : ∀ wall : ℤ, timeUtc (wall / 86400) (clockTime wall) = wall := by
    intro wall
    simpa using timeUtc_clockTime wall 0
  constructor
  · rintro ⟨hdate, hclock⟩
    rw [localWallTime, ← hdate, ← hclock, Zone.localDate, hself]
  · intro hwall
    rw [localWallTime_eq] at hwall
    unfold AtWeek Zone.localDate clockTime
    rw [hwall]
    refine ⟨by omega, ?_⟩
    simp only [ClockTime.mk.injEq]
    omega

theorem AtWeek.occurs {week : ℕ} {second : ℤ} (h : officeHour.AtWeek zone week second) :
    zone.periodForUtc second ∈ zone.periodsForLocal (officeHour.localWallTime zone week) := by
  rw [← atWeek_iff.mp h]
  exact zone.periodForUtc_mem second

/-- What a weekly office hour promises about its occurrences from an instant on. -/
structure FollowsClock (zone : Zone) (officeHour : OfficeHour) (fromTime : Instant)
    (first : ℕ) : Prop where
  current : ∀ week, first ≤ week → fromTime ≤ (officeHour.weeklyOccurrence zone week).endsAt
  increasing : StrictMono (officeHour.weeklyStart zone)
  localTime : ∀ week, (∃ second, officeHour.AtWeek zone week second) →
    officeHour.AtWeek zone week (officeHour.startSecond zone week)
  anchorOffset : ∀ week second, officeHour.AtWeek zone week second →
    (zone.periodForUtc second).utcTotalOffset =
      (zone.periodForUtc officeHour.anchorSecond).utcTotalOffset →
    officeHour.startSecond zone week = second
  anchor : officeHour.startSecond zone 0 = officeHour.startsAt / microsecondsPerSecond

theorem followsClock (zone : Zone) (officeHour : OfficeHour) (fromTime : Instant) :
    officeHour.FollowsClock zone fromTime (officeHour.foundWeek zone fromTime) where
  current week hle := (officeHour.foundWeek_current zone fromTime).trans
    ((officeHour.weeklyOccurrence_endsAt_strictMono zone).monotone hle)
  increasing := officeHour.weeklyStart_strictMono zone
  localTime := by
    rintro week ⟨second, hsecond⟩
    exact atWeek_iff.mpr (localSecond_startSecond (List.ne_nil_of_mem hsecond.occurs))
  anchorOffset := by
    intro week second hsecond hoffset
    rw [startSecond_offset hsecond.occurs hoffset, ← atWeek_iff.mp hsecond, Zone.localSecond,
      add_sub_cancel_right]
  anchor := officeHour.startSecond_zero zone

/-- The occurrences of a weekly office hour are those of consecutive weeks, none of them over; the
starts increase, keep the anchor's clock time where it occurs, with the anchor's offset where it
occurs with it, and begin with the anchor. -/
theorem weekly_occurrences_follow_clock (zone : Zone) (officeHour : OfficeHour)
    (hactive : officeHour.active = true) (hweekly : officeHour.recurrence = .weekly) (limit : ℕ)
    (fromTime : Instant) :
    ∃ first enough, (∀ fuel, enough ≤ fuel →
        officeHour.upcomingOccurrences zone fuel limit fromTime =
          some ((List.range limit).map fun index =>
            officeHour.occurrenceFor (officeHour.startSecond zone (first + index) *
              microsecondsPerSecond))) ∧
      officeHour.FollowsClock zone fromTime first :=
  ⟨_, _, fun _ hfuel => upcomingOccurrences_eq hactive hweekly hfuel limit,
    officeHour.followsClock zone fromTime⟩

namespace OccurrencesExample

/-- New York around the change to daylight saving time of March 2026. -/
def newYork : Zone :=
  Zone.changing 1772953200 { utcTotalOffset := -18000 } { utcTotalOffset := -14400, dst := true }
    (by decide) (by decide)

/-- An hour from 02:30 on the Sunday before. -/
def earlyHour : OfficeHour :=
  { id := 1, cohortId := 1, title := "Weekly help", startsAt := 1772350200000000
    endsAt := 1772353800000000, meetingUrl := "https://meet.example.com/weekly"
    timezone := "America/New_York", recurrence := .weekly }

/-- The local time 02:30 does not occur on the next Sunday: the session starts at 03:30. -/
theorem early_hour_follows_clock :
    (∃ first enough, (∀ fuel, enough ≤ fuel →
        earlyHour.upcomingOccurrences newYork fuel 2 1772350140000000 =
          some ((List.range 2).map fun index =>
            earlyHour.occurrenceFor (earlyHour.startSecond newYork (first + index) *
              microsecondsPerSecond))) ∧
      earlyHour.FollowsClock newYork 1772350140000000 first) ∧
      earlyHour.upcomingOccurrences newYork 60 2 1772350140000000 =
        some [⟨1772350200000000, 1772353800000000⟩, ⟨1772955000000000, 1772958600000000⟩] ∧
      clockTime (newYork.localSecond 1772955000) = ⟨3, 30, 0⟩ :=
  ⟨weekly_occurrences_follow_clock newYork earlyHour rfl rfl 2 1772350140000000, by decide +kernel,
    by decide +kernel⟩

end OccurrencesExample

/-! ## Completeness -/

/-- The first occurrences, of all weeks, that have not ended. -/
noncomputable def currentOccurrences (zone : Zone) (officeHour : OfficeHour) (limit : ℕ)
    (fromTime : Instant) : List Occurrence :=
  (List.range limit).map fun index => officeHour.weeklyOccurrence zone
    (Nat.nth (fun week => fromTime ≤ (officeHour.weeklyOccurrence zone week).endsAt) index)

theorem nth_eq_add {p : ℕ → Prop} {first : ℕ} (h : ∀ week, p week ↔ first ≤ week) (index : ℕ) :
    Nat.nth p index = first + index := by
  classical
  have hcount : Nat.count p (first + index) = index := by
    induction index with
    | zero =>
      refine (Nat.count_iff_forall_not).mpr ?_
      intro week hlt
      exact fun hp => absurd ((h week).mp hp) (not_le.mpr hlt)
    | succ index ih =>
      rw [← Nat.add_assoc, Nat.count_succ, ih, if_pos ((h _).mpr (Nat.le_add_right _ _))]
  have hnth := Nat.nth_count ((h (first + index)).mpr (Nat.le_add_right first index))
  rwa [hcount] at hnth

/-- The first of all weeks whose occurrence has not ended. -/
def currentWeek (zone : Zone) (officeHour : OfficeHour) (fromTime : Instant) : ℕ :=
  Nat.find (officeHour.exists_current zone fromTime 0)

theorem le_endsAt_iff {week : ℕ} :
    fromTime ≤ (officeHour.weeklyOccurrence zone week).endsAt ↔
      officeHour.currentWeek zone fromTime ≤ week := by
  constructor
  · intro hcurrent
    exact Nat.find_min' (officeHour.exists_current zone fromTime 0) ⟨Nat.zero_le _, hcurrent⟩
  · intro hle
    exact (Nat.find_spec (officeHour.exists_current zone fromTime 0)).2.trans
      ((officeHour.weeklyOccurrence_endsAt_strictMono zone).monotone hle)

theorem currentOccurrences_eq (zone : Zone) (officeHour : OfficeHour) (limit : ℕ)
    (fromTime : Instant) :
    officeHour.currentOccurrences zone limit fromTime = (List.range limit).map fun index =>
      officeHour.weeklyOccurrence zone (officeHour.currentWeek zone fromTime + index) := by
  unfold currentOccurrences
  simp only [nth_eq_add fun _ => le_endsAt_iff]

/-- The search finds the first week exactly if it does not start after it. -/
theorem foundWeek_eq_currentWeek_iff :
    officeHour.foundWeek zone fromTime = officeHour.currentWeek zone fromTime ↔
      officeHour.searchWeek zone fromTime = 0 ∨
        officeHour.weeklyStart zone (officeHour.searchWeek zone fromTime - 1) +
          officeHour.duration < fromTime := by
  have hsearch := officeHour.searchWeek_le_foundWeek zone fromTime
  have hfound : officeHour.currentWeek zone fromTime ≤ officeHour.foundWeek zone fromTime :=
    le_endsAt_iff.mp (officeHour.foundWeek_current zone fromTime)
  have hmin : officeHour.searchWeek zone fromTime ≤ officeHour.currentWeek zone fromTime →
      officeHour.foundWeek zone fromTime ≤ officeHour.currentWeek zone fromTime := by
    intro hle
    exact Nat.find_min' _ ⟨hle, le_endsAt_iff.mpr le_rfl⟩
  have hprevious : ∀ week, officeHour.weeklyStart zone week + officeHour.duration < fromTime ↔
      week < officeHour.currentWeek zone fromTime := by
    intro week
    rw [← not_le, ← not_le]
    exact not_congr le_endsAt_iff
  rw [hprevious]
  omega

theorem map_weeklyOccurrence_eq_iff (zone : Zone) (officeHour : OfficeHour)
    {limit first second : ℕ} :
    ((List.range limit).map fun index => officeHour.weeklyOccurrence zone (first + index)) =
        ((List.range limit).map fun index => officeHour.weeklyOccurrence zone (second + index)) ↔
      limit = 0 ∨ first = second := by
  rw [List.map_inj_left]
  constructor
  · intro h
    rcases Nat.eq_zero_or_pos limit with hzero | hpos
    · exact .inl hzero
    · right
      have hsame : officeHour.weeklyOccurrence zone first =
          officeHour.weeklyOccurrence zone second := h 0 (List.mem_range.mpr hpos)
      exact (officeHour.weeklyStart_strictMono zone).injective (congrArg Occurrence.startsAt hsame)
  · rintro (rfl | rfl)
    · simp
    · simp

/-- The result is the first occurrences that have not ended exactly if nothing is asked for or the
occurrence of the week before the search has ended. -/
theorem upcoming_occurrences_exact_iff (zone : Zone) (officeHour : OfficeHour)
    (hactive : officeHour.active = true) (hweekly : officeHour.recurrence = .weekly)
    (hends : officeHour.startsAt < officeHour.endsAt) (limit : ℕ) (fromTime : Instant) :
    (∃ enough, ∀ fuel, enough ≤ fuel →
        officeHour.upcomingOccurrences zone fuel limit fromTime =
          some (officeHour.currentOccurrences zone limit fromTime)) ↔
      limit = 0 ∨ officeHour.searchWeek zone fromTime = 0 ∨
        officeHour.endsAt - officeHour.startsAt <
          fromTime - officeHour.weeklyStart zone (officeHour.searchWeek zone fromTime - 1) := by
  have hduration : officeHour.duration = officeHour.endsAt - officeHour.startsAt :=
    max_eq_left (Int.sub_nonneg_of_le hends.le)
  have hresult : (∃ enough, ∀ fuel, enough ≤ fuel →
      officeHour.upcomingOccurrences zone fuel limit fromTime =
        some (officeHour.currentOccurrences zone limit fromTime)) ↔
      limit = 0 ∨ officeHour.foundWeek zone fromTime = officeHour.currentWeek zone fromTime := by
    rw [currentOccurrences_eq, ← map_weeklyOccurrence_eq_iff zone officeHour]
    constructor
    · rintro ⟨enough, h⟩
      have hfuel := h (49 + officeHour.foundWeek zone fromTime + enough) (by omega)
      rw [upcomingOccurrences_eq hactive hweekly (by omega)] at hfuel
      exact Option.some.inj hfuel
    · intro h
      refine ⟨49 + officeHour.foundWeek zone fromTime, ?_⟩
      intro fuel hfuel
      rw [upcomingOccurrences_eq hactive hweekly hfuel, h]
  rw [hresult, foundWeek_eq_currentWeek_iff, hduration, lt_sub_iff_add_lt, add_comm (_ - _)]

namespace CompletenessExample

def guam : Zone :=
  Zone.changing 0 { utcTotalOffset := 36000 } { utcTotalOffset := 36000 } (by decide) (by decide)

/-- Sessions of the given length, from Monday 2026-03-02 10:00 on. -/
def lasting (hours : ℤ) : OfficeHour :=
  { id := 1, cohortId := 1, title := "Open lab", startsAt := 1772409600000000
    endsAt := 1772409600000000 + hours * 3600000000
    meetingUrl := "https://meet.example.com/lab", recurrence := .weekly }

/-- Half an hour after the start of the second session of two hours. -/
theorem running_session_listed :
    ∃ enough, ∀ fuel, enough ≤ fuel → (lasting 2).upcomingOccurrences guam fuel 3
      1773016200000000 = some ((lasting 2).currentOccurrences guam 3 1773016200000000) :=
  (upcoming_occurrences_exact_iff guam (lasting 2) rfl rfl (by decide) 3 1773016200000000).mpr
    (.inr (.inr (by decide +kernel)))

/-- The session of the first week lasts eight days and is still running when the second one has
started, but only the second one is listed. -/
theorem long_session_skipped :
    (∀ fuel, 60 ≤ fuel → (lasting 192).upcomingOccurrences guam fuel 1 1773016200000000 =
        some [(lasting 192).weeklyOccurrence guam 1]) ∧
      (lasting 192).currentOccurrences guam 1 1773016200000000 =
        [(lasting 192).weeklyOccurrence guam 0] ∧
      (lasting 192).weeklyOccurrence guam 1 ≠ (lasting 192).weeklyOccurrence guam 0 := by
  have hfound : (lasting 192).foundWeek guam 1773016200000000 = 1 := by
    refine (Nat.find_eq_iff _).mpr ⟨by decide +kernel, ?_⟩
    intro week hlt
    obtain rfl : week = 0 := by omega
    decide +kernel
  have hcurrent : (lasting 192).currentWeek guam 1773016200000000 = 0 := by
    refine (Nat.find_eq_zero _).mpr ?_
    decide +kernel
  refine ⟨?_, ?_, by decide +kernel⟩
  · intro fuel hfuel
    rw [upcomingOccurrences_eq rfl rfl (by rw [hfound]; omega), hfound]
    rfl
  · rw [currentOccurrences_eq, hcurrent]
    rfl

end CompletenessExample

end OfficeHour

end LearningPlatform
