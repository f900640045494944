import LearningPlatform.Model.OfficeHours
import Mathlib.Data.Int.ConditionallyCompleteOrder
import Mathlib.Order.Monotone.Basic
import Mathlib.Tactic.NormNum

/-! # The weekly starts of an office hour

Every week has a start, computed with at most 48 retries. The local time of the start is the
anchor's where it occurs, and the starts increase whatever the clocks do. -/

namespace LearningPlatform

open Shared

theorem timeUtc_clockTime (wall days : ℤ) :
    timeUtc (wall / 86400 + days) (clockTime wall) = wall + 86400 * days := by
  simp only [timeUtc, clockTime]
  omega

namespace OfficeHour

variable {zone : Zone} {officeHour : OfficeHour}

theorem localWallTime_eq (zone : Zone) (officeHour : OfficeHour) (weekOffset : ℕ) :
    officeHour.localWallTime zone weekOffset =
      zone.localSecond officeHour.anchorSecond + 604800 * weekOffset := by
  rw [localWallTime, Zone.localDate, timeUtc_clockTime]
  omega

theorem choosePeriod_mem (zone : Zone) (officeHour : OfficeHour) {periods : List ZonePeriod}
    (h : periods ≠ []) :
    ∃ period ∈ periods, officeHour.choosePeriod zone periods = some period := by
  unfold choosePeriod
  cases hoffset : periods.find? fun period =>
      period.utcTotalOffset == (zone.periodForUtc officeHour.anchorSecond).utcTotalOffset with
  | some period => exact ⟨period, List.mem_of_find?_eq_some hoffset, by simp [hoffset]⟩
  | none =>
    cases hdst : periods.find? fun period =>
        period.dst == (zone.periodForUtc officeHour.anchorSecond).dst with
    | some period => exact ⟨period, List.mem_of_find?_eq_some hdst, by simp [hoffset, hdst]⟩
    | none =>
      refine ⟨_, List.getLast_mem h, ?_⟩
      simp [hoffset, hdst, List.getLast?_eq_some_getLast h]

theorem choosePeriod_offset {periods : List ZonePeriod} {period : ZonePeriod} (h : period ∈ periods)
    (hoffset : period.utcTotalOffset =
      (zone.periodForUtc officeHour.anchorSecond).utcTotalOffset) :
    ∃ chosen ∈ periods, officeHour.choosePeriod zone periods = some chosen ∧
      chosen.utcTotalOffset = period.utcTotalOffset := by
  unfold choosePeriod
  cases hfind : periods.find? fun period =>
      period.utcTotalOffset == (zone.periodForUtc officeHour.anchorSecond).utcTotalOffset with
  | some chosen =>
    refine ⟨chosen, List.mem_of_find?_eq_some hfind, by simp [hfind], ?_⟩
    have hsame := List.find?_some hfind
    rw [hoffset]
    exact beq_iff_eq.mp hsame
  | none =>
    have hnone := List.find?_eq_none.mp hfind period h
    simp [hoffset] at hnone

/-! ## The start of a week -/

def startSecond (zone : Zone) (officeHour : OfficeHour) (weekOffset : ℕ) : ℤ :=
  let wall := officeHour.localWallTime zone weekOffset
  match officeHour.choosePeriod zone (zone.periodsForLocal wall) with
  | some period => wall - period.utcTotalOffset
  | none => (zone.atLocal 49 wall).getD 0

def weeklyStart (zone : Zone) (officeHour : OfficeHour) (weekOffset : ℕ) : Instant :=
  officeHour.startSecond zone weekOffset * microsecondsPerSecond

theorem choosePeriod_nil : officeHour.choosePeriod zone [] = none :=
  rfl

/-- The start differs from the local time by an offset and the hours of a gap. -/
theorem startSecond_bounds (zone : Zone) (officeHour : OfficeHour) (weekOffset : ℕ) :
    officeHour.localWallTime zone weekOffset - 86400 < officeHour.startSecond zone weekOffset ∧
      officeHour.startSecond zone weekOffset <
        officeHour.localWallTime zone weekOffset + 259200 := by
  unfold startSecond
  generalize officeHour.localWallTime zone weekOffset = wall
  by_cases hempty : zone.periodsForLocal wall = []
  · obtain ⟨hours, period, hle, hperiod, hlocal⟩ := zone.atLocal_eq_some wall
    have hbounds := zone.offset_bounds hperiod
    simp only [hempty, choosePeriod_nil, hlocal 49 le_rfl, Option.getD_some]
    omega
  · obtain ⟨period, hperiod, hchosen⟩ := officeHour.choosePeriod_mem zone hempty
    have hbounds := zone.offset_bounds hperiod
    simp only [hchosen]
    omega

theorem weeklyStartAt_eq (zone : Zone) (officeHour : OfficeHour) {fuel : ℕ} (hfuel : 49 ≤ fuel)
    (weekOffset : ℕ) :
    officeHour.weeklyStartAt zone fuel weekOffset =
      some (officeHour.weeklyStart zone weekOffset) := by
  unfold weeklyStartAt weeklyStart startSecond
  generalize officeHour.localWallTime zone weekOffset = wall
  by_cases hempty : zone.periodsForLocal wall = []
  · obtain ⟨hours, period, -, -, hlocal⟩ := zone.atLocal_eq_some wall
    simp [hempty, choosePeriod_nil, hlocal fuel hfuel, hlocal 49 le_rfl]
  · obtain ⟨period, -, hchosen⟩ := officeHour.choosePeriod_mem zone hempty
    simp [hempty, hchosen]

theorem startSecond_lt_succ (zone : Zone) (officeHour : OfficeHour) (weekOffset : ℕ) :
    officeHour.startSecond zone weekOffset + 172800 <
      officeHour.startSecond zone (weekOffset + 1) := by
  have hfirst := officeHour.startSecond_bounds zone weekOffset
  have hsecond := officeHour.startSecond_bounds zone (weekOffset + 1)
  rw [localWallTime_eq] at hfirst hsecond
  push_cast at hsecond
  omega

theorem weeklyStart_strictMono (zone : Zone) (officeHour : OfficeHour) :
    StrictMono (officeHour.weeklyStart zone) := by
  refine strictMono_nat_of_lt_succ ?_
  intro weekOffset
  have hlt : officeHour.startSecond zone weekOffset <
      officeHour.startSecond zone (weekOffset + 1) := by
    have := officeHour.startSecond_lt_succ zone weekOffset
    omega
  exact Int.mul_lt_mul_of_pos_right hlt (Int.natCast_pos.mpr (Nat.succ_pos _))

theorem startSecond_add_le (zone : Zone) (officeHour : OfficeHour) (weekOffset : ℕ) :
    officeHour.startSecond zone 0 + weekOffset ≤ officeHour.startSecond zone weekOffset := by
  induction weekOffset with
  | zero => simp
  | succ weekOffset ih =>
    have hlt := officeHour.startSecond_lt_succ zone weekOffset
    push_cast
    omega

theorem le_mul_microseconds {instant second : ℤ} (hsecond : 0 ≤ second) (h : instant ≤ second) :
    instant ≤ second * microsecondsPerSecond := by
  unfold microsecondsPerSecond
  omega

theorem exists_le_weeklyStart (zone : Zone) (officeHour : OfficeHour) (instant : ℤ) :
    ∃ weekOffset, instant ≤ officeHour.weeklyStart zone weekOffset := by
  have hstart := officeHour.startSecond_add_le zone
    (instant.natAbs + (officeHour.startSecond zone 0).natAbs)
  refine ⟨instant.natAbs + (officeHour.startSecond zone 0).natAbs, le_mul_microseconds ?_ ?_⟩
  · omega
  · omega

/-! ## The local time of a start -/

theorem localSecond_startSecond {weekOffset : ℕ}
    (h : zone.periodsForLocal (officeHour.localWallTime zone weekOffset) ≠ []) :
    zone.localSecond (officeHour.startSecond zone weekOffset) =
      officeHour.localWallTime zone weekOffset := by
  obtain ⟨period, hperiod, hchosen⟩ := officeHour.choosePeriod_mem zone h
  simp only [startSecond, hchosen]
  exact zone.localSecond_sub hperiod

theorem startSecond_offset {weekOffset : ℕ} {period : ZonePeriod}
    (h : period ∈ zone.periodsForLocal (officeHour.localWallTime zone weekOffset))
    (hoffset : period.utcTotalOffset =
      (zone.periodForUtc officeHour.anchorSecond).utcTotalOffset) :
    officeHour.startSecond zone weekOffset =
      officeHour.localWallTime zone weekOffset - period.utcTotalOffset := by
  obtain ⟨chosen, -, hchosen, hsame⟩ := choosePeriod_offset h hoffset
  simp only [startSecond, hchosen, hsame]

theorem startSecond_zero (zone : Zone) (officeHour : OfficeHour) :
    officeHour.startSecond zone 0 = officeHour.anchorSecond := by
  have hwall : officeHour.localWallTime zone 0 = zone.localSecond officeHour.anchorSecond := by
    rw [localWallTime_eq]
    simp
  have hperiod := zone.periodForUtc_mem officeHour.anchorSecond
  rw [← hwall] at hperiod
  rw [startSecond_offset hperiod rfl, hwall, Zone.localSecond, add_sub_cancel_right]

end OfficeHour

end LearningPlatform
