import Mathlib.Data.Int.Init
import Mathlib.Data.List.Basic
import Mathlib.Order.Defs.LinearOrder
import Mathlib.Algebra.Order.Group.Unbundled.Abs
import Mathlib.Algebra.Order.Ring.Int

/-! # Time zones as maps of periods

A zone gives the period in force at every second of universal time and the periods in which a
local time occurs. A local time occurs twice where clocks are set back and not at all where they
are set forward. -/

namespace LearningPlatform.Shared

structure ZonePeriod where
  utcTotalOffset : ℤ
  dst : Bool := false
  deriving DecidableEq, Repr

/-- The two maps of a time zone. A local time that does not occur lies in a gap that the clock
leaves within one more hour than it lasts. -/
structure Zone where
  periodForUtc : ℤ → ZonePeriod
  periodsForLocal : ℤ → List ZonePeriod
  mem_periodsForLocal : ∀ wall period, period ∈ periodsForLocal wall ↔
    periodForUtc (wall - period.utcTotalOffset) = period
  offset_lt : ∀ second, |(periodForUtc second).utcTotalOffset| < 86400
  through_gap : ∀ wall, periodsForLocal wall = [] → ∃ hours : ℕ,
    periodsForLocal (wall + 3600 * (hours + 1)) ≠ [] ∧
      ∀ other, wall ≤ other → other ≤ wall + 3600 * hours → periodsForLocal other = []

namespace Zone

variable (zone : Zone)

/-- The local time of a second of universal time. -/
def localSecond (second : ℤ) : ℤ :=
  second + (zone.periodForUtc second).utcTotalOffset

def localDate (second : ℤ) : ℤ :=
  zone.localSecond second / 86400

theorem periodForUtc_mem (second : ℤ) :
    zone.periodForUtc second ∈ zone.periodsForLocal (zone.localSecond second) := by
  rw [mem_periodsForLocal, localSecond, add_sub_cancel_right]

variable {wall : ℤ}

/-- The second at which a local time occurs in one of its periods. -/
theorem localSecond_sub {period : ZonePeriod} (h : period ∈ zone.periodsForLocal wall) :
    zone.localSecond (wall - period.utcTotalOffset) = wall := by
  rw [localSecond, (zone.mem_periodsForLocal wall period).mp h, sub_add_cancel]

theorem offset_bounds {period : ZonePeriod} (h : period ∈ zone.periodsForLocal wall) :
    -86400 < period.utcTotalOffset ∧ period.utcTotalOffset < 86400 := by
  have hlt := zone.offset_lt (wall - period.utcTotalOffset)
  rw [(zone.mem_periodsForLocal wall period).mp h] at hlt
  exact abs_lt.mp hlt

theorem hours_le_of_gap {hours : ℕ}
    (h : ∀ other, wall ≤ other → other ≤ wall + 3600 * hours → zone.periodsForLocal other = []) :
    hours < 48 := by
  -- The local time of `wall + 86400` occurs, and lies less than two days after `wall`.
  have hbounds := abs_lt.mp (zone.offset_lt (wall + 86400))
  have hoccurs := zone.periodForUtc_mem (wall + 86400)
  by_contra hlong
  have hempty := h (zone.localSecond (wall + 86400)) (by unfold localSecond; omega)
    (by unfold localSecond; omega)
  rw [hempty] at hoccurs
  exact List.not_mem_nil hoccurs

/-! ## Local times made valid -/

/-- `get_period_and_ensure_valid_local_time`: an hour is added until the local time occurs. -/
def ensureValidLocalTime : ℕ → ℤ → Option ℤ
  | 0, _ => none
  | fuel + 1, wall =>
    if (zone.periodsForLocal wall).isEmpty then ensureValidLocalTime fuel (wall + 3600)
    else some wall

/-- `period_for_local(time, true)` with the block that takes the last period. -/
def periodForLocal? (wall : ℤ) : Option ZonePeriod :=
  let results := zone.periodsForLocal wall
  let found := results.filter (·.dst)
  (if found.isEmpty then results else found).getLast?

/-- `zone.local`, as a second of universal time; `none` if the retries do not suffice. -/
def atLocal (fuel : ℕ) (wall : ℤ) : Option ℤ := do
  let valid ← zone.ensureValidLocalTime fuel wall
  let period ← zone.periodForLocal? valid
  some (valid - period.utcTotalOffset)

theorem periodForLocal?_mem (h : zone.periodsForLocal wall ≠ []) :
    ∃ period ∈ zone.periodsForLocal wall, zone.periodForLocal? wall = some period := by
  unfold periodForLocal?
  by_cases hdst : ((zone.periodsForLocal wall).filter (·.dst)).isEmpty = true
  · simp only [hdst, if_true]
    exact ⟨_, List.getLast_mem h, List.getLast?_eq_some_getLast h⟩
  · have hne : (zone.periodsForLocal wall).filter (·.dst) ≠ [] := by simpa using hdst
    simp only [hdst]
    exact ⟨_, List.mem_of_mem_filter (List.getLast_mem hne), List.getLast?_eq_some_getLast hne⟩

theorem ensureValidLocalTime_of_gap {fuel hours : ℕ} (hfuel : hours < fuel)
    (hvalid : zone.periodsForLocal (wall + 3600 * hours) ≠ [])
    (hgap : ∀ earlier < hours, zone.periodsForLocal (wall + 3600 * (earlier : ℤ)) = []) :
    zone.ensureValidLocalTime fuel wall = some (wall + 3600 * hours) := by
  induction hours generalizing fuel wall with
  | zero =>
    obtain ⟨fuel, rfl⟩ := Nat.exists_eq_add_one.mpr hfuel
    have hoccurs : zone.periodsForLocal wall ≠ [] := by simpa using hvalid
    simp [ensureValidLocalTime, hoccurs]
  | succ hours ih =>
    obtain ⟨fuel, rfl⟩ : ∃ rest, fuel = rest + 1 := ⟨fuel - 1, by omega⟩
    have hfirst : zone.periodsForLocal wall = [] := by
      simpa using hgap 0 (by omega)
    have hshift : ∀ count : ℕ, wall + 3600 + 3600 * (count : ℤ) =
        wall + 3600 * ((count + 1 : ℕ) : ℤ) := by
      intro count
      push_cast
      omega
    have hlater : ∀ earlier < hours,
        zone.periodsForLocal (wall + 3600 + 3600 * (earlier : ℤ)) = [] := by
      intro earlier hearlier
      rw [hshift]
      exact hgap (earlier + 1) (by omega)
    have hrest : zone.ensureValidLocalTime fuel (wall + 3600) =
        some (wall + 3600 + 3600 * hours) := ih (by omega) (by rwa [hshift]) hlater
    rw [ensureValidLocalTime, hfirst, hrest, hshift]
    rfl

/-- Every local time is made valid after at most 48 hours, by one of the periods there. -/
theorem atLocal_eq_some (wall : ℤ) :
    ∃ (hours : ℕ) (period : ZonePeriod), hours ≤ 48 ∧
      period ∈ zone.periodsForLocal (wall + 3600 * hours) ∧
      ∀ fuel, 49 ≤ fuel →
        zone.atLocal fuel wall = some (wall + 3600 * hours - period.utcTotalOffset) := by
  have hfound : ∃ hours : ℕ, hours ≤ 48 ∧ zone.periodsForLocal (wall + 3600 * hours) ≠ [] ∧
      ∀ earlier < hours, zone.periodsForLocal (wall + 3600 * (earlier : ℤ)) = [] := by
    by_cases hempty : zone.periodsForLocal wall = []
    · obtain ⟨hours, hvalid, hgap⟩ := zone.through_gap wall hempty
      have hlt := zone.hours_le_of_gap hgap
      refine ⟨hours + 1, by omega, by exact_mod_cast hvalid, ?_⟩
      intro earlier hearlier
      exact hgap _ (by omega) (by omega)
    · exact ⟨0, by omega, by simpa using hempty, fun _ hlt => absurd hlt (Nat.not_lt_zero _)⟩
  obtain ⟨hours, hle, hvalid, hgap⟩ := hfound
  obtain ⟨period, hperiod, hchosen⟩ := zone.periodForLocal?_mem hvalid
  refine ⟨hours, period, hle, hperiod, ?_⟩
  intro fuel hfuel
  rw [atLocal, zone.ensureValidLocalTime_of_gap (by omega) hvalid hgap]
  simp [hchosen]

end Zone

/-! ## Zones with one change of the clocks -/

/-- The zone whose clocks change at one second, from one period to another. -/
def Zone.changing (change : ℤ) (before after : ZonePeriod)
    (hbefore : |before.utcTotalOffset| < 86400) (hafter : |after.utcTotalOffset| < 86400) :
    Zone where
  periodForUtc second := if second < change then before else after
  periodsForLocal wall :=
    (if wall - before.utcTotalOffset < change then [before] else []) ++
      if change ≤ wall - after.utcTotalOffset then [after] else []
  mem_periodsForLocal wall period := by
    constructor
    · intro h
      rcases List.mem_append.mp h with h | h
      · split at h
        case isTrue hlt =>
          rw [List.mem_singleton.mp h, if_pos hlt]
        case isFalse => cases h
      · split at h
        case isTrue hle =>
          rw [List.mem_singleton.mp h, if_neg (not_lt.mpr hle)]
        case isFalse => cases h
    · intro h
      split at h
      case isTrue hlt =>
        subst h
        exact List.mem_append_left _ (by simp [hlt])
      case isFalse hle =>
        subst h
        exact List.mem_append_right _ (by simp [not_lt.mp hle])
  offset_lt second := by
    split
    · exact hbefore
    · exact hafter
  through_gap wall h := by
    rw [List.append_eq_nil_iff] at h
    have hstart : change ≤ wall - before.utcTotalOffset := by
      by_contra hlt
      simp [not_le.mp hlt] at h
    have hend : wall - after.utcTotalOffset < change := by
      by_contra hle
      simp [not_lt.mp hle] at h
    -- The last hour that is tried before the clocks show the time again.
    have hhours : ((change + after.utcTotalOffset - 1 - wall) / 3600).toNat =
        (change + after.utcTotalOffset - 1 - wall) / 3600 := Int.toNat_of_nonneg (by omega)
    refine ⟨((change + after.utcTotalOffset - 1 - wall) / 3600).toNat, ?_, ?_⟩
    · rw [hhours, if_pos (c := change ≤ _) (by omega)]
      simp
    · intro other hfrom hto
      rw [hhours] at hto
      rw [if_neg (by omega), if_neg (by omega), List.append_nil]

end LearningPlatform.Shared
