import LearningPlatform.Shared.Merge
import LearningPlatform.Verification.OfficeHours.Occurrences

/-! # The upcoming occurrences of several office hours

Every office hour has a sequence of occurrences from an instant on, which never ends if it is
weekly. The serialized list takes the first entries of the merge of these sequences. -/

namespace LearningPlatform

open Shared Stream'

/-! ## The sequence of an office hour -/

namespace OfficeHour

variable {zone : Zone} {officeHour : OfficeHour} {fromTime : Instant}

/-- All occurrences that `upcoming_occurrences` lists with growing limits. -/
def occurrenceSequence (zone : Zone) (officeHour : OfficeHour) (fromTime : Instant) :
    Seq Occurrence :=
  if !officeHour.active then Seq.nil
  else
    match officeHour.recurrence with
    | .once =>
      if officeHour.endsAt < fromTime then Seq.nil
      else Seq.ofList [officeHour.occurrenceFor officeHour.startsAt]
    | .weekly => Seq.ofStream fun index =>
      officeHour.weeklyOccurrence zone (officeHour.foundWeek zone fromTime + index)

theorem upcomingOccurrences_eq_take {fuel : ℕ}
    (hfuel : 49 + officeHour.foundWeek zone fromTime ≤ fuel) (limit : ℕ) :
    officeHour.upcomingOccurrences zone fuel limit fromTime =
      some ((officeHour.occurrenceSequence zone fromTime).take limit) := by
  by_cases hactive : officeHour.active = true
  · cases hrecurrence : officeHour.recurrence with
    | once =>
      by_cases hended : officeHour.endsAt < fromTime
      · simp [upcomingOccurrences, occurrenceSequence, hactive, hrecurrence, hended]
      · have htake := take_ofList [officeHour.occurrenceFor officeHour.startsAt] limit
        simp [upcomingOccurrences, occurrenceSequence, hactive, hrecurrence, hended, ← htake]
    | weekly =>
      rw [upcomingOccurrences_eq hactive hrecurrence hfuel, ← take_ofStream]
      simp [occurrenceSequence, hactive, hrecurrence]
  · simp [upcomingOccurrences, occurrenceSequence, hactive]

theorem occurrenceSequence_ordered (zone : Zone) (officeHour : OfficeHour) (fromTime : Instant) :
    (officeHour.occurrenceSequence zone fromTime).Pairwise (·.startsAt ≤ ·.startsAt) := by
  by_cases hactive : officeHour.active = true
  · cases hrecurrence : officeHour.recurrence with
    | once =>
      by_cases hended : officeHour.endsAt < fromTime
      · simp [occurrenceSequence, hactive, hrecurrence, hended]
      · intro i j hlt a _ b hb
        obtain ⟨k, rfl⟩ : ∃ k, j = k + 1 := ⟨j - 1, by omega⟩
        simp [occurrenceSequence, hactive, hrecurrence, hended] at hb
    | weekly =>
      have hweekly : officeHour.occurrenceSequence zone fromTime = Seq.ofStream fun index =>
          officeHour.weeklyOccurrence zone (officeHour.foundWeek zone fromTime + index) := by
        simp [occurrenceSequence, hactive, hrecurrence]
      rw [hweekly]
      intro i j hlt a ha b hb
      cases ha
      cases hb
      exact (officeHour.weeklyStart_strictMono zone (Nat.add_lt_add_left hlt _)).le
  · simp [occurrenceSequence, hactive]

end OfficeHour

/-! ## The serialized list -/

namespace OfficeHourSerializer

variable {officeHours : List OfficeHour} {expand : OfficeHour → List Occurrence}

/-- Rows with one id are one row, so the hash returns what was computed for it. -/
theorem fetch_map_eq (hrows : ∀ a ∈ officeHours, ∀ b ∈ officeHours, a.id = b.id → a = b)
    {officeHour : OfficeHour} (h : officeHour ∈ officeHours) :
    fetch (officeHours.map fun row => (row, expand row)) officeHour = expand officeHour := by
  unfold fetch
  cases hfind : (officeHours.map fun row => (row, expand row)).findRev? fun entry =>
      entry.1.id == officeHour.id with
  | none =>
    rw [List.findRev?_eq_find?_reverse, List.find?_eq_none] at hfind
    exact absurd (beq_self_eq_true officeHour.id)
      (hfind (officeHour, expand officeHour) (by simpa using h))
  | some entry =>
    rw [List.findRev?_eq_find?_reverse] at hfind
    have hid : entry.1.id = officeHour.id := by simpa using List.find?_some hfind
    obtain ⟨row, hrow, rfl⟩ :=
      List.mem_map.mp (List.mem_reverse.mp (List.mem_of_find?_eq_some hfind))
    simp [hrows row hrow officeHour h hid]

/-- Although every office hour is expanded only to the larger limit, the upcoming list is the
first entries of the merge of all the sequences in the order of the starts. -/
theorem upcoming_first_of_merge {sortBy : List OccurrenceJson → List OccurrenceJson}
    (hsort : SortsByStart sortBy) (upcomingOccurrences : OfficeHour → ℕ → List Occurrence)
    (sequence : OfficeHour → Seq Occurrence) (officeHours : List OfficeHour)
    (hrows : ∀ a ∈ officeHours, ∀ b ∈ officeHours, a.id = b.id → a = b)
    (hstart : ∀ officeHour ∈ officeHours, ∀ limit,
      upcomingOccurrences officeHour limit = (sequence officeHour).take limit)
    (hordered : ∀ officeHour ∈ officeHours,
      (sequence officeHour).Pairwise (·.startsAt ≤ ·.startsAt))
    (users : ℕ → Option CreatorJson) (occurrenceLimit upcomingLimit : ℕ) :
    FirstOfMerge OccurrenceJson.startsAt upcomingLimit
      (officeHours.map fun officeHour => (sequence officeHour).map (occurrenceJson officeHour))
      (collectionJson sortBy upcomingOccurrences users officeHours occurrenceLimit
        upcomingLimit).upcoming := by
  refine firstOfMerge_of_perm ?_ ((hsort.perm _).trans (List.Perm.of_eq ?_)) (hsort.ordered _)
  · intro s hs
    obtain ⟨officeHour, hmem, rfl⟩ := List.mem_map.mp hs
    intro i j hlt a ha b hb
    rw [Seq.map_get?] at ha hb
    obtain ⟨first, hfirst, rfl⟩ := Option.map_eq_some_iff.mp ha
    obtain ⟨second, hsecond, rfl⟩ := Option.map_eq_some_iff.mp hb
    exact hordered officeHour hmem i j hlt first hfirst second hsecond
  · rw [List.flatMap_map]
    apply List.flatMap_congr
    intro officeHour hmem
    rw [fetch_map_eq hrows hmem, hstart officeHour hmem,
      take_take_seq _ (le_max_right _ _), take_map_seq]

namespace SerializerExample

open OfficeHour.CompletenessExample

/-- A weekly lab and a session on the second day. -/
def labAndReview : List OfficeHour :=
  [lasting 2,
    { id := 2, cohortId := 1, title := "Review", startsAt := 1772496000000000
      endsAt := 1772499600000000, meetingUrl := "https://meet.example.com/review" }]

def expandHour (officeHour : OfficeHour) (limit : ℕ) : List Occurrence :=
  (officeHour.upcomingOccurrences guam 60 limit 1772409600000000).getD []

theorem expandHour_eq_take {officeHour : OfficeHour} (h : officeHour ∈ labAndReview) (limit : ℕ) :
    expandHour officeHour limit =
      (officeHour.occurrenceSequence guam 1772409600000000).take limit := by
  have hfound : officeHour.foundWeek guam 1772409600000000 ≤ 0 := by
    apply Nat.find_min'
    revert officeHour
    decide +kernel
  rw [expandHour, OfficeHour.upcomingOccurrences_eq_take (by omega)]
  rfl

/-- One occurrence is shown with each office hour, three in the merged list. -/
theorem lab_and_review_merged :
    FirstOfMerge OccurrenceJson.startsAt 3
        (labAndReview.map fun officeHour =>
          (officeHour.occurrenceSequence guam 1772409600000000).map (occurrenceJson officeHour))
        (collectionJson (orderBy OccurrenceJson.startsAt) expandHour (fun _ => none) labAndReview 1
          3).upcoming ∧
      ((collectionJson (orderBy OccurrenceJson.startsAt) expandHour (fun _ => none) labAndReview 1
          3).upcoming.map fun entry => (entry.officeHourId, entry.startsAt)) =
        [(1, 1772409600000000), (2, 1772496000000000), (1, 1773014400000000)] :=
  ⟨upcoming_first_of_merge ⟨orderBy_perm _, pairwise_orderBy _⟩ expandHour _ labAndReview
      (by decide +kernel) (fun _ => expandHour_eq_take)
      (fun _ _ => OfficeHour.occurrenceSequence_ordered _ _ _) _ 1 3,
    by decide +kernel⟩

end SerializerExample

end OfficeHourSerializer

end LearningPlatform
