import LearningPlatform.Model.SubmissionQueue
import Mathlib.Data.Prod.Lex

/-! # The order of the queue

The comparator compares ranks: whether a submission is the newest of its assignment, then its time
and its id. Submissions with distinct ids have distinct ranks, so that their queue is one sorted
list however they are listed. -/

namespace LearningPlatform.SubmissionQueue

open Shared

/-! ## The newest submission of an assignment -/

def QueueSubmission.createdKey (submission : QueueSubmission) : ℤ ×ₗ ℕ :=
  toLex (submission.createdAt.getD 0, submission.id)

theorem compareNewestFirst_iff {a b : QueueSubmission} (ha : a.createdAt.isSome)
    (hb : b.createdAt.isSome) :
    (compareNewestFirst a b < 0 ↔ b.createdKey < a.createdKey) ∧
      (compareNewestFirst a b ≤ 0 ↔ b.createdKey ≤ a.createdKey) := by
  obtain ⟨first, hfirst⟩ := Option.isSome_iff_exists.mp ha
  obtain ⟨second, hsecond⟩ := Option.isSome_iff_exists.mp hb
  simp only [compareNewestFirst, QueueSubmission.createdKey, hfirst, hsecond, Option.getD_some,
    Prod.Lex.toLex_lt_toLex, Prod.Lex.toLex_le_toLex]
  split <;> omega

theorem assignment_inj {first second : QueueSubmission} :
    assignment first = assignment second ↔
      first.userId = second.userId ∧ first.contentBlockId = second.contentBlockId := by
  constructor
  · intro h
    simpa using joinDecimals_injective (by decide) h
  · rintro ⟨huser, hblock⟩
    rw [assignment, huser, hblock]
    rfl

section Queue

variable {τ : Type*} {fields : τ → QueueSubmission} {submissions submissions' : List τ}

/-- No submission of the student on the block is newer. -/
def NewestOfAssignment (fields : τ → QueueSubmission) (submissions : List τ) (submission : τ) :
    Prop :=
  IsNewest (fun other => (fields other).createdKey)
    (submissions.filter fun other => (fields other).userId = (fields submission).userId ∧
      (fields other).contentBlockId = (fields submission).contentBlockId) submission

/-- Distinct ids and valid timestamps. -/
structure Listed (fields : τ → QueueSubmission) (submissions : List τ) : Prop where
  ids : (submissions.map fun submission => (fields submission).id).Nodup
  valid : ∀ submission ∈ submissions, (fields submission).createdAt.isSome

theorem Listed.perm (h : Listed fields submissions) (hperm : submissions'.Perm submissions) :
    Listed fields submissions' where
  ids := (hperm.map _).nodup_iff.mpr h.ids
  valid submission hmem := h.valid submission (hperm.mem_iff.mp hmem)

theorem Listed.keysDistinct (h : Listed fields submissions) :
    KeysDistinct (fun submission => (fields submission).createdKey) submissions := by
  intro first hfirst second hsecond hsame
  exact List.inj_on_of_nodup_map h.ids hfirst hsecond (congrArg (fun key => (ofLex key).2) hsame)

theorem mem_getLatestSubmissionIds (h : Listed fields submissions) {submission : τ}
    (hmem : submission ∈ submissions) :
    (fields submission).id ∈ getLatestSubmissionIds fields submissions ↔
      NewestOfAssignment fields submissions submission := by
  have hbetter : ∀ first ∈ submissions, ∀ second ∈ submissions,
      decide (compareNewestFirst (fields first) (fields second) < 0) =
        decide ((fields second).createdKey < (fields first).createdKey) := by
    intro first hfirst second hsecond
    exact decide_eq_decide.mpr (compareNewestFirst_iff (h.valid _ hfirst) (h.valid _ hsecond)).1
  have hgroup (other : τ) : (submissions.filter fun row =>
        (assignment ∘ fields) row = (assignment ∘ fields) other) =
      submissions.filter fun row => (fields row).userId = (fields other).userId ∧
        (fields row).contentBlockId = (fields other).contentBlockId := by
    refine List.filter_congr fun row _ => ?_
    exact decide_eq_decide.mpr assignment_inj
  have hentry (key : String) (other : τ) :
      (key, other) ∈ submissions.foldl (keepBetter (assignment ∘ fields) fun first second =>
          decide (compareNewestFirst (fields first) (fields second) < 0)) [] ↔
        IsNewest (fun row => (fields row).createdKey)
          (submissions.filter fun row => (assignment ∘ fields) row = key) other :=
    mem_foldl_keepBetter_iff h.keysDistinct hbetter
  rw [getLatestSubmissionIds, List.mem_map, NewestOfAssignment, ← hgroup]
  constructor
  · rintro ⟨⟨key, other⟩, hmap, hid⟩
    have hnewest := (hentry key other).mp hmap
    obtain ⟨hother, hkey⟩ := List.mem_filter.mp hnewest.mem
    obtain rfl := List.inj_on_of_nodup_map h.ids hother hmem hid
    rwa [← of_decide_eq_true hkey] at hnewest
  · intro hnewest
    exact ⟨_, (hentry _ submission).mpr hnewest, rfl⟩

/-! ## Ranks -/

/-- What the comparator compares. -/
def rank (fields : τ → QueueSubmission) (latestIds : List ℕ) (submission : τ) :
    Bool ×ₗ (ℤ ×ₗ ℕ) :=
  toLex (latestIds.contains (fields submission).id, (fields submission).createdKey)

theorem compareInQueue_nonpos {latestIds : List ℕ} {a b : τ} (ha : (fields a).createdAt.isSome)
    (hb : (fields b).createdAt.isSome) :
    compareInQueue latestIds (fields a) (fields b) ≤ 0 ↔
      rank fields latestIds b ≤ rank fields latestIds a := by
  simp only [compareInQueue, rank, Prod.Lex.toLex_le_toLex, ← (compareNewestFirst_iff ha hb).2]
  cases latestIds.contains (fields a).id <;> cases latestIds.contains (fields b).id <;> simp

theorem orderSubmissionQueue_pairwise (h : Listed fields submissions)
    (filter : SubmissionQueueFilter) :
    (orderSubmissionQueue fields submissions filter).Pairwise fun a b =>
      rank fields (getLatestSubmissionIds fields submissions) b ≤
        rank fields (getLatestSubmissionIds fields submissions) a := by
  let falls (a b : τ) : Prop := rank fields (getLatestSubmissionIds fields submissions) b ≤
    rank fields (getLatestSubmissionIds fields submissions) a
  have : Std.Total falls := ⟨fun a b => le_total _ _⟩
  have : IsTrans τ falls := ⟨fun a b c hab hbc => le_trans hbc hab⟩
  have hsame := List.map_insertionSort (s := falls) (r := fun a b =>
      compareInQueue (getLatestSubmissionIds fields submissions) (fields a) (fields b) ≤ 0) id
    (submissions.filter fun submission => accepts filter (fields submission)) (by
      intro a ha b hb
      exact compareInQueue_nonpos (h.valid a (List.mem_filter.mp ha).1)
        (h.valid b (List.mem_filter.mp hb).1))
  rw [List.map_id, List.map_id] at hsame
  rw [orderSubmissionQueue, hsame]
  exact List.pairwise_insertionSort falls _

/-! ## The queue -/

/-- The first of two submissions may stand before the second. -/
structure InOrder (fields : τ → QueueSubmission) (submissions : List τ) (a b : τ) : Prop where
  latestFirst : NewestOfAssignment fields submissions b → NewestOfAssignment fields submissions a
  newestFirst : (NewestOfAssignment fields submissions a ↔
    NewestOfAssignment fields submissions b) → (fields b).createdKey < (fields a).createdKey

theorem newestOfAssignment_perm (hperm : submissions'.Perm submissions) {submission : τ} :
    NewestOfAssignment fields submissions' submission ↔
      NewestOfAssignment fields submissions submission :=
  isNewest_congr fun _ => (hperm.filter _).mem_iff

theorem inOrder_perm (hperm : submissions'.Perm submissions) {a b : τ}
    (h : InOrder fields submissions' a b) : InOrder fields submissions a b where
  latestFirst := by
    simpa only [newestOfAssignment_perm hperm] using h.latestFirst
  newestFirst := by
    simpa only [newestOfAssignment_perm hperm] using h.newestFirst

theorem InOrder.asymm {a b : τ} (h : InOrder fields submissions a b) :
    ¬InOrder fields submissions b a := by
  intro hback
  have hfirst := h.newestFirst ⟨hback.latestFirst, h.latestFirst⟩
  have hsecond := hback.newestFirst ⟨h.latestFirst, hback.latestFirst⟩
  exact lt_asymm hfirst hsecond

theorem orderSubmissionQueue_perm (filter : SubmissionQueueFilter) :
    (orderSubmissionQueue fields submissions filter).Perm
      (submissions.filter fun submission => accepts filter (fields submission)) :=
  List.perm_insertionSort _ _

theorem orderSubmissionQueue_inOrder (h : Listed fields submissions)
    (filter : SubmissionQueueFilter) :
    (orderSubmissionQueue fields submissions filter).Pairwise (InOrder fields submissions) := by
  have hmem (submission : τ)
      (hqueue : submission ∈ orderSubmissionQueue fields submissions filter) :
      submission ∈ submissions :=
    (List.mem_filter.mp ((orderSubmissionQueue_perm filter).mem_iff.mp hqueue)).1
  have hnodup : (orderSubmissionQueue fields submissions filter).Nodup := by
    rw [(orderSubmissionQueue_perm filter).nodup_iff]
    exact h.ids.of_map.filter _
  refine List.Pairwise.imp_of_mem ?_ ((orderSubmissionQueue_pairwise h filter).and hnodup)
  rintro a b ha hb ⟨hrank, hne⟩
  rw [rank, rank, Prod.Lex.toLex_le_toLex, Bool.lt_iff] at hrank
  have hdistinct := h.keysDistinct a (hmem a ha) b (hmem b hb)
  constructor
  · rw [← mem_getLatestSubmissionIds h (hmem a ha), ← mem_getLatestSubmissionIds h (hmem b hb)]
    intro hlatest
    rcases hrank with ⟨hnot, -⟩ | ⟨hsame, -⟩
    · simp [hlatest] at hnot
    · simpa [hlatest] using hsame
  · rw [← mem_getLatestSubmissionIds h (hmem a ha), ← mem_getLatestSubmissionIds h (hmem b hb)]
    intro hgroup
    have hle : (fields b).createdKey ≤ (fields a).createdKey := by
      rcases hrank with ⟨hnot, hlatest⟩ | ⟨-, hle⟩
      · have hb := hgroup.mp (by simpa using hlatest)
        simp [hb] at hnot
      · exact hle
    exact lt_of_le_of_ne hle fun hsame => hne (hdistinct hsame.symm)

/-- The queue has the submissions that the filter accepts, the newest of their assignments first
and each group with the newest first, in whatever order they are listed. -/
theorem queue_of_accepted_in_order (fields : τ → QueueSubmission) (submissions : List τ)
    (h : Listed fields submissions) (filter : SubmissionQueueFilter) :
    (orderSubmissionQueue fields submissions filter).Perm
        (submissions.filter fun submission => accepts filter (fields submission)) ∧
      (orderSubmissionQueue fields submissions filter).Pairwise (InOrder fields submissions) ∧
      ∀ submissions' : List τ, submissions'.Perm submissions →
        orderSubmissionQueue fields submissions' filter =
          orderSubmissionQueue fields submissions filter := by
  refine ⟨orderSubmissionQueue_perm filter, orderSubmissionQueue_inOrder h filter, ?_⟩
  intro submissions' hperm
  have hinOrder := (orderSubmissionQueue_inOrder (h.perm hperm) filter).imp (inOrder_perm hperm)
  refine List.Perm.eq_of_pairwise ?_ hinOrder (orderSubmissionQueue_inOrder h filter) ?_
  · intro a b _ _ hab hba
    exact absurd hba hab.asymm
  · have haccepted := hperm.filter fun submission => accepts filter (fields submission)
    exact (orderSubmissionQueue_perm filter).trans
      (haccepted.trans (orderSubmissionQueue_perm filter).symm)

end Queue

namespace QueueExample

/-- A student has submitted again; another one has submitted once in between. -/
def resubmitted : List QueueSubmission :=
  [⟨1, 4, 8, some "R", some 1767225600000⟩, ⟨2, 4, 8, some "R", some 1767398400000⟩,
    ⟨3, 5, 9, some "R", some 1767312000000⟩, ⟨4, 5, 10, none, some 1767312000000⟩]

theorem resubmitted_reversed_in_queue :
    (orderSubmissionQueue id resubmitted.reverse .redo).map (·.id) = [2, 3, 1] := by
  have hqueue := queue_of_accepted_in_order id resubmitted ⟨by decide, by decide⟩ .redo
  rw [hqueue.2.2 resubmitted.reverse (List.reverse_perm _)]
  decide +kernel

end QueueExample

end LearningPlatform.SubmissionQueue
