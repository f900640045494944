import LearningPlatform.Shared.JoinedKey
import LearningPlatform.Shared.Newest

/-! # The queue of submissions

`web/src/lib/submissionQueue.ts`: the submissions that staff step through while grading. -/

namespace LearningPlatform.SubmissionQueue

open Shared

inductive SubmissionQueueFilter
  | ungraded
  | redo
  | all
  deriving DecidableEq, Repr

structure QueueSubmission where
  id : ℕ
  userId : ℕ
  contentBlockId : ℕ
  grade : Option String
  /-- The milliseconds that `getTime` gives; none for a text that is no date. -/
  createdAt : Option ℤ
  deriving DecidableEq, Repr

/-- Zero and `NaN` leave it to the ids. -/
def compareNewestFirst (a b : QueueSubmission) : ℤ :=
  match a.createdAt, b.createdAt with
  | some first, some second =>
    if second - first ≠ 0 then second - first else (b.id : ℤ) - a.id
  | _, _ => (b.id : ℤ) - a.id

section

variable {τ : Type*} (fields : τ → QueueSubmission)

/-- The key of the map, `${user_id}:${content_block_id}`. -/
def assignment (submission : QueueSubmission) : String :=
  joinDecimals ':' [submission.userId, submission.contentBlockId]

/-- `getLatestSubmissionIds`: the map is filled in the order of the list. -/
def getLatestSubmissionIds (submissions : List τ) : List ℕ :=
  (submissions.foldl (keepBetter (assignment ∘ fields) fun submission current =>
    decide (compareNewestFirst (fields submission) (fields current) < 0)) []).map
      fun entry => (fields entry.2).id

def accepts (filter : SubmissionQueueFilter) (submission : QueueSubmission) : Bool :=
  match filter with
  | .ungraded => submission.grade == none
  | .redo => submission.grade == some "R"
  | .all => true

/-- The comparator of the queue. -/
def compareInQueue (latestIds : List ℕ) (a b : QueueSubmission) : ℤ :=
  let aLatest := latestIds.contains a.id
  let bLatest := latestIds.contains b.id
  if aLatest ≠ bLatest then if aLatest then -1 else 1 else compareNewestFirst a b

/-- `sort` is stable: an element stays before those that compare as equal. -/
def orderSubmissionQueue (submissions : List τ) (filter : SubmissionQueueFilter) : List τ :=
  let latestIds := getLatestSubmissionIds fields submissions
  (submissions.filter fun submission => accepts filter (fields submission)).insertionSort
    fun a b => compareInQueue latestIds (fields a) (fields b) ≤ 0

end

end LearningPlatform.SubmissionQueue
