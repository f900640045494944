import LearningPlatform.Model.Params
import Mathlib.Data.List.Sort
import Mathlib.Algebra.Group.Nat.Defs

/-! # Check runs of a submission's commit

`GithubCheckRunSyncService`, `GithubCheckRun` and `GithubCheckRunSerializer`. Ruby's `URI.parse` and
the answers of GitHub are parameters. -/

namespace LearningPlatform

open Shared

/-! ## Rows -/

inductive CheckStatus where
  | completed
  | inProgress
  | pending
  | queued
  | requested
  | waiting
  deriving DecidableEq, Repr

inductive CheckConclusion where
  | actionRequired
  | cancelled
  | failure
  | neutral
  | skipped
  | stale
  | startupFailure
  | success
  | timedOut
  deriving DecidableEq, Repr

def CheckStatus.label : CheckStatus → String
  | .completed => "completed"
  | .inProgress => "in_progress"
  | .pending => "pending"
  | .queued => "queued"
  | .requested => "requested"
  | .waiting => "waiting"

def checkStatuses : List CheckStatus :=
  [.completed, .inProgress, .pending, .queued, .requested, .waiting]

def CheckConclusion.label : CheckConclusion → String
  | .actionRequired => "action_required"
  | .cancelled => "cancelled"
  | .failure => "failure"
  | .neutral => "neutral"
  | .skipped => "skipped"
  | .stale => "stale"
  | .startupFailure => "startup_failure"
  | .success => "success"
  | .timedOut => "timed_out"

def checkConclusions : List CheckConclusion :=
  [.actionRequired, .cancelled, .failure, .neutral, .skipped, .stale, .startupFailure, .success,
    .timedOut]

/-- A row of `github_check_runs` with the columns that the service writes. -/
structure StoredCheckRun extends GithubCheckRun where
  externalId : ℕ
  name : String
  workflowName : Option String
  appSlug : Option String
  headSha : String
  status : CheckStatus
  conclusion : Option CheckConclusion
  detailsUrl : Option String
  startedAt : Option Time
  completedAt : Option Time
  fetchedAt : Time
  deriving DecidableEq, Repr

/-- An entry of `check_runs` in an answer of GitHub; a key that is absent or null is `none`. -/
structure CheckRunAttributes where
  id : Option ℕ
  name : Option String
  /-- `check_suite.app.name`. -/
  workflowName : Option String := none
  /-- `app.slug`. -/
  appSlug : Option String := none
  headSha : Option String
  status : Option String
  conclusion : Option String := none
  detailsUrl : Option String := none
  startedAt : Option Time := none
  completedAt : Option Time := none
  deriving DecidableEq, Repr

/-- What GitHub says of the run, as the row has it. -/
def StoredCheckRun.attributes (run : StoredCheckRun) : CheckRunAttributes where
  id := some run.externalId
  name := some run.name
  workflowName := run.workflowName
  appSlug := run.appSlug
  headSha := some run.headSha
  status := some run.status.label
  conclusion := run.conclusion.map CheckConclusion.label
  detailsUrl := run.detailsUrl
  startedAt := run.startedAt
  completedAt := run.completedAt

namespace StoredCheckRun

def passed (run : StoredCheckRun) : Bool :=
  run.conclusion == some .success

def failed (run : StoredCheckRun) : Bool :=
  [some .actionRequired, some .failure, some .startupFailure, some .timedOut].contains
    run.conclusion

def pending (run : StoredCheckRun) : Bool :=
  run.status != .completed

end StoredCheckRun

structure CheckRunStore where
  runs : List StoredCheckRun := []
  nextId : ℕ := 1
  deriving DecidableEq

/-! ## Addresses -/

structure Uri where
  /-- In lower case, as `URI.parse` gives it. -/
  scheme : Option String
  host : Option String
  path : String
  deriving DecidableEq, Repr

/-- An answer to `github_get`. -/
inductive CheckRunResponse where
  /-- The address of the request is no URI. -/
  | invalidUri
  /-- The request raises another error. -/
  | raised
  | failed (code : ℕ)
  | page (checkRuns : List CheckRunAttributes) (totalCount : Option ℕ)
  deriving DecidableEq, Repr

def invalidUriMessage : String :=
  "The submission repository URL is invalid"

def unavailableMessage : String :=
  "GitHub checks are temporarily unavailable"

/-- `delete_suffix(".git")`. -/
def deleteGitSuffix (repository : String) : String :=
  if ".git".toList.isSuffixOf repository.toList then
    String.ofList (repository.toList.take (repository.toList.length - 4))
  else repository

def pathParts (path : String) : List String :=
  ((path.toList.splitOn '/').map String.ofList).filter fun part => !blank? part

/-- The body of the loop of `repository_coordinates`. -/
def coordinatesOf (uri : Uri) : Option (String × String) :=
  if uri.scheme = some "https" ∧ uri.host = some "github.com" then
    match pathParts uri.path with
    | owner :: repository :: _ => some (owner, deleteGitSuffix repository)
    | _ => none
  else none

def firstCoordinates (parseUri : String → Option Uri) :
    List String → Except String (Option (String × String))
  | [] => .ok none
  | value :: values =>
    match parseUri value with
    | none => .error invalidUriMessage
    | some uri =>
      match coordinatesOf uri with
      | some coordinates => .ok (some coordinates)
      | none => firstCoordinates parseUri values

def repositoryCoordinates (parseUri : String → Option Uri) (submission : Submission) :
    Except String (Option (String × String)) :=
  firstCoordinates parseUri
    ([submission.content.repoUrl, submission.content.prUrl,
      submission.content.githubCodeUrl].filterMap presence)

def checkRunsUrl (owner repository commitSha : String) : String :=
  "https://api.github.com/repos/" ++ owner ++ "/" ++ repository ++ "/commits/" ++ commitSha ++
    "/check-runs"

/-! ## Pages -/

/-- The loop of `fetch_runs` from a page on with the runs of the pages before; `none` if it has not
stopped after `fuel` requests. -/
def fetchRuns (github : ℕ → CheckRunResponse) :
    ℕ → ℕ → List CheckRunAttributes → Option (Except String (List CheckRunAttributes))
  | 0, _, _ => none
  | fuel + 1, page, runs =>
    match github page with
    | .invalidUri => some (.error invalidUriMessage)
    | .raised => some (.error unavailableMessage)
    | .failed code =>
      some (.error ("GitHub checks could not be loaded (HTTP " ++ toString code ++ ")"))
    | .page pageRuns totalCount =>
      let loaded := runs ++ pageRuns
      let total := totalCount.getD loaded.length
      if pageRuns = [] ∧ loaded.length < total then
        some (.error "GitHub returned an incomplete check list")
      else if total ≤ loaded.length then some (.ok loaded)
      else fetchRuns github fuel (page + 1) loaded

/-! ## The transaction -/

def detailsUrlUsesHttps (parseUri : String → Option Uri) (detailsUrl : Option String) : Bool :=
  match presence detailsUrl with
  | none => true
  | some url =>
    match parseUri url with
    | none => false
    | some uri => uri.scheme == some "https" && (presence uri.host).isSome

/-- `inclusion: { in: CONCLUSIONS }, allow_nil: true`. -/
def parseConclusion : Option String → Option (Option CheckConclusion)
  | none => some none
  | some text => (checkConclusions.find? (·.label == text)).map some

/-- The row that `update!` saves under an id, if the attributes are complete and valid. -/
def buildRun (parseUri : String → Option Uri) (id submissionId : ℕ)
    (attributes : CheckRunAttributes) (now : Time) : Option StoredCheckRun :=
  match attributes.id, presence attributes.name, presence attributes.headSha,
      attributes.status.bind (fun text => checkStatuses.find? (·.label == text)),
      parseConclusion attributes.conclusion with
  | some externalId, some name, some headSha, some status, some conclusion =>
    -- `external_id` is a bigint.
    if externalId < 2 ^ 63 ∧ detailsUrlUsesHttps parseUri attributes.detailsUrl then
      some { id, submissionId, externalId, name, headSha, status, conclusion
             workflowName := attributes.workflowName
             appSlug := attributes.appSlug
             detailsUrl := attributes.detailsUrl
             startedAt := attributes.startedAt
             completedAt := attributes.completedAt
             fetchedAt := now }
    else none
  | _, _, _, _, _ => none

namespace CheckRunStore

def find? (s : CheckRunStore) (submissionId : ℕ) (externalId : Option ℕ) :
    Option StoredCheckRun :=
  s.runs.find? fun run => run.submissionId == submissionId && some run.externalId == externalId

def upsertRun (parseUri : String → Option Uri) (submissionId : ℕ) (now : Time) (s : CheckRunStore)
    (attributes : CheckRunAttributes) : Option (StoredCheckRun × CheckRunStore) :=
  match s.find? submissionId attributes.id with
  | some old =>
    (buildRun parseUri old.id submissionId attributes now).map fun run =>
      (run, { s with runs := updateAll (·.id == old.id) (fun _ => run) s.runs })
  | none =>
    (buildRun parseUri s.nextId submissionId attributes now).map fun run =>
      (run, { runs := s.runs ++ [run], nextId := s.nextId + 1 })

def upsertRuns (parseUri : String → Option Uri) (submissionId : ℕ) (now : Time) :
    CheckRunStore → List CheckRunAttributes → Option (List StoredCheckRun × CheckRunStore)
  | s, [] => some ([], s)
  | s, attributes :: rest =>
    (upsertRun parseUri submissionId now s attributes).bind fun saved =>
      (upsertRuns parseUri submissionId now saved.2 rest).map fun others =>
        (saved.1 :: others.1, others.2)

/-- `github_check_runs.where(head_sha: commit_sha)`, the scope `current_for`. -/
def current (submission : Submission) (run : StoredCheckRun) : Bool :=
  run.submissionId == submission.id && some run.headSha == submission.content.commitSha

def pruneObsoleteCurrentCommitRuns (s : CheckRunStore) (submission : Submission)
    (runs : List CheckRunAttributes) : CheckRunStore :=
  { s with
    runs := deleteAll (fun run => current submission run &&
      (runs.isEmpty || !(runs.map (·.id)).contains (some run.externalId))) s.runs }

/-- The order of `imported.sort_by`. -/
def completedBefore (first second : StoredCheckRun) : Prop :=
  first.completedAt.getD 0 < second.completedAt.getD 0 ∨
    (first.completedAt.getD 0 = second.completedAt.getD 0 ∧ first.id ≤ second.id)

instance : DecidableRel completedBefore := fun _ _ => inferInstanceAs (Decidable (_ ∨ _ ∧ _))

/-- The transaction of `call`. -/
def importRuns (parseUri : String → Option Uri) (s : CheckRunStore) (submission : Submission)
    (now : Time) (runs : List CheckRunAttributes) :
    Except String (List StoredCheckRun) × CheckRunStore :=
  match upsertRuns parseUri submission.id now s runs with
  | none => (.error unavailableMessage, s)
  | some (imported, saved) =>
    (.ok (imported.insertionSort completedBefore).reverse,
      saved.pruneObsoleteCurrentCommitRuns submission runs)

/-- `GithubCheckRunSyncService#call` with at most `fuel` requests; `github` answers to an address
and a page. -/
def call (parseUri : String → Option Uri) (github : String → ℕ → CheckRunResponse) (fuel : ℕ)
    (s : CheckRunStore) (submission : Submission) (now : Time) :
    Option (Except String (List StoredCheckRun) × CheckRunStore) :=
  match repositoryCoordinates parseUri submission with
  | .error message => some (.error message, s)
  | .ok none =>
    some (.error "A GitHub repository URL is required before checks can be refreshed", s)
  | .ok (some (owner, repository)) =>
    match presence submission.content.commitSha with
    | none => some (.error "A commit SHA is required before checks can be refreshed", s)
    | some commitSha =>
      (fetchRuns (github (checkRunsUrl owner repository commitSha)) fuel 1 []).map fun
        | .error message => (.error message, s)
        | .ok runs => s.importRuns parseUri submission now runs

/-! ## The runs that are shown -/

def currentFor (s : CheckRunStore) (submission : Submission) : List StoredCheckRun :=
  s.runs.filter (current submission)

/-- A null comes first in a descending order. -/
def descending (first second : Option Time) : Prop :=
  match first, second with
  | none, _ => True
  | some _, none => False
  | some first, some second => second ≤ first

instance : DecidableRel descending
  | none, _ => .isTrue trivial
  | some _, none => .isFalse id
  | some first, some second => inferInstanceAs (Decidable (second ≤ first))

def recentFirst (runs : List StoredCheckRun) : List StoredCheckRun :=
  ((runs.insertionSort fun first second => second.id ≤ first.id).insertionSort fun first second =>
    descending first.startedAt second.startedAt).insertionSort fun first second =>
      descending first.completedAt second.completedAt

structure CheckSummary where
  total : ℕ
  passed : ℕ
  failed : ℕ
  pending : ℕ
  neutral : ℕ
  deriving DecidableEq, Repr

structure CheckCollection where
  headSha : Option String
  fetchedAt : Option Time
  summary : CheckSummary
  runs : List StoredCheckRun
  deriving DecidableEq, Repr

def collectionJson (s : CheckRunStore) (submission : Submission) : CheckCollection :=
  let runs :=
    if (presence submission.content.commitSha).isSome then recentFirst (s.currentFor submission)
    else []
  { headSha := submission.content.commitSha
    fetchedAt := (runs.map (·.fetchedAt)).max?
    summary :=
      { total := runs.length
        passed := runs.countP (·.passed)
        failed := runs.countP (·.failed)
        pending := runs.countP (·.pending)
        neutral := runs.countP fun run => !run.passed && !run.failed && !run.pending }
    runs }

end CheckRunStore

end LearningPlatform
