import LearningPlatform.Model.Learning
import LearningPlatform.Shared.Locking

/-! # Student work under the enrollment lock

Learning requests and GitHub syncs as requests that read before they lock the enrollment, and
compute their statements under the lock. -/

namespace LearningPlatform

open Shared

/-! ## Statements -/

inductive WorkWrite where
  | learning (write : LearningWrite)
  /-- An update that may also change the type and the counter of a submission. -/
  | resubmit (loaded changed : Submission)
  deriving DecidableEq

def Submission.resubmit (loaded changed current : Submission) : Submission :=
  { Submission.update loaded changed current with
    submissionType := savedColumn loaded changed current (·.submissionType)
    numSubmissions := savedColumn loaded changed current (·.numSubmissions) }

def WorkWrite.apply (db : Database) : WorkWrite → Database
  | .learning write => write.apply db
  | .resubmit loaded changed =>
    { db with
      submissions := updateAll (·.id == loaded.id) (Submission.resubmit loaded changed)
        db.submissions }

/-- The statements of a request, the sequence value after its inserts, and `synced_count`. -/
structure WorkStatements where
  writes : List WorkWrite
  nextId : ℕ
  synced : ℕ := 0
  deriving DecidableEq

inductive WorkFailure where
  | refused (failure : Failure)
  /-- A sync that returns before it writes, with its errors. -/
  | unsynced (errors : List String)
  /-- An exception that `sync_student` rescues. -/
  | syncError (failure : Failure)
  deriving DecidableEq

/-! ## GitHub sync: before the lock -/

/-- What GitHub answers: the texts of files by name, and the commit. -/
structure Repository where
  files : List (String × String)
  commitHash : Option String
  deriving DecidableEq

/-- A call of `sync_student`, with the GitHub columns of its records and the answer of GitHub. -/
structure SyncStudent where
  userId : ℕ
  cohortId : ℕ
  moduleId : ℕ
  githubUsername : Option String
  /-- `repository_name_override.presence || cohort.repository_name`. -/
  repositoryName : Option String
  repository : Except String Repository

structure LoadedSync where
  userId : ℕ
  enrollment : Enrollment
  blocks : List ContentBlock
  githubUsername : String
  repositoryName : String
  files : List (String × String)
  commitHash : Option String
  errors : List String
  deriving DecidableEq

/-- The exercises of a module that are reviewed through GitHub, with their lessons. -/
def Database.githubSyncBlocks (db : Database) (moduleId : ℕ) : List (ContentBlock × Lesson) :=
  db.contentBlocks.filterMap fun block => do
    let lesson ← db.lesson? block.lessonId
    let m ← db.module? lesson.moduleId
    if lesson.moduleId == moduleId && block.exerciseLike? &&
        block.filename.any (· != "") &&
        block.effectiveSubmissionType lesson m true == .preworkGithubSync then
      some (block, lesson)
    else none

/-- The path that the query names: `delete("\x00").gsub(/[\r\n]/, "")`. The escapes after it are
those of a string of the query. -/
def requestedPath (filename : String) : String :=
  String.ofList (filename.toList.filter fun c => c != '\x00' && c != '\r' && c != '\n')

/-- `fetch_exercise_files`, after the request to GitHub. -/
def Repository.exerciseFiles (repository : Repository) (filenames : List String) :
    List (String × String) :=
  filenames.filterMap fun filename =>
    (presence (repository.files.lookup (requestedPath filename))).map fun text => (filename, text)

/-- `"Skipped closed Week …"`, if there are closed blocks. -/
def skippedWeeks (closed : List (ContentBlock × Lesson)) : List String :=
  let weeks := (closed.map fun (_, lesson) =>
    SubmissionWindowStatus.weekNumberForReleaseDay lesson.releaseDay).dedup.insertionSort (· ≤ ·)
  if closed.isEmpty then []
  else ["Skipped closed Week " ++ String.intercalate ", Week " (weeks.map toString) ++
    " GitHub-sync submissions"]

def orUnsynced {α : Type*} (message : String) (record : Option α) : Except WorkFailure α :=
  match record with
  | none => .error (.unsynced [message])
  | some record => .ok record

/-- `GithubSyncService#sync_student`, up to the guard. -/
def SyncStudent.load (call : SyncStudent) (db : Database) (now : Time) :
    Except WorkFailure LoadedSync := do
  let cohort ← (orNotFound (db.cohort? call.cohortId)).mapError .refused
  let enrollment ← orUnsynced "Student is not enrolled in this cohort"
    (db.enrollments.find? fun enrollment =>
      enrollment.userId == call.userId && enrollment.cohortId == cohort.id)
  let githubUsername ← orUnsynced "Student has no GitHub username" (presence call.githubUsername)
  let repositoryName ← orUnsynced "No repository name configured for this module"
    (presence call.repositoryName)
  let (closed, opened) := (db.githubSyncBlocks call.moduleId).partition fun (_, lesson) =>
    (SubmissionWindowStatus.forLesson db cohort lesson now).submissionsClosed
  let blocks := opened.map Prod.fst
  if blocks.isEmpty then
    .error (.unsynced (if closed.isEmpty then []
      else ["All GitHub-sync submissions for this module are closed"]))
  else
    match call.repository with
    | .error message => .error (.unsynced [message])
    | .ok repository =>
      let filenames := (blocks.filterMap fun block => block.filename.map strip).eraseDups
      .ok { userId := call.userId
            enrollment
            blocks
            githubUsername
            repositoryName
            files := repository.exerciseFiles filenames
            commitHash := repository.commitHash
            errors := skippedWeeks closed }

/-! ## GitHub sync: under the lock -/

/-- The statements issued so far, and the database with their effect. -/
structure SyncTransaction where
  db : Database
  writes : List WorkWrite := []
  synced : ℕ := 0

namespace SyncTransaction

def issue (transaction : SyncTransaction) (writes : List WorkWrite) (nextId : ℕ) :
    SyncTransaction :=
  { transaction with
    db := writes.foldl WorkWrite.apply { transaction.db with nextId }
    writes := transaction.writes ++ writes }

/-- `progress.update!(status: :completed)` and `synced_count += 1`. -/
def completeProgress (transaction : SyncTransaction) (userId blockId : ℕ) (now : Time) :
    SyncTransaction :=
  let saved := transaction.db.saveStatus userId blockId transaction.db.nextId now .completed
  { transaction.issue (saved.writes.map .learning) saved.nextId with
    synced := transaction.synced + 1 }

end SyncTransaction

def downcase (text : String) : String :=
  String.ofList (text.toList.map Char.toLower)

namespace LoadedSync

variable (sync : LoadedSync)

def blockOf (name : String) : Option ContentBlock :=
  sync.blocks.find? fun block => block.filename.any fun filename =>
    downcase filename == downcase name

def githubCodeUrl (name text : String) : String :=
  let lineCount := text.toList.count '\n' + 1
  let ref := (presence sync.commitHash).getD "HEAD"
  "https://github.com/" ++ sync.githubUsername ++ "/" ++ sync.repositoryName ++ "/blob/" ++ ref ++
    "/" ++ name ++ "#L1-L" ++ toString lineCount

/-- The submission with a new text; a passing grade stays. -/
def resubmitted (existing : Submission) (name text : String) : Submission :=
  let changed : Submission :=
    { existing with
      submissionType := some .preworkGithubSync
      content := { existing.content with
        text := some text
        githubCodeUrl := some (sync.githubCodeUrl name text)
        commitSha := sync.commitHash }
      numSubmissions := existing.numSubmissions + 1 }
  if existing.grade = some .A ∨ existing.grade = some .B ∨ existing.grade = some .C then changed
  else { changed with grade := none, feedback := none, gradedAt := none, gradedById := none }

/-- The submission with the same text at a new place. -/
def relocated (existing : Submission) (name text : String) : Submission :=
  { existing with
    content := { existing.content with
      githubCodeUrl := some (sync.githubCodeUrl name text)
      commitSha := sync.commitHash } }

def created (blockId id : ℕ) (name text : String) (now : Time) : Submission where
  id
  userId := sync.userId
  contentBlockId := blockId
  submissionType := some .preworkGithubSync
  content :=
    { text := some text
      githubCodeUrl := some (sync.githubCodeUrl name text)
      commitSha := sync.commitHash }
  numSubmissions := 1
  createdAt := now
  updatedAt := now

/-- One iteration of `files.each`, for a file with the text of a block. -/
def syncBlock (now : Time) (transaction : SyncTransaction) (blockId : ℕ) (name text : String) :
    SyncTransaction :=
  let nextId := transaction.db.nextId
  match transaction.db.latestSubmission sync.userId blockId with
  | some existing =>
    if existing.content.text ≠ some text then
      (transaction.issue
        [.resubmit existing { sync.resubmitted existing name text with updatedAt := now }]
        nextId).completeProgress sync.userId blockId now
    else if existing.content.commitSha ≠ sync.commitHash ∨
        existing.content.githubCodeUrl ≠ some (sync.githubCodeUrl name text) then
      transaction.issue
        [.resubmit existing { sync.relocated existing name text with updatedAt := now }] nextId
    else transaction
  | none =>
    (transaction.issue
      [.learning (.insertSubmission (sync.created blockId nextId name text now))]
      (nextId + 1)).completeProgress sync.userId blockId now

def syncFile (now : Time) (transaction : SyncTransaction) (file : String × String) :
    SyncTransaction :=
  if blank? file.2 then transaction
  else
    match sync.blockOf file.1 with
    | none => transaction
    | some block => sync.syncBlock now transaction block.id file.1 file.2

def guard (db : Database) (startedAt : Time) : Except Failure Unit := do
  let enrollment ← orNotFound (db.enrollment? sync.enrollment.id)
  enrollment.learningWriteGuard startedAt

/-- The block that the guard yields to. -/
def write (db : Database) (now : Time) : WorkStatements :=
  let transaction := sync.files.foldl (sync.syncFile now) { db }
  { writes := transaction.writes
    nextId := transaction.db.nextId
    synced := transaction.synced }

end LoadedSync

/-! ## Requests and their lock -/

inductive WorkRequest where
  | learning (userId : ℕ) (request : LearningRequest)
  | syncStudent (call : SyncStudent)

/-- A request with its start time and the date on which it is served. -/
structure WorkClient where
  request : WorkRequest
  startedAt : Time
  today : Date

inductive LoadedWork where
  | learning (request : LoadedRequest)
  | syncStudent (sync : LoadedSync)
  deriving DecidableEq

structure WorkStore where
  db : Database
  clock : Time

def WorkClient.load (client : WorkClient) (store : WorkStore) : Except WorkFailure LoadedWork :=
  match client.request with
  | .learning userId request =>
    let loaded := do
      let user ← store.db.authenticate userId
      request.load store.db user client.today store.clock
    (loaded.map .learning).mapError .refused
  | .syncStudent call => (call.load store.db store.clock).map .syncStudent

/-- The id of the enrollment that the request locks. -/
def LoadedWork.lock? : LoadedWork → Option ℕ
  | .learning request => request.enrollment.map (·.id)
  | .syncStudent sync => some sync.enrollment.id

/-- The guard and the block it yields to. -/
def LoadedWork.write (work : LoadedWork) (store : WorkStore) (startedAt : Time) :
    Except WorkFailure WorkStatements :=
  match work with
  | .learning request =>
    let statements := do
      request.guard store.db startedAt
      request.write store.db store.clock
    (statements.map fun statements =>
      { writes := statements.writes.map .learning, nextId := statements.nextId }).mapError
        .refused
  | .syncStudent sync =>
    ((sync.guard store.db startedAt).map fun _ => sync.write store.db store.clock).mapError
      .syncError

abbrev WorkState (ι : Type*) := LockState ι WorkStore LoadedWork WorkStatements WorkFailure

/-- The requests of clients. Time passes between steps, ids leave the sequence when they are
drawn, and statements become visible with the commit. -/
def workProtocol {ι : Type*} (clients : ι → WorkClient) :
    LockProtocol ι WorkStore Unit LoadedWork WorkStatements ℕ WorkFailure where
  environment _ store := { store with clock := store.clock + 1 }
  load i store := (clients i).load store
  key := LoadedWork.lock?
  write i work store := work.write store (clients i).startedAt
  draw statements store := { store with db := { store.db with nextId := statements.nextId } }
  commit statements store :=
    { store with db := statements.writes.foldl WorkWrite.apply store.db }

end LearningPlatform
