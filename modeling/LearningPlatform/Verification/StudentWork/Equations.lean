import LearningPlatform.Model.StudentWork
import LearningPlatform.Shared.Newest
import LearningPlatform.Verification.Learning.Loading

/-! # Student work: requests and their statements

What a loaded request is, which statements it issues under the lock, and what they leave of the
submissions of one student on one block. -/

namespace LearningPlatform

open Shared

/-! ## Requests -/

section Requests

variable {client : WorkClient} {store : WorkStore} {work : LoadedWork} {startedAt : Time}
  {statements : WorkStatements}

theorem WorkClient.load_learning {userId : ℕ} {request : LearningRequest}
    (hclient : client.request = .learning userId request) (h : client.load store = .ok work) :
    ∃ user loaded, store.db.authenticate userId = .ok user ∧
      request.load store.db user client.today store.clock = .ok loaded ∧
      work = .learning loaded := by
  unfold WorkClient.load at h
  rw [hclient] at h
  obtain ⟨loaded, hloaded, rfl⟩ := map_eq_ok.mp (mapError_eq_ok.mp h)
  obtain ⟨user, huser, hload⟩ := bind_eq_ok.mp hloaded
  exact ⟨user, loaded, huser, hload, rfl⟩

theorem loadCreateSubmission_new {db : Database} {user : User} {blockId : ℕ}
    {params : SubmissionParams} {on : Date} {now : Time} {loaded : LoadedRequest}
    (h : loadCreateSubmission db user blockId params on now = .ok loaded) :
    ∃ submission existing, loaded.action = .createSubmission submission existing ∧
      submission.userId = user.id ∧ submission.contentBlockId = blockId ∧
      submission.grade = none ∧ submission.numSubmissions =
        ((db.latestSubmission user.id blockId).map (·.numSubmissions + 1)).getD 1 := by
  obtain ⟨block, hblock, h⟩ := bind_eq_ok.mp h
  obtain ⟨granted, -, h⟩ := bind_eq_ok.mp h
  obtain ⟨_, -, h⟩ := bind_eq_ok.mp h
  obtain ⟨type, -, h⟩ := bind_eq_ok.mp h
  obtain ⟨_, -, h⟩ := bind_eq_ok.mp h
  obtain ⟨_, -, h⟩ := bind_eq_ok.mp h
  have hid := contentBlock?_id (orNotFound_eq_ok.mp hblock)
  split at h
  · cases h
  · cases h
    exact ⟨_, _, rfl, rfl, hid, rfl, by rw [← hid]⟩

theorem LoadedWork.write_learning {request : LoadedRequest}
    (h : (LoadedWork.learning request).write store startedAt = .ok statements) :
    ∃ issued, request.write store.db store.clock = .ok issued ∧
      statements = { writes := issued.writes.map .learning, nextId := issued.nextId } := by
  obtain ⟨issued, hissued, rfl⟩ := map_eq_ok.mp (mapError_eq_ok.mp h)
  obtain ⟨-, -, hwrite⟩ := bind_eq_ok.mp hissued
  exact ⟨issued, hwrite, rfl⟩

theorem foldl_learning (writes : List LearningWrite) (db : Database) :
    (writes.map WorkWrite.learning).foldl WorkWrite.apply db =
      writes.foldl LearningWrite.apply db :=
  List.foldl_map

theorem saveStatus_ofSubmission? {db : Database} {userId blockId nextId : ℕ} {now : Time}
    {status : ProgressStatus} :
    ∀ write ∈ (db.saveStatus userId blockId nextId now status).writes,
      write.ofSubmission? = false :=
  saveProgress_ofSubmission?

theorem foldl_work_users (writes : List WorkWrite) (db : Database) :
    (writes.foldl WorkWrite.apply db).users = db.users := by
  induction writes generalizing db with
  | nil => rfl
  | cons write writes ih =>
    rw [List.foldl_cons, ih]
    cases write with
    | learning write => exact (write.apply_frame db).users
    | resubmit loaded changed => rfl

end Requests

/-! ## Submissions of a student on a block -/

section Submissions

variable {db : Database} {userId blockId : ℕ}

def Database.submissionsOf (db : Database) (userId blockId : ℕ) : List Submission :=
  db.submissions.filter fun row => row.userId == userId && row.contentBlockId == blockId

theorem latestSubmission_eq :
    db.latestSubmission userId blockId = latest? (·.createdAt) (db.submissionsOf userId blockId) :=
  rfl

theorem submissionsOf_append {db' : Database} {row : Submission}
    (h : db'.submissions = db.submissions ++ [row]) (huser : row.userId = userId)
    (hblock : row.contentBlockId = blockId) :
    db'.submissionsOf userId blockId = db.submissionsOf userId blockId ++ [row] := by
  simp [Database.submissionsOf, h, List.filter_append, huser, hblock]

end Submissions

/-! ## Updates of submissions -/

section Updates

/-- The columns that no request changes in a stored submission. -/
structure KeepsIdentity (f : Submission → Submission) : Prop where
  id : ∀ row, (f row).id = row.id
  userId : ∀ row, (f row).userId = row.userId
  contentBlockId : ∀ row, (f row).contentBlockId = row.contentBlockId
  createdAt : ∀ row, (f row).createdAt = row.createdAt

@[simp] theorem SubmissionContent.update_self (loaded current : SubmissionContent) :
    SubmissionContent.update loaded loaded current = current := by
  simp [SubmissionContent.update]

variable {request : LoadedRequest} {submission : Submission} {db : Database} {now : Time}
  {issued : Statements}

theorem Submission.saveChanges_submissions (loaded changed : Submission) (now : Time) :
    ∃ f, KeepsIdentity f ∧
      (∀ row, (f row).grade = changedColumn loaded.grade changed.grade row.grade ∧
        (f row).content = SubmissionContent.update loaded.content changed.content row.content) ∧
      ∀ db, ((loaded.saveChanges changed now).foldl LearningWrite.apply db).submissions =
        updateAll (·.id == loaded.id) f db.submissions := by
  unfold Submission.saveChanges
  by_cases hchanged : changed = loaded
  · subst hchanged
    refine ⟨fun row => row, ⟨fun _ => rfl, fun _ => rfl, fun _ => rfl, fun _ => rfl⟩, ?_, ?_⟩
    · simp
    · simp [updateAll]
  · rw [if_neg hchanged]
    exact ⟨Submission.update loaded { changed with updatedAt := now },
      ⟨fun _ => rfl, fun _ => rfl, fun _ => rfl, fun _ => rfl⟩, fun _ => ⟨rfl, rfl⟩, fun _ => rfl⟩

theorem LoadedRequest.write_updateSubmission {params : SubmissionParams}
    (haction : request.action = .updateSubmission submission params)
    (h : request.write db now = .ok issued) :
    ∃ f, KeepsIdentity f ∧ (∀ row, (f row).grade = row.grade) ∧
      ∀ base, (issued.writes.foldl LearningWrite.apply base).submissions =
        updateAll (·.id == submission.id) f base.submissions := by
  unfold LoadedRequest.write at h
  cases haction ▸ h
  obtain ⟨f, hkeeps, hcolumns, hsaved⟩ := Submission.saveChanges_submissions submission
    { submission with content := submission.content.assign params } now
  exact ⟨f, hkeeps, fun row => by simpa using (hcolumns row).1, hsaved⟩

/-- A grading stores its grade, unless the loaded row had it already, keeps the content, and saves
the status of the grade last. -/
theorem LoadedRequest.write_gradeSubmission {param : Param} {feedback : Option String}
    {results : Option (List CriterionParams)}
    (haction : request.action = .gradeSubmission submission param feedback results)
    (h : request.write db now = .ok issued) :
    ∃ (grade : Option Grade) (first : Statements) (f : Submission → Submission),
      castEnum "grade" Submission.grades param = .ok grade ∧
      issued = first.append (db.saveStatus submission.userId submission.contentBlockId first.nextId
        now (if grade = some .R then .inProgress else .completed)) ∧
      (∀ write ∈ first.writes, write.ofProgress? = false) ∧ db.nextId ≤ first.nextId ∧
      KeepsIdentity f ∧
      (∀ row, (f row).grade = changedColumn submission.grade grade row.grade ∧
        (f row).content = row.content) ∧
      ∀ base, (first.writes.foldl LearningWrite.apply base).submissions =
        updateAll (·.id == submission.id) f base.submissions := by
  unfold LoadedRequest.write at h
  rw [haction] at h
  obtain ⟨grade, hgrade, h⟩ := bind_eq_ok.mp h
  obtain ⟨inserts, hinserts, h⟩ := bind_eq_ok.mp h
  cases h
  obtain ⟨f, hkeeps, hcolumns, hsaved⟩ := Submission.saveChanges_submissions submission
    { submission with grade, feedback, gradedById := some request.user.id, gradedAt := some now }
    now
  refine ⟨grade, _, f, hgrade, rfl, fun write hmem => ?_, Nat.le_add_right _ _, hkeeps,
    fun row => by simpa using hcolumns row, fun base => ?_⟩
  · obtain rfl | rfl | ⟨row, rfl⟩ := gradeSubmission_writes hinserts hmem <;> rfl
  · have hresults : ∀ write ∈ (if results.isSome = true then
        [LearningWrite.deleteCriterionResults submission.id] else []) ++ inserts,
        write.ofSubmission? = false := by
      intro write hmem
      rcases List.mem_append.mp hmem with hmem | hmem
      · split at hmem
        · rw [List.mem_singleton.mp hmem]
          rfl
        · cases hmem
      · obtain ⟨row, rfl⟩ := createCriterionResults_inserts hinserts write hmem
        rfl
    rw [List.append_assoc, List.foldl_append, foldl_apply_submissions hresults]
    exact hsaved base

end Updates

/-! ## A course with one exercise -/

/-- A student (user 1) and an instructor (user 2) of a course with one exercise. -/
def exerciseCourse : Database :=
  { users := [{ id := 1 }, { id := 2, role := .instructor }]
    curricula := [{ id := 1 }]
    modules := [{ id := 1, curriculumId := 1, name := "Ruby" }]
    lessons := [{ id := 1, moduleId := 1, title := "Loops" }]
    contentBlocks :=
      [{ id := 1, lessonId := 1, blockType := .exercise, submissionType := some .textSubmission }]
    cohorts := [{ id := 1, curriculumId := 1 }]
    enrollments := [{ id := 1, userId := 1, cohortId := 1 }]
    moduleAssignments := [{ id := 1, enrollmentId := 1, moduleId := 1 }]
    nextId := 3 }

def WorkClient.of (userId : ℕ) (request : LearningRequest) : WorkClient where
  request := .learning userId request
  startedAt := 0
  today := 0

def WorkClient.submits (text : String) : WorkClient :=
  .of 1 (.createSubmission 1 { text := some (some text) })

end LearningPlatform
