import LearningPlatform.Verification.Validations

/-! # Effects of the learning writes

What a successful request is made of, which tables its statements touch and which ids they
draw. -/

namespace LearningPlatform

open Shared

/-! ## Requests and their parts -/

theorem ensure_eq_ok {condition : Bool} {failure : Failure} {r : Unit} :
    ensure condition failure = .ok r ↔ condition = true := by
  cases condition <;> simp [ensure]

theorem LearningCall.execute_eq_ok {call : LearningCall} {db db' : Database} :
    call.execute db = .ok db' ↔ ∃ user loaded statements,
      db.authenticate call.userId = .ok user ∧
        call.request.load db user call.today call.now = .ok loaded ∧
        loaded.guard db call.startedAt = .ok () ∧
        loaded.write db call.now = .ok statements ∧ db' = statements.apply db := by
  constructor
  · intro h
    obtain ⟨user, huser, h⟩ := bind_eq_ok.mp h
    obtain ⟨loaded, hload, h⟩ := bind_eq_ok.mp h
    obtain ⟨_, hguard, h⟩ := bind_eq_ok.mp h
    obtain ⟨statements, hwrite, h⟩ := bind_eq_ok.mp h
    exact ⟨user, loaded, statements, huser, hload, hguard, hwrite, (Except.ok.inj h).symm⟩
  · rintro ⟨user, loaded, statements, huser, hload, hguard, hwrite, rfl⟩
    exact bind_eq_ok.mpr ⟨user, huser, bind_eq_ok.mpr ⟨loaded, hload,
      bind_eq_ok.mpr ⟨(), hguard, bind_eq_ok.mpr ⟨statements, hwrite, rfl⟩⟩⟩⟩

theorem authenticate_eq_ok {db : Database} {userId : ℕ} {user : User}
    (h : db.authenticate userId = .ok user) : db.user? userId = some user := by
  unfold Database.authenticate at h
  split at h
  · cases h
  · split at h
    · cases h
    · cases h
      assumption

/-! ## Frame -/

/-- A block without the duration that the first video ping stores. -/
def ContentBlock.withoutDuration (block : ContentBlock) : ContentBlock :=
  { block with s3VideoDurationSeconds := none }

/-- Only the learning tables, the sequence and video durations differ. -/
structure LearningFrame (db db' : Database) : Prop where
  elsewhere : db' =
    { db with
      contentBlocks := db'.contentBlocks
      progresses := db'.progresses
      submissions := db'.submissions
      submissionCriterionResults := db'.submissionCriterionResults
      knowledgeCheckAttempts := db'.knowledgeCheckAttempts
      watchProgresses := db'.watchProgresses
      nextId := db'.nextId }
  blocks : db'.contentBlocks.map (·.withoutDuration) = db.contentBlocks.map (·.withoutDuration)

namespace LearningFrame

theorem refl (db : Database) : LearningFrame db db :=
  ⟨rfl, rfl⟩

theorem trans {db₁ db₂ db₃ : Database} (h : LearningFrame db₁ db₂) (h' : LearningFrame db₂ db₃) :
    LearningFrame db₁ db₃ := by
  refine ⟨?_, h'.blocks.trans h.blocks⟩
  have helsewhere := h'.elsewhere
  rw [h.elsewhere] at helsewhere
  exact helsewhere

section Tables

variable {db db' : Database} (h : LearningFrame db db')
include h

theorem users : db'.users = db.users := by
  rw [h.elsewhere]

theorem recordings : db'.recordings = db.recordings := by
  rw [h.elsewhere]

end Tables

end LearningFrame

theorem LearningWrite.apply_frame (write : LearningWrite) (db : Database) :
    LearningFrame db (write.apply db) := by
  cases write with
  | setVideoDuration blockId seconds =>
    refine ⟨rfl, ?_⟩
    simp only [LearningWrite.apply]
    apply map_updateAll
    intro block
    rfl
  | _ => exact ⟨rfl, rfl⟩

theorem foldl_apply_frame (writes : List LearningWrite) (db : Database) :
    LearningFrame db (writes.foldl LearningWrite.apply db) := by
  induction writes generalizing db with
  | nil => exact .refl db
  | cons write writes ih => exact (write.apply_frame db).trans (ih _)

theorem Statements.apply_frame (statements : Statements) (db : Database) :
    LearningFrame db (statements.apply db) := by
  have hnextId : LearningFrame db { db with nextId := statements.nextId } := ⟨rfl, rfl⟩
  exact hnextId.trans (foldl_apply_frame statements.writes _)

/-! ## Rows of single tables -/

/-- A write of a submission row. -/
def LearningWrite.ofSubmission? : LearningWrite → Bool
  | .insertSubmission _ => true
  | .updateSubmission _ _ => true
  | _ => false

theorem foldl_apply_submissions {writes : List LearningWrite}
    (h : ∀ write ∈ writes, write.ofSubmission? = false) (db : Database) :
    (writes.foldl LearningWrite.apply db).submissions = db.submissions := by
  induction writes generalizing db with
  | nil => rfl
  | cons write writes ih =>
    have hwrite : (write.apply db).submissions = db.submissions := by
      have := h write (by simp)
      cases write <;> first | rfl | cases this
    rw [List.foldl_cons, ih (fun other hother => h other (List.mem_cons_of_mem _ hother)), hwrite]

/-! ## Saved progress -/

/-- The record that `find_or_initialize_by` returns. -/
def Database.progressRecord (db : Database) (userId blockId nextId : ℕ) : Progress :=
  (db.progressFor userId blockId).getD { id := nextId, userId, contentBlockId := blockId }

variable {db : Database} {now : Time}

theorem progressFor_mem {userId blockId : ℕ} {row : Progress}
    (h : db.progressFor userId blockId = some row) :
    row ∈ db.progresses ∧ row.userId = userId ∧ row.contentBlockId = blockId := by
  have hfound := List.find?_some h
  simp only [Bool.and_eq_true, beq_iff_eq] at hfound
  exact ⟨List.mem_of_find?_eq_some h, hfound⟩

theorem mem_saveProgress {db : Database} {userId blockId nextId : ℕ} {now : Time}
    {change : Progress → Progress} {write : LearningWrite}
    (h : write ∈ (db.saveProgress userId blockId nextId now change).writes) :
    ∃ createdAt, let saved : Progress :=
        { (change (db.progressRecord userId blockId nextId)).setCompletedAt now with
          createdAt, updatedAt := now }
      (write = .updateProgress saved ∧ (db.progressFor userId blockId).isSome = true) ∨
        (write = .insertProgress saved ∧ db.progressFor userId blockId = none) := by
  unfold Database.saveProgress at h
  unfold Database.progressRecord
  cases hrow : db.progressFor userId blockId with
  | none =>
    simp only [hrow, List.mem_singleton] at h
    exact ⟨_, .inr ⟨h, rfl⟩⟩
  | some row =>
    simp only [hrow] at h
    split at h
    · cases h
    · exact ⟨_, .inl ⟨List.mem_singleton.mp h, rfl⟩⟩

theorem saveProgress_ofSubmission? {userId blockId nextId : ℕ} {change : Progress → Progress} :
    ∀ write ∈ (db.saveProgress userId blockId nextId now change).writes,
      write.ofSubmission? = false := by
  intro write hmem
  obtain ⟨_, ⟨rfl, -⟩ | ⟨rfl, -⟩⟩ := mem_saveProgress hmem <;> rfl

/-- A statement that writes a progress row. -/
def LearningWrite.ofProgress? : LearningWrite → Bool
  | .insertProgress _ => true
  | .updateProgress _ => true
  | _ => false

theorem createCriterionResults_inserts {db : Database} {submission : Submission}
    {results : List CriterionParams} {inserts : List LearningWrite}
    (h : createCriterionResults db submission results = .ok inserts) :
    ∀ write ∈ inserts, ∃ row, write = .insertCriterionResult row := by
  intro write hmem
  obtain ⟨⟨result, index⟩, -, hresult⟩ := mem_mapM_ok h write hmem
  dsimp only at hresult
  split at hresult
  · cases hresult
  · split at hresult
    · exact ⟨_, (Except.ok.inj hresult).symm⟩
    · cases hresult

theorem gradeSubmission_writes {submission changed : Submission}
    {results : Option (List CriterionParams)} {inserts : List LearningWrite}
    (hinserts : createCriterionResults db submission (results.getD []) = .ok inserts)
    {write : LearningWrite}
    (hmem : write ∈ submission.saveChanges changed now ++ (if results.isSome then
      [LearningWrite.deleteCriterionResults submission.id] else []) ++ inserts) :
    write = .updateSubmission submission { changed with updatedAt := now } ∨
      write = .deleteCriterionResults submission.id ∨
      ∃ row, write = .insertCriterionResult row := by
  rcases List.mem_append.mp hmem with hmem | hmem
  · rcases List.mem_append.mp hmem with hmem | hmem
    · unfold Submission.saveChanges at hmem
      split at hmem
      · cases hmem
      · exact .inl (List.mem_singleton.mp hmem)
    · split at hmem
      · exact .inr (.inl (List.mem_singleton.mp hmem))
      · cases hmem
  · exact .inr (.inr (createCriterionResults_inserts hinserts write hmem))

/-! ## The id sequence -/

theorem saveProgress_nextId_le (db : Database) (userId blockId nextId : ℕ) (now : Time)
    (change : Progress → Progress) :
    nextId ≤ (db.saveProgress userId blockId nextId now change).nextId := by
  unfold Database.saveProgress
  split
  · exact Nat.le_refl _
  · exact Nat.le_succ _

theorem LoadedRequest.write_nextId_le {request : LoadedRequest} {statements : Statements}
    (h : request.write db now = .ok statements) : db.nextId ≤ statements.nextId := by
  unfold LoadedRequest.write at h
  split at h
  · cases h
    exact (Nat.le_succ _).trans (saveProgress_nextId_le ..)
  · cases h
    exact Nat.le_refl _
  · obtain ⟨grade, -, h⟩ := bind_eq_ok.mp h
    obtain ⟨inserts, -, h⟩ := bind_eq_ok.mp h
    cases h
    exact (Nat.le_add_right _ _).trans (saveProgress_nextId_le ..)
  · obtain ⟨status, -, h⟩ := bind_eq_ok.mp h
    split at h
    · cases h
    · cases h
      exact saveProgress_nextId_le ..
  · obtain ⟨attempt, -, h⟩ := bind_eq_ok.mp h
    cases h
    split
    · exact (Nat.le_succ _).trans (saveProgress_nextId_le ..)
    · exact Nat.le_succ _
  · cases h
    exact saveProgress_nextId_le ..
  · cases h
    unfold writeWatchProgress
    split
    · exact Nat.le_refl _
    · exact Nat.le_succ _

end LearningPlatform
