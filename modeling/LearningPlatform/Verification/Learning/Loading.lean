import LearningPlatform.Verification.Learning.Equations

/-! # What a loaded request has established

One lemma for each action that is followed to its write: the records it found and the gates
that matter later. -/

namespace LearningPlatform

open Shared

variable {db : Database} {user : User} {blockId id : ℕ} {on : Date} {now : Time}
  {loaded : LoadedRequest}

/-! ## Lookups -/

theorem user?_id (h : db.user? id = some user) : user.id = id := by
  simpa using List.find?_some h

theorem contentBlock?_id {block : ContentBlock} (h : db.contentBlock? id = some block) :
    block.id = id := by
  simpa using List.find?_some h

theorem submission?_mem {submission : Submission} (h : db.submission? id = some submission) :
    submission ∈ db.submissions ∧ submission.id = id :=
  ⟨List.mem_of_find?_eq_some h, by simpa using List.find?_some h⟩

theorem recording?_mem {recording : Recording} (h : db.recording? id = some recording) :
    recording ∈ db.recordings ∧ recording.id = id :=
  ⟨List.mem_of_find?_eq_some h, by simpa using List.find?_some h⟩

theorem activeEnrollmentFor_mem {curriculumId : ℕ} {enrollment : Enrollment} {cohort : Cohort}
    (h : db.activeEnrollmentFor user curriculumId = some (enrollment, cohort)) :
    enrollment ∈ db.enrollments ∧ enrollment.userId = user.id ∧
      db.cohort? enrollment.cohortId = some cohort ∧ cohort.curriculumId = curriculumId := by
  obtain ⟨row, hrow, hsome⟩ := List.exists_of_findSome?_eq_some h
  simp only [Option.bind_eq_some_iff, Option.ite_none_right_eq_some, Option.some.injEq,
    Prod.mk.injEq, Bool.and_eq_true, beq_iff_eq] at hsome
  obtain ⟨⟨huser, -⟩, _, hcohort, hcurriculum, rfl, rfl⟩ := hsome
  exact ⟨hrow, huser, hcohort, hcurriculum⟩

/-! ## The actions -/

theorem loadUpdateSubmission_eq_ok {params : SubmissionParams}
    (h : loadUpdateSubmission db user id params on now = .ok loaded) :
    ∃ submission, db.submission? id = some submission ∧
      ((user.staff? = true ∧
          loaded = { user, enrollment := none, action := .updateSubmission submission params }) ∨
        user.staff? = false ∧ submission.userId = user.id ∧ submission.grade = none ∧
          ∃ block granted, db.contentBlock? submission.contentBlockId = some block ∧
            authorizeContentBlockWrite! db user block on = .ok granted ∧
            authorizeSubmissionWindowOpen! db user block now = .ok () ∧
            loaded = { user
                       enrollment := granted.map Prod.fst
                       action := .updateSubmission submission params }) := by
  obtain ⟨submission, hsubmission, h⟩ := bind_eq_ok.mp h
  refine ⟨submission, orNotFound_eq_ok.mp hsubmission, ?_⟩
  split at h
  · rename_i hstaff
    cases h
    exact .inl ⟨hstaff, rfl⟩
  · rename_i hstaff
    obtain ⟨_, hown, h⟩ := bind_eq_ok.mp h
    obtain ⟨block, hblock, h⟩ := bind_eq_ok.mp h
    obtain ⟨granted, hgranted, h⟩ := bind_eq_ok.mp h
    obtain ⟨_, hwindow, h⟩ := bind_eq_ok.mp h
    have hown := ensure_eq_ok.mp hown
    simp only [Bool.and_eq_true, beq_iff_eq, Option.isNone_iff_eq_none] at hown
    cases h
    exact .inr ⟨by simpa using hstaff, hown.1, hown.2, block, granted,
      orNotFound_eq_ok.mp hblock, hgranted, hwindow, rfl⟩

theorem loadGradeSubmission_eq_ok {grade : Param} {feedback : Option String}
    {results : Option (List CriterionParams)}
    (h : loadGradeSubmission db user id grade feedback results = .ok loaded) :
    ∃ submission block lesson m, db.submission? id = some submission ∧ user.staff? = true ∧
      db.contentBlock? submission.contentBlockId = some block ∧
      db.lessonOf block = .ok (lesson, m) ∧
      loaded = { user
                 enrollment := db.learningEnrollmentFor submission.userId m.curriculumId
                 action := .gradeSubmission submission grade feedback results } := by
  obtain ⟨submission, hsubmission, h⟩ := bind_eq_ok.mp h
  obtain ⟨_, hstaff, h⟩ := bind_eq_ok.mp h
  obtain ⟨block, hblock, h⟩ := bind_eq_ok.mp h
  obtain ⟨_, -, h⟩ := bind_eq_ok.mp h
  obtain ⟨⟨lesson, m⟩, hlesson, h⟩ := bind_eq_ok.mp h
  cases h
  exact ⟨submission, block, lesson, m, orNotFound_eq_ok.mp hsubmission, ensure_eq_ok.mp hstaff,
    orNotFound_eq_ok.mp hblock, hlesson, rfl⟩

theorem loadVideoProgress_eq_ok {ping : Ping}
    (h : loadVideoProgress db user blockId ping = .ok loaded) :
    ∃ block enrollment, db.contentBlock? blockId = some block ∧
      loaded = { user, enrollment, action := .videoProgress block ping } := by
  obtain ⟨block, hblock, h⟩ := bind_eq_ok.mp h
  obtain ⟨_, -, h⟩ := bind_eq_ok.mp h
  obtain ⟨_, -, h⟩ := bind_eq_ok.mp h
  obtain ⟨_, -, h⟩ := bind_eq_ok.mp h
  cases h
  exact ⟨block, _, orNotFound_eq_ok.mp hblock, rfl⟩

theorem loadWatchProgress_eq_ok {ping : Ping} (h : loadWatchProgress db user id ping = .ok loaded) :
    ∃ recording enrollment, db.recording? id = some recording ∧
      loaded = { user, enrollment, action := .watchProgress recording ping } := by
  obtain ⟨recording, hrecording, h⟩ := bind_eq_ok.mp h
  obtain ⟨_, -, h⟩ := bind_eq_ok.mp h
  cases h
  exact ⟨recording, _, orNotFound_eq_ok.mp hrecording, rfl⟩

end LearningPlatform
