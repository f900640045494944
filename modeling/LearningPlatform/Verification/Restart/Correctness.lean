import LearningPlatform.Verification.Curriculum.Changes

/-! # What a restart guarantees

From the exact success condition of `EnrollmentRestartService#call`: when a restart succeeds,
that it leaves a fresh learning state, and that its snapshot holds all that it destroys. -/

namespace LearningPlatform

open Shared

namespace EnrollmentRestartService

variable {db db' : Database} {id : ℕ} {performedBy : User} {reason : Param}
  {service : EnrollmentRestartService} {now : Time} {restart : EnrollmentRestart}

theorem new?_eq_some (h : new? db id performedBy reason = some service) :
    db.enrollment? id = some service.enrollment ∧
      db.user? service.enrollment.userId = some service.student ∧
      db.cohort? service.enrollment.cohortId = some service.cohort ∧
      service.performedBy = performedBy ∧
      service.reason = presence (some (strip reason.toText)) ∧
      service.blockIds = db.curriculumBlockIds service.cohort.curriculumId ∧
      service.recordingIds =
        (db.recordings.filter (·.cohortId == service.cohort.id)).map (·.id) := by
  unfold new? at h
  obtain ⟨enrollment, henrollment, h⟩ := Option.bind_eq_some_iff.mp h
  obtain ⟨student, hstudent, h⟩ := Option.bind_eq_some_iff.mp h
  obtain ⟨cohort, hcohort, h⟩ := Option.bind_eq_some_iff.mp h
  cases h
  simp only [henrollment, hstudent, hcohort, true_and]

/-! ## Rows in the scope of a restart -/

theorem progress?_iff {row : Progress} :
    service.progress? row = true ↔
      row.userId = service.student.id ∧ row.contentBlockId ∈ service.blockIds := by
  simp [progress?]

theorem submission?_iff {row : Submission} :
    service.submission? row = true ↔
      row.userId = service.student.id ∧ row.contentBlockId ∈ service.blockIds := by
  simp [submission?]

theorem attempt?_iff {row : KnowledgeCheckAttempt} :
    service.attempt? db row = true ↔ row.userId = service.student.id ∧
      ∃ check ∈ db.knowledgeChecks, check.id = row.knowledgeCheckId ∧
        check.contentBlockId ∈ service.blockIds := by
  simp [attempt?]

theorem watchProgress?_iff {row : WatchProgress} :
    service.watchProgress? row = true ↔
      row.userId = service.student.id ∧ row.recordingId ∈ service.recordingIds := by
  simp [watchProgress?]

/-! ## A fresh learning state -/

/-- What a restart promises about the rows of the student. -/
structure FreshStart (service : EnrollmentRestartService) (db : Database) : Prop where
  submissions : ∀ row ∈ db.submissions, row.userId = service.student.id →
    row.contentBlockId ∉ db.curriculumBlockIds service.cohort.curriculumId
  progresses : ∀ row ∈ db.progresses, row.userId = service.student.id →
    row.contentBlockId ∉ db.curriculumBlockIds service.cohort.curriculumId
  attempts : ∀ row ∈ db.knowledgeCheckAttempts, row.userId = service.student.id →
    ∀ check ∈ db.knowledgeChecks, check.id = row.knowledgeCheckId →
      check.contentBlockId ∉ db.curriculumBlockIds service.cohort.curriculumId
  watchProgresses : ∀ row ∈ db.watchProgresses, row.userId = service.student.id →
    ∀ recording ∈ db.recordings, recording.id = row.recordingId →
      recording.cohortId ≠ service.cohort.id
  lessonAssignments : ∀ row ∈ db.lessonAssignments, row.enrollmentId ≠ service.enrollment.id
  intervention : ∃ record, (db.interventions.filter fun row =>
    row.enrollmentId == service.enrollment.id && row.status.active? &&
      row.triggerType == .restart) = [record]
  recoveryPlan : ∃ record, (db.recoveryPlans.filter fun row =>
    row.enrollmentId == service.enrollment.id && row.status == .active) = [record]

theorem filter_append_singleton {ρ : Type*} {p : ρ → Bool} {rows : List ρ} {row : ρ}
    (hrows : ∀ old ∈ rows, p old = false) (hrow : p row = true) :
    (rows ++ [row]).filter p = [row] := by
  rw [List.filter_append, List.filter_eq_nil_iff.mpr (by simpa using hrows)]
  simp [hrow]

theorem restarted_freshStart (h : new? db id performedBy reason = some service) :
    service.FreshStart (service.restarted now db) := by
  obtain ⟨-, -, -, -, -, hblocks, hrecordings⟩ := new?_eq_some h
  constructor
  · intro row hrow huser hblock
    rw [restarted_curriculumBlockIds, ← hblocks] at hblock
    rw [restarted_submissions, mem_deleteAll, submission?_iff.mpr ⟨huser, hblock⟩] at hrow
    exact absurd hrow.2 (by simp)
  · intro row hrow huser hblock
    rw [restarted_curriculumBlockIds, ← hblocks] at hblock
    rw [restarted_progresses, mem_deleteAll, progress?_iff.mpr ⟨huser, hblock⟩] at hrow
    exact absurd hrow.2 (by simp)
  · intro row hrow huser check hcheck hid hblock
    rw [restarted_curriculumBlockIds, ← hblocks] at hblock
    rw [restarted_knowledgeChecks] at hcheck
    rw [restarted_attempts, mem_deleteAll, attempt?_iff.mpr ⟨huser, check, hcheck, hid, hblock⟩]
      at hrow
    exact absurd hrow.2 (by simp)
  · intro row hrow huser recording hrecording hid hcohort
    rw [restarted_recordings] at hrecording
    have hmem : row.recordingId ∈ service.recordingIds := by
      rw [hrecordings, List.mem_map]
      exact ⟨recording, List.mem_filter.mpr ⟨hrecording, by simpa using hcohort⟩, hid⟩
    rw [restarted_watchProgresses, mem_deleteAll, watchProgress?_iff.mpr ⟨huser, hmem⟩] at hrow
    exact absurd hrow.2 (by simp)
  · intro row hrow hid
    rw [restarted_lessonAssignments, mem_deleteAll] at hrow
    simp [lessonAssignment?, hid] at hrow
  · rw [restarted_interventions]
    exact ⟨_, filter_append_singleton cancelPrevious_interventions
      (by simp [restartIntervention, InterventionStatus.active?])⟩
  · rw [restarted_recoveryPlans]
    exact ⟨_, filter_append_singleton cancelPrevious_recoveryPlans (by simp [restartPlan])⟩

/-- A staff member's restart of an unambiguous enrollment succeeds exactly when no criterion
result or check run belongs to a submission it deletes and the reason fits; whenever it
succeeds, the learning state is fresh. -/
theorem restart_succeeds_iff_no_evidence (db : Database) (id : ℕ) (performedBy : User)
    (reason : Param) (service : EnrollmentRestartService)
    (hservice : new? db id performedBy reason = some service)
    (hstaff : performedBy.staff? = true) (hunambiguous : service.Unambiguous db) (now : Time) :
    ((∃ db' restart, service.call now db = .ok (db', restart)) ↔
        service.NoEvidence db ∧ service.ReasonFits) ∧
      ∀ db' restart, service.call now db = .ok (db', restart) → service.FreshStart db' := by
  have hperformer : service.performedBy.staff? = true := by
    rw [(new?_eq_some hservice).2.2.2.1]
    exact hstaff
  refine ⟨⟨?_, ?_⟩, ?_⟩
  · rintro ⟨db', restart, hcall⟩
    obtain ⟨⟨-, hevidence, -, hreason⟩, -, -⟩ := call_ok_iff.mp hcall
    exact ⟨hevidence, hreason⟩
  · rintro ⟨hevidence, hreason⟩
    exact ⟨_, _, call_ok_iff.mpr
      ⟨⟨hunambiguous, hevidence, hperformer, hreason⟩, rfl, rfl⟩⟩
  · intro db' restart hcall
    obtain ⟨-, rfl, -⟩ := call_ok_iff.mp hcall
    exact restarted_freshStart hservice

/-! ## Snapshot, counts and frame -/

/-- Every row that the restart deleted or overwrote is in the snapshot with the attributes
it had. -/
structure SnapshotComplete (db db' : Database) (snapshot : RestartSnapshot) : Prop where
  enrollment : ∀ row ∈ db.enrollments, row ∉ db'.enrollments →
    snapshot.enrollment = row.attributes
  progresses : ∀ row ∈ db.progresses, row ∉ db'.progresses →
    row.attributes ∈ snapshot.progresses
  submissions : ∀ row ∈ db.submissions, row ∉ db'.submissions →
    row.attributes ∈ snapshot.submissions
  knowledgeCheckAttempts : ∀ row ∈ db.knowledgeCheckAttempts, row ∉ db'.knowledgeCheckAttempts →
    row.attributes ∈ snapshot.knowledgeCheckAttempts
  watchProgresses : ∀ row ∈ db.watchProgresses, row ∉ db'.watchProgresses →
    row.attributes ∈ snapshot.watchProgresses
  lessonAssignments : ∀ row ∈ db.lessonAssignments, row ∉ db'.lessonAssignments →
    row.attributes ∈ snapshot.lessonAssignments
  moduleAssignments : ∀ row ∈ db.moduleAssignments, row ∉ db'.moduleAssignments →
    row.attributes ∈ snapshot.moduleAssignments
  submissionNotifications : ∀ row ∈ db.notifications, row ∉ db'.notifications →
    (∃ submissionId, row.notifiable = .submission submissionId) →
    row.attributes ∈ snapshot.submissionNotifications

/-- The counts are the numbers of rows that each table lost. -/
structure CountsRemoved (db db' : Database) (removed : RecordsRemoved) : Prop where
  progresses : db'.progresses.length + removed.progresses = db.progresses.length
  submissions : db'.submissions.length + removed.submissions = db.submissions.length
  knowledgeCheckAttempts : db'.knowledgeCheckAttempts.length + removed.knowledgeCheckAttempts =
    db.knowledgeCheckAttempts.length
  watchProgresses : db'.watchProgresses.length + removed.watchProgresses =
    db.watchProgresses.length
  lessonAssignments : db'.lessonAssignments.length + removed.lessonAssignments =
    db.lessonAssignments.length
  submissionNotifications : db'.notifications.length + removed.submissionNotifications =
    db.notifications.length

/-- Learning rows of other students, of other curricula and of other cohorts' recordings are
the same, and so are other enrollments with their assignments. Notifications stay that are not
about a submission of the student in the curriculum or an intervention of the enrollment. -/
structure OthersUnchanged (service : EnrollmentRestartService) (db db' : Database) : Prop where
  progresses : ∀ row : Progress, row.userId ≠ service.student.id ∨
    row.contentBlockId ∉ db.curriculumBlockIds service.cohort.curriculumId →
    (row ∈ db'.progresses ↔ row ∈ db.progresses)
  submissions : ∀ row : Submission, row.userId ≠ service.student.id ∨
    row.contentBlockId ∉ db.curriculumBlockIds service.cohort.curriculumId →
    (row ∈ db'.submissions ↔ row ∈ db.submissions)
  knowledgeCheckAttempts : ∀ row : KnowledgeCheckAttempt, row.userId ≠ service.student.id ∨
    (∀ check ∈ db.knowledgeChecks, check.id = row.knowledgeCheckId →
      check.contentBlockId ∉ db.curriculumBlockIds service.cohort.curriculumId) →
    (row ∈ db'.knowledgeCheckAttempts ↔ row ∈ db.knowledgeCheckAttempts)
  watchProgresses : ∀ row : WatchProgress, row.userId ≠ service.student.id ∨
    (∀ recording ∈ db.recordings, recording.id = row.recordingId →
      recording.cohortId ≠ service.cohort.id) →
    (row ∈ db'.watchProgresses ↔ row ∈ db.watchProgresses)
  lessonAssignments : ∀ row : LessonAssignment, row.enrollmentId ≠ service.enrollment.id →
    (row ∈ db'.lessonAssignments ↔ row ∈ db.lessonAssignments)
  moduleAssignments : ∀ row : ModuleAssignment, row.enrollmentId ≠ service.enrollment.id →
    (row ∈ db'.moduleAssignments ↔ row ∈ db.moduleAssignments)
  enrollments : ∀ row : Enrollment, row.id ≠ service.enrollment.id →
    (row ∈ db'.enrollments ↔ row ∈ db.enrollments)
  notifications : ∀ row : Notification,
    (∀ submission ∈ db.submissions, row.notifiable = .submission submission.id →
      submission.userId ≠ service.student.id ∨
        submission.contentBlockId ∉ db.curriculumBlockIds service.cohort.curriculumId) →
    (∀ intervention ∈ db.interventions, row.notifiable = .intervention intervention.id →
      intervention.enrollmentId ≠ service.enrollment.id) →
    (row ∈ db'.notifications ↔ row ∈ db.notifications)

theorem cancelPrevious_mem_notifications {row : Notification} {submissionId : ℕ}
    (hrow : row ∈ db.notifications) (hnotifiable : row.notifiable = .submission submissionId) :
    row ∈ (service.cancelPrevious now db).notifications :=
  mem_updateAll.mpr (.inr ⟨hrow, by simp [hnotifiable]⟩)

theorem restarted_snapshotComplete (h : new? db id performedBy reason = some service)
    (hids : (db.enrollments.map (·.id)).Nodup) :
    SnapshotComplete db (service.restarted now db) (service.snapshot db) := by
  obtain ⟨henrollment, -⟩ := new?_eq_some h
  constructor
  · intro row hrow hgone
    rw [restarted_enrollments] at hgone
    have hselected := (List.mem_filter.mp (mem_filter_of_not_mem_updateAll hrow hgone)).2
    rw [List.inj_on_of_nodup_map hids hrow (mem_of_lookup henrollment).1
      (beq_iff_eq.mp hselected)]
    rfl
  · intro row hrow hgone
    exact List.mem_map_of_mem (mem_filter_of_not_mem_deleteAll hrow hgone)
  · intro row hrow hgone
    exact List.mem_map_of_mem (mem_filter_of_not_mem_deleteAll hrow hgone)
  · intro row hrow hgone
    rw [restarted_attempts] at hgone
    exact List.mem_map_of_mem (mem_filter_of_not_mem_deleteAll hrow hgone)
  · intro row hrow hgone
    exact List.mem_map_of_mem (mem_filter_of_not_mem_deleteAll hrow hgone)
  · intro row hrow hgone
    exact List.mem_map_of_mem (mem_filter_of_not_mem_deleteAll hrow hgone)
  · intro row hrow hgone
    exact List.mem_map_of_mem (mem_filter_of_not_mem_updateAll hrow hgone)
  · rintro row hrow hgone ⟨submissionId, hnotifiable⟩
    rw [restarted_notifications] at hgone
    have hselected := (List.mem_filter.mp (mem_filter_of_not_mem_deleteAll
      (cancelPrevious_mem_notifications hrow hnotifiable) hgone)).2
    exact List.mem_map_of_mem (List.mem_filter.mpr ⟨hrow, hselected⟩)

theorem restarted_countsRemoved :
    CountsRemoved db (service.restarted now db) (service.counts db) := by
  constructor
  · exact length_deleteAll_add ..
  · exact length_deleteAll_add ..
  · rw [restarted_attempts]
    exact length_deleteAll_add ..
  · exact length_deleteAll_add ..
  · exact length_deleteAll_add ..
  · have hcanceled : (service.cancelPrevious now db).notifications.length =
        db.notifications.length := List.length_map _
    have hselected : ((service.cancelPrevious now db).notifications.filter
        (service.submissionNotification? db)).length =
          (service.counts db).submissionNotifications :=
      length_filter_updateAll (fun _ => by simp only [submissionNotification?]) _
    rw [restarted_notifications, ← hselected, ← hcanceled]
    exact length_deleteAll_add ..

theorem restarted_othersUnchanged (h : new? db id performedBy reason = some service) :
    service.OthersUnchanged db (service.restarted now db) := by
  obtain ⟨-, -, -, -, -, hblocks, hrecordings⟩ := new?_eq_some h
  constructor
  · intro row hother
    refine mem_deleteAll_of_not fun hp => ?_
    obtain ⟨huser, hblock⟩ := progress?_iff.mp hp
    exact hother.elim (· huser) (· (hblocks ▸ hblock))
  · intro row hother
    refine mem_deleteAll_of_not fun hp => ?_
    obtain ⟨huser, hblock⟩ := submission?_iff.mp hp
    exact hother.elim (· huser) (· (hblocks ▸ hblock))
  · intro row hother
    rw [restarted_attempts]
    refine mem_deleteAll_of_not fun hp => ?_
    obtain ⟨huser, check, hcheck, hid, hblock⟩ := attempt?_iff.mp hp
    exact hother.elim (· huser) (· check hcheck hid (hblocks ▸ hblock))
  · intro row hother
    refine mem_deleteAll_of_not fun hp => ?_
    obtain ⟨huser, hrecording⟩ := watchProgress?_iff.mp hp
    rw [hrecordings] at hrecording
    obtain ⟨recording, hmem, hid⟩ := List.mem_map.mp hrecording
    obtain ⟨hmem, hcohort⟩ := List.mem_filter.mp hmem
    exact hother.elim (· huser) (· recording hmem hid (beq_iff_eq.mp hcohort))
  · intro row hother
    exact mem_deleteAll_of_not (by simpa [lessonAssignment?] using hother)
  · intro row hother
    exact mem_updateAll_of_eq_false (fun _ hp => hp) (by simpa [moduleAssignment?] using hother)
  · intro row hother
    exact mem_updateAll_of_eq_false (fun _ hp => hp) (by simpa using hother)
  · intro row hsubmission hintervention
    rw [restarted_notifications, mem_deleteAll_of_not]
    · refine mem_updateAll_of_eq_false (fun _ hp => hp) (Bool.eq_false_iff.mpr fun hp => ?_)
      cases hnotifiable : row.notifiable with
      | intervention id =>
        rw [hnotifiable] at hp
        obtain ⟨intervention, hmem, rfl⟩ := List.mem_map.mp (List.contains_iff_mem.mp hp)
        obtain ⟨hmem, hprevious⟩ := List.mem_filter.mp hmem
        refine hintervention intervention hmem hnotifiable ?_
        simp only [previousRestart?, Bool.and_eq_true, beq_iff_eq] at hprevious
        exact hprevious.1.1
      | _ =>
        cases hnotifiable ▸ hp
    · intro hp
      unfold submissionNotification? at hp
      split at hp
      · rename_i id hnotifiable
        obtain ⟨submission, hmem, hselected⟩ := List.any_eq_true.mp hp
        obtain ⟨hscope, hid⟩ := Bool.and_eq_true_iff.mp hselected
        obtain rfl := beq_iff_eq.mp hid
        obtain ⟨huser, hblock⟩ := submission?_iff.mp hscope
        exact (hsubmission submission hmem hnotifiable).elim (· huser) (· (hblocks ▸ hblock))
      · cases hp

/-- The snapshot of a successful restart holds every row that the restart deletes or
overwrites, its counts are the numbers of deleted rows, and rows outside its scope stay. -/
theorem restart_keeps_what_it_removes (db db' : Database) (id : ℕ) (performedBy : User)
    (reason : Param) (service : EnrollmentRestartService)
    (hservice : new? db id performedBy reason = some service)
    (hids : (db.enrollments.map (·.id)).Nodup) (now : Time) (restart : EnrollmentRestart)
    (hcall : service.call now db = .ok (db', restart)) :
    SnapshotComplete db db' restart.snapshot ∧ CountsRemoved db db' restart.recordsRemoved ∧
      service.OthersUnchanged db db' := by
  obtain ⟨-, rfl, rfl⟩ := call_ok_iff.mp hcall
  exact ⟨restarted_snapshotComplete hservice hids, restarted_countsRemoved,
    restarted_othersUnchanged hservice⟩

/-! ## Restarts before and after a grading -/

/-- A student, an administrator, a curriculum and a rubric with one criterion. -/
def rubricCurriculum : Database :=
  { users := [{ id := 1 }, { id := 2, role := .admin }]
    curricula := [{ id := 1 }]
    rubrics := [{ id := 1, curriculumId := 1 }]
    rubricCriteria := [{ id := 1, rubricId := 1 }]
    nextId := 3 }

/-- The student submits an exercise that uses the rubric. -/
def submittedExercise : List PlatformRequest :=
  [.createModule 1 { name := some (some "Ruby") },
    .createLesson 3 { title := some (some "Loops") },
    .createContentBlock 4 { blockType := .exercise, submissionType := some .textSubmission },
    .updateEditorExercise 4 { id := 5, rubricId := some (some 1) },
    .createCohort { curriculumId := some 1, startDate := some (some 0) },
    .createEnrollment 6 1 1,
    .learning
      { userId := 1
        request := .createSubmission 5 { text := some (some "loop do") }
        startedAt := 2
        now := 2
        today := 0 }]

/-- The administrator rates the criterion and grades the submission. -/
def gradeExercise : PlatformRequest :=
  .learning
    { userId := 2
      request := .gradeSubmission 9 (.str "A") none
        (some [{ rubricCriterionId := 1, rating := some .meets }])
      startedAt := 3
      now := 3
      today := 0 }

def submitted : Database :=
  submittedExercise.foldl PlatformRequest.perform rubricCurriculum

def graded : Database :=
  (submittedExercise ++ [gradeExercise]).foldl PlatformRequest.perform rubricCurriculum

theorem graded_reachable : Reachable graded :=
  ⟨rubricCurriculum, _, ⟨rfl, rfl, rfl, rfl, rfl, rfl, rfl, rfl⟩, run_foldl _ _ _⟩

def exerciseService : EnrollmentRestartService :=
  { enrollment := { id := 7, userId := 1, cohortId := 6, enrolledAt := some 1, createdAt := 1,
                    updatedAt := 1 }
    student := { id := 1 }
    cohort := { id := 6, curriculumId := 1 }
    performedBy := { id := 2, role := .admin }
    reason := none
    blockIds := [5]
    recordingIds := [] }

theorem submitted_service :
    new? submitted 7 { id := 2, role := .admin } .null = some exerciseService := by
  decide +kernel

theorem submitted_unambiguous : exerciseService.Unambiguous submitted :=
  ensureUnambiguousCurriculum!_ok_iff.mp (by decide +kernel)

theorem submitted_noEvidence : exerciseService.NoEvidence submitted :=
  ⟨by decide +kernel, by decide +kernel⟩

theorem exerciseService_reasonFits : exerciseService.ReasonFits := by
  intro text htext
  cases htext

theorem submitted_restart_succeeds :
    submitted.submissions.length = 1 ∧
      ∃ db' restart, exerciseService.call 4 submitted = .ok (db', restart) ∧
        exerciseService.FreshStart db' := by
  obtain ⟨hiff, hfresh⟩ := restart_succeeds_iff_no_evidence submitted 7 { id := 2, role := .admin }
    .null exerciseService submitted_service rfl submitted_unambiguous 4
  obtain ⟨db', restart, hcall⟩ := hiff.mpr ⟨submitted_noEvidence, exerciseService_reasonFits⟩
  exact ⟨by decide +kernel, db', restart, hcall, hfresh db' restart hcall⟩

/-- Once the submission has a criterion result, the restart meets its foreign key. -/
theorem graded_restart_fails :
    Reachable graded ∧ new? graded 7 { id := 2, role := .admin } .null = some exerciseService ∧
      exerciseService.Unambiguous graded ∧
      failure? (exerciseService.call 4 graded) =
        some (.invalidForeignKey "submission_criterion_results" "submission_id") :=
  ⟨graded_reachable, by decide +kernel, ensureUnambiguousCurriculum!_ok_iff.mp (by decide +kernel),
    by decide +kernel⟩

theorem submitted_restart_keeps_submission :
    ∃ db' restart, exerciseService.call 4 submitted = .ok (db', restart) ∧
      db'.submissions = [] ∧ restart.recordsRemoved.submissions = 1 ∧
      ∀ row ∈ submitted.submissions, row.attributes ∈ restart.snapshot.submissions := by
  obtain ⟨db', restart, hcall⟩ : ∃ db' restart,
      exerciseService.call 4 submitted = .ok (db', restart) :=
    ⟨_, _, call_ok_iff.mpr ⟨⟨submitted_unambiguous, submitted_noEvidence, rfl,
      exerciseService_reasonFits⟩, rfl, rfl⟩⟩
  obtain ⟨-, hdb, hrestart⟩ := call_ok_iff.mp hcall
  have hsubmissions : db'.submissions = [] := by
    rw [hdb, restarted_submissions]
    decide +kernel
  obtain ⟨hsnapshot, -, -⟩ := restart_keeps_what_it_removes submitted db' 7
    { id := 2, role := .admin } .null exerciseService submitted_service (by decide +kernel) 4
    restart hcall
  refine ⟨db', restart, hcall, hsubmissions, ?_, fun row hrow => ?_⟩
  · rw [hrestart]
    decide +kernel
  · exact hsnapshot.submissions row hrow (by simp [hsubmissions])

end EnrollmentRestartService

end LearningPlatform
