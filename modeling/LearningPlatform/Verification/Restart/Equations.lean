import LearningPlatform.Model.Restart
import LearningPlatform.Verification.Validations

/-! # When a restart succeeds, and what it leaves

The transaction of `EnrollmentRestartService#call` is cut into its parts, each with the
condition under which it succeeds. -/

namespace LearningPlatform

open Shared

namespace EnrollmentRestartService

variable {service : EnrollmentRestartService} {now : Time} {db db' : Database}

/-! ## Deletes and foreign keys -/

/-- No criterion result and no check run belongs to a submission that the restart deletes. -/
structure NoEvidence (service : EnrollmentRestartService) (db : Database) : Prop where
  checkRuns : ∀ submission ∈ db.submissions, service.submission? submission = true →
    ∀ run ∈ db.githubCheckRuns, run.submissionId ≠ submission.id
  criterionResults : ∀ submission ∈ db.submissions, service.submission? submission = true →
    ∀ result ∈ db.submissionCriterionResults, result.submissionId ≠ submission.id

def deleted (service : EnrollmentRestartService) (db : Database) : Database :=
  { db with
    notifications := deleteAll (service.submissionNotification? db) db.notifications
    submissions := deleteAll service.submission? db.submissions
    knowledgeCheckAttempts := deleteAll (service.attempt? db) db.knowledgeCheckAttempts
    progresses := deleteAll service.progress? db.progresses
    watchProgresses := deleteAll service.watchProgress? db.watchProgresses
    lessonAssignments := deleteAll service.lessonAssignment? db.lessonAssignments }

theorem any_contains_eq_false {ρ τ : Type*} {rows : List ρ} {p : ρ → Bool} {id : ρ → ℕ}
    {references : List τ} {column : τ → ℕ} :
    ((references.map column).any ((rows.filter p).map id).contains = false) ↔
      ∀ row ∈ rows, p row = true → ∀ reference ∈ references, column reference ≠ id row := by
  simp only [List.any_eq_false, List.mem_map, List.contains_iff_mem, List.mem_filter,
    forall_exists_index, and_imp, forall_apply_eq_imp_iff₂, not_exists, not_and]
  constructor
  · intro h row hrow hp reference hreference heq
    exact h reference hreference row hrow hp heq.symm
  · intro h reference hreference row hrow hp heq
    exact h row hrow hp reference hreference heq.symm

theorem checkDelete_submissions_ok_iff :
    db.checkDelete .submissions ((db.submissions.filter service.submission?).map (·.id)) =
      .ok () ↔ service.NoEvidence db := by
  simp only [Database.checkDelete, Database.referencesTo, List.find?_cons, List.find?_nil]
  constructor
  · intro h
    split at h
    · rename_i heq
      split at heq <;> cases h
    · rename_i heq
      split at heq
      · cases heq
      · rename_i hruns
        split at heq
        · cases heq
        · rename_i hresults
          exact ⟨any_contains_eq_false.mp hruns, any_contains_eq_false.mp hresults⟩
  · rintro ⟨hruns, hresults⟩
    rw [any_contains_eq_false.mpr hruns, any_contains_eq_false.mpr hresults]

/-- Only the delete of submissions can meet a foreign key. -/
theorem deleteRows_eq :
    service.deleteRows db = (do
      db.checkDelete .submissions ((db.submissions.filter service.submission?).map (·.id))
      .ok (service.deleted db)) := rfl

theorem deleteRows_ok_iff :
    service.deleteRows db = .ok db' ↔ service.NoEvidence db ∧ db' = service.deleted db := by
  rw [deleteRows_eq, bind_eq_ok]
  constructor
  · rintro ⟨_, hcheck, h⟩
    cases h
    exact ⟨checkDelete_submissions_ok_iff.mp hcheck, rfl⟩
  · rintro ⟨hevidence, rfl⟩
    exact ⟨(), checkDelete_submissions_ok_iff.mpr hevidence, rfl⟩

/-! ## Previous interventions and plans -/

theorem cancelPrevious_interventions :
    ∀ row ∈ (service.cancelPrevious now db).interventions,
      service.previousRestart? row = false := by
  intro row hrow
  rcases mem_updateAll.mp hrow with ⟨old, -, -, rfl⟩ | ⟨hrow, hp⟩
  · simp [previousRestart?, InterventionStatus.active?]
  · by_contra hprevious
    rw [Bool.not_eq_false] at hprevious
    have hmem : row.id ∈ (db.interventions.filter service.previousRestart?).map (·.id) :=
      List.mem_map.mpr ⟨row, List.mem_filter.mpr ⟨hrow, hprevious⟩, rfl⟩
    simp [hmem] at hp

theorem cancelPrevious_recoveryPlans :
    ∀ row ∈ (service.cancelPrevious now db).recoveryPlans,
      service.previousPlan? row = false := by
  intro row hrow
  rcases mem_updateAll.mp hrow with ⟨old, -, -, rfl⟩ | ⟨-, hp⟩
  · simp [previousPlan?]
  · exact hp

/-! ## The records the restart creates -/

/-- The reason fits into the `action_summary` of the intervention. -/
def ReasonFits (service : EnrollmentRestartService) : Prop :=
  ∀ text, presence service.reason = some text → text.length ≤ 2000

theorem reasonFits_iff :
    (∀ text, presence (some (service.reason.getD
      "Support the student's return to a sustainable weekly pace.")) = some text →
        text.length ≤ 2000) ↔ service.ReasonFits := by
  unfold ReasonFits
  cases service.reason with
  | none =>
    refine ⟨fun _ text htext => by simp [presence] at htext, fun _ text htext => ?_⟩
    obtain ⟨hsome, -⟩ := Option.filter_eq_some_iff.mp htext
    cases hsome
    decide
  | some reason => simp

theorem createIntervention!_ok_iff {id : ℕ} :
    db.createIntervention! (service.restartIntervention id now) service.performedBy = .ok db' ↔
      (service.ReasonFits ∧ service.performedBy.staff? = true) ∧
        (∀ row ∈ db.interventions, service.previousRestart? row = false) ∧
        { db with
          interventions := db.interventions ++ [service.restartIntervention id now]
          nextId := db.nextId + 1 } = db' := by
  have htaken : ((InterventionStatus.monitoring.active? && db.interventions.any fun other =>
      other.enrollmentId == service.enrollment.id && other.triggerType == TriggerType.restart &&
        other.status.active?) = false) ↔
      ∀ row ∈ db.interventions, service.previousRestart? row = false := by
    rw [show InterventionStatus.monitoring.active? = true from rfl, Bool.true_and,
      List.any_eq_false]
    refine forall₂_congr fun row _ => ?_
    rw [Bool.not_eq_true, previousRestart?, Bool.and_right_comm]
  unfold Database.createIntervention!
  rw [saveUnique_eq_ok]
  refine and_congr ?_ (and_congr htaken Iff.rfl)
  rw [List.append_eq_nil_iff, List.append_eq_nil_iff, lengthErrors_eq_nil, staffErrors_eq_nil,
    staffErrors_eq_nil, and_assoc, and_self]
  exact and_congr reasonFits_iff Iff.rfl

/-- The fixed texts of the plan pass their validations. -/
theorem createRecoveryPlan!_ok_iff {id restartId interventionId : ℕ} :
    db.createRecoveryPlan! (service.restartPlan id restartId interventionId now)
        service.performedBy = .ok db' ↔
      service.performedBy.staff? = true ∧
        (∀ row ∈ db.recoveryPlans, service.previousPlan? row = false) ∧
        { db with
          recoveryPlans := db.recoveryPlans ++
            [service.restartPlan id restartId interventionId now]
          nextId := db.nextId + 1 } = db' := by
  have htaken : ((PlanStatus.active == PlanStatus.active && db.recoveryPlans.any fun other =>
      other.enrollmentId == service.enrollment.id && other.status == PlanStatus.active) = false) ↔
      ∀ row ∈ db.recoveryPlans, service.previousPlan? row = false := by
    rw [beq_self_eq_true, Bool.true_and, List.any_eq_false]
    exact forall₂_congr fun row _ => by rw [Bool.not_eq_true, previousPlan?]
  have htexts : (service.restartPlan id restartId interventionId now).textErrors = [] := by
    simp only [RecoveryPlan.textErrors, restartPlan]
    decide +kernel
  unfold Database.createRecoveryPlan!
  rw [saveUnique_eq_ok]
  refine and_congr ?_ (and_congr htaken Iff.rfl)
  rw [htexts, List.nil_append, List.append_eq_nil_iff, staffErrors_eq_nil,
    staffErrors_eq_nil, and_self]

/-! ## The whole transaction -/

/-- No other enrollment of the student uses the curriculum. -/
def Unambiguous (service : EnrollmentRestartService) (db : Database) : Prop :=
  ∀ other ∈ db.enrollments, other.userId = service.student.id →
    other.id ≠ service.enrollment.id → ∀ cohort, db.cohort? other.cohortId = some cohort →
      cohort.curriculumId ≠ service.cohort.curriculumId

theorem ensureUnambiguousCurriculum!_ok_iff :
    service.ensureUnambiguousCurriculum! db = .ok () ↔ service.Unambiguous db := by
  have hany : ((db.enrollments.any fun other =>
      other.userId == service.student.id && other.id != service.enrollment.id &&
        (db.cohort? other.cohortId).any (·.curriculumId == service.cohort.curriculumId)) =
      false) ↔ service.Unambiguous db := by
    rw [List.any_eq_false]
    refine forall₂_congr fun other _ => ?_
    cases db.cohort? other.cohortId <;> simp
  rw [← hany]
  unfold ensureUnambiguousCurriculum!
  split
  · rename_i h
    simp [h]
  · rename_i h
    simpa using h

/-- The database that a successful restart leaves. -/
def restarted (service : EnrollmentRestartService) (now : Time) (db : Database) : Database :=
  let emptied := service.resetEnrollment now (service.deleted (service.cancelPrevious now
    { db with
      enrollmentRestarts := db.enrollmentRestarts ++ [service.restartRecord db now]
      nextId := db.nextId + 1 }))
  { emptied with
    interventions := emptied.interventions ++ [service.restartIntervention (db.nextId + 1) now]
    recoveryPlans := emptied.recoveryPlans ++
      [service.restartPlan (db.nextId + 2) db.nextId (db.nextId + 1) now]
    nextId := db.nextId + 3 }

/-! ## Tables after a restart -/

theorem attempt?_congr (h : db'.knowledgeChecks = db.knowledgeChecks) :
    service.attempt? db' = service.attempt? db := by
  funext row
  simp only [attempt?, h]

theorem submissionNotification?_congr (h : db'.submissions = db.submissions) :
    service.submissionNotification? db' = service.submissionNotification? db := by
  funext row
  simp only [submissionNotification?, h]

section Tables

variable (service : EnrollmentRestartService) (now : Time) (db : Database)

theorem restarted_submissions :
    (service.restarted now db).submissions = deleteAll service.submission? db.submissions := rfl

theorem restarted_progresses :
    (service.restarted now db).progresses = deleteAll service.progress? db.progresses := rfl

theorem restarted_attempts : (service.restarted now db).knowledgeCheckAttempts =
    deleteAll (service.attempt? db) db.knowledgeCheckAttempts :=
  congrArg (deleteAll · db.knowledgeCheckAttempts) (attempt?_congr rfl)

theorem restarted_watchProgresses : (service.restarted now db).watchProgresses =
    deleteAll service.watchProgress? db.watchProgresses := rfl

theorem restarted_lessonAssignments : (service.restarted now db).lessonAssignments =
    deleteAll service.lessonAssignment? db.lessonAssignments := rfl

theorem restarted_knowledgeChecks :
    (service.restarted now db).knowledgeChecks = db.knowledgeChecks := by
  simp only [restarted, resetEnrollment, deleted, cancelPrevious]

theorem restarted_recordings : (service.restarted now db).recordings = db.recordings := by
  simp only [restarted, resetEnrollment, deleted, cancelPrevious]

theorem restarted_curriculumBlockIds (curriculumId : ℕ) :
    (service.restarted now db).curriculumBlockIds curriculumId =
      db.curriculumBlockIds curriculumId := by
  simp only [Database.curriculumBlockIds, Database.lesson?, Database.module?, restarted,
    resetEnrollment, deleted, cancelPrevious]

theorem restarted_enrollments : (service.restarted now db).enrollments =
    updateAll (fun row => row.id == service.enrollment.id)
      (fun row =>
        { row with
          status := .active
          enrolledAt := some now
          completedAt := none
          learningStateResetAt := some now
          updatedAt := now })
      db.enrollments := rfl

theorem restarted_notifications : (service.restarted now db).notifications =
    deleteAll (service.submissionNotification? db)
      (service.cancelPrevious now db).notifications :=
  congrArg (deleteAll · (service.cancelPrevious now db).notifications)
    (submissionNotification?_congr rfl)

theorem restarted_interventions : (service.restarted now db).interventions =
    (service.cancelPrevious now db).interventions ++
      [service.restartIntervention (db.nextId + 1) now] := by
  simp only [restarted, resetEnrollment, deleted, cancelPrevious]

theorem restarted_recoveryPlans : (service.restarted now db).recoveryPlans =
    (service.cancelPrevious now db).recoveryPlans ++
      [service.restartPlan (db.nextId + 2) db.nextId (db.nextId + 1) now] := by
  simp only [restarted, resetEnrollment, deleted, cancelPrevious]

end Tables

/-- A restart succeeds exactly when the curriculum is unambiguous, no evidence row keeps a
deleted submission, the performer is staff and the reason fits. -/
theorem call_ok_iff {restart : EnrollmentRestart} :
    service.call now db = .ok (db', restart) ↔
      (service.Unambiguous db ∧ service.NoEvidence db ∧ service.performedBy.staff? = true ∧
        service.ReasonFits) ∧
      db' = service.restarted now db ∧ restart = service.restartRecord db now := by
  constructor
  · intro h
    obtain ⟨_, hunambiguous, h⟩ := bind_eq_ok.mp h
    obtain ⟨_, hdelete, h⟩ := bind_eq_ok.mp h
    obtain ⟨hevidence, rfl⟩ := deleteRows_ok_iff.mp hdelete
    obtain ⟨_, hintervention, h⟩ := bind_eq_ok.mp h
    obtain ⟨⟨hreason, hstaff⟩, -, rfl⟩ := createIntervention!_ok_iff.mp hintervention
    obtain ⟨_, hplan, h⟩ := bind_eq_ok.mp h
    obtain ⟨-, -, rfl⟩ := createRecoveryPlan!_ok_iff.mp hplan
    cases h
    exact ⟨⟨ensureUnambiguousCurriculum!_ok_iff.mp hunambiguous,
      ⟨hevidence.checkRuns, hevidence.criterionResults⟩, hstaff, hreason⟩, rfl, rfl⟩
  · rintro ⟨⟨hunambiguous, hevidence, hstaff, hreason⟩, rfl, rfl⟩
    refine bind_eq_ok.mpr ⟨(), ensureUnambiguousCurriculum!_ok_iff.mpr hunambiguous, ?_⟩
    refine bind_eq_ok.mpr ⟨_, deleteRows_ok_iff.mpr
      ⟨⟨hevidence.checkRuns, hevidence.criterionResults⟩, rfl⟩, ?_⟩
    refine bind_eq_ok.mpr ⟨_, createIntervention!_ok_iff.mpr
      ⟨⟨hreason, hstaff⟩, cancelPrevious_interventions, rfl⟩, ?_⟩
    exact bind_eq_ok.mpr ⟨_, createRecoveryPlan!_ok_iff.mpr
      ⟨hstaff, cancelPrevious_recoveryPlans, rfl⟩, rfl⟩

end EnrollmentRestartService

end LearningPlatform
