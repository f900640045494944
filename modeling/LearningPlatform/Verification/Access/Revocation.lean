import LearningPlatform.Verification.Access.Gates
import LearningPlatform.Verification.Learning.Loading

/-! # Revoking a module

`module_access` with `assigned: false` deletes the assignments of the active enrollments of
a cohort and of the active lessons of a module. The read gate looks at all assignments of
the student. -/

namespace LearningPlatform

open Shared

/-! ## Who holds a module -/

/-- Some enrollment of the user has an assignment of the module or of one of its lessons. -/
def HoldsModule (db : Database) (userId moduleId : ℕ) : Prop :=
  ∃ enrollment ∈ db.enrollments, enrollment.userId = userId ∧
    ((∃ row ∈ db.moduleAssignments, row.enrollmentId = enrollment.id ∧ row.moduleId = moduleId) ∨
      ∃ row ∈ db.lessonAssignments, row.enrollmentId = enrollment.id ∧
        ∃ lesson ∈ db.lessons, lesson.id = row.lessonId ∧ lesson.moduleId = moduleId)

instance (db : Database) (userId moduleId : ℕ) : Decidable (HoldsModule db userId moduleId) :=
  inferInstanceAs (Decidable (∃ enrollment ∈ db.enrollments, _ ∧ (_ ∨ _)))

/-- No student of the cohort holds the module. -/
def NoneHolds (db : Database) (cohortId moduleId : ℕ) : Prop :=
  ∀ enrollment ∈ db.enrollments, enrollment.cohortId = cohortId →
    ¬ HoldsModule db enrollment.userId moduleId

variable {db db' : Database} {cohortId : ℕ} {params : ModuleAccessParams} {startedAt : Time}

theorem holdsModule_of_lessonRead {user : User} (hstudent : user.staff? = false) {lesson : Lesson}
    (hlesson : lesson ∈ db.lessons) {on : Date}
    (h : authorizeLessonRead! db user lesson on = .ok ()) :
    HoldsModule db user.id lesson.moduleId := by
  simp only [authorizeLessonRead!, hstudent, Bool.false_eq_true, if_false] at h
  split at h
  · cases h
  · split at h
    · cases h
    · split at h
      · cases h
      · rename_i m hm enrollment cohort hactive
        obtain ⟨hmem, huser, -⟩ := activeEnrollmentFor_mem hactive
        refine ⟨enrollment, hmem, huser, ?_⟩
        simp only [Database.checkLesson] at h
        split at h
        · rename_i hopen
          rcases Bool.or_eq_true _ _ ▸ hopen with hopen | hopen
          · cases hma : db.moduleAssignmentFor enrollment lesson.moduleId with
            | none => simp [Database.moduleOpen?, hma] at hopen
            | some row =>
              have hrow := List.find?_some hma
              simp only [Bool.and_eq_true, beq_iff_eq] at hrow
              exact .inl ⟨row, List.mem_of_find?_eq_some hma, hrow⟩
          · obtain ⟨row, hla⟩ := Option.isSome_iff_exists.mp hopen
            have hrow := List.find?_some hla
            simp only [Bool.and_eq_true, beq_iff_eq] at hrow
            exact .inr ⟨row, List.mem_of_find?_eq_some hla, hrow.1, lesson, hlesson,
              hrow.2.symm, rfl⟩
        · cases h

/-! ## Later requests -/

/-- Every assignment of the module or of its lessons was there before, for the same enrollment. -/
structure CreatesNoAssignment (moduleId : ℕ) (db db' : Database) : Prop where
  modules : ∀ row ∈ db'.moduleAssignments, row.moduleId = moduleId →
    ∃ old ∈ db.moduleAssignments, old.enrollmentId = row.enrollmentId ∧ old.moduleId = moduleId
  lessons : ∀ row ∈ db'.lessonAssignments, ∀ lesson ∈ db'.lessons, lesson.id = row.lessonId →
    lesson.moduleId = moduleId → ∃ old ∈ db.lessonAssignments,
      old.enrollmentId = row.enrollmentId ∧
        ∃ lesson ∈ db.lessons, lesson.id = old.lessonId ∧ lesson.moduleId = moduleId

/-- A request that creates no assignment of the module, and enrolls nobody in the cohort who
holds the module by another enrollment. -/
structure LaterAllowed (cohortId moduleId : ℕ) (db : Database) (request : PlatformRequest) :
    Prop where
  assignments : CreatesNoAssignment moduleId db (request.perform db)
  newcomers : ∀ enrollment ∈ (request.perform db).enrollments, enrollment.cohortId = cohortId →
    (∀ old ∈ db.enrollments, old.id ≠ enrollment.id) → ¬ HoldsModule db enrollment.userId moduleId

/-- Enrollments keep their student and cohort; others are new. -/
def EnrollmentsFrom (db db' : Database) : Prop :=
  ∀ enrollment ∈ db'.enrollments,
    (∃ old ∈ db.enrollments, old.id = enrollment.id ∧ old.userId = enrollment.userId ∧
      old.cohortId = enrollment.cohortId) ∨ db.nextId ≤ enrollment.id

theorem EnrollmentsFrom.of_eq (h : db'.enrollments = db.enrollments) : EnrollmentsFrom db db' :=
  fun enrollment hmem => .inl ⟨enrollment, h ▸ hmem, rfl, rfl, rfl⟩

theorem RowChange.enrollmentsFrom {Allowed : Database → CurriculumModule → CurriculumModule → Prop}
    (hchange : RowChange Allowed db db') : EnrollmentsFrom db db' := by
  cases hchange with
  | insertEnrollment row hid =>
    intro enrollment hmem
    rcases List.mem_append.mp hmem with hmem | hmem
    · exact .inl ⟨enrollment, hmem, rfl, rfl, rfl⟩
    · rw [List.mem_singleton.mp hmem, hid]
      exact .inr (Nat.le_refl _)
  | updateEnrollments p f hf =>
    intro enrollment hmem
    rcases mem_updateAll.mp hmem with ⟨old, hold, hp, rfl⟩ | ⟨hmem, -⟩
    · obtain ⟨hid, huser, hcohort⟩ := hf old hp
      exact .inl ⟨old, hold, hid.symm, huser.symm, hcohort.symm⟩
    · exact .inl ⟨enrollment, hmem, rfl, rfl, rfl⟩
  | deleteEnrollments p =>
    intro enrollment hmem
    exact .inl ⟨enrollment, (mem_deleteAll.mp hmem).1, rfl, rfl, rfl⟩
  | elsewhere db' hkept => exact .of_eq hkept.enrollments
  | _ => exact .of_eq rfl

theorem Changes.enrollmentsFrom {Allowed : Database → CurriculumModule → CurriculumModule → Prop}
    (hchanges : Changes Allowed db db') : EnrollmentsFrom db db' ∧ db.nextId ≤ db'.nextId := by
  induction hchanges with
  | refl => exact ⟨.of_eq rfl, Nat.le_refl _⟩
  | tail _ hchange ih =>
    refine ⟨?_, ih.2.trans hchange.nextId_le⟩
    intro enrollment hmem
    rcases hchange.enrollmentsFrom enrollment hmem with ⟨mid, hmid, hid, huser, hcohort⟩ | hfresh
    · rcases ih.1 mid hmid with ⟨old, hold, hid', huser', hcohort'⟩ | hfresh
      · exact .inl ⟨old, hold, hid'.trans hid, huser'.trans huser, hcohort'.trans hcohort⟩
      · exact .inr (hid ▸ hfresh)
    · exact .inr (ih.2.trans hfresh)

/-- Without new assignments, a user who holds the module held it before. -/
theorem HoldsModule.before (hs : CurriculumSchema db) {userId moduleId : ℕ}
    (hfrom : EnrollmentsFrom db db') (hnone : CreatesNoAssignment moduleId db db')
    (h : HoldsModule db' userId moduleId) : HoldsModule db userId moduleId := by
  obtain ⟨enrollment, hmem, huser, hheld⟩ := h
  -- The enrollment of an old assignment is old.
  have hold : ∀ k, k = enrollment.id → k < db.nextId →
      ∃ old ∈ db.enrollments, old.id = enrollment.id ∧ old.userId = userId := by
    intro k hk hlt
    rcases hfrom enrollment hmem with ⟨old, hold, hid, huser', -⟩ | hfresh
    · exact ⟨old, hold, hid, huser'.trans huser⟩
    · omega
  rcases hheld with ⟨row, hrow, henrollment, hmodule⟩ |
    ⟨row, hrow, henrollment, lesson, hlesson, hid, hmodule⟩
  · obtain ⟨row', hrow', henrollment', hmodule'⟩ := hnone.modules row hrow hmodule
    obtain ⟨old, hold, hid, huser'⟩ := hold row'.enrollmentId (henrollment'.trans henrollment)
      (hs.moduleAssignments.ownerLt row' hrow')
    exact ⟨old, hold, huser', .inl ⟨row', hrow', by omega, hmodule'⟩⟩
  · obtain ⟨row', hrow', henrollment', hlesson'⟩ :=
      hnone.lessons row hrow lesson hlesson hid hmodule
    obtain ⟨old, hold, hid, huser'⟩ := hold row'.enrollmentId (henrollment'.trans henrollment)
      (hs.lessonAssignments.ownerLt row' hrow')
    exact ⟨old, hold, huser', .inr ⟨row', hrow', by omega, hlesson'⟩⟩

/-- Allowed later requests leave nobody of the cohort holding the module. -/
theorem NoneHolds.step {moduleId : ℕ} (hs : CurriculumSchema db)
    (h : NoneHolds db cohortId moduleId) {request : PlatformRequest}
    (hallowed : LaterAllowed cohortId moduleId db request) :
    NoneHolds (request.perform db) cohortId moduleId := by
  have hfrom := (perform_any_changes hs request).enrollmentsFrom.1
  intro enrollment hmem hcohort hholds
  have hbefore := hholds.before hs hfrom hallowed.assignments
  rcases hfrom enrollment hmem with ⟨old, hold, -, huser, hcohort'⟩ | hfresh
  · exact h old hold (hcohort'.trans hcohort) (huser ▸ hbefore)
  · refine hallowed.newcomers enrollment hmem hcohort (fun old hold heq => ?_) hbefore
    have hlt := hs.enrollments.lt old hold
    omega

/-! ## The revocation -/

/-- Every assignment of the module that a student of the cohort holds belongs to an active
enrollment of the cohort and, for a lesson, to an active lesson. -/
structure FullyRevocable (db : Database) (cohortId moduleId : ℕ) : Prop where
  modules : ∀ student ∈ db.enrollments, student.cohortId = cohortId →
    ∀ enrollment ∈ db.enrollments, enrollment.userId = student.userId →
    ∀ row ∈ db.moduleAssignments, row.enrollmentId = enrollment.id → row.moduleId = moduleId →
      enrollment.cohortId = cohortId ∧ enrollment.status = .active
  lessons : ∀ student ∈ db.enrollments, student.cohortId = cohortId →
    ∀ enrollment ∈ db.enrollments, enrollment.userId = student.userId →
    ∀ row ∈ db.lessonAssignments, row.enrollmentId = enrollment.id →
    ∀ lesson ∈ db.lessons, lesson.id = row.lessonId → lesson.moduleId = moduleId →
      enrollment.cohortId = cohortId ∧ enrollment.status = .active ∧ lesson.archived? = false

/-- What the loop of a revocation leaves: no assignment of the module for any of the
enrollments, nor of the listed lessons. -/
structure Unassigned (db db' : Database) (m : CurriculumModule) (lessonIds : List ℕ)
    (enrollments : List Enrollment) : Prop where
  lessons_eq : db'.lessons = db.lessons
  enrollments_eq : db'.enrollments = db.enrollments
  modules : ∀ row ∈ db'.moduleAssignments, row ∈ db.moduleAssignments ∧
    ∀ enrollment ∈ enrollments, row.enrollmentId = enrollment.id → row.moduleId ≠ m.id
  lessons : ∀ row ∈ db'.lessonAssignments, row ∈ db.lessonAssignments ∧
    ∀ enrollment ∈ enrollments, row.enrollmentId = enrollment.id → row.lessonId ∉ lessonIds

section

variable (hassigned : params.assigned = .bool false)

include hassigned

theorem unassigned_of_loop {m : CurriculumModule} {lessonIds : List ℕ}
    {now : Time} {enrollments : List Enrollment}
    (h : enrollments.foldlM (fun db enrollment => db.moduleAccessFor m lessonIds params startedAt
      now enrollment) db = .ok db') : Unassigned db db' m lessonIds enrollments := by
  induction enrollments generalizing db with
  | nil =>
    obtain rfl : db = db' := by simpa [pure, Except.pure] using h
    exact ⟨rfl, rfl, fun row hrow => ⟨hrow, by simp⟩, fun row hrow => ⟨hrow, by simp⟩⟩
  | cons enrollment enrollments ih =>
    rw [List.foldlM_cons] at h
    obtain ⟨mid, hmid, h⟩ := bind_eq_ok.mp h
    obtain ⟨-, rfl⟩ : _ ∧ mid = db.unassignModule enrollment m.id lessonIds := by
      rcases moduleAccessFor_inv hmid with hfalse | ⟨hne, -⟩
      · exact hfalse
      · exact absurd hassigned hne
    obtain ⟨hlessons, henrollments, hmodules, hlessonRows⟩ := ih h
    refine ⟨hlessons, henrollments, ?_, ?_⟩
    · intro row hrow
      obtain ⟨hmem, hrest⟩ := hmodules row hrow
      obtain ⟨hmem, hkept⟩ := mem_deleteAll.mp hmem
      refine ⟨hmem, fun other hother henr hmodule => ?_⟩
      rcases List.mem_cons.mp hother with rfl | hother
      · simp [henr, hmodule] at hkept
      · exact hrest other hother henr hmodule
    · intro row hrow
      obtain ⟨hmem, hrest⟩ := hlessonRows row hrow
      obtain ⟨hmem, hkept⟩ := mem_deleteAll.mp hmem
      refine ⟨hmem, fun other hother henr hlesson => ?_⟩
      rcases List.mem_cons.mp hother with rfl | hother
      · simp [henr, hlesson] at hkept
      · exact hrest other hother henr hlesson

theorem moduleAccess_unassigned {now : Time} {today : Date}
    (h : moduleAccess db cohortId params startedAt now today = .ok db') :
    ∃ cohort m, cohort.id = cohortId ∧ m.id = params.moduleId ∧
      Unassigned db db' m ((db.lessonsOf m).map (·.id)) (db.activeEnrollmentsOf cohort) := by
  obtain ⟨cohort, m, assigned, scheduled, hcohort, -, hm, hloop, hschedule, rfl⟩ :=
    moduleAccess_inv h
  have hun := unassigned_of_loop hassigned hloop
  simp only [Database.updateSchedules, hassigned, if_true, Except.ok.injEq] at hschedule
  subst hschedule
  refine ⟨cohort, m, (mem_of_lookup hcohort).2, hm, ?_⟩
  cases params.requiresGithub with
  | none => exact ⟨hun.lessons_eq, hun.enrollments_eq, hun.modules, hun.lessons⟩
  | some flag => exact ⟨hun.lessons_eq, hun.enrollments_eq, hun.modules, hun.lessons⟩

theorem noneHolds_of_revoked {now : Time} {today : Date}
    (h : moduleAccess db cohortId params startedAt now today = .ok db')
    (hfull : FullyRevocable db cohortId params.moduleId) :
    NoneHolds db' cohortId params.moduleId := by
  obtain ⟨cohort, m, rfl, hm, hun⟩ := moduleAccess_unassigned hassigned h
  rw [← hm] at hfull ⊢
  intro student hstudent hcohort hholds
  obtain ⟨enrollment, hmem, huser, hheld⟩ := hholds
  rw [hun.enrollments_eq] at hstudent hmem
  rcases hheld with ⟨row, hrow, henr, hmodule⟩ | ⟨row, hrow, henr, lesson, hlesson, hid, hmodule⟩
  · obtain ⟨hold, hgone⟩ := hun.modules row hrow
    obtain ⟨hcohort', hactive⟩ := hfull.modules student hstudent hcohort enrollment hmem huser
      row hold henr hmodule
    exact hgone enrollment (mem_activeEnrollmentsOf.mpr ⟨hmem, hcohort', hactive⟩) henr hmodule
  · obtain ⟨hold, hgone⟩ := hun.lessons row hrow
    rw [hun.lessons_eq] at hlesson
    obtain ⟨hcohort', hactive, harchived⟩ := hfull.lessons student hstudent hcohort enrollment
      hmem huser row hold henr lesson hlesson hid hmodule
    refine hgone enrollment (mem_activeEnrollmentsOf.mpr ⟨hmem, hcohort', hactive⟩) henr ?_
    exact List.mem_map.mpr ⟨lesson, mem_lessonsOf.mpr ⟨hlesson, hmodule, harchived⟩, hid⟩

end

/-! ## Main result -/

/-- After a revocation that reaches all assignments of the module which students of the
cohort hold, and any allowed requests, no student of the cohort passes the read gate for a
lesson of the module. -/
theorem revoked_module_stays_unreadable (db revoked later : Database) (hreachable : Reachable db)
    (cohortId : ℕ) (params : ModuleAccessParams) (startedAt now : Time) (today : Date)
    (hassigned : params.assigned = .bool false)
    (hrevoked : moduleAccess db cohortId params startedAt now today = .ok revoked)
    (hfull : FullyRevocable db cohortId params.moduleId) (requests : List PlatformRequest)
    (hrun : Run (Meeting (LaterAllowed cohortId params.moduleId)
      (Performs PlatformRequest.perform)) revoked requests later) :
    ∀ user : User, user.staff? = false →
      (∃ enrollment ∈ later.enrollments, enrollment.userId = user.id ∧
        enrollment.cohortId = cohortId) →
      ∀ lesson ∈ later.lessons, lesson.moduleId = params.moduleId → ∀ on : Date,
        authorizeLessonRead! later user lesson on ≠ .ok () := by
  have hs := hreachable.schema
  have hchanges : Changes AnyUpdate db revoked := moduleAccess_changes hrevoked
  have hinv := hrun.invariant
    (fun db => CurriculumSchema db ∧ NoneHolds db cohortId params.moduleId)
    (fun s request t hs hstep => by
      obtain ⟨hallowed, rfl⟩ := hstep
      exact ⟨(perform_any_changes hs.1 request).schema hs.1, hs.2.step hs.1 hallowed⟩)
    ⟨hchanges.schema hs, noneHolds_of_revoked hassigned hrevoked hfull⟩
  rintro user hstudent ⟨enrollment, hmem, huser, hcohort⟩ lesson hlesson hmodule on hread
  have hholds := holdsModule_of_lessonRead hstudent hlesson hread
  rw [hmodule, ← huser] at hholds
  exact hinv.2 enrollment hmem hcohort hholds

/-! ## A complete and an incomplete revocation -/

theorem execute_eq_ok (db : Database) (request : PlatformRequest)
    (h : (request.execute db).isOk = true) : request.execute db = .ok (request.perform db) := by
  unfold PlatformRequest.perform
  cases hexecute : request.execute db with
  | error failure => simp [hexecute, Except.isOk, Except.toBool] at h
  | ok db' => rfl

def oneStudent : Database :=
  { users := [{ id := 1 }], curricula := [{ id := 1 }], nextId := 2 }

/-- A cohort with one lesson and one enrolled student, whose status is then set. -/
def enrolledWith (status : EnrollmentStatus) : Database :=
  [PlatformRequest.createModule 1 { name := some (some "Ruby") },
    .createLesson 2 { title := some (some "Loops") },
    .createCohort { curriculumId := some 1, startDate := some (some 0) },
    .createEnrollment 4 1 1, .updateEnrollment 5 status 2].foldl
    PlatformRequest.perform oneStudent

theorem enrolledWith_reachable (status : EnrollmentStatus) : Reachable (enrolledWith status) :=
  ⟨oneStudent, _, ⟨rfl, rfl, rfl, rfl, rfl, rfl, rfl, rfl⟩, run_foldl _ _ _⟩

def revokeRuby : PlatformRequest :=
  .moduleAccess 4 { moduleId := 2, assigned := .bool false } 3 3 0

theorem active_student_stays_revoked :
    let revoked := revokeRuby.perform (enrolledWith .active)
    let later := PlatformRequest.perform
      (PlatformRequest.perform revoked (.archiveLesson 3 4)) (.restoreLesson 3)
    later.lessons = [{ id := 3, moduleId := 2, title := "Loops" }] ∧
      ∀ on, authorizeLessonRead! later { id := 1 } { id := 3, moduleId := 2, title := "Loops" } on ≠
        .ok () := by
  intro revoked later
  have hlessons : later.lessons = [{ id := 3, moduleId := 2, title := "Loops" }] := by
    decide +kernel
  have hrun : Run (Meeting (LaterAllowed 4 2) (Performs PlatformRequest.perform)) revoked
      [.archiveLesson 3 4, .restoreLesson 3] later :=
    .cons ⟨⟨⟨by decide +kernel, by decide +kernel⟩, by decide +kernel⟩, rfl⟩
      (.cons ⟨⟨⟨by decide +kernel, by decide +kernel⟩, by decide +kernel⟩, rfl⟩ (.nil _))
  exact ⟨hlessons, revoked_module_stays_unreadable (enrolledWith .active) revoked later
    (enrolledWith_reachable .active) 4 { moduleId := 2, assigned := .bool false } 3 3 0 rfl
    (execute_eq_ok (enrolledWith .active) revokeRuby (by decide +kernel))
    ⟨by decide +kernel, by decide +kernel⟩ _ hrun { id := 1 } rfl (by decide +kernel) _
    (by simp [hlessons]) rfl⟩

/-- The assignments of a paused enrollment survive the revocation, so the student reads the
lesson once the enrollment is active again. -/
theorem paused_student_reads_revoked_module :
    let revoked := revokeRuby.perform (enrolledWith .paused)
    let later := PlatformRequest.perform revoked (.updateEnrollment 5 .active 4)
    Reachable (enrolledWith .paused) ∧
      moduleAccess (enrolledWith .paused) 4 { moduleId := 2, assigned := .bool false } 3 3 0 =
        .ok revoked ∧
      CreatesNoAssignment 2 revoked later ∧
      (∃ enrollment ∈ later.enrollments, enrollment.userId = 1 ∧ enrollment.cohortId = 4) ∧
      ∃ lesson ∈ later.lessons, lesson.moduleId = 2 ∧
        authorizeLessonRead! later { id := 1 } lesson 0 = .ok () :=
  ⟨enrolledWith_reachable .paused,
    execute_eq_ok (enrolledWith .paused) revokeRuby (by decide +kernel),
    ⟨by decide +kernel, by decide +kernel⟩, by decide +kernel, by decide +kernel⟩

end LearningPlatform
