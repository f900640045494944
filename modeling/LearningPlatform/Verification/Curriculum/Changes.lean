import LearningPlatform.Verification.Curriculum.Schema
import LearningPlatform.Verification.Learning.Equations
import LearningPlatform.Verification.Restart.Equations

/-! # Every request is a sequence of validated writes -/

namespace LearningPlatform

open Shared

/-! ## Validations -/

variable {db : Database} {m : CurriculumModule}

theorem scheduleChangeErrors_eq_nil {days : ScheduleDays} (h : db.scheduleChangeErrors m days = [])
    (hne : days ≠ m.scheduleDays) :
    ∀ lesson ∈ db.lessons, lesson.moduleId = m.id →
      ({ m with scheduleDays := days } : CurriculumModule).validReleaseDay? lesson.releaseDay =
        true := by
  intro lesson hlesson hmodule
  simp only [Database.scheduleChangeErrors, if_neg hne] at h
  split at h
  · rename_i hcount
    rw [List.countP_eq_zero] at hcount
    simpa using hcount lesson (by simp [hlesson, hmodule])
  · simp at h

/-- What `validateModule` accepts: the new pattern is the assigned one, and a changed
pattern still schedules every lesson of a persisted module. -/
theorem validateModule_spec {m' : CurriculumModule} {persisted : Bool} {params : ModuleParams}
    (h : db.validateModule m persisted params = .ok m') :
    m'.id = m.id ∧ m'.curriculumId = m.curriculumId ∧
      m.assignedSchedule params = some m'.scheduleDays ∧
      (persisted = true → m'.scheduleDays ≠ m.scheduleDays → ∀ lesson ∈ db.lessons,
        lesson.moduleId = m.id → m'.validReleaseDay? lesson.releaseDay = true) := by
  obtain ⟨herrors, rfl⟩ := saveUnless_eq_ok.mp h
  rw [List.append_eq_nil_iff] at herrors
  cases hdays : m.assignedSchedule params with
  | none => simp [hdays] at herrors
  | some days =>
    refine ⟨rfl, rfl, by simp, ?_⟩
    intro hpersisted hne lesson hlesson hmodule
    simp only [hdays, hpersisted, if_true] at herrors
    have hvalid := scheduleChangeErrors_eq_nil herrors.2 (by simpa using hne) lesson hlesson
      hmodule
    rw [← hvalid]
    exact validReleaseDay?_congr (by simp) _

theorem validateLesson_spec {lesson lesson' : Lesson} {params : LessonParams}
    (h : validateLesson m lesson params = .ok lesson') :
    lesson'.id = lesson.id ∧ lesson'.moduleId = lesson.moduleId ∧
      lesson'.archivedAt = lesson.archivedAt ∧ LessonValid m lesson' := by
  obtain ⟨herrors, rfl⟩ := saveUnless_eq_ok.mp h
  simp only [List.append_eq_nil_iff] at herrors
  obtain ⟨⟨-, hday⟩, hschedule⟩ := herrors
  obtain ⟨day, hsome, hnonneg⟩ := countErrors_eq_nil.mp hday
  refine ⟨rfl, rfl, rfl, by simpa [hsome] using hnonneg, ?_⟩
  intro harchived
  have harchived' : lesson.archived? = false := harchived
  simpa [releaseDayErrors, hsome, harchived'] using hschedule

/-- A row that the uniqueness check of an assignment accepts is the only one of its
enrollment with its target. -/
theorem unique_of_saved {ρ : Type*} {rows : List ρ} {key owner target : ρ → ℕ}
    {errors : List String} {taken : String} {row row' : ρ}
    (h : saveUnless (errors ++ (if rows.any fun other => key other != key row &&
      owner other == owner row && target other == target row then [taken] else [])) row =
        .ok row') :
    row' = row ∧ ∀ other ∈ rows, key other ≠ key row → owner other = owner row →
      target other ≠ target row := by
  obtain ⟨herrors, rfl⟩ := saveUnless_eq_ok.mp h
  refine ⟨rfl, ?_⟩
  intro other hother hid howner htarget
  have htaken := (List.append_eq_nil_iff.mp herrors).2
  rw [if_pos] at htaken
  · simp at htaken
  · rw [List.any_eq_true]
    exact ⟨other, hother, by simp [hid, howner, htarget]⟩

theorem validateModuleAssignment_spec {row row' : ModuleAssignment}
    (h : db.validateModuleAssignment row = .ok row') :
    row' = row ∧ ∀ other ∈ db.moduleAssignments, other.id ≠ row.id →
      other.enrollmentId = row.enrollmentId → other.moduleId ≠ row.moduleId :=
  unique_of_saved h

theorem validateLessonAssignment_spec {row row' : LessonAssignment}
    (h : db.validateLessonAssignment row = .ok row') :
    row' = row ∧ ∀ other ∈ db.lessonAssignments, other.id ≠ row.id →
      other.enrollmentId = row.enrollmentId → other.lessonId ≠ row.lessonId :=
  unique_of_saved h

theorem mem_of_lookup {ρ : Type*} {key : ρ → ℕ} {rows : List ρ} {k : ℕ} {row : ρ}
    (h : rows.find? (fun row => key row == k) = some row) : row ∈ rows ∧ key row = k :=
  ⟨List.mem_of_find?_eq_some h, by simpa using List.find?_some h⟩

section Requests

variable {Allowed : Database → CurriculumModule → CurriculumModule → Prop} {db db' : Database}

/-! ## Modules and lessons -/

theorem createModule_changes {curriculumId : ℕ} {params : ModuleParams}
    (h : createModule db curriculumId params = .ok db') : RowChange Allowed db db' := by
  obtain ⟨curriculum, -, h⟩ := orNotFound_bind_eq_ok.mp h
  obtain ⟨m, hm, hdb⟩ := bind_eq_ok.mp h
  cases hdb
  exact .insertModule m (validateModule_spec hm).1

variable {id cohortId : ℕ} {enrollment : Enrollment} {m : CurriculumModule}
  {params : ModuleAccessParams} {startedAt now : Time} {cohort : Cohort} {today : Date}

theorem updateModule_inv {params : ModuleParams} (h : updateModule db id params = .ok db') :
    ∃ old m, db.module? id = some old ∧ db.validateModule old true params = .ok m ∧
      db' = { db with modules := updateAll (·.id == id) (fun _ => m) db.modules } := by
  obtain ⟨old, hold, h⟩ := orNotFound_bind_eq_ok.mp h
  obtain ⟨m, hm, hdb⟩ := bind_eq_ok.mp h
  cases hdb
  exact ⟨old, m, hold, hm, rfl⟩

theorem updateModule_changes {params : ModuleParams} (h : updateModule db id params = .ok db')
    (hallowed : ∀ old m, db.module? id = some old → db.validateModule old true params = .ok m →
      Allowed db old m) : RowChange Allowed db db' := by
  obtain ⟨old, m, hold, hm, rfl⟩ := updateModule_inv h
  obtain ⟨hmem, rfl⟩ := mem_of_lookup hold
  obtain ⟨hid, -, -, hdays⟩ := validateModule_spec hm
  refine .updateModule old m hmem hid ?_ (hallowed old m hold hm)
  intro hne lesson hlesson hmodule
  exact hdays rfl hne lesson hlesson (hmodule.trans hid)

theorem createLesson_changes {moduleId : ℕ} {params : LessonParams}
    (h : createLesson db moduleId params = .ok db') : RowChange Allowed db db' := by
  obtain ⟨m, hm, h⟩ := orNotFound_bind_eq_ok.mp h
  obtain ⟨lesson, hlesson, hdb⟩ := bind_eq_ok.mp h
  cases hdb
  obtain ⟨hid, hmodule, -, hvalid⟩ := validateLesson_spec hlesson
  exact .insertLesson m lesson (mem_of_lookup hm).1 hmodule hid hvalid

theorem saveLesson_changes {change : Lesson → Lesson} {params : LessonParams}
    (h : saveLesson db id change params = .ok db')
    (hchange : ∀ lesson, (change lesson).id = lesson.id ∧ (change lesson).moduleId =
      lesson.moduleId) : RowChange Allowed db db' := by
  obtain ⟨old, hold, h⟩ := orNotFound_bind_eq_ok.mp h
  split at h
  · cases h
  · rename_i m hm
    obtain ⟨lesson, hlesson, hdb⟩ := bind_eq_ok.mp h
    cases hdb
    obtain ⟨hid, hmodule, -, hvalid⟩ := validateLesson_spec hlesson
    obtain ⟨hmem, rfl⟩ := mem_of_lookup hold
    obtain ⟨hmem', hmodule'⟩ := mem_of_lookup hm
    exact .updateLesson m old lesson hmem' hmodule'.symm hmem (hid.trans (hchange old).1)
      (hmodule.trans (hchange old).2) hvalid

/-! ## Cohorts -/

theorem createCohort_changes {params : CohortParams} (h : createCohort db params = .ok db') :
    RowChange Allowed db db' := by
  obtain ⟨cohort, hcohort, hdb⟩ := bind_eq_ok.mp h
  cases hdb
  obtain ⟨-, rfl⟩ := saveUnless_eq_ok.mp hcohort
  exact .insertCohort _ rfl

theorem updateCohort_changes {params : CohortParams} (h : updateCohort db id params = .ok db') :
    RowChange Allowed db db' := by
  obtain ⟨old, hold, h⟩ := orNotFound_bind_eq_ok.mp h
  obtain ⟨cohort, hcohort, hdb⟩ := bind_eq_ok.mp h
  cases hdb
  obtain ⟨-, rfl⟩ := saveUnless_eq_ok.mp hcohort
  refine .updateCohorts _ _ ?_
  intro row hrow
  exact (mem_of_lookup hold).2.trans (beq_iff_eq.mp hrow).symm

/-! ## Module access -/

theorem unassignModule_changes (enrollment : Enrollment) (moduleId : ℕ) (lessonIds : List ℕ) :
    Changes Allowed db (db.unassignModule enrollment moduleId lessonIds) :=
  (Relation.ReflTransGen.single (.deleteLessonAssignments _)).tail (.deleteModuleAssignments _)

theorem assignModule_changes (henrollment : enrollment ∈ db.enrollments) (moduleId : ℕ)
    (unlocked : Option Bool) (now : Time) :
    RowChange Allowed db (db.assignModule enrollment moduleId unlocked now) := by
  unfold Database.assignModule
  split
  · exact .touchModuleAssignments _ _ fun _ _ => ⟨rfl, rfl, rfl⟩
  · rename_i hnone
    refine .insertModuleAssignment _ rfl ⟨enrollment, henrollment, rfl⟩ ?_
    intro other hother henr hmodule
    have := List.find?_eq_none.mp hnone other hother
    simp [henr, hmodule] at this

@[simp] theorem assignModule_enrollments (db : Database) (enrollment : Enrollment) (moduleId : ℕ)
    (unlocked : Option Bool) (now : Time) :
    (db.assignModule enrollment moduleId unlocked now).enrollments = db.enrollments := by
  unfold Database.assignModule
  split <;> rfl

@[simp] theorem assignModule_modules (db : Database) (enrollment : Enrollment) (moduleId : ℕ)
    (unlocked : Option Bool) (now : Time) :
    (db.assignModule enrollment moduleId unlocked now).modules = db.modules := by
  unfold Database.assignModule
  split <;> rfl

theorem moduleAccessFor_inv {lessonIds : List ℕ}
    (h : db.moduleAccessFor m lessonIds params startedAt now enrollment = .ok db') :
    (params.assigned = .bool false ∧ db' = db.unassignModule enrollment m.id lessonIds) ∨
      (params.assigned ≠ .bool false ∧
        db' = db.assignModule enrollment m.id params.unlocked now) := by
  obtain ⟨_, -, h⟩ := bind_eq_ok.mp h
  split at h <;> cases h
  · exact .inl ⟨by assumption, rfl⟩
  · exact .inr ⟨by assumption, rfl⟩

theorem moduleAccessLoop_changes {lessonIds : List ℕ} {enrollments : List Enrollment}
    (hmem : ∀ enrollment ∈ enrollments, enrollment ∈ db.enrollments)
    (h : enrollments.foldlM (fun db enrollment => db.moduleAccessFor m lessonIds params startedAt
      now enrollment) db = .ok db') :
    Changes Allowed db db' ∧ db'.enrollments = db.enrollments ∧ db'.modules = db.modules := by
  -- The enrollments of the first database stay those of every later one.
  have hloop := foldlM_relates
    (fun s t => s.enrollments = db.enrollments →
      Changes Allowed s t ∧ t.enrollments = db.enrollments ∧ t.modules = s.modules)
    (fun s hs => ⟨.refl, hs, rfl⟩)
    (fun s t u hst htu hs => by
      obtain ⟨hchanges, henr, hmod⟩ := hst hs
      obtain ⟨hchanges', henr', hmod'⟩ := htu henr
      exact ⟨hchanges.trans hchanges', henr', hmod'.trans hmod⟩)
    (fun s t enrollment henrollment hstep hs => by
      rcases moduleAccessFor_inv hstep with ⟨-, rfl⟩ | ⟨-, rfl⟩
      · exact ⟨unassignModule_changes enrollment m.id lessonIds, hs, rfl⟩
      · exact ⟨.single (assignModule_changes (hs ▸ hmem enrollment henrollment) _ _ _),
          by simpa using hs, by simp⟩) h
  exact hloop rfl

theorem startDateErrors_eq_nil {date : Date} :
    startDateErrors m date = [] ↔ weekdayIndex date = m.firstScheduledDayIndex := by
  simp [startDateErrors]

theorem saveSchedule_changes {startDate : Option Date} (hm : m ∈ db.modules)
    (h : db.saveSchedule cohort m startDate today = .ok db') : RowChange Allowed db db' := by
  obtain ⟨date, hdate, h⟩ := bind_eq_ok.mp h
  obtain ⟨herrors, rfl⟩ := saveUnless_eq_ok.mp hdate
  have hday := startDateErrors_eq_nil.mp herrors
  split at h
  · rename_i schedule hfound
    cases h
    have hfound' : schedule ∈ db.cohortModuleSchedules ∧ schedule.cohortId = cohort.id ∧
        schedule.moduleId = m.id :=
      ⟨List.mem_of_find?_eq_some hfound, by simpa using List.find?_some hfound⟩
    exact .updateSchedule m schedule _ hm hfound'.2.2 hfound'.1 hday
  · rename_i hnone
    cases h
    refine .insertSchedule m _ hm rfl rfl hday ?_
    intro other hother hcohort hmodule
    have := List.find?_eq_none.mp hnone other hother
    simp [hcohort, hmodule] at this

theorem mem_modulesOf {curriculumId : ℕ} :
    m ∈ db.modulesOf curriculumId ↔ m ∈ db.modules ∧ m.curriculumId = curriculumId := by
  simp [Database.modulesOf]

theorem mem_activeEnrollmentsOf :
    enrollment ∈ db.activeEnrollmentsOf cohort ↔
      enrollment ∈ db.enrollments ∧ enrollment.cohortId = cohort.id ∧
        enrollment.status = .active := by
  simp [Database.activeEnrollmentsOf]

theorem updateSchedules_changes {alreadyAssigned : Bool} (hm : m ∈ db.modules)
    (h : db.updateSchedules cohort m params alreadyAssigned today = .ok db') :
    Changes Allowed db db' := by
  unfold Database.updateSchedules at h
  split at h
  · cases h
    exact .single (.deleteSchedules _)
  · split at h
    · exact .single (saveSchedule_changes hm h)
    · cases h
      exact .refl

theorem updateSettings_changes (cohort : Cohort) (moduleId : ℕ) (flag : Option Bool) :
    Changes Allowed db (db.updateSettings cohort moduleId flag) := by
  cases flag with
  | none => exact .refl
  | some flag => exact .single (.updateCohorts _ _ fun _ _ => rfl)

/-- A successful `module_access` is the loop over the active enrollments, followed by the
schedule and the settings. -/
theorem moduleAccess_inv (h : moduleAccess db cohortId params startedAt now today = .ok db') :
    ∃ cohort m assigned scheduled, db.cohort? cohortId = some cohort ∧
      m ∈ db.modulesOf cohort.curriculumId ∧ m.id = params.moduleId ∧
      (db.activeEnrollmentsOf cohort).foldlM (fun current enrollment =>
        current.moduleAccessFor m ((db.lessonsOf m).map (·.id)) params startedAt now enrollment)
        db = .ok assigned ∧
      assigned.updateSchedules cohort m params (db.moduleAlreadyAssigned? cohort m) today =
        .ok scheduled ∧
      db' = scheduled.updateSettings cohort m.id params.requiresGithub := by
  obtain ⟨cohort, hcohort, h⟩ := orNotFound_bind_eq_ok.mp h
  obtain ⟨m, hm, h⟩ := orNotFound_bind_eq_ok.mp h
  obtain ⟨-, h⟩ := ite_error_eq_ok.mp h
  obtain ⟨-, h⟩ := ite_error_eq_ok.mp h
  obtain ⟨assigned, hassigned, h⟩ := bind_eq_ok.mp h
  obtain ⟨scheduled, hscheduled, h⟩ := bind_eq_ok.mp h
  cases h
  obtain ⟨hmem, hid⟩ := mem_of_lookup hm
  exact ⟨cohort, m, assigned, scheduled, hcohort, hmem, hid, hassigned, hscheduled, rfl⟩

theorem moduleAccess_changes (h : moduleAccess db cohortId params startedAt now today = .ok db') :
    Changes Allowed db db' := by
  obtain ⟨cohort, m, assigned, scheduled, -, hm, -, hloop, hschedule, rfl⟩ := moduleAccess_inv h
  obtain ⟨hchanges, -, hmodules⟩ : Changes Allowed db assigned ∧ _ :=
    moduleAccessLoop_changes (fun _ henrollment => (mem_activeEnrollmentsOf.mp henrollment).1) hloop
  have hm' : m ∈ assigned.modules := hmodules ▸ (mem_modulesOf.mp hm).1
  exact (hchanges.trans (updateSchedules_changes hm' hschedule)).trans
    (updateSettings_changes cohort m.id params.requiresGithub)

/-! ## Enrollments -/

/-- The loop of `EnrollmentsController#create`: each module of the list gets its assignment. -/
theorem assignAll_changes {modules : List CurriculumModule}
    (henrollment : enrollment ∈ db.enrollments) (hnodup : (modules.map (·.id)).Nodup)
    (hnew : ∀ row ∈ db.moduleAssignments, row.enrollmentId = enrollment.id → ∀ m ∈ modules,
      row.moduleId ≠ m.id) :
    Changes Allowed db (modules.foldl (fun db m => { db with
      moduleAssignments := db.moduleAssignments ++
        [{ id := db.nextId, enrollmentId := enrollment.id, moduleId := m.id
           createdAt := now, updatedAt := now }]
      nextId := db.nextId + 1 }) db) := by
  induction modules generalizing db with
  | nil => exact .refl
  | cons m modules ih =>
    rw [List.map_cons, List.nodup_cons] at hnodup
    refine Relation.ReflTransGen.head (.insertModuleAssignment _ rfl
      ⟨enrollment, henrollment, rfl⟩ fun other hother henr =>
        hnew other hother henr m (by simp)) (ih henrollment hnodup.2 ?_)
    intro row hrow henr m' hm'
    rcases List.mem_append.mp hrow with hrow | hrow
    · exact hnew row hrow henr m' (List.mem_cons_of_mem _ hm')
    · rw [List.mem_singleton.mp hrow]
      intro heq
      exact hnodup.1 (List.mem_map.mpr ⟨m', hm', heq.symm⟩)

theorem nodup_modulesOf (hs : CurriculumSchema db) (curriculumId : ℕ) :
    ((db.modulesOf curriculumId).map (·.id)).Nodup := by
  have hperm := (List.perm_insertionSort (fun first second : CurriculumModule =>
    first.position ≤ second.position) (db.modules.filter (·.curriculumId == curriculumId))).map
    (·.id)
  exact hperm.nodup_iff.mpr (hs.modules.nodup.sublist (List.filter_sublist.map _))

theorem createEnrollment_inv {userId : ℕ} (h : createEnrollment db cohortId userId now = .ok db') :
    ∃ cohort user, db.cohort? cohortId = some cohort ∧ db.user? userId = some user ∧
      let enrollment : Enrollment :=
        { id := db.nextId, userId := user.id, cohortId := cohort.id, enrolledAt := some now
          createdAt := now, updatedAt := now }
      db' = (db.modulesOf cohort.curriculumId).foldl (fun db m => { db with
        moduleAssignments := db.moduleAssignments ++
          [{ id := db.nextId, enrollmentId := enrollment.id, moduleId := m.id
             createdAt := now, updatedAt := now }]
        nextId := db.nextId + 1 })
        { db with enrollments := db.enrollments ++ [enrollment], nextId := db.nextId + 1 } := by
  obtain ⟨cohort, hcohort, h⟩ := orNotFound_bind_eq_ok.mp h
  obtain ⟨user, huser, h⟩ := orNotFound_bind_eq_ok.mp h
  obtain ⟨enrollment, henrollment, h⟩ := bind_eq_ok.mp h
  obtain ⟨-, rfl⟩ := saveUnless_eq_ok.mp henrollment
  cases h
  exact ⟨cohort, user, hcohort, huser, rfl⟩

theorem createEnrollment_changes (hs : CurriculumSchema db) {userId : ℕ}
    (h : createEnrollment db cohortId userId now = .ok db') : Changes Allowed db db' := by
  obtain ⟨cohort, user, -, -, rfl⟩ := createEnrollment_inv h
  refine Relation.ReflTransGen.head (.insertEnrollment _ rfl)
    (assignAll_changes (by simp) (nodup_modulesOf hs _) ?_)
  intro row hrow henr
  have hlt := hs.moduleAssignments.ownerLt row hrow
  have heq : row.enrollmentId = db.nextId := henr
  omega

theorem updateEnrollment_changes {status : EnrollmentStatus}
    (h : updateEnrollment db id status now = .ok db') : RowChange Allowed db db' := by
  obtain ⟨enrollment, -, h⟩ := orNotFound_bind_eq_ok.mp h
  cases h
  exact .updateEnrollments _ _ fun _ _ => ⟨rfl, rfl, rfl⟩

theorem destroyEnrollment_changes (h : destroyEnrollment db id = .ok db') :
    Changes Allowed db db' := by
  obtain ⟨enrollment, -, h⟩ := orNotFound_bind_eq_ok.mp h
  cases h
  exact .head (.deleteModuleAssignments (·.enrollmentId == enrollment.id))
    (.head (.deleteLessonAssignments (·.enrollmentId == enrollment.id))
      (.head (.deleteEnrollments (·.id == enrollment.id))
        (.single (.elsewhere _ ⟨rfl, rfl, rfl, rfl, rfl, rfl, rfl, rfl, Nat.le_refl _⟩))))

/-! ## Assignments -/

theorem createModuleAssignment_changes (hs : CurriculumSchema db) {enrollmentId : ℕ}
    {params : AssignmentParams}
    (h : createModuleAssignment db enrollmentId params startedAt now = .ok db') :
    RowChange Allowed db db' := by
  obtain ⟨enrollment, henrollment, h⟩ := orNotFound_bind_eq_ok.mp h
  obtain ⟨_, -, h⟩ := bind_eq_ok.mp h
  split at h
  · cases h
  · split at h
    · rename_i found hfound
      obtain ⟨row, hrow, h⟩ := bind_eq_ok.mp h
      cases h
      obtain ⟨rfl, hnew⟩ := validateModuleAssignment_spec hrow
      exact .retargetModuleAssignment found _ (List.mem_of_find?_eq_some hfound) rfl rfl hnew
    · obtain ⟨row, hrow, h⟩ := bind_eq_ok.mp h
      cases h
      obtain ⟨rfl, hnew⟩ := validateModuleAssignment_spec hrow
      refine .insertModuleAssignment _ rfl ⟨enrollment, (mem_of_lookup henrollment).1, rfl⟩ ?_
      intro other hother
      exact hnew other hother (hs.moduleAssignments.keyed.lt other hother).ne

theorem withAssignment_eq_ok {ρ : Type} {rows : List ρ} {key owner : ρ → ℕ}
    {write : ρ → Except Failure Database}
    (h : db.withAssignment rows key owner id startedAt write = .ok db') :
    ∃ found ∈ rows, write found = .ok db' := by
  obtain ⟨found, hfound, h⟩ := orNotFound_bind_eq_ok.mp h
  obtain ⟨enrollment, -, h⟩ := orNotFound_bind_eq_ok.mp h
  obtain ⟨_, -, h⟩ := bind_eq_ok.mp h
  exact ⟨found, (mem_of_lookup hfound).1, h⟩

theorem updateModuleAssignment_changes {params : AssignmentParams}
    (h : updateModuleAssignment db id params startedAt now = .ok db') :
    RowChange Allowed db db' := by
  obtain ⟨found, hfound, h⟩ := withAssignment_eq_ok h
  obtain ⟨row, hrow, h⟩ := bind_eq_ok.mp h
  cases h
  obtain ⟨rfl, hnew⟩ := validateModuleAssignment_spec hrow
  exact .retargetModuleAssignment found _ hfound rfl rfl hnew

theorem destroyModuleAssignment_changes (h : destroyModuleAssignment db id startedAt = .ok db') :
    RowChange Allowed db db' := by
  obtain ⟨found, -, h⟩ := withAssignment_eq_ok h
  cases h
  exact .deleteModuleAssignments _

theorem createLessonAssignment_changes (hs : CurriculumSchema db) {enrollmentId : ℕ}
    {params : AssignmentParams}
    (h : createLessonAssignment db enrollmentId params startedAt now = .ok db') :
    RowChange Allowed db db' := by
  obtain ⟨enrollment, henrollment, h⟩ := orNotFound_bind_eq_ok.mp h
  obtain ⟨_, -, h⟩ := bind_eq_ok.mp h
  split at h
  · cases h
  · obtain ⟨row, hrow, h⟩ := bind_eq_ok.mp h
    cases h
    obtain ⟨rfl, hnew⟩ := validateLessonAssignment_spec hrow
    refine .insertLessonAssignment _ rfl ⟨enrollment, (mem_of_lookup henrollment).1, rfl⟩ ?_
    intro other hother
    exact hnew other hother (hs.lessonAssignments.keyed.lt other hother).ne

theorem updateLessonAssignment_changes {params : AssignmentParams}
    (h : updateLessonAssignment db id params startedAt now = .ok db') :
    RowChange Allowed db db' := by
  obtain ⟨found, hfound, h⟩ := withAssignment_eq_ok h
  obtain ⟨row, hrow, h⟩ := bind_eq_ok.mp h
  cases h
  obtain ⟨rfl, hnew⟩ := validateLessonAssignment_spec hrow
  exact .retargetLessonAssignment found _ hfound rfl rfl hnew

theorem destroyLessonAssignment_changes (h : destroyLessonAssignment db id startedAt = .ok db') :
    RowChange Allowed db db' := by
  obtain ⟨found, -, h⟩ := withAssignment_eq_ok h
  cases h
  exact .deleteLessonAssignments _

/-! ## Content blocks and learning writes -/

theorem createContentBlock_changes {lessonId : ℕ} {params : ContentBlockParams}
    (h : createContentBlock db lessonId params = .ok db') : RowChange Allowed db db' := by
  obtain ⟨lesson, -, h⟩ := orNotFound_bind_eq_ok.mp h
  obtain ⟨block, hblock, h⟩ := bind_eq_ok.mp h
  cases h
  obtain ⟨-, rfl⟩ := saveUnless_eq_ok.mp hblock
  exact .insertContentBlock _ rfl

theorem updateEditorExercise_changes {lessonId : ℕ} {params : ExerciseParams}
    (h : updateEditorExercise db lessonId params = .ok db') : RowChange Allowed db db' := by
  obtain ⟨lesson, -, h⟩ := orNotFound_bind_eq_ok.mp h
  obtain ⟨m, -, h⟩ := orNotFound_bind_eq_ok.mp h
  obtain ⟨old, -, h⟩ := orNotFound_bind_eq_ok.mp h
  obtain ⟨_, -, h⟩ := bind_eq_ok.mp h
  cases h
  exact .touchContentBlocks _ _ fun _ _ => rfl

theorem learningWrite_changes (write : LearningWrite) (db : Database) :
    RowChange Allowed db (write.apply db) := by
  cases write with
  | setVideoDuration blockId seconds => exact .touchContentBlocks _ _ fun _ _ => rfl
  | _ => exact .elsewhere _ ⟨rfl, rfl, rfl, rfl, rfl, rfl, rfl, rfl, Nat.le_refl _⟩

theorem learning_changes {call : LearningCall} (h : call.execute db = .ok db') :
    Changes Allowed db db' := by
  have hwrites (writes : List LearningWrite) (db : Database) :
      Changes Allowed db (writes.foldl LearningWrite.apply db) := by
    induction writes generalizing db with
    | nil => exact .refl
    | cons write writes ih => exact .head (learningWrite_changes write db) (ih _)
  obtain ⟨_, _, statements, _, _, _, hwrite, rfl⟩ := LearningCall.execute_eq_ok.mp h
  have hkept : CurriculumKept db { db with nextId := statements.nextId } :=
    ⟨rfl, rfl, rfl, rfl, rfl, rfl, rfl, rfl, LoadedRequest.write_nextId_le hwrite⟩
  exact .head (.elsewhere _ hkept) (hwrites _ _)

/-! ## All requests -/

theorem restartEnrollment_changes {performedBy : User} {reason : Param}
    (h : restartEnrollment db id performedBy reason now = .ok db') : Changes Allowed db db' := by
  obtain ⟨service, -, h⟩ := orNotFound_bind_eq_ok.mp h
  obtain ⟨⟨restarted, restart⟩, hcall, rfl⟩ := map_eq_ok.mp h
  obtain ⟨-, rfl, -⟩ := EnrollmentRestartService.call_ok_iff.mp hcall
  exact .head (.deleteLessonAssignments service.lessonAssignment?)
    (.head (.touchModuleAssignments service.moduleAssignment?
        (fun row => { row with unlockDateOverride := none, updatedAt := now })
        fun _ _ => ⟨rfl, rfl, rfl⟩)
      (.head (.updateEnrollments (fun row => row.id == service.enrollment.id)
          (fun row =>
            { row with
              status := .active
              enrolledAt := some now
              completedAt := none
              learningStateResetAt := some now
              updatedAt := now })
          fun _ _ => ⟨rfl, rfl, rfl⟩)
        (.single (.elsewhere _
          ⟨rfl, rfl, rfl, rfl, rfl, rfl, rfl, rfl, Nat.le_add_right _ 3⟩))))

/-- A module update meets `Allowed` for the row it replaces. -/
def PlatformRequest.Respects
    (Allowed : Database → CurriculumModule → CurriculumModule → Prop) (db : Database) :
    PlatformRequest → Prop
  | .updateModule id params => ∀ old m, db.module? id = some old →
      db.validateModule old true params = .ok m → Allowed db old m
  | _ => True

theorem execute_changes (hs : CurriculumSchema db) {request : PlatformRequest}
    (hrespects : request.Respects Allowed db) (h : request.execute db = .ok db') :
    Changes Allowed db db' := by
  cases request with
  | createModule curriculumId params => exact .single (createModule_changes h)
  | updateModule id params => exact .single (updateModule_changes h hrespects)
  | createLesson moduleId params => exact .single (createLesson_changes h)
  | updateLesson id params => exact .single (saveLesson_changes h fun _ => ⟨rfl, rfl⟩)
  | archiveLesson id now => exact .single (saveLesson_changes h fun _ => ⟨rfl, rfl⟩)
  | restoreLesson id => exact .single (saveLesson_changes h fun _ => ⟨rfl, rfl⟩)
  | createContentBlock lessonId params => exact .single (createContentBlock_changes h)
  | updateEditorExercise lessonId params => exact .single (updateEditorExercise_changes h)
  | createCohort params => exact .single (createCohort_changes h)
  | updateCohort id params => exact .single (updateCohort_changes h)
  | moduleAccess cohortId params startedAt now today => exact moduleAccess_changes h
  | createEnrollment cohortId userId now => exact createEnrollment_changes hs h
  | updateEnrollment id status now => exact .single (updateEnrollment_changes h)
  | destroyEnrollment id => exact destroyEnrollment_changes h
  | createModuleAssignment enrollmentId params startedAt now =>
    exact .single (createModuleAssignment_changes hs h)
  | updateModuleAssignment id params startedAt now =>
    exact .single (updateModuleAssignment_changes h)
  | destroyModuleAssignment id startedAt => exact .single (destroyModuleAssignment_changes h)
  | createLessonAssignment enrollmentId params startedAt now =>
    exact .single (createLessonAssignment_changes hs h)
  | updateLessonAssignment id params startedAt now =>
    exact .single (updateLessonAssignment_changes h)
  | destroyLessonAssignment id startedAt => exact .single (destroyLessonAssignment_changes h)
  | restartEnrollment id performedBy reason now => exact restartEnrollment_changes h
  | learning call => exact learning_changes h

theorem perform_changes (hs : CurriculumSchema db) {request : PlatformRequest}
    (hrespects : request.Respects Allowed db) : Changes Allowed db (request.perform db) := by
  unfold PlatformRequest.perform
  split
  · exact execute_changes hs hrespects (by assumption)
  · exact .refl

end Requests

/-! ## Reachable states -/

def AnyUpdate (_ : Database) (_ _ : CurriculumModule) : Prop :=
  True

theorem perform_any_changes {db : Database} (hs : CurriculumSchema db)
    (request : PlatformRequest) : Changes AnyUpdate db (request.perform db) := by
  refine perform_changes hs ?_
  cases request <;> simp [PlatformRequest.Respects, AnyUpdate]

/-- The states that requests reach from a database without curricula. -/
def Reachable (db : Database) : Prop :=
  ∃ start requests, NoCurriculum start ∧ Run (Performs PlatformRequest.perform) start requests db

theorem Reachable.schema {db : Database} (h : Reachable db) : CurriculumSchema db := by
  obtain ⟨start, requests, hstart, hrun⟩ := h
  refine hrun.invariant CurriculumSchema ?_ hstart.schema
  rintro s request _ hs rfl
  exact (perform_any_changes hs request).schema hs

end LearningPlatform
