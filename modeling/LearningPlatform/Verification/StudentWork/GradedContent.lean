import LearningPlatform.Verification.StudentWork.Equations

/-! # The content of graded submissions

A student's edit checks that the submission is ungraded before it takes the lock, and not again
under the lock. The graded content stays if no edit is open when the grading commits. -/

namespace LearningPlatform

open Shared

/-! ## Edits and gradings of one submission -/

def LoadedWork.edits? (id : ℕ) : LoadedWork → Bool
  | .learning { action := .updateSubmission submission _, .. } => submission.id == id
  | _ => false

def LoadedWork.grades? (id : ℕ) : LoadedWork → Bool
  | .learning { action := .gradeSubmission submission _ _ _, .. } => submission.id == id
  | _ => false

/-- The client is a student who edits a submission, or gives a grade that is not null. -/
def WorkClient.EditsOrGrades (client : WorkClient) (users : List User) : Prop :=
  match client.request with
  | .learning userId (.updateSubmission _ _) =>
    ∀ user, users.find? (·.id == userId) = some user → user.staff? = false
  | .learning _ (.gradeSubmission _ param _ _) =>
    ∀ grade, castEnum "grade" Submission.grades param = .ok grade → grade.isSome = true
  | _ => False

def Database.Graded (db : Database) (id : ℕ) : Prop :=
  ∀ row ∈ db.submission? id, row.grade.isSome = true

/-- What a loaded edit or grading has seen of the submission. -/
inductive LoadedWork.EditOrGrade (id : ℕ) (db : Database) : LoadedWork → Prop where
  | edit {request submission params} : request.action = .updateSubmission submission params →
      EditOrGrade id db (.learning request)
  | grade {request submission param feedback results} :
      request.action = .gradeSubmission submission param feedback results →
      (∀ grade, castEnum "grade" Submission.grades param = .ok grade → grade.isSome = true) →
      (submission.id = id → submission.grade.isSome = true → db.Graded id) →
      EditOrGrade id db (.learning request)

/-- What the statements of an edit or a grading do to the rows. -/
structure EditEffect (id : ℕ) (db : Database) (work : LoadedWork) (statements : WorkStatements)
    (target : ℕ) (f : Submission → Submission) : Prop where
  writes : ∀ base, (statements.writes.foldl WorkWrite.apply base).submissions =
    updateAll (·.id == target) f base.submissions
  keeps : KeepsIdentity f
  content : target = id → work.edits? id = false → ∀ row, (f row).content = row.content
  staysGraded : ∀ row, row.grade.isSome = true → (f row).grade.isSome = true
  grades : work.grades? id = true → target = id ∧
    (db.Graded id ∨ ∀ row, (f row).grade.isSome = true)

theorem LoadedWork.EditOrGrade.effect {id : ℕ} {store : WorkStore} {work : LoadedWork}
    {startedAt : Time} {statements : WorkStatements} (h : work.EditOrGrade id store.db)
    (hwrite : work.write store startedAt = .ok statements) :
    ∃ target f, EditEffect id store.db work statements target f := by
  cases h with
  | @edit request submission params haction =>
    obtain ⟨issued, hissued, rfl⟩ := LoadedWork.write_learning hwrite
    obtain ⟨f, hkeeps, hgrade, hwrites⟩ :=
      LoadedRequest.write_updateSubmission haction hissued
    obtain ⟨user, enrollment, action⟩ := request
    dsimp only at haction
    subst haction
    refine ⟨submission.id, f, ⟨fun base => ?_, hkeeps, ?_, ?_, nofun⟩⟩
    · rw [foldl_learning]
      exact hwrites base
    · intro htarget hedits
      simp [LoadedWork.edits?, htarget] at hedits
    · intro row hrow
      rwa [hgrade]
  | @grade request submission param feedback results haction hparam hseen =>
    obtain ⟨issued, hissued, rfl⟩ := LoadedWork.write_learning hwrite
    obtain ⟨grade, first, f, hgrade, rfl, -, -, hkeeps, hcolumns, hwrites⟩ :=
      LoadedRequest.write_gradeSubmission haction hissued
    obtain ⟨user, enrollment, action⟩ := request
    dsimp only at haction
    subst haction
    refine ⟨submission.id, f, ⟨fun base => ?_, hkeeps, fun _ _ row => (hcolumns row).2, ?_, ?_⟩⟩
    · rw [foldl_learning, Statements.append, List.foldl_append,
        foldl_apply_submissions saveStatus_ofSubmission?]
      exact hwrites base
    · intro row hrow
      rw [(hcolumns row).1]
      exact isSome_changedColumn (hparam grade hgrade) (.inr hrow)
    · intro hgrades
      have htarget : submission.id = id := by simpa [LoadedWork.grades?] using hgrades
      refine ⟨htarget, ?_⟩
      cases hloaded : submission.grade with
      | some _ => exact .inl (hseen htarget (by simp [hloaded]))
      | none =>
        refine .inr fun row => ?_
        rw [(hcolumns row).1]
        exact isSome_changedColumn (hparam grade hgrade) (.inl hloaded)

namespace EditEffect

variable {id target : ℕ} {db base : Database} {work : LoadedWork} {statements : WorkStatements}
  {f : Submission → Submission}

section

variable (h : EditEffect id db work statements target f)

include h

theorem submission? :
    (statements.writes.foldl WorkWrite.apply base).submission? id =
      (base.submission? id).map fun row => if row.id == target then f row else row := by
  rw [Database.submission?, h.writes,
    find?_updateAll fun row _ => by rw [h.keeps.id row]]
  rfl

theorem graded (hgraded : base.Graded id) :
    (statements.writes.foldl WorkWrite.apply base).Graded id := by
  intro row hrow
  rw [h.submission?] at hrow
  obtain ⟨old, hold, rfl⟩ := Option.map_eq_some_iff.mp hrow
  split
  · exact h.staysGraded old (hgraded old hold)
  · exact hgraded old hold

theorem graded_of_grades
    (hgrades : work.grades? id = true) (hbase : db.Graded id → base.Graded id) :
    (statements.writes.foldl WorkWrite.apply base).Graded id := by
  obtain ⟨rfl, hgraded | hall⟩ := h.grades hgrades
  · exact h.graded (hbase hgraded)
  · intro row hrow
    rw [h.submission?] at hrow
    obtain ⟨old, hold, rfl⟩ := Option.map_eq_some_iff.mp hrow
    rw [if_pos (beq_iff_eq.mpr (submission?_mem hold).2)]
    exact hall old

theorem content_eq (hedits : work.edits? id = false) :
    ((statements.writes.foldl WorkWrite.apply base).submission? id).map (·.content) =
      (base.submission? id).map (·.content) := by
  rw [h.submission?, Option.map_map]
  refine Option.map_congr fun row hrow => ?_
  simp only [Function.comp_apply]
  split
  · rename_i htarget
    exact h.content ((beq_iff_eq.mp htarget).symm.trans (submission?_mem hrow).2) hedits row
  · rfl

end

end EditEffect

/-! ## Interleavings -/

section Interleaving

variable {ι : Type*} {clients : ι → WorkClient} {id : ℕ}

/-- What is known of an edit or a grading in each phase. Since it read the row, the submission
may have become graded, but not ungraded. -/
def PendingEdit (id : ℕ) (db : Database) :
    LockPhase LoadedWork WorkStatements WorkFailure → Prop
  | .loaded work | .locked work => work.EditOrGrade id db
  | .written work statements => ∃ seen target f,
      EditEffect id seen work statements target f ∧ (seen.Graded id → db.Graded id)
  | _ => True

variable {phase : LockPhase LoadedWork WorkStatements WorkFailure} {action : LockAction ι Unit}

theorem PendingEdit.later {db db' : Database} (h : PendingEdit id db phase)
    (hgraded : db.Graded id → db'.Graded id) : PendingEdit id db' phase := by
  have hwork {work : LoadedWork} (hwork : work.EditOrGrade id db) : work.EditOrGrade id db' := by
    cases hwork with
    | edit haction => exact .edit haction
    | grade haction hparam hseen =>
      exact .grade haction hparam fun hid hsome => hgraded (hseen hid hsome)
  cases phase with
  | loaded work | locked work => exact hwork h
  | written work statements =>
    obtain ⟨seen, target, f, heffect, hseen⟩ := h
    exact ⟨seen, target, f, heffect, fun hgrade => hgraded (hseen hgrade)⟩
  | _ => trivial

def editing? (id : ℕ) (phase : LockPhase LoadedWork WorkStatements WorkFailure) : Bool :=
  phase.inFlight?.any (·.edits? id)

/-- No edit of the submission is between its reads and its commit when a grading of it
commits. -/
def CommitsGradeAlone (id : ℕ) (s : WorkState ι) : LockAction ι Unit → Prop
  | .commit i => (s.phase i).inFlight?.any (·.grades? id) = true →
      ∀ j, editing? id (s.phase j) = false
  | _ => True

instance [Fintype ι] (s : WorkState ι) : ∀ action, Decidable (CommitsGradeAlone id s action)
  | .commit _ => inferInstanceAs (Decidable (_ → _))
  | .environment _ | .load _ | .lock _ | .write _ => .isTrue trivial

structure WorkState.Editing (s : WorkState ι) (id : ℕ) (users : List User) : Prop where
  users_eq : s.store.db.users = users
  pending : ∀ i, PendingEdit id s.store.db (s.phase i)

/-- The submission is graded and no edit of it is open. -/
structure WorkState.Sealed (s : WorkState ι) (id : ℕ) : Prop where
  graded : s.store.db.Graded id
  closed : ∀ i, editing? id (s.phase i) = false

theorem WorkClient.EditsOrGrades.load {client : WorkClient} {store : WorkStore}
    {work : LoadedWork} (hclient : client.EditsOrGrades store.db.users)
    (hload : client.load store = .ok work) :
    work.EditOrGrade id store.db ∧ (store.db.Graded id → work.edits? id = false) := by
  unfold WorkClient.EditsOrGrades at hclient
  split at hclient
  · rename_i userId submissionId params hrequest
    obtain ⟨user, loaded, huser, hloaded, rfl⟩ := WorkClient.load_learning hrequest hload
    have hstudent := hclient user (authenticate_eq_ok huser)
    obtain ⟨submission, hsubmission, ⟨hstaff, -⟩ | ⟨-, -, hungraded, _, _, -, -, -, rfl⟩⟩ :=
      loadUpdateSubmission_eq_ok hloaded
    · cases hstudent ▸ hstaff
    · refine ⟨.edit rfl, fun hgraded => ?_⟩
      by_contra hedits
      have hid : submission.id = id := by simpa [LoadedWork.edits?] using hedits
      rw [← (submission?_mem hsubmission).2, hid] at hsubmission
      have := hgraded submission hsubmission
      cases hungraded ▸ this
  · rename_i userId submissionId param feedback results hrequest
    obtain ⟨user, loaded, huser, hloaded, rfl⟩ := WorkClient.load_learning hrequest hload
    obtain ⟨submission, block, lesson, m, hsubmission, -, -, -, rfl⟩ :=
      loadGradeSubmission_eq_ok hloaded
    refine ⟨.grade rfl hclient fun hid hsome row hrow => ?_, fun _ => rfl⟩
    rw [← (submission?_mem hsubmission).2, hid] at hsubmission
    cases hsubmission ▸ hrow
    exact hsome
  · exact hclient.elim

def graded? (id : ℕ) : LockPhase LoadedWork WorkStatements WorkFailure → Bool
  | .committed work _ => work.grades? id
  | _ => false

/-- A grading of the submission has committed. -/
def WorkState.GradedBy (s : WorkState ι) (id : ℕ) : Prop :=
  ∃ i, graded? id (s.phase i) = true

instance [Fintype ι] (s : WorkState ι) : Decidable (s.GradedBy id) :=
  inferInstanceAs (Decidable (∃ _, _))

variable [DecidableEq ι] {s t : WorkState ι} {users : List User}

theorem gradedBy_of_setPhase {i : ι} (hphase : graded? id phase = false)
    (h : WorkState.GradedBy (s.setPhase i phase) id) : s.GradedBy id := by
  obtain ⟨j, hj⟩ := h
  by_cases hji : j = i
  · subst hji
    rw [LockState.setPhase_self, hphase] at hj
    cases hj
  · rw [LockState.setPhase_of_ne hji] at hj
    exact ⟨j, hj⟩

theorem WorkState.Editing.setPhase (h : s.Editing id users) {i : ι} {nextId : ℕ}
    (hpending : PendingEdit id s.store.db phase) :
    WorkState.Editing
      { s.setPhase i phase with
        store := { s.store with db := { s.store.db with nextId } } } id users :=
  ⟨h.users_eq, fun j => (LockState.forall_setPhase
    (P := fun _ phase => PendingEdit id s.store.db phase) h.pending hpending j).later
    fun hgraded => hgraded⟩

theorem WorkState.Sealed.setPhase (h : s.Sealed id) {i : ι} {nextId : ℕ}
    (hphase : editing? id phase = false) :
    WorkState.Sealed
      { s.setPhase i phase with
        store := { s.store with db := { s.store.db with nextId } } } id :=
  ⟨h.graded, LockState.forall_setPhase (P := fun _ phase => editing? id phase = false)
    h.closed hphase⟩

theorem WorkState.Editing.step (h : s.Editing id users)
    (hclients : ∀ i, (clients i).EditsOrGrades users)
    (htakes : (workProtocol clients).Takes s action t) : t.Editing id users := by
  cases htakes with
  | environment => exact ⟨h.users_eq, h.pending⟩
  | @loaded i work hphase hload =>
    have hclient := hclients i
    rw [← h.users_eq] at hclient
    exact h.setPhase (hclient.load hload).1
  | refused hphase hload => exact h.setPhase trivial
  | @locked i work hphase hfree =>
    have hpending := h.pending i
    rw [hphase] at hpending
    exact h.setPhase hpending
  | @written i work statements hphase hwrite =>
    have hpending := h.pending i
    rw [hphase] at hpending
    obtain ⟨target, f, heffect⟩ := LoadedWork.EditOrGrade.effect hpending hwrite
    exact h.setPhase ⟨s.store.db, target, f, heffect, fun hgraded => hgraded⟩
  | rejected hphase hwrite => exact h.setPhase trivial
  | @committed i work statements hphase =>
    have hpending := h.pending i
    rw [hphase] at hpending
    obtain ⟨seen, target, f, heffect, -⟩ := hpending
    have hothers (j : ι) : PendingEdit id (statements.writes.foldl WorkWrite.apply s.store.db)
        (s.phase j) := (h.pending j).later heffect.graded
    have hdone : PendingEdit id (statements.writes.foldl WorkWrite.apply s.store.db)
        (.committed work statements) := trivial
    exact ⟨(foldl_work_users _ _).trans h.users_eq,
      LockState.forall_setPhase (P := fun _ phase => PendingEdit id _ phase) hothers hdone⟩

/-- While the submission is graded and no edit of it is open, this stays so, and the content
stays as it is. -/
theorem WorkState.Sealed.step (hsealed : s.Sealed id) (h : s.Editing id users)
    (hclients : ∀ i, (clients i).EditsOrGrades users)
    (htakes : (workProtocol clients).Takes s action t) :
    t.Sealed id ∧ (t.store.db.submission? id).map (·.content) =
      (s.store.db.submission? id).map (·.content) := by
  have hopen {i : ι} {phase : LockPhase LoadedWork WorkStatements WorkFailure}
      (hphase : s.phase i = phase) : editing? id phase = false := by
    rw [← hphase]
    exact hsealed.closed i
  cases htakes with
  | environment => exact ⟨⟨hsealed.graded, hsealed.closed⟩, rfl⟩
  | @loaded i work hphase hload =>
    have hclient := hclients i
    rw [← h.users_eq] at hclient
    exact ⟨hsealed.setPhase ((hclient.load hload).2 hsealed.graded), rfl⟩
  | refused hphase hload => exact ⟨hsealed.setPhase rfl, rfl⟩
  | locked hphase hfree => exact ⟨hsealed.setPhase (hopen hphase :), rfl⟩
  | written hphase hwrite => exact ⟨hsealed.setPhase (hopen hphase :), rfl⟩
  | rejected hphase hwrite => exact ⟨hsealed.setPhase rfl, rfl⟩
  | @committed i work statements hphase =>
    have hpending := h.pending i
    rw [hphase] at hpending
    obtain ⟨seen, target, f, heffect, -⟩ := hpending
    refine ⟨⟨heffect.graded hsealed.graded, ?_⟩, heffect.content_eq (hopen hphase)⟩
    exact LockState.forall_setPhase (P := fun _ phase => editing? id phase = false)
      hsealed.closed rfl

theorem WorkState.Editing.seal (h : s.Editing id users) {i : ι} {work : LoadedWork}
    {statements : WorkStatements} (hphase : s.phase i = .written work statements)
    (hgrades : work.grades? id = true) (halone : CommitsGradeAlone id s (.commit i)) :
    WorkState.Sealed
      { s.setPhase i (.committed work statements) with
        store := (workProtocol clients).commit statements s.store } id := by
  have hpending := h.pending i
  rw [hphase] at hpending
  obtain ⟨seen, target, f, heffect, hseen⟩ := hpending
  refine ⟨heffect.graded_of_grades hgrades hseen, ?_⟩
  exact LockState.forall_setPhase (P := fun _ phase => editing? id phase = false)
    (halone (by rw [hphase]; exact hgrades)) rfl

theorem sealed_of_gradedBy_step (h : s.Editing id users) (hsealed : s.GradedBy id → s.Sealed id)
    (hclients : ∀ i, (clients i).EditsOrGrades users) (halone : CommitsGradeAlone id s action)
    (htakes : (workProtocol clients).Takes s action t) (hgraded : t.GradedBy id) : t.Sealed id := by
  by_cases hbefore : s.GradedBy id
  · exact ((hsealed hbefore).step h hclients htakes).1
  · cases htakes with
    | environment => exact absurd hgraded hbefore
    | loaded _ _ | refused _ _ | locked _ _ | written _ _ | rejected _ _ =>
      exact absurd (gradedBy_of_setPhase rfl hgraded) hbefore
    | @committed i work statements hphase =>
      obtain ⟨j, hj⟩ := hgraded
      by_cases hji : j = i
      · subst hji
        rw [LockState.setPhase_self] at hj
        exact h.seal hphase hj halone
      · rw [LockState.setPhase_of_ne hji] at hj
        exact absurd ⟨j, hj⟩ hbefore

variable [Fintype ι]

/-- After a grading has committed, no edit of a student changes the content, if no edit was open
when the grading committed. -/
theorem graded_content_stays_if_no_edit_open {u : WorkState ι}
    {actions more : List (LockAction ι Unit)}
    (hclients : ∀ i, (clients i).EditsOrGrades s.store.db.users)
    (hwaiting : ∀ i, s.phase i = .waiting)
    (hrun : Run (Meeting (CommitsGradeAlone id) (Fires (workProtocol clients).step)) s actions t)
    (hgraded : t.GradedBy id)
    (hmore : Run (Meeting (CommitsGradeAlone id) (Fires (workProtocol clients).step)) t more u) :
    (u.store.db.submission? id).map (·.content) =
      (t.store.db.submission? id).map (·.content) := by
  have hreached : t.Editing id s.store.db.users ∧ (t.GradedBy id → t.Sealed id) := by
    refine hrun.invariant (fun v => WorkState.Editing v id s.store.db.users ∧
      (WorkState.GradedBy v id → WorkState.Sealed v id)) ?_ ⟨⟨rfl, fun i => ?_⟩, ?_⟩
    · rintro v action w ⟨hv, hsealed⟩ ⟨halone, hfires⟩
      have htakes := LockProtocol.takes_of_step hfires
      exact ⟨hv.step hclients htakes, sealed_of_gradedBy_step hv hsealed hclients halone htakes⟩
    · rw [hwaiting i]
      trivial
    · rintro ⟨i, hi⟩
      cases (hwaiting i) ▸ hi
  refine (hmore.invariant (fun v => WorkState.Editing v id s.store.db.users ∧
    WorkState.Sealed v id ∧ (v.store.db.submission? id).map (·.content) =
      (t.store.db.submission? id).map (·.content)) ?_
    ⟨hreached.1, hreached.2 hgraded, rfl⟩).2.2
  rintro v action w ⟨hv, hsealed, hcontent⟩ ⟨-, hfires⟩
  have htakes := LockProtocol.takes_of_step hfires
  obtain ⟨hsealed', hcontent'⟩ := hsealed.step hv hclients htakes
  exact ⟨hv.step hclients htakes, hsealed', hcontent'.trans hcontent⟩

end Interleaving

/-! ## Two edits and a grading -/

def submittedCourse : Database :=
  { exerciseCourse with
    submissions :=
      [{ id := 3, userId := 1, contentBlockId := 1, content := { text := some "one" } }]
    nextId := 4 }

def editsAndGrade : Fin 3 → WorkClient
  | 0 => .of 1 (.updateSubmission 3 { text := some (some "two") })
  | 1 => .of 2 (.gradeSubmission 3 (.str "A") none none)
  | 2 => .of 1 (.updateSubmission 3 { text := some (some "three") })

def ungraded : WorkState (Fin 3) where
  store := { db := submittedCourse, clock := 1 }
  phase _ := .waiting

theorem editsAndGrade_editsOrGrades :
    ∀ i, (editsAndGrade i).EditsOrGrades ungraded.store.db.users := by
  have hstudent (user : User) (huser : ungraded.store.db.users.find? (·.id == 1) = some user) :
      user.staff? = false := by
    cases huser
    rfl
  intro i
  match i with
  | 0 => exact hstudent
  | 1 =>
    intro grade hgrade
    obtain rfl : some Grade.A = grade := Except.ok.inj hgrade
    rfl
  | 2 => exact hstudent

/-- The first edit commits before the grading; the second reads the graded row and is refused. -/
theorem content_stays_after_grading :
    ∃ t u : WorkState (Fin 3),
      [LockAction.load 0, .load 1, .lock 0, .write 0, .commit 0, .lock 1, .write 1,
        .commit 1].foldlM (stepMeeting (CommitsGradeAlone 3) (workProtocol editsAndGrade).step)
        ungraded = some t ∧
      [LockAction.load 2].foldlM
        (stepMeeting (CommitsGradeAlone 3) (workProtocol editsAndGrade).step) t = some u ∧
      t.GradedBy 3 ∧ (u.store.db.submission? 3).map (·.content) =
        (t.store.db.submission? 3).map (·.content) := by
  have hany : ([LockAction.load 0, .load 1, .lock 0, .write 0, .commit 0, .lock 1, .write 1,
      .commit 1].foldlM (stepMeeting (CommitsGradeAlone 3) (workProtocol editsAndGrade).step)
      ungraded).any (fun t => decide (WorkState.GradedBy t 3) && ([LockAction.load 2].foldlM
        (stepMeeting (CommitsGradeAlone 3) (workProtocol editsAndGrade).step) t).isSome) =
          true := by
    decide +kernel
  obtain ⟨t, ht, hfacts⟩ := (Option.any_eq_true _ _).mp hany
  obtain ⟨hgraded, hmore⟩ := Bool.and_eq_true_iff.mp hfacts
  obtain ⟨u, hu⟩ := Option.isSome_iff_exists.mp hmore
  have hgraded := of_decide_eq_true hgraded
  exact ⟨t, u, ht, hu, hgraded, graded_content_stays_if_no_edit_open editsAndGrade_editsOrGrades
    (fun _ => rfl) (run_meeting_foldlM ht) hgraded (run_meeting_foldlM hu)⟩

/-- An edit that read the ungraded row waits for the lock while the grading commits, and changes
the text of the submission that has grade A. -/
theorem open_edit_changes_graded_content :
    ∃ t u : WorkState (Fin 3),
      [LockAction.load 0, .load 1, .lock 1, .write 1, .commit 1].foldlM
        (workProtocol editsAndGrade).step ungraded = some t ∧
      [LockAction.lock 0, .write 0, .commit 0].foldlM (workProtocol editsAndGrade).step t =
        some u ∧
      t.GradedBy 3 ∧
      (t.store.db.submission? 3).map (fun row => (row.content.text, row.grade)) =
        some (some "one", some .A) ∧
      (u.store.db.submission? 3).map (fun row => (row.content.text, row.grade)) =
        some (some "two", some .A) :=
  exists_two_of_any_decide (by decide +kernel)

end LearningPlatform
