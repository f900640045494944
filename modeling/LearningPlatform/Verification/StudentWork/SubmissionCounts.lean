import LearningPlatform.Verification.StudentWork.Equations

/-! # The submission counter

A create reads the counter of the latest submission before it takes the lock. The counters are
the numbers from one on if no two creates overlap. -/

namespace LearningPlatform

open Shared

/-! ## One create -/

theorem LoadedWork.write_createSubmission {request : LoadedRequest} {submission : Submission}
    {existing : Option Submission} {store : WorkStore} {startedAt : Time}
    {statements : WorkStatements} (haction : request.action = .createSubmission submission existing)
    (h : (LoadedWork.learning request).write store startedAt = .ok statements) (db : Database) :
    (statements.writes.foldl WorkWrite.apply db).submissions = db.submissions ++
      [{ submission with
          id := store.db.nextId, createdAt := store.clock, updatedAt := store.clock }] := by
  obtain ⟨issued, hissued, rfl⟩ := LoadedWork.write_learning h
  unfold LoadedRequest.write at hissued
  cases haction ▸ hissued
  rw [foldl_learning, Statements.append, List.foldl_append,
    foldl_apply_submissions saveStatus_ofSubmission?]
  rfl

/-! ## Creates of one student on one block -/

section Creates

variable {ι : Type*} {clients : ι → WorkClient} {userId blockId : ℕ}

/-- The client creates a submission of the student on the block. -/
def WorkClient.CreatesSubmission (client : WorkClient) (userId blockId : ℕ) : Prop :=
  ∃ params, client.request = .learning userId (.createSubmission blockId params)

/-- Nobody is between its reads and its commit when a request reads. -/
def LoadsAlone (s : WorkState ι) : LockAction ι Unit → Prop
  | .load _ => ∀ j, (s.phase j).inFlight?.isSome = false
  | _ => True

instance [Fintype ι] (s : WorkState ι) : ∀ action, Decidable (LoadsAlone s action)
  | .load _ => inferInstanceAs (Decidable (∀ _, _ = false))
  | .environment _ | .lock _ | .write _ | .commit _ => .isTrue trivial

/-- The action stores a submission of the student on the block under the next number. -/
def LoadedWork.TakesNumber (userId blockId number : ℕ) (work : LoadedWork) : Prop :=
  ∃ request submission existing, work = .learning request ∧
    request.action = .createSubmission submission existing ∧
    submission.userId = userId ∧ submission.contentBlockId = blockId ∧
    submission.numSubmissions = number

/-- What is known of a create in each phase, from the rows that are stored. -/
def PendingCreate (userId blockId : ℕ) (rows : List Submission) (clock : Time) :
    LockPhase LoadedWork WorkStatements WorkFailure → Prop
  | .loaded work | .locked work => work.TakesNumber userId blockId (rows.length + 1)
  | .written _ statements => ∃ row : Submission,
      (∀ db, (statements.writes.foldl WorkWrite.apply db).submissions = db.submissions ++ [row]) ∧
        row.userId = userId ∧ row.contentBlockId = blockId ∧
        row.numSubmissions = rows.length + 1 ∧
        (∀ old ∈ rows, old.createdAt ≤ row.createdAt) ∧ row.createdAt ≤ clock
  | _ => True

theorem PendingCreate.later {rows : List Submission} {clock clock' : Time}
    {phase : LockPhase LoadedWork WorkStatements WorkFailure}
    (h : PendingCreate userId blockId rows clock phase) (hclock : clock ≤ clock') :
    PendingCreate userId blockId rows clock' phase := by
  cases phase with
  | written work statements =>
    obtain ⟨row, hwrites, huser, hblock, hnumber, hlast, hdated⟩ := h
    exact ⟨row, hwrites, huser, hblock, hnumber, hlast, hdated.trans hclock⟩
  | _ => exact h

theorem PendingCreate.of_inFlight?_eq_none {rows : List Submission} {clock : Time}
    {phase : LockPhase LoadedWork WorkStatements WorkFailure} (h : phase.inFlight? = none) :
    PendingCreate userId blockId rows clock phase := by
  cases phase with
  | loaded _ | locked _ | written _ _ => cases h
  | _ => trivial

variable [Fintype ι] {s t : WorkState ι}

/-- The rows so far are numbered in the order in which they were created. -/
structure WorkState.Numbered (s : WorkState ι) (userId blockId : ℕ) : Prop where
  numbers : (s.store.db.submissionsOf userId blockId).map (·.numSubmissions) =
    List.range' 1 (s.store.db.submissionsOf userId blockId).length
  ordered : (s.store.db.submissionsOf userId blockId).Pairwise
    fun first second => first.createdAt ≤ second.createdAt
  dated : ∀ row ∈ s.store.db.submissionsOf userId blockId, row.createdAt ≤ s.store.clock
  counted : s.committed.card = (s.store.db.submissionsOf userId blockId).length
  alone : s.Alone
  pending : ∀ i, PendingCreate userId blockId (s.store.db.submissionsOf userId blockId)
    s.store.clock (s.phase i)

namespace WorkState.Numbered

theorem start (hwaiting : ∀ i, s.phase i = .waiting)
    (hempty : s.store.db.submissionsOf userId blockId = []) : s.Numbered userId blockId := by
  refine ⟨by simp [hempty], by simp [hempty], by simp [hempty], ?_, ?_, fun i => ?_⟩
  · simp [LockState.committed, hwaiting, hempty, LockPhase.committed?]
  · intro i j hi
    cases (hwaiting i) ▸ hi
  · rw [hwaiting i]
    trivial

theorem nextNumber (h : s.Numbered userId blockId) :
    ((s.store.db.latestSubmission userId blockId).map (·.numSubmissions + 1)).getD 1 =
      (s.store.db.submissionsOf userId blockId).length + 1 := by
  rw [latestSubmission_eq, latest?_of_pairwise h.ordered]
  have hlast := congrArg List.getLast? h.numbers
  rw [List.getLast?_map, List.getLast?_range'] at hlast
  cases hrow : (s.store.db.submissionsOf userId blockId).getLast? with
  | none => simp [List.getLast?_eq_none_iff.mp hrow]
  | some row =>
    rw [hrow] at hlast
    split at hlast
    · cases hlast
    · simp only [Option.map_some, Option.some.injEq] at hlast
      simp only [Option.map_some, Option.getD_some]
      omega

variable [DecidableEq ι]

theorem setPhase (h : s.Numbered userId blockId) {i : ι} {db : Database}
    {phase : LockPhase LoadedWork WorkStatements WorkFailure}
    (hrows : db.submissions = s.store.db.submissions)
    (hold : (s.phase i).committed? = false) (hphase : phase.committed? = false)
    (halone : ∀ j, (s.phase j).inFlight?.isSome = true → j = i)
    (hpending : PendingCreate userId blockId (s.store.db.submissionsOf userId blockId)
      s.store.clock phase) :
    WorkState.Numbered { s.setPhase i phase with store := { s.store with db } }
      userId blockId := by
  have hsame : db.submissionsOf userId blockId = s.store.db.submissionsOf userId blockId := by
    rw [Database.submissionsOf, hrows]
    rfl
  constructor
  · simpa [hsame] using h.numbers
  · simpa [hsame] using h.ordered
  · simpa [hsame] using h.dated
  · exact (congrArg Finset.card (LockState.committed_setPhase hold hphase)).trans
      (by simpa [hsame] using h.counted)
  · exact LockState.alone_setPhase halone
  · simp only [hsame]
    exact LockState.forall_setPhase (P := fun _ phase => PendingCreate userId blockId
      (s.store.db.submissionsOf userId blockId) s.store.clock phase) h.pending hpending

theorem commit (h : s.Numbered userId blockId) {i : ι} {work : LoadedWork}
    {statements : WorkStatements} (hphase : s.phase i = .written work statements) :
    WorkState.Numbered
      { s.setPhase i (.committed work statements) with
        store := (workProtocol clients).commit statements s.store } userId blockId := by
  have hpending := h.pending i
  rw [hphase] at hpending
  obtain ⟨row, hwrites, huser, hblock, hnumber, hlast, hdated⟩ := hpending
  have hrows : ((workProtocol clients).commit statements s.store).db.submissionsOf userId blockId =
      s.store.db.submissionsOf userId blockId ++ [row] :=
    submissionsOf_append (hwrites s.store.db) huser hblock
  have halone (j : ι) (hj : (s.phase j).inFlight?.isSome = true) : j = i :=
    h.alone j i hj (by rw [hphase]; rfl)
  constructor
  · simp only [hrows, List.map_append, h.numbers, List.length_append, List.map_cons, hnumber]
    rw [List.length_singleton, List.range'_concat]
    simp [Nat.add_comm]
  · simp only [hrows]
    refine List.pairwise_append.mpr ⟨h.ordered, by simp, fun old hold new hnew => ?_⟩
    rw [List.mem_singleton.mp hnew]
    exact hlast old hold
  · simp only [hrows, List.mem_append, List.mem_singleton]
    rintro old (hold | rfl)
    · exact h.dated old hold
    · exact hdated
  · refine (LockState.card_committed_setPhase (by rw [hphase]; rfl) rfl).trans ?_
    simp only [hrows, List.length_append, List.length_singleton, h.counted]
  · exact LockState.alone_setPhase halone
  · intro j
    refine PendingCreate.of_inFlight?_eq_none (Option.not_isSome_iff_eq_none.mp fun hj => ?_)
    by_cases hji : j = i
    · subst hji
      rw [LockState.setPhase_self] at hj
      cases hj
    · rw [LockState.setPhase_of_ne hji] at hj
      exact hji (halone j hj)

theorem step (h : s.Numbered userId blockId)
    (hclients : ∀ i, (clients i).CreatesSubmission userId blockId) {action : LockAction ι Unit}
    (halone : LoadsAlone s action) (htakes : (workProtocol clients).Takes s action t) :
    t.Numbered userId blockId := by
  cases htakes with
  | environment =>
    exact ⟨h.numbers, h.ordered, fun row hrow => (h.dated row hrow).trans (Nat.le_succ _),
      h.counted, h.alone, fun i => (h.pending i).later (Nat.le_succ _)⟩
  | @loaded i work hphase hload =>
    refine h.setPhase rfl (by rw [hphase]; rfl) rfl (fun j hj => ?_) ?_
    · cases (halone j) ▸ hj
    · obtain ⟨params, hclient⟩ := hclients i
      obtain ⟨user, loaded, huser, hrequest, rfl⟩ :=
        WorkClient.load_learning hclient hload
      obtain ⟨submission, existing, haction, howner, hblock, -, hnumber⟩ :=
        loadCreateSubmission_new hrequest
      rw [user?_id (authenticate_eq_ok huser)] at howner hnumber
      exact ⟨loaded, submission, existing, rfl, haction, howner, hblock,
        hnumber.trans h.nextNumber⟩
  | refused hphase hload =>
    refine h.setPhase rfl (by rw [hphase]; rfl) rfl (fun j hj => ?_) trivial
    cases (halone j) ▸ hj
  | @locked i work hphase hfree =>
    have hpending := h.pending i
    rw [hphase] at hpending
    exact h.setPhase rfl (by rw [hphase]; rfl) rfl
      (fun j hj => h.alone j _ hj (by rw [hphase]; rfl)) hpending
  | @written i work statements hphase hwrite =>
    have hpending := h.pending i
    rw [hphase] at hpending
    obtain ⟨request, submission, existing, rfl, haction, huser, hblock, hnumber⟩ := hpending
    refine h.setPhase rfl (by rw [hphase]; rfl) rfl
      (fun j hj => h.alone j _ hj (by rw [hphase]; rfl)) ?_
    exact ⟨_, LoadedWork.write_createSubmission haction hwrite, huser, hblock, hnumber,
      h.dated, Nat.le_refl _⟩
  | rejected hphase hwrite =>
    exact h.setPhase rfl (by rw [hphase]; rfl) rfl
      (fun j hj => h.alone j _ hj (by rw [hphase]; rfl)) trivial
  | committed hphase => exact h.commit hphase

end WorkState.Numbered

/-- If no two creates overlap, the stored rows of the creates that committed carry the numbers
from one on, in the order of creation. -/
theorem submissions_numbered_if_creates_alone [DecidableEq ι]
    (hclients : ∀ i, (clients i).CreatesSubmission userId blockId)
    {actions : List (LockAction ι Unit)}
    (hrun : Run (Meeting LoadsAlone (Fires (workProtocol clients).step)) s actions t)
    (hwaiting : ∀ i, s.phase i = .waiting) (hempty : s.store.db.submissionsOf userId blockId = []) :
    (t.store.db.submissionsOf userId blockId).map (·.numSubmissions) =
        List.range' 1 t.committed.card ∧
      (t.store.db.submissionsOf userId blockId).Pairwise
        fun first second => first.createdAt ≤ second.createdAt := by
  have h : t.Numbered userId blockId := by
    refine hrun.invariant (fun u => WorkState.Numbered u userId blockId) ?_
      (.start hwaiting hempty)
    rintro u action v hu ⟨halone, hfires⟩
    exact hu.step hclients halone (LockProtocol.takes_of_step hfires)
  exact ⟨by rw [h.counted, h.numbers], h.ordered⟩

end Creates

/-! ## Two creates -/

def twoCreates : Fin 2 → WorkClient
  | 0 => .submits "one"
  | 1 => .submits "two"

def neitherSubmitted : WorkState (Fin 2) where
  store := { db := exerciseCourse, clock := 1 }
  phase _ := .waiting

/-- The second create reads after the first has committed. -/
theorem creates_in_turn_numbered :
    ∃ t : WorkState (Fin 2), [LockAction.load 0, .lock 0, .write 0, .commit 0, .environment (),
        .load 1, .lock 1, .write 1, .commit 1].foldlM
        (stepMeeting LoadsAlone (workProtocol twoCreates).step) neitherSubmitted = some t ∧
      t.committed.card = 2 ∧
      (t.store.db.submissionsOf 1 1).map (·.numSubmissions) = List.range' 1 t.committed.card := by
  have hany : ([LockAction.load 0, .lock 0, .write 0, .commit 0, .environment (),
      .load 1, .lock 1, .write 1, .commit 1].foldlM
      (stepMeeting LoadsAlone (workProtocol twoCreates).step) neitherSubmitted).any
      (fun t => decide (t.committed.card = 2)) = true := by decide +kernel
  obtain ⟨t, ht, hcard⟩ := (Option.any_eq_true _ _).mp hany
  have hclients : ∀ i, (twoCreates i).CreatesSubmission 1 1
    | 0 => ⟨_, rfl⟩
    | 1 => ⟨_, rfl⟩
  exact ⟨t, ht, of_decide_eq_true hcard,
    (submissions_numbered_if_creates_alone hclients (run_meeting_foldlM ht)
      (fun _ => rfl) rfl).1⟩

/-- Both creates read before either commits, and both store number one. -/
theorem overlapping_creates_share_number :
    ∃ t : WorkState (Fin 2), [LockAction.load 0, .load 1, .lock 0, .write 0, .commit 0,
        .environment (), .lock 1, .write 1, .commit 1].foldlM
        (workProtocol twoCreates).step neitherSubmitted = some t ∧
      t.committed = Finset.univ ∧
      (t.store.db.submissionsOf 1 1).map (·.numSubmissions) = [1, 1] :=
  exists_of_any_decide (by decide +kernel)

end LearningPlatform
