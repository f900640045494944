import LearningPlatform.Verification.Validations

/-! # Transitions of a help request

A help request is closed once. Whatever copies the callers looked at, each call decides on the
row that it locked, and nobody changes this row before the call commits. -/

namespace LearningPlatform

open Shared

/-! ## One call -/

/-- The columns that the status requires are present. -/
structure HelpRequest.Complete (row : HelpRequest) : Prop where
  owned : row.status = .acknowledged ∨ row.status = .resolved →
    row.ownerId.isSome = true ∧ row.acknowledgedAt.isSome = true
  resolved : row.status = .resolved →
    (presence row.staffResponse).isSome = true ∧ row.resolvedAt.isSome = true
  canceled : row.status = .canceled → row.canceledAt.isSome = true

variable {row : HelpRequest} {owner : Option User}

theorem HelpRequest.complete_of_errors {db : Database} (h : row.errors db owner = [])
    (howner : owner.isSome = true → row.ownerId.isSome = true) : row.Complete := by
  have hstatusErrors : row.statusErrors owner = [] :=
    (List.append_eq_nil_iff.mp (List.append_eq_nil_iff.mp h).1).2
  simp only [statusErrors, List.append_eq_nil_iff, errorsIf_eq_nil, requiredErrors_eq_nil,
    presenceErrors_eq_nil, Bool.or_eq_true, beq_iff_eq] at hstatusErrors
  obtain ⟨⟨⟨⟨hownerPresent, hacknowledged⟩, hresponse⟩, hresolved⟩, hcanceled⟩ := hstatusErrors
  exact ⟨fun hstatus => ⟨howner (hownerPresent hstatus), hacknowledged hstatus⟩,
    fun hstatus => ⟨hresponse hstatus, hresolved hstatus⟩, hcanceled⟩

theorem HelpRequest.update!_eq_ok {changed : HelpRequest} {db : Database} {now : Time}
    (h : changed.update! db owner now = .ok row)
    (howner : owner.isSome = true → changed.ownerId.isSome = true) :
    row.status = changed.status ∧ row.studentId = changed.studentId ∧ row.Complete := by
  obtain ⟨saved, hsaved, h⟩ := bind_eq_ok.mp h
  obtain ⟨herrors, rfl⟩ := saveUnless_eq_ok.mp hsaved
  split at h
  · cases h
    obtain ⟨howned, hresolved, hcanceled⟩ := complete_of_errors herrors howner
    exact ⟨rfl, rfl, howned, hresolved, hcanceled⟩
  · cases h

/-- A transition keeps the row in some statuses and saves the changed one in the others. -/
theorem HelpRequest.transition_eq_ok {keeps : Bool} {changed : HelpRequest} {db : Database}
    {now : Time} {outcome : HelpOutcome}
    (h : (if keeps = true then .ok ⟨row, false⟩ else changed.update! db owner now >>= fun saved =>
      .ok ⟨saved, true⟩) = .ok outcome)
    (howner : owner.isSome = true → changed.ownerId.isSome = true) :
    (keeps = true ∧ outcome = ⟨row, false⟩) ∨
      (keeps = false ∧ outcome.returned = true ∧ outcome.row.status = changed.status ∧
        outcome.row.studentId = changed.studentId ∧ outcome.row.Complete) := by
  cases keeps with
  | true => exact .inl ⟨rfl, (Except.ok.inj h).symm⟩
  | false =>
    obtain ⟨saved, hsaved, h⟩ := bind_eq_ok.mp h
    cases h
    exact .inr ⟨rfl, rfl, update!_eq_ok hsaved howner⟩

namespace HelpCall

variable {call : HelpCall} {desk : HelpDesk} {outcome : HelpOutcome}

/-- The status that a call gives the row. -/
def target : HelpCall → HelpStatus
  | .acknowledge _ => .acknowledged
  | .resolve _ _ => .resolved
  | .cancel => .canceled

/-- The statuses in which a call changes the row. -/
def applies? (status : HelpStatus) : HelpCall → Bool
  | .acknowledge _ => status == .opened
  | .resolve _ _ | .cancel => !status.terminal?

theorem terminal?_of_applies? {status : HelpStatus} (h : call.applies? status = true) :
    status.terminal? = false := by
  cases call with
  | acknowledge staff =>
    rw [show status = .opened from beq_iff_eq.mp h]
    rfl
  | _ => simpa [applies?] using h

/-- A call keeps the row, or saves it with the status of the call. -/
theorem run_eq_ok (h : call.run desk = .ok outcome) :
    (call.applies? desk.row.status = false ∧ outcome = ⟨desk.row, false⟩) ∨
      (call.applies? desk.row.status = true ∧ outcome.returned = true ∧
        outcome.row.status = call.target ∧ outcome.row.studentId = desk.row.studentId ∧
        outcome.row.Complete) := by
  cases call with
  | acknowledge staff =>
    rcases HelpRequest.transition_eq_ok h (fun _ => rfl) with ⟨hkeeps, hrow⟩ | ⟨hkeeps, hrow⟩
    · exact .inl ⟨by simpa [applies?] using hkeeps, hrow⟩
    · exact .inr ⟨by simpa [applies?] using hkeeps, hrow⟩
  | resolve staff response =>
    rcases HelpRequest.transition_eq_ok h (fun _ => rfl) with ⟨hkeeps, hrow⟩ | ⟨hkeeps, hrow⟩
    · exact .inl ⟨by simpa [applies?] using hkeeps, hrow⟩
    · exact .inr ⟨by simpa [applies?] using hkeeps, hrow⟩
  | cancel =>
    have howner : (desk.row.ownerId.bind desk.db.user?).isSome = true →
        desk.row.ownerId.isSome = true := Option.isSome_of_isSome_bind
    rcases HelpRequest.transition_eq_ok h howner with ⟨hkeeps, hrow⟩ | ⟨hkeeps, hrow⟩
    · exact .inl ⟨by simpa [applies?] using hkeeps, hrow⟩
    · exact .inr ⟨by simpa [applies?] using hkeeps, hrow⟩

end HelpCall

/-- What a call that returns has done to the row. -/
inductive HelpCall.Effect (call : HelpCall) (row : HelpRequest) : HelpOutcome → Prop where
  | kept : (call.closes? = true → row.status.terminal? = true) →
      (call.closes? = false → row.status ≠ .opened) → Effect call row ⟨row, false⟩
  | acknowledged {changed : HelpRequest} : call.closes? = false → row.status = .opened →
      changed.status = .acknowledged → changed.Complete → Effect call row ⟨changed, true⟩
  | closed {changed : HelpRequest} : call.closes? = true → row.status.terminal? = false →
      changed.status.terminal? = true → changed.Complete → Effect call row ⟨changed, true⟩

theorem HelpCall.effect_of_run {call : HelpCall} {desk : HelpDesk} {outcome : HelpOutcome}
    (h : call.run desk = .ok outcome) : call.Effect desk.row outcome := by
  rcases run_eq_ok h with ⟨hkept, rfl⟩ | ⟨happlies, hreturned, hstatus, -, hcomplete⟩
  · refine .kept (fun hcloses => ?_) (fun hcloses => ?_)
    · cases call with
      | acknowledge staff => cases hcloses
      | _ => simpa [applies?] using hkept
    · cases call with
      | acknowledge staff => simpa [applies?] using hkept
      | _ => cases hcloses
  · obtain ⟨row, returned⟩ := outcome
    obtain rfl : returned = true := hreturned
    cases call with
    | acknowledge staff => exact .acknowledged rfl (beq_iff_eq.mp happlies) hstatus hcomplete
    | resolve staff response =>
      refine .closed rfl (terminal?_of_applies? happlies) ?_ hcomplete
      rw [show row.status = .resolved from hstatus]
      rfl
    | cancel =>
      refine .closed rfl (terminal?_of_applies? happlies) ?_ hcomplete
      rw [show row.status = .canceled from hstatus]
      rfl

/-! ## Interleaved calls -/

abbrev HelpState (ι : Type*) :=
  LockState ι HelpDesk HelpCall HelpOutcome Failure

/-- Whether the call that returned closes the request, and the value that it returned. -/
def returned? : LockPhase HelpCall HelpOutcome Failure → Option (Bool × Bool)
  | .committed call outcome => some (call.closes?, outcome.returned)
  | _ => none

def HelpState.Returned {ι : Type*} (s : HelpState ι) (i : ι) (closes value : Bool) : Prop :=
  returned? (s.phase i) = some (closes, value)
  deriving Decidable

theorem returned?_of_not_committed {phase : LockPhase HelpCall HelpOutcome Failure}
    (h : phase.committed? = false) : returned? phase = none := by
  cases phase with
  | committed call outcome => cases h
  | _ => rfl

section Interleaving

variable {ι : Type*} {callers : ι → HelpUpdate} {s t : HelpState ι}

theorem later_row {before after : HelpDesk} (h : (helpProtocol callers).Later before after) :
    after.row = before.row := by
  induction h with
  | refl => rfl
  | tail _ hevent ih =>
    obtain ⟨event, rfl⟩ := hevent
    cases event with
    | tick => exact ih
    | changeTables db => exact ih

/-- What a call that is about to commit does to the committed row. -/
theorem effect_of_written
    (h : (helpProtocol callers).Serialised () (fun _ _ _ => True) s) {i : ι} {call : HelpCall}
    {outcome : HelpOutcome} (hphase : s.phase i = .written call outcome) :
    call.Effect s.store.row outcome := by
  obtain ⟨before, -, hrun, hlater⟩ := h.current i call outcome hphase
  rw [later_row hlater]
  exact HelpCall.effect_of_run hrun

/-- The returned values agree with the status of the row. -/
structure HelpState.Consistent (s : HelpState ι) : Prop where
  complete : s.store.row.Complete
  active : s.store.row.status.terminal? = false → ∀ i value, ¬ s.Returned i true value
  closed : s.store.row.status.terminal? = true → ∃ i, s.Returned i true true
  closedOnce : ∀ i j, s.Returned i true true → s.Returned j true true → i = j
  unacknowledged : s.store.row.status = .opened → ∀ i, ¬ s.Returned i false true
  acknowledgedOnce : ∀ i j, s.Returned i false true → s.Returned j false true → i = j

theorem HelpState.Consistent.start (hwaiting : ∀ i, s.phase i = .waiting)
    (hopened : s.store.row.status = .opened) : s.Consistent := by
  have hnone (i : ι) (closes value : Bool) : ¬ s.Returned i closes value := by
    simp [HelpState.Returned, hwaiting, returned?]
  refine ⟨⟨?_, ?_, ?_⟩, fun _ i value => hnone i true value, ?_,
    fun i _ hi => absurd hi (hnone i true true), fun _ i => hnone i false true,
    fun i _ hi => absurd hi (hnone i false true)⟩ <;> simp [hopened, HelpStatus.terminal?]

theorem HelpState.Consistent.of_returned (h : s.Consistent) (hrow : t.store.row = s.store.row)
    (hreturned : ∀ i closes value, t.Returned i closes value ↔ s.Returned i closes value) :
    t.Consistent := by
  obtain ⟨hcomplete, hactive, hclosed, hclosedOnce, hunacknowledged, hacknowledgedOnce⟩ := h
  simp only [← hreturned, ← hrow] at *
  exact ⟨hcomplete, hactive, hclosed, hclosedOnce, hunacknowledged, hacknowledgedOnce⟩

variable [DecidableEq ι] {i : ι}

theorem returned_setPhase {phase : LockPhase HelpCall HelpOutcome Failure}
    (hold : (s.phase i).committed? = false) (hnew : phase.committed? = false) (j : ι)
    (closes value : Bool) :
    HelpState.Returned (s.setPhase i phase) j closes value ↔ s.Returned j closes value := by
  unfold HelpState.Returned
  by_cases hj : j = i
  · subst hj
    rw [LockState.setPhase_self, returned?_of_not_committed hnew, returned?_of_not_committed hold]
  · rw [LockState.setPhase_of_ne hj]

theorem returned_committed (hold : (s.phase i).committed? = false) (call : HelpCall)
    (outcome : HelpOutcome) (store : HelpDesk) (j : ι) (closes value : Bool) :
    HelpState.Returned { s.setPhase i (.committed call outcome) with store } j closes value ↔
      s.Returned j closes value ∨
        (j = i ∧ call.closes? = closes ∧ outcome.returned = value) := by
  unfold HelpState.Returned
  by_cases hj : j = i
  · subst hj
    rw [LockState.setPhase_self, returned?_of_not_committed hold]
    simp [returned?]
  · simp [LockState.setPhase_of_ne hj, hj]

theorem HelpState.Consistent.commit (h : s.Consistent) {call : HelpCall} {outcome : HelpOutcome}
    (hold : (s.phase i).committed? = false) (heffect : call.Effect s.store.row outcome) :
    HelpState.Consistent
      { s.setPhase i (.committed call outcome) with
        store := { s.store with row := outcome.row } } := by
  have hreturned := returned_committed hold call outcome { s.store with row := outcome.row }
  cases heffect with
  | kept hcloses hacknowledges =>
    have htrue (j : ι) (closes : Bool) := hreturned j closes true
    simp only [Bool.false_eq_true, and_false, or_false] at htrue
    refine ⟨h.complete, fun hactive j value => ?_, ?_, ?_, ?_, ?_⟩
    · rw [hreturned]
      rintro (hj | ⟨-, hcall, -⟩)
      · exact h.active hactive j value hj
      · cases (hcloses hcall) ▸ hactive
    · simpa only [htrue] using h.closed
    · simpa only [htrue] using h.closedOnce
    · simpa only [htrue] using h.unacknowledged
    · simpa only [htrue] using h.acknowledgedOnce
  | acknowledged hcall hopened hstatus hcomplete =>
    have hactive := h.active (by rw [hopened]; rfl)
    have hunclosed (j : ι) (value : Bool) := hreturned j true value
    simp only [hcall, Bool.false_eq_true, false_and, and_false, or_false] at hunclosed
    refine ⟨hcomplete, fun _ j value => ?_, fun hterminal => ?_, fun j _ hj => ?_,
      fun hstill => ?_, fun j l hj hl => ?_⟩
    · rw [hunclosed]
      exact hactive j value
    · cases hstatus ▸ hterminal
    · exact absurd ((hunclosed j true).mp hj) (hactive j true)
    · cases hstatus ▸ hstill
    · have hfirst := h.unacknowledged hopened
      rw [hreturned] at hj hl
      exact ((hj.resolve_left (hfirst j)).1).trans ((hl.resolve_left (hfirst l)).1).symm
  | closed hcall hactive hterminal hcomplete =>
    have hnone := h.active hactive
    have hacknowledged (j : ι) := hreturned j false true
    simp only [hcall, Bool.true_eq_false, false_and, and_false, or_false] at hacknowledged
    refine ⟨hcomplete, fun hstill => ?_, fun _ => ?_, fun j l hj hl => ?_, fun hopened => ?_, ?_⟩
    · cases hterminal ▸ hstill
    · exact ⟨i, (hreturned i true true).mpr (.inr ⟨rfl, hcall, rfl⟩)⟩
    · rw [hreturned] at hj hl
      exact ((hj.resolve_left (hnone j true)).1).trans ((hl.resolve_left (hnone l true)).1).symm
    · cases hopened ▸ hterminal
    · simpa only [hacknowledged] using h.acknowledgedOnce

theorem HelpState.Consistent.step (h : s.Consistent)
    (hserialised : (helpProtocol callers).Serialised () (fun _ _ _ => True) s)
    {action : LockAction ι HelpEvent} (htakes : (helpProtocol callers).Takes s action t) :
    t.Consistent := by
  cases htakes with
  | environment =>
    rename_i event
    refine h.of_returned ?_ fun _ _ _ => Iff.rfl
    cases event with
    | tick => rfl
    | changeTables db => rfl
  | loaded hphase _ => exact h.of_returned rfl (returned_setPhase (by rw [hphase]; rfl) rfl)
  | refused hphase _ => exact h.of_returned rfl (returned_setPhase (by rw [hphase]; rfl) rfl)
  | locked hphase _ => exact h.of_returned rfl (returned_setPhase (by rw [hphase]; rfl) rfl)
  | written hphase _ => exact h.of_returned rfl (returned_setPhase (by rw [hphase]; rfl) rfl)
  | rejected hphase _ => exact h.of_returned rfl (returned_setPhase (by rw [hphase]; rfl) rfl)
  | committed hphase => exact h.commit (by rw [hphase]; rfl) (effect_of_written hserialised hphase)

theorem serialised_step (h : (helpProtocol callers).Serialised () (fun _ _ _ => True) s)
    {action : LockAction ι HelpEvent} (htakes : (helpProtocol callers).Takes s action t) :
    (helpProtocol callers).Serialised () (fun _ _ _ => True) t := by
  refine h.step htakes ?_
  cases action with
  | load i => exact fun _ _ => rfl
  | write i => exact fun _ _ => trivial
  | _ => trivial

variable [Fintype ι] {actions : List (LockAction ι HelpEvent)}

theorem HelpState.Consistent.run (hrun : Run (Fires (helpProtocol callers).step) s actions t)
    (hwaiting : ∀ i, s.phase i = .waiting) (hopened : s.store.row.status = .opened) :
    (helpProtocol callers).Serialised () (fun _ _ _ => True) t ∧ t.Consistent := by
  refine hrun.invariant
    (fun u => (helpProtocol callers).Serialised () (fun _ _ _ => True) u ∧
      HelpState.Consistent u) ?_ ⟨.of_waiting hwaiting, .start hwaiting hopened⟩
  rintro u action v ⟨hserialised, hconsistent⟩ hfires
  have htakes := LockProtocol.takes_of_step hfires
  exact ⟨serialised_step hserialised htakes, hconsistent.step hserialised htakes⟩

theorem row_of_closed_run {u : HelpState ι}
    (hserialised : (helpProtocol callers).Serialised () (fun _ _ _ => True) t)
    (hclosed : t.store.row.status.terminal? = true)
    (hrun : Run (Fires (helpProtocol callers).step) t actions u) :
    u.store.row = t.store.row := by
  refine (hrun.invariant
    (fun v => (helpProtocol callers).Serialised () (fun _ _ _ => True) v ∧
      v.store.row = t.store.row) ?_ ⟨hserialised, rfl⟩).2
  rintro v action w ⟨hv, hrow⟩ hfires
  have htakes := LockProtocol.takes_of_step hfires
  refine ⟨serialised_step hv htakes, ?_⟩
  cases htakes with
  | environment =>
    rename_i event
    cases event with
    | tick => exact hrow
    | changeTables db => exact hrow
  | committed hphase =>
    rw [← hrow] at hclosed
    cases effect_of_written hv hphase with
    | kept _ _ => exact hrow
    | acknowledged _ hopened _ _ =>
      cases hopened ▸ hclosed
    | closed _ hactive _ _ =>
      cases hactive ▸ hclosed
  | _ => exact hrow

/-- For any number of callers in any interleaving: a closed request keeps its row, one closing
call returns true if any returns, at most one `acknowledge!` returns true and only from an open
request, and the columns that the status requires are present. -/
theorem help_request_closed_once (hrun : Run (Fires (helpProtocol callers).step) s actions t)
    (hwaiting : ∀ i, s.phase i = .waiting) (hopened : s.store.row.status = .opened) :
    (t.store.row.status = .resolved ∨ t.store.row.status = .canceled → ∀ more u,
      Run (Fires (helpProtocol callers).step) t more u → u.store.row = t.store.row) ∧
    (∀ i j, t.Returned i true true → t.Returned j true true → i = j) ∧
    (∀ i value, t.Returned i true value → ∃! j, t.Returned j true true) ∧
    (∀ i j, t.Returned i false true → t.Returned j false true → i = j) ∧
    (∀ i u, (helpProtocol callers).step t (.commit i) = some u → HelpState.Returned u i false true →
      t.store.row.status = .opened ∧ u.store.row.status = .acknowledged) ∧
    t.store.row.Complete := by
  obtain ⟨hserialised, hconsistent⟩ := HelpState.Consistent.run hrun hwaiting hopened
  refine ⟨fun hclosed more u hmore => ?_, hconsistent.closedOnce, fun i value hi => ?_,
    hconsistent.acknowledgedOnce, fun i u hfires hi => ?_, hconsistent.complete⟩
  · refine row_of_closed_run hserialised ?_ hmore
    rcases hclosed with hclosed | hclosed <;> rw [hclosed] <;> rfl
  · have hterminal : t.store.row.status.terminal? = true := by
      by_contra hactive
      exact hconsistent.active (by simpa using hactive) i value hi
    obtain ⟨j, hj⟩ := hconsistent.closed hterminal
    exact ⟨j, hj, fun l hl => hconsistent.closedOnce l j hl hj⟩
  · cases LockProtocol.takes_of_step hfires with
    | committed hphase =>
      have heffect := effect_of_written hserialised hphase
      rw [returned_committed (by rw [hphase]; rfl)] at hi
      rcases hi with hi | ⟨-, hcall, hvalue⟩
      · rw [HelpState.Returned, hphase] at hi
        cases hi
      · cases heffect with
        | kept _ _ => cases hvalue
        | acknowledged _ hstatus hchanged _ => exact ⟨hstatus, hchanged⟩
        | closed hcloses _ _ _ =>
          cases hcloses ▸ hcall

end Interleaving

/-! ## Three callers of one request -/

/-- Two members of staff and the student all saw the request open. -/
def threeCallers : Fin 3 → HelpUpdate
  | 0 => .updateAsStaff { id := 1, role := .instructor } (some "resolved") (some " Try again. ")
  | 1 => .updateAsStudent (some "canceled")
  | 2 => .updateAsStaff { id := 2, role := .admin } (some "acknowledged") none

def openRequest : HelpState (Fin 3) where
  store :=
    { row := { id := 1, studentId := 3, cohortId := 1, contextLabel := "Loops",
               contextPath := "/lessons/1", message := "Why?" }
      db := { users := [{ id := 1, role := .instructor }, { id := 2, role := .admin }, { id := 3 }]
              cohorts := [{ id := 1, curriculumId := 1 }]
              enrollments := [{ id := 1, userId := 3, cohortId := 1 }] }
      clock := 5 }
  phase _ := .waiting

def racingSteps : List (LockAction (Fin 3) HelpEvent) :=
  [.load 0, .load 1, .load 2, .lock 0, .write 0, .environment .tick, .commit 0, .lock 1, .write 1,
    .commit 1, .lock 2, .write 2, .commit 2]

theorem resolved_before_cancel :
    ∃ t : HelpState (Fin 3), racingSteps.foldlM (helpProtocol threeCallers).step openRequest =
        some t ∧ t.store.row.status = .resolved ∧ t.store.row.staffResponse = some "Try again." ∧
      t.Returned 1 true false ∧ ∃! j, t.Returned j true true := by
  have hany : (racingSteps.foldlM (helpProtocol threeCallers).step openRequest).any
      (fun t => decide (t.store.row.status = .resolved ∧
        t.store.row.staffResponse = some "Try again." ∧ HelpState.Returned t 1 true false)) =
      true := by decide +kernel
  obtain ⟨t, ht, hstatus, hresponse, hcanceled⟩ := exists_of_any_decide hany
  have hresult := help_request_closed_once (run_foldlM ht) (fun _ => rfl) rfl
  exact ⟨t, ht, hstatus, hresponse, hcanceled, hresult.2.2.1 1 false hcanceled⟩

end LearningPlatform
