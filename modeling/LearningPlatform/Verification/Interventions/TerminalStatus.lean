import LearningPlatform.Model.RecoveryPlan
import LearningPlatform.Verification.Interventions.FollowUps

/-! # Terminal interventions and recovery plans

An update looks at the status of the copy that it loaded. A terminal status stays, and the columns
that belong to it stay with it, if every write that changes the status finds the status that was
loaded. -/

namespace LearningPlatform

open Shared

/-! ## A column that belongs to the status -/

/-- A column is present exactly in certain statuses. The changes of a copy without it are written
to a row that has the status of the copy or gets the status that it has. -/
theorem isSome_statusColumn {τ α : Type*} [DecidableEq τ] [DecidableEq α] {p : τ → Bool}
    {loaded changed current : τ} {column currentColumn : Option α} (hloaded : p loaded = false)
    (hchanged : column.isSome = p changed) (hcurrent : currentColumn.isSome = p current)
    (hstatus : changedColumn loaded changed current = current ∨ current = loaded) :
    (changedColumn none column currentColumn).isSome =
      p (changedColumn loaded changed current) := by
  by_cases hsame : changed = loaded
  · subst hsame
    have hnone : column = none := by simpa [hloaded] using hchanged
    simpa [hnone] using hcurrent
  · have hwritten : changedColumn loaded changed current = changed := if_neg hsame
    rw [hwritten] at hstatus ⊢
    cases hp : p changed with
    | true =>
      rw [hp] at hchanged
      exact isSome_changedColumn hchanged (.inl rfl)
    | false =>
      have hnone : column = none := by simpa [hp] using hchanged
      rw [hnone, changedColumn_self, hcurrent]
      rcases hstatus with rfl | rfl
      · exact hp
      · exact hloaded

/-! ## Interventions -/

namespace InterventionRow

/-- The columns that belong to the status. -/
structure Consistent (row : InterventionRow) : Prop where
  resolvedAt : row.resolvedAt.isSome = !row.status.active?
  outcome : row.outcome.isSome = (row.status == .resolved)

variable {row copy record changed : InterventionRow} {now now' : Time}

theorem not_resolved_of_active (h : row.active? = true) : (row.status == .resolved) = false := by
  unfold active? at h
  cases hstatus : row.status <;> simp_all [InterventionStatus.active?]

theorem Consistent.of_active (h : row.Consistent) (hactive : row.active? = true) :
    row.resolvedAt = none ∧ row.outcome = none := by
  have hresolvedAt := h.resolvedAt
  have houtcome := h.outcome
  rw [show row.status.active? = true from hactive] at hresolvedAt
  rw [not_resolved_of_active hactive] at houtcome
  exact ⟨by simpa using hresolvedAt, by simpa using houtcome⟩

/-- `maintain_resolution_state` gives a record without the columns those of its status, where the
validations ask for the outcome. -/
theorem Written.consistent (h : Written copy record changed now)
    (hresolvedAt : record.resolvedAt = none) : changed.Consistent := by
  have hmaintained : (record.maintainResolutionState now).resolvedAt.isSome =
        !record.status.active? ∧
      (record.status ≠ .resolved → (record.maintainResolutionState now).outcome = none) := by
    unfold maintainResolutionState
    cases record.status <;> simp [hresolvedAt, InterventionStatus.active?]
  refine ⟨?_, ?_⟩
  · rw [h.resolvedAt, h.status]
    exact hmaintained.1
  · rw [h.status]
    by_cases hresolved : record.status = .resolved
    · rw [h.resolved hresolved, hresolved]
      rfl
    · rw [h.outcome, hmaintained.2 hresolved, beq_eq_false_iff_ne.mpr hresolved]
      rfl

/-- The changes of an active copy, written to a row that has the status of the copy or gets the
status that it has. -/
theorem Consistent.update (hrow : row.Consistent) (hcopy : copy.Consistent)
    (hactive : copy.active? = true) (hchanged : changed.Consistent)
    (hcurrent : (copy.update changed row now).status = row.status ∨ row.status = copy.status) :
    (copy.update changed row now).Consistent := by
  obtain ⟨hcopyAt, hcopyOutcome⟩ := hcopy.of_active hactive
  refine ⟨?_, ?_⟩
  · have hcolumn := isSome_statusColumn (p := fun status => !status.active?)
      (by simpa [active?] using hactive) hchanged.resolvedAt hrow.resolvedAt hcurrent
    rwa [← hcopyAt] at hcolumn
  · have hcolumn := isSome_statusColumn (p := fun status => status == .resolved)
      (not_resolved_of_active hactive) hchanged.outcome hrow.outcome hcurrent
    rwa [← hcopyOutcome] at hcolumn

theorem Consistent.cancel (hrow : row.Consistent) (hactive : copy.active? = true)
    (hcurrent : row.status = .canceled ∨ row.status = copy.status) :
    (row.cancel now).Consistent := by
  refine ⟨rfl, ?_⟩
  have houtcome : (row.status == .resolved) = false := by
    rcases hcurrent with hcanceled | hsame
    · rw [hcanceled]
      rfl
    · rw [hsame]
      exact not_resolved_of_active hactive
  exact hrow.outcome.trans houtcome

theorem Consistent.markNotified {context : SupportContext} {jobNow : Time} (hrow : row.Consistent)
    (hactive : row.active? = true) (h : row.markNotified context jobNow now = .ok changed) :
    changed.Consistent := by
  obtain ⟨record, hprepare, h⟩ := bind_eq_ok.mp h
  cases h
  have hwritten := written_of_prepare hprepare
  exact hrow.update hrow hactive (hwritten.consistent (hrow.of_active hactive).1) (.inr rfl)

theorem status_ne_of_active (hterminal : row.active? = false) (hactive : copy.active? = true) :
    row.status ≠ copy.status := by
  intro hsame
  unfold active? at hterminal hactive
  rw [hsame, hactive] at hterminal
  cases hterminal

end InterventionRow

/-- What a call knows of the copy that it loaded. -/
def InterventionPhase.Intact : InterventionPhase → Prop
  | .loaded copy => copy.Consistent ∧ copy.active? = true
  | .prepared copy changed => copy.Consistent ∧ copy.active? = true ∧ changed.Consistent
  | .selected copy => copy.active? = true
  | _ => True

/-- A write that changes the status finds the status of the copy that it was decided on. -/
def InterventionPhase.FindsStatus {ι : Type*} (desk : InterventionDesk ι) :
    InterventionPhase → Prop
  | .prepared copy changed =>
    (copy.update changed desk.row desk.now).status = desk.row.status ∨
      desk.row.status = copy.status
  | .selected copy => desk.row.status = .canceled ∨ desk.row.status = copy.status
  | _ => True

instance {ι : Type*} (desk : InterventionDesk ι) :
    ∀ phase : InterventionPhase, Decidable (phase.FindsStatus desk)
  | .prepared _ _ => inferInstanceAs (Decidable (_ ∨ _))
  | .selected _ => inferInstanceAs (Decidable (_ ∨ _))
  | .waiting | .loaded _ | .saved _ _ | .listed _ _ | .locked _ _ | .ran _ | .finished
  | .refused _ | .raised => .isTrue trivial

namespace InterventionDesk

variable {ι : Type*} {desk desk' : InterventionDesk ι} {context : SupportContext} {i : ι}
  {call : InterventionCall} {phase phase' : InterventionPhase}

/-- What a statement leaves of the status and of the copies. -/
structure Settled (desk desk' : InterventionDesk ι) (phase' : InterventionPhase) : Prop where
  consistent : desk'.row.Consistent
  intact : phase'.Intact
  stays : desk.row.active? = false → desk'.row.status = desk.row.status

theorem Settled.of_row_eq (hrow : desk.row.Consistent) (hintact : phase'.Intact)
    (heq : desk'.row = desk.row) : desk.Settled desk' phase' :=
  ⟨heq.symm ▸ hrow, hintact, fun _ => by rw [heq]⟩

theorem start_intact (hrow : desk.row.Consistent) : (desk.start call).Intact := by
  unfold start
  split
  · split
    · rename_i hactive
      exact ⟨hrow, hactive⟩
    · trivial
  · split
    · rename_i hselected
      exact (Bool.and_eq_true_iff.mp hselected).1
    · trivial
  · split <;> trivial

theorem settled_next (hrow : desk.row.Consistent) (hintact : phase.Intact)
    (hfollows : phase.FollowsUp call i desk) (hfinds : phase.FindsStatus desk)
    (hnext : desk.next context i call phase = some (desk', phase')) :
    desk.Settled desk' phase' := by
  cases takes_of_next hnext with
  | start call => exact .of_row_eq hrow (start_intact hrow) rfl
  | prepare hpatch =>
    obtain ⟨record, hwritten, hresolvedAt, -⟩ := InterventionRow.written_of_patch hpatch
    obtain ⟨hcopy, hactive⟩ := hintact
    have hnone := (hcopy.of_active hactive).1
    exact .of_row_eq hrow ⟨hcopy, hactive, hwritten.consistent (hresolvedAt.trans hnone)⟩ rfl
  | refuse => exact .of_row_eq hrow trivial rfl
  | save hfree =>
    obtain ⟨hcopy, hactive, hchanged⟩ := hintact
    refine ⟨?_, trivial, fun hterminal => ?_⟩
    · rw [save_row]
      exact hrow.update hcopy hactive hchanged hfinds
    · rw [save_row]
      exact hfinds.resolve_right (InterventionRow.status_ne_of_active hterminal hactive)
  | notify => exact .of_row_eq hrow trivial rfl
  | cancel hfree =>
    refine ⟨hrow.cancel hintact hfinds, trivial, fun hterminal => ?_⟩
    exact (hfinds.resolve_right (InterventionRow.status_ne_of_active hterminal hintact)).symm
  | lock hfree hdue hunmarked => exact .of_row_eq hrow trivial rfl
  | skip hskip => exact .of_row_eq hrow trivial rfl
  | commit hwritten =>
    obtain ⟨-, -, rfl, hready⟩ := hfollows
    have hactive := (InterventionRow.due?_eq_true.mp (hready _ rfl).1).1
    exact ⟨hrow.markNotified hactive hwritten, trivial,
      fun _ => (InterventionRow.markNotified_ok hwritten).1⟩
  | raise => exact .of_row_eq hrow trivial rfl

end InterventionDesk

section InterventionRuns

variable {ι : Type*} {context : SupportContext} {calls : ι → InterventionCall}

/-- The condition on the steps of a run. -/
def StatusFound (s : Processes ι (InterventionDesk ι) InterventionPhase)
    (step : ι × InterventionAction) : Prop :=
  step.2 = .next → (s.phase step.1).FindsStatus s.store

instance (s : Processes ι (InterventionDesk ι) InterventionPhase)
    (step : ι × InterventionAction) : Decidable (StatusFound s step) :=
  inferInstanceAs (Decidable (_ → _))

/-- The invariant of the follow-ups together with that of the statuses. -/
def InterventionRun (calls : ι → InterventionCall)
    (s : Processes ι (InterventionDesk ι) InterventionPhase) : Prop :=
  s.Holds (fun desk => desk.Audited ∧ desk.row.Consistent)
    fun i desk phase => phase.FollowsUp (calls i) i desk ∧ phase.Intact

theorem settled_act {s : Processes ι (InterventionDesk ι) InterventionPhase}
    (h : InterventionRun calls s) {i : ι} {a : InterventionAction} {desk : InterventionDesk ι}
    {phase : InterventionPhase} (hfound : StatusFound s (i, a))
    (hact : InterventionDesk.act context calls i a s.store (s.phase i) = some (desk, phase)) :
    s.store.Settled desk phase := by
  have hself := h.phase i
  cases a with
  | tick duration =>
    cases hact
    exact .of_row_eq h.store.2 hself.2 rfl
  | next => exact InterventionDesk.settled_next h.store.2 hself.2 hself.1 (hfound rfl) hact
  | abort =>
    cases hphase : s.phase i with
    | locked fresh edits =>
      cases hphase ▸ hact
      exact .of_row_eq h.store.2 trivial rfl
    | _ =>
      cases hphase ▸ hact

theorem keeps_interventionRun (s : Processes ι (InterventionDesk ι) InterventionPhase) (i : ι)
    (a : InterventionAction) (desk : InterventionDesk ι) (phase : InterventionPhase)
    (h : InterventionRun calls s) (hfound : StatusFound s (i, a))
    (hact : InterventionDesk.act context calls i a s.store (s.phase i) = some (desk, phase)) :
    s.Keeps (fun desk => desk.Audited ∧ desk.row.Consistent)
      (fun i desk phase => phase.FollowsUp (calls i) i desk ∧ phase.Intact) i desk phase := by
  have hfollows := keeps_followUps s i a desk phase
    ⟨h.store.1, fun j => (h.phase j).1⟩ hact
  have hsettled := settled_act h hfound hact
  exact ⟨⟨hfollows.invariant, hsettled.consistent⟩, ⟨hfollows.self, hsettled.intact⟩,
    fun j hji => ⟨hfollows.others j hji, (h.phase j).2⟩⟩

theorem stays_terminal [DecidableEq ι] {s t : Processes ι (InterventionDesk ι) InterventionPhase}
    {actions : List (ι × InterventionAction)} (h : InterventionRun calls s)
    (hrun : Run (Meeting StatusFound
      (Fires (Processes.step (InterventionDesk.act context calls)))) s actions t)
    (hterminal : s.store.row.status.active? = false) :
    t.store.row.status = s.store.row.status := by
  refine Processes.Holds.stays (Q := fun desk => desk.row.status = s.store.row.status) hrun
    keeps_interventionRun ?_ h rfl
  intro u i a desk phase hu hfound hact hsame
  refine ((settled_act hu hfound hact).stays ?_).trans hsame
  rw [InterventionRow.active?, hsame, hterminal]

end InterventionRuns

/-! ## Recovery plans -/

namespace RecoveryPlanRow

/-- The column that belongs to the status. -/
structure Consistent (row : RecoveryPlanRow) : Prop where
  completedAt : row.completedAt.isSome = !(row.status == .active)

variable {row copy changed : RecoveryPlanRow} {now : Time}

theorem Consistent.of_active (h : row.Consistent) (hactive : row.active? = true) :
    row.completedAt = none := by
  have hcompletedAt := h.completedAt
  rw [show (row.status == .active) = true from hactive] at hcompletedAt
  simpa using hcompletedAt

theorem maintainCompletionState_consistent (h : row.completedAt = none) (now : Time) :
    (row.maintainCompletionState now).Consistent := by
  refine ⟨?_⟩
  unfold maintainCompletionState
  cases row.status <;> simp [h]

theorem consistent_of_patch {context : SupportContext} {currentUser : User}
    {params : RecoveryPlanParams} (hcompletedAt : copy.completedAt = none)
    (h : copy.patch context currentUser params now = .ok changed) : changed.Consistent := by
  unfold patch at h
  obtain ⟨ownerId, -, h⟩ := bind_eq_ok.mp h
  split at h
  · obtain ⟨-, rfl⟩ := saveUnless_eq_ok.mp h
    refine maintainCompletionState_consistent ?_ now
    exact hcompletedAt
  · cases h

theorem Consistent.update (hrow : row.Consistent) (hcopy : copy.Consistent)
    (hactive : copy.active? = true) (hchanged : changed.Consistent)
    (hcurrent : (copy.update changed row now).status = row.status ∨ row.status = copy.status) :
    (copy.update changed row now).Consistent := by
  have hcolumn := isSome_statusColumn (p := fun status : PlanStatus => !(status == .active))
    (by simpa [active?] using hactive) hchanged.completedAt hrow.completedAt hcurrent
  rw [← hcopy.of_active hactive] at hcolumn
  exact ⟨hcolumn⟩

theorem Consistent.cancelActive (h : row.Consistent) : (row.cancelActive now).Consistent := by
  unfold RecoveryPlanRow.cancelActive
  split
  · exact ⟨rfl⟩
  · exact h

end RecoveryPlanRow

/-- What a call knows of the copy that it loaded. -/
def PlanPhase.Intact : PlanPhase → Prop
  | .loaded copy => copy.Consistent ∧ copy.active? = true
  | .prepared copy changed => copy.Consistent ∧ copy.active? = true ∧ changed.Consistent
  | _ => True

/-- A write that changes the status finds the status of the copy that it was decided on. -/
def PlanPhase.FindsStatus (desk : PlanDesk) : PlanPhase → Prop
  | .prepared copy changed =>
    (copy.update changed desk.row desk.now).status = desk.row.status ∨
      desk.row.status = copy.status
  | _ => True

namespace PlanDesk

variable {desk desk' : PlanDesk} {context : SupportContext} {call : PlanCall}
  {phase phase' : PlanPhase}

/-- What a statement leaves of the status and of the copies. -/
structure Settled (desk desk' : PlanDesk) (phase' : PlanPhase) : Prop where
  consistent : desk'.row.Consistent
  intact : phase'.Intact
  stays : desk.row.active? = false → desk'.row.status = desk.row.status

theorem Settled.of_row_eq (hrow : desk.row.Consistent) (hintact : phase'.Intact)
    (heq : desk'.row = desk.row) : desk.Settled desk' phase' :=
  ⟨heq.symm ▸ hrow, hintact, fun _ => by rw [heq]⟩

theorem settled_next (hrow : desk.row.Consistent) (hintact : phase.Intact)
    (hfinds : phase.FindsStatus desk)
    (hnext : desk.next context call phase = some (desk', phase')) :
    desk.Settled desk' phase' := by
  cases phase with
  | waiting =>
    cases call with
    | patch currentUser params =>
      simp only [PlanDesk.next] at hnext
      split at hnext
      · rename_i hactive
        cases hnext
        exact .of_row_eq hrow ⟨hrow, hactive⟩ rfl
      · cases hnext
        exact .of_row_eq hrow trivial rfl
    | restart =>
      cases hnext
      refine ⟨hrow.cancelActive, trivial, fun hterminal => ?_⟩
      simp [RecoveryPlanRow.cancelActive, hterminal]
  | loaded copy =>
    cases call with
    | restart => cases hnext
    | patch currentUser params =>
      simp only [PlanDesk.next] at hnext
      split at hnext
      · rename_i changed hpatch
        cases hnext
        obtain ⟨hcopy, hactive⟩ := hintact
        have hnone := hcopy.of_active hactive
        exact .of_row_eq hrow
          ⟨hcopy, hactive, RecoveryPlanRow.consistent_of_patch hnone hpatch⟩ rfl
      · cases hnext
        exact .of_row_eq hrow trivial rfl
  | prepared copy changed =>
    cases hnext
    obtain ⟨hcopy, hactive, hchanged⟩ := hintact
    refine ⟨hrow.update hcopy hactive hchanged hfinds, trivial, fun hterminal => ?_⟩
    refine hfinds.resolve_right fun hsame => ?_
    unfold RecoveryPlanRow.active? at hterminal hactive
    rw [hsame, hactive] at hterminal
    cases hterminal
  | finished => cases hnext
  | refused failure => cases hnext

end PlanDesk

section PlanRuns

variable {ι : Type*} {context : SupportContext} {calls : ι → PlanCall}

/-- The condition on the steps of a run. -/
def PlanStatusFound (s : Processes ι PlanDesk PlanPhase) (step : ι × PlanAction) : Prop :=
  step.2 = .next → (s.phase step.1).FindsStatus s.store

def PlanRun (s : Processes ι PlanDesk PlanPhase) : Prop :=
  s.Holds (fun desk => desk.row.Consistent) fun _ _ phase => phase.Intact

theorem settled_planAct {s : Processes ι PlanDesk PlanPhase} (h : PlanRun s) {i : ι}
    {a : PlanAction} {desk : PlanDesk} {phase : PlanPhase} (hfound : PlanStatusFound s (i, a))
    (hact : PlanDesk.act context calls i a s.store (s.phase i) = some (desk, phase)) :
    s.store.Settled desk phase := by
  cases a with
  | tick duration =>
    cases hact
    exact .of_row_eq h.store (h.phase i) rfl
  | next => exact PlanDesk.settled_next h.store (h.phase i) (hfound rfl) hact

theorem keeps_planRun (s : Processes ι PlanDesk PlanPhase) (i : ι) (a : PlanAction)
    (desk : PlanDesk) (phase : PlanPhase) (h : PlanRun s) (hfound : PlanStatusFound s (i, a))
    (hact : PlanDesk.act context calls i a s.store (s.phase i) = some (desk, phase)) :
    s.Keeps (fun desk => desk.row.Consistent) (fun _ _ phase => phase.Intact) i desk phase := by
  have hsettled := settled_planAct h hfound hact
  exact ⟨hsettled.consistent, hsettled.intact, fun j _ => h.phase j⟩

theorem plan_stays_terminal [DecidableEq ι] {s t : Processes ι PlanDesk PlanPhase}
    {actions : List (ι × PlanAction)} (h : PlanRun s)
    (hrun : Run (Meeting PlanStatusFound (Fires (Processes.step (PlanDesk.act context calls))))
      s actions t)
    (hterminal : s.store.row.status ≠ .active) : t.store.row.status = s.store.row.status := by
  refine Processes.Holds.stays (Q := fun desk => desk.row.status = s.store.row.status) hrun
    keeps_planRun ?_ h rfl
  intro u i a desk phase hu hfound hact hsame
  refine ((settled_planAct hu hfound hact).stays ?_).trans hsame
  rw [RecoveryPlanRow.active?, hsame]
  exact beq_eq_false_iff_ne.mpr hterminal

end PlanRuns

/-! ## Both -/

/-- In every run of updates, restarts and follow-up jobs on an intervention, and of updates and
restarts on a recovery plan, whose writes that change the status find the status that was loaded:
a terminal status is never left, the time of the end is present exactly in terminal statuses, and
an intervention has an outcome exactly if it is resolved. -/
theorem terminal_status_stays {ι κ : Type*} [DecidableEq ι] [DecidableEq κ]
    (context : SupportContext) (calls : ι → InterventionCall) (planCalls : κ → PlanCall) :
    (∀ s t u actions actions', (∀ i, s.phase i = .waiting) → s.store.log = [] →
      s.store.row.Consistent →
      Run (Meeting StatusFound (Fires (Processes.step (InterventionDesk.act context calls))))
        s actions t →
      Run (Meeting StatusFound (Fires (Processes.step (InterventionDesk.act context calls))))
        t actions' u →
      (t.store.row.status.active? = false → u.store.row.status = t.store.row.status) ∧
      (t.store.row.resolvedAt.isSome = true ↔ t.store.row.status.active? = false) ∧
      (t.store.row.outcome.isSome = true ↔ t.store.row.status = .resolved)) ∧
    (∀ s t u actions actions', (∀ i, s.phase i = .waiting) → s.store.row.Consistent →
      Run (Meeting PlanStatusFound (Fires (Processes.step (PlanDesk.act context planCalls))))
        s actions t →
      Run (Meeting PlanStatusFound (Fires (Processes.step (PlanDesk.act context planCalls))))
        t actions' u →
      (t.store.row.status ≠ .active → u.store.row.status = t.store.row.status) ∧
      (t.store.row.completedAt.isSome = true ↔ t.store.row.status ≠ .active)) := by
  refine ⟨?_, ?_⟩
  · intro s t u actions actions' hwaiting hlog hconsistent hrun hrun'
    have hstart : InterventionRun calls s := by
      refine ⟨⟨.of_log_eq_nil hlog, hconsistent⟩, fun i => ?_⟩
      rw [hwaiting i]
      exact ⟨trivial, trivial⟩
    have ht : InterventionRun calls t := .run_meeting hrun keeps_interventionRun hstart
    refine ⟨stays_terminal ht hrun', ?_, ?_⟩
    · rw [ht.store.2.resolvedAt]
      simp
    · rw [ht.store.2.outcome]
      simp
  · intro s t u actions actions' hwaiting hconsistent hrun hrun'
    have hstart : PlanRun s := by
      refine ⟨hconsistent, fun i => ?_⟩
      rw [hwaiting i]
      trivial
    have ht : PlanRun t := .run_meeting hrun keeps_planRun hstart
    refine ⟨plan_stays_terminal ht hrun', ?_⟩
    rw [ht.store.completedAt]
    simp

/-! ## Two updates of one intervention -/

/-- One staff member resolves the intervention, another one sets it to monitoring. -/
def resolveAndMonitor : ℕ → InterventionCall
  | 0 => .patch { id := 1, role := .instructor }
      { status := some (some .resolved), outcome := some (some .referred) }
  | _ => .patch { id := 2, role := .admin } { status := some (some .monitoring) }

def resolveAlone : List (ℕ × InterventionAction) :=
  [(0, .next), (0, .next), (0, .next)]

/-- The second update has loaded the intervention before the first one resolves it. -/
def resolveAfterLoad : List (ℕ × InterventionAction) :=
  [(0, .next), (1, .next), (0, .next), (0, .next)]

/-- An update that loads the resolved intervention is refused. -/
theorem resolved_intervention_stays : ∃ t u,
    Run (Meeting StatusFound (Fires (Processes.step
      (InterventionDesk.act supportTeam resolveAndMonitor))))
      (beforeCalls openIntervention) resolveAlone t ∧
    Run (Meeting StatusFound (Fires (Processes.step
      (InterventionDesk.act supportTeam resolveAndMonitor)))) t [(1, .next)] u ∧
    t.store.row.status = .resolved ∧ u.store.row.status = .resolved ∧
    t.store.row.resolvedAt.isSome = true ∧ t.store.row.outcome.isSome = true := by
  have hcheck : (resolveAlone.foldlM (stepMeeting StatusFound (Processes.step
      (InterventionDesk.act supportTeam resolveAndMonitor))) (beforeCalls openIntervention)).any
      (fun t => decide (t.store.row.status = .resolved) &&
        (([(1, .next)] : List (ℕ × InterventionAction)).foldlM (stepMeeting StatusFound
          (Processes.step (InterventionDesk.act supportTeam resolveAndMonitor))) t).isSome) =
      true := by
    decide +kernel
  obtain ⟨t, ht, hend⟩ := (Option.any_eq_true _ _).mp hcheck
  obtain ⟨hresolved, hsome⟩ := Bool.and_eq_true_iff.mp hend
  have hresolved := of_decide_eq_true hresolved
  obtain ⟨u, hu⟩ := Option.isSome_iff_exists.mp hsome
  have hrun := run_meeting_foldlM ht
  have hrun' := run_meeting_foldlM hu
  obtain ⟨hstays, hresolvedAt, houtcome⟩ :=
    (terminal_status_stays supportTeam resolveAndMonitor fun _ : Empty => .restart).1 _ t u _ _
      (fun _ => rfl) rfl ⟨rfl, rfl⟩ hrun hrun'
  refine ⟨t, u, hrun, hrun', hresolved, (hstays ?_).trans hresolved, hresolvedAt.mpr ?_,
    houtcome.mpr hresolved⟩
  all_goals rw [hresolved]; rfl

/-- An update of a stale copy reopens the resolved intervention, which keeps its outcome and its
time of resolution. -/
theorem stale_update_reopens : ∃ t u,
    Run (Fires (Processes.step (InterventionDesk.act supportTeam resolveAndMonitor)))
      (beforeCalls openIntervention) resolveAfterLoad t ∧
    Run (Fires (Processes.step (InterventionDesk.act supportTeam resolveAndMonitor)))
      t [(1, .next), (1, .next)] u ∧
    t.store.row.status = .resolved ∧ u.store.row.status = .monitoring ∧
    u.store.row.resolvedAt.isSome = true ∧ u.store.row.outcome = some .referred := by
  obtain ⟨t, u, ht, hu, hend⟩ : ∃ t u,
    resolveAfterLoad.foldlM (Processes.step (InterventionDesk.act supportTeam resolveAndMonitor))
      (beforeCalls openIntervention) = some t ∧
    [(1, .next), (1, .next)].foldlM (Processes.step
      (InterventionDesk.act supportTeam resolveAndMonitor)) t = some u ∧
    t.store.row.status = .resolved ∧ u.store.row.status = .monitoring ∧
    u.store.row.resolvedAt.isSome = true ∧ u.store.row.outcome = some .referred :=
    exists_two_of_any_decide (by decide +kernel)
  exact ⟨t, u, run_foldlM ht, run_foldlM hu, hend⟩

end LearningPlatform
