import LearningPlatform.Model.SaveQueue

/-! # Saves of the mobile player

However calls, completions and continuations come, one save is in flight at a time, the payloads
are sent in the order in which they were enqueued, and the last one is not lost. -/

namespace LearningPlatform.SaveQueue

open Shared

variable {ι : Type*}

/-- A `drainSaves` is under way. -/
def Phase.draining : Phase ι → Bool
  | .awaiting _ | .settled _ _ | .looping => true
  | .ready | .finished => false

/-- The call that the mobile player makes. -/
def progressCall (player : MobilePlayer) (ended : Bool) : ProgressCall where
  currentTime := player.currentTime
  totalWatched := player.totalWatched
  duration := some player.duration
  ended := ended

/-- The reports of the player are the payloads that its calls enqueue. -/
theorem reports_enqueueProgress (player : MobilePlayer) (ended : Bool) :
    (player.enqueueProgress ended).reports =
      player.reports ++ (progressCall player ended).payload.toList := by
  simp only [MobilePlayer.enqueueProgress, ProgressCall.payload, progressCall, Option.bind_some]
  cases normalizedProgress player.currentTime player.totalWatched player.duration ended <;> simp

/-! ## The payloads of the queue -/

namespace Store

/-- The payloads that were sent and the one that waits to be sent. -/
def taken (store : Store ι) : List (Payload ι) :=
  store.sent ++ store.pendingSave.toList

/-- The payloads that were not replaced are in the order of the calls, and the last one is there. -/
structure Kept (store : Store ι) : Prop where
  sublist : store.taken.Sublist store.enqueued
  last : store.taken.getLast? = store.enqueued.getLast?
  nodup : (store.enqueued.map Payload.call).Nodup

/-- The statement leaves the queue. -/
structure SameQueue (store store' : Store ι) : Prop where
  pendingSave : store'.pendingSave = store.pendingSave
  saving : store'.saving = store.saving
  enqueued : store'.enqueued = store.enqueued
  sent : store'.sent = store.sent

variable {store store' : Store ι}

theorem Kept.congr (h : store.Kept) (htaken : store'.taken = store.taken)
    (henqueued : store'.enqueued = store.enqueued) : store'.Kept := by
  refine ⟨?_, ?_, ?_⟩
  · rw [htaken, henqueued]
    exact h.sublist
  · rw [htaken, henqueued]
    exact h.last
  · rw [henqueued]
    exact h.nodup

theorem SameQueue.taken_eq (h : SameQueue store store') : store'.taken = store.taken := by
  rw [taken, h.sent, h.pendingSave, taken]

/-- A payload that is not sent yet is replaced, and it is not the last one then. -/
theorem Kept.enqueue (h : store.Kept) (payload : Payload ι)
    (hfresh : ∀ earlier ∈ store.enqueued, earlier.call ≠ payload.call) :
    Kept { store with
      pendingSave := some payload
      enqueued := store.enqueued ++ [payload] } := by
  refine ⟨?_, ?_, ?_⟩
  · have hsent : store.sent.Sublist store.enqueued :=
      (List.sublist_append_left _ _).trans h.sublist
    exact hsent.append (List.Sublist.refl [payload])
  · simp [taken]
  · rw [List.map_append, List.map_singleton]
    refine h.nodup.append (List.nodup_singleton _) (List.disjoint_singleton.mpr fun hmem => ?_)
    obtain ⟨earlier, hearlier, hcall⟩ := List.mem_map.mp hmem
    exact hfresh earlier hearlier hcall

end Store

section Loop

variable {store : Store ι}

theorem drainLoop_of_some {next : Payload ι} (h : store.pendingSave = some next) :
    drainLoop store =
      ({ store with pendingSave := none, sent := store.sent ++ [next] }, .awaiting next) := by
  simp [drainLoop, h]

theorem drainLoop_of_none (h : store.pendingSave = none) :
    drainLoop store = ({ store with saving := false }, .finished) := by
  simp [drainLoop, h]

theorem enqueued_drainLoop : (drainLoop store).1.enqueued = store.enqueued := by
  cases h : store.pendingSave with
  | none => rw [drainLoop_of_none h]
  | some next => rw [drainLoop_of_some h]

theorem taken_drainLoop : (drainLoop store).1.taken = store.taken := by
  cases h : store.pendingSave with
  | none => simp [drainLoop_of_none h, Store.taken, h]
  | some next => simp [drainLoop_of_some h, Store.taken, h]

end Loop

theorem sameQueue_afterSave (payload : Payload ι) (succeeded mounted : Bool)
    (callbackThrows : Option Bool) (store : Store ι) :
    Store.SameQueue store (afterSave payload succeeded mounted callbackThrows store) := by
  cases mounted <;> cases succeeded <;> rcases callbackThrows with _ | _ | _ <;>
    exact ⟨rfl, rfl, rfl, rfl⟩

/-! ## Runs -/

/-- The kinds of statements: a call, the loop, and what leaves the queue. -/
theorem act_cases {calls : ι → ProgressCall} {i : ι} {action : Action} {store store' : Store ι}
    {phase phase' : Phase ι} (h : act calls i action store phase = some (store', phase')) :
    (phase = .ready ∧ (store', phase') = enqueueProgress (calls i) i store) ∨
      (phase = .looping ∧ (store', phase') = drainLoop store) ∨
      (phase.draining = true ∧ phase'.draining = true ∧ store.SameQueue store') := by
  cases phase with
  | ready =>
    cases action with
    | enqueueProgress => exact .inl ⟨rfl, (Option.some.inj h).symm⟩
    | _ => cases h
  | awaiting payload =>
    cases action with
    | complete succeeded =>
      cases h
      exact .inr (.inr ⟨rfl, rfl, rfl, rfl, rfl, rfl⟩)
    | _ => cases h
  | settled payload succeeded =>
    cases action with
    | resume mounted callbackThrows =>
      cases h
      exact .inr (.inr ⟨rfl, rfl, sameQueue_afterSave ..⟩)
    | _ => cases h
  | looping =>
    cases action with
    | loop => exact .inr (.inl ⟨rfl, (Option.some.inj h).symm⟩)
    | _ => cases h
  | finished => cases action <;> cases h

section Runs

variable [DecidableEq ι] {calls : ι → ProgressCall} {holder : Option ι}
  {s t : Processes ι (Store ι) (Phase ι)} {i : ι} {store : Store ι} {phase : Phase ι}

/-- A payload waits only while a call drains the queue, and a call that was not made has no
payload. -/
structure Orderly (holder : Option ι) (s : Processes ι (Store ι) (Phase ι)) : Prop where
  kept : s.store.Kept
  drained : s.store.pendingSave.isSome → s.store.saving = true
  fresh : ∀ i, s.phase i = .ready → ∀ payload ∈ s.store.enqueued, payload.call ≠ i
  held : Processes.HeldBy Store.saving Phase.draining holder s

theorem fresh_setPhase
    (h : ∀ j, s.phase j = .ready → ∀ payload ∈ s.store.enqueued, payload.call ≠ j)
    (hphase : phase ≠ .ready)
    (hstore : ∀ payload ∈ store.enqueued, payload ∈ s.store.enqueued ∨ payload.call = i) :
    ∀ j, (s.setPhase i store phase).phase j = .ready → ∀ payload ∈ store.enqueued,
      payload.call ≠ j := by
  intro j hready payload hpayload
  have hj : j ≠ i := by
    rintro rfl
    exact hphase ((Processes.phase_setPhase_self ..).symm.trans hready)
  rw [Processes.phase_setPhase_of_ne s hj] at hready
  rcases hstore payload hpayload with hold | hnew
  · exact h j hready payload hold
  · exact fun heq => hj (heq.symm.trans hnew)

theorem Orderly.sameQueue (h : Orderly holder s) (hphase : (s.phase i).draining = true)
    (hphase' : phase.draining = true) (hsame : s.store.SameQueue store) :
    Orderly holder (s.setPhase i store phase) := by
  refine ⟨h.kept.congr hsame.taken_eq hsame.enqueued, ?_, ?_, ?_⟩
  · intro hpending
    rw [Processes.setPhase, hsame.pendingSave] at hpending
    exact hsame.saving.trans (h.drained hpending)
  · refine fresh_setPhase h.fresh ?_ fun payload hpayload => .inl (hsame.enqueued ▸ hpayload)
    rintro rfl
    cases hphase'
  · exact h.held.keep hsame.saving (hphase'.trans hphase.symm)

theorem Orderly.drainLoop (h : Orderly holder s) (hphase : s.phase i = .looping) :
    ∃ holder, Orderly holder
      (s.setPhase i (drainLoop s.store).1 (drainLoop s.store).2) := by
  have hbusy : (s.phase i).draining = true := by
    rw [hphase]
    rfl
  have hkept := h.kept.congr taken_drainLoop enqueued_drainLoop
  cases hpending : s.store.pendingSave with
  | none =>
    obtain rfl := (h.held.busy_iff i).mp hbusy
    rw [drainLoop_of_none hpending] at hkept ⊢
    exact ⟨none, hkept, by simp [Processes.setPhase, hpending],
      fresh_setPhase h.fresh (by simp) fun _ => .inl, h.held.give rfl rfl⟩
  | some next =>
    rw [drainLoop_of_some hpending] at hkept ⊢
    exact ⟨holder, hkept, by simp [Processes.setPhase],
      fresh_setPhase h.fresh (by simp) fun _ => .inl, h.held.keep rfl hbusy.symm⟩

/-- A call that finds the queue idle sends its payload at once; otherwise the payload waits for
the call that drains the queue. -/
theorem Orderly.enqueueProgress (h : Orderly holder s) (hphase : s.phase i = .ready)
    (call : ProgressCall) :
    ∃ holder, Orderly holder
      (s.setPhase i (enqueueProgress call i s.store).1 (enqueueProgress call i s.store).2) := by
  have hidle : (s.phase i).draining = false := by
    rw [hphase]
    rfl
  cases hpayload : call.payload with
  | none =>
    simp only [SaveQueue.enqueueProgress, hpayload]
    exact ⟨holder, h.kept, h.drained, fresh_setPhase h.fresh (by simp) fun _ => .inl,
      h.held.keep rfl hidle.symm⟩
  | some progress =>
    have hkept := h.kept.enqueue ⟨i, progress⟩ (h.fresh i hphase)
    have hnew : ∀ payload ∈ s.store.enqueued ++ [⟨i, progress⟩],
        payload ∈ s.store.enqueued ∨ payload.call = i := by
      intro payload hmem
      rcases List.mem_append.mp hmem with hold | hlast
      · exact .inl hold
      · rw [List.mem_singleton.mp hlast]
        exact .inr rfl
    simp only [SaveQueue.enqueueProgress, hpayload, drainSaves]
    by_cases hsaving : s.store.saving = true
    · rw [if_pos hsaving]
      exact ⟨holder, hkept, fun _ => hsaving, fresh_setPhase h.fresh (by simp) hnew,
        h.held.keep rfl hidle.symm⟩
    · rw [if_neg hsaving, drainLoop_of_some rfl]
      obtain rfl : holder = none := by
        simpa [h.held.flag_eq] using hsaving
      exact ⟨some i, hkept.congr (by simp [Store.taken, Processes.setPhase]) rfl,
        by simp [Processes.setPhase], fresh_setPhase h.fresh (by simp) hnew,
        h.held.take rfl rfl⟩

theorem Orderly.step {action : Action} (h : Orderly holder s)
    (hact : act calls i action s.store (s.phase i) = some (store, phase)) :
    ∃ holder, Orderly holder (s.setPhase i store phase) := by
  obtain ⟨hphase, hcall⟩ | ⟨hphase, hloop⟩ | ⟨hphase, hphase', hsame⟩ := act_cases hact
  · obtain ⟨rfl, rfl⟩ := Prod.mk.inj hcall
    exact h.enqueueProgress hphase (calls i)
  · obtain ⟨rfl, rfl⟩ := Prod.mk.inj hloop
    exact h.drainLoop hphase
  · exact ⟨holder, h.sameQueue hphase hphase' hsame⟩

omit [DecidableEq ι] in
theorem orderly_initial : Orderly none (initial ι) :=
  ⟨⟨.refl [], rfl, .nil⟩, by simp [initial], by simp [initial], rfl,
    by simp [initial, Phase.draining]⟩

theorem orderly_of_run {actions : List (ι × Action)}
    (hrun : Run (Fires (Processes.step (act calls))) (initial ι) actions s) :
    ∃ holder, Orderly holder s := by
  refine hrun.invariant (fun u => ∃ holder, Orderly holder u) ?_ ⟨none, orderly_initial⟩
  rintro u ⟨i, action⟩ v ⟨holder, hu⟩ hfires
  obtain ⟨store, phase, hact, rfl⟩ := Processes.step_eq_some.mp hfires
  exact hu.step hact

/-- At most one save is in flight, the payloads are sent in the order of the calls and each at most
once, and the last one has been sent whenever no save is in flight and no drain is under way. -/
theorem saves_in_order (calls : ι → ProgressCall) {actions : List (ι × Action)}
    (hrun : Run (Fires (Processes.step (act calls))) (initial ι) actions s) :
    (∀ i j first second, s.phase i = .awaiting first → s.phase j = .awaiting second → i = j) ∧
      s.store.sent.Sublist s.store.enqueued ∧ (s.store.sent.map Payload.call).Nodup ∧
      ((∀ i, (s.phase i).draining = false) →
        ∀ payload, s.store.enqueued.getLast? = some payload → payload ∈ s.store.sent) := by
  obtain ⟨holder, h⟩ := orderly_of_run hrun
  have hsent : s.store.sent.Sublist s.store.enqueued :=
    (List.sublist_append_left _ _).trans h.kept.sublist
  refine ⟨fun i j first second hi hj => ?_, hsent, h.kept.nodup.sublist (hsent.map _), ?_⟩
  · exact h.held.alone (by rw [hi]; rfl) (by rw [hj]; rfl)
  · intro hidle payload hlast
    have hpending : s.store.pendingSave = none := by
      by_contra hne
      have hsaving := h.drained (Option.isSome_iff_ne_none.mpr hne)
      rw [h.held.flag_eq_false hidle] at hsaving
      cases hsaving
    rw [← h.kept.last, Store.taken, hpending, Option.toList_none, List.append_nil] at hlast
    exact List.mem_of_getLast? hlast

/-! ## The end of a drain -/

/-- A step of a call that was made before. -/
def Continues (calls : ι → ProgressCall) (s : Processes ι (Store ι) (Phase ι)) (a : ι × Action)
    (t : Processes ι (Store ι) (Phase ι)) : Prop :=
  Meeting (fun _ a => a.2 ≠ .enqueueProgress) (Fires (Processes.step (act calls))) s a t

/-- The statements of a drain with the payload that it sends. -/
def Phase.remaining : Phase ι → ℕ
  | .awaiting _ => 3
  | .settled _ _ => 2
  | .looping => 1
  | .ready | .finished => 0

/-- A payload that waits takes three more statements. -/
def Store.work (store : Store ι) (phase : Phase ι) : ℕ :=
  phase.remaining + 3 * store.pendingSave.toList.length

omit [DecidableEq ι] in
theorem work_le : store.work phase ≤ 6 := by
  have hpending : store.pendingSave.toList.length ≤ 1 := by cases store.pendingSave <;> simp
  cases phase <;> simp only [Store.work, Phase.remaining] <;> omega

omit [DecidableEq ι] in
theorem exists_act_of_draining (h : phase.draining = true) :
    ∃ action result, action ≠ .enqueueProgress ∧ act calls i action store phase = some result := by
  cases phase with
  | awaiting payload => exact ⟨.complete true, _, by simp, rfl⟩
  | settled payload succeeded => exact ⟨.resume true none, _, by simp, rfl⟩
  | looping => exact ⟨.loop, _, by simp, rfl⟩
  | ready | finished => cases h

omit [DecidableEq ι] in
theorem work_lt_of_act {action : Action} {store' : Store ι} {phase' : Phase ι}
    (haction : action ≠ .enqueueProgress)
    (h : act calls i action store phase = some (store', phase')) :
    phase.draining = true ∧ store'.work phase' < store.work phase := by
  cases phase with
  | ready => cases action <;> simp_all [act]
  | awaiting payload =>
    cases action <;> cases h
    exact ⟨rfl, by simp [Store.work, Phase.remaining]⟩
  | settled payload succeeded =>
    cases action <;> cases h
    exact ⟨rfl, by simp [Store.work, Phase.remaining, (sameQueue_afterSave ..).pendingSave]⟩
  | looping =>
    cases action <;> simp only [act, reduceCtorEq, Option.some.injEq] at h
    cases hpending : store.pendingSave with
    | none =>
      cases (drainLoop_of_none hpending).symm.trans h
      exact ⟨rfl, by simp [Store.work, Phase.remaining]⟩
    | some next =>
      cases (drainLoop_of_some hpending).symm.trans h
      exact ⟨rfl, by simp [Store.work, Phase.remaining, hpending]⟩
  | finished => simp [act] at h

/-- One call drains the queue, and its work pays for every step. -/
theorem Orderly.continues {actions : List (ι × Action)} {n : ℕ}
    (hrun : Run (Continues calls) s actions t) (h : Orderly holder s)
    (hwork : ∀ i, (s.phase i).draining = true → s.store.work (s.phase i) ≤ n) :
    actions.length ≤ n ∧ ∃ holder, Orderly holder t := by
  induction hrun generalizing holder n with
  | nil s => exact ⟨Nat.zero_le n, holder, h⟩
  | @cons s a _ actions _ hstep _ ih =>
    obtain ⟨i, action⟩ := a
    obtain ⟨store, phase, hact, rfl⟩ := Processes.step_eq_some.mp hstep.2
    obtain ⟨hdraining, hlt⟩ := work_lt_of_act hstep.1 hact
    have hle := hwork i hdraining
    obtain ⟨holder, hnext⟩ := h.step hact
    have hlater := ih (n := n - 1) hnext fun j hj => by
      by_cases hji : j = i
      · subst hji
        rw [Processes.phase_setPhase_self]
        exact Nat.le_sub_one_of_lt (hlt.trans_le hle)
      · rw [Processes.phase_setPhase_of_ne s hji] at hj
        exact absurd (h.held.alone hj hdraining) hji
    refine ⟨?_, hlater.2⟩
    rw [List.length_cons]
    omega

/-- Without new calls at most six steps are left. When none is possible, the queue is free and the
last payload that was sent is that of the last call. -/
theorem drain_ends (calls : ι → ProgressCall) {earlier actions : List (ι × Action)}
    (hreach : Run (Fires (Processes.step (act calls))) (initial ι) earlier s)
    (hrun : Run (Continues calls) s actions t) :
    actions.length ≤ 6 ∧
      ((∀ a u, ¬ Continues calls t a u) →
        t.store.saving = false ∧ t.store.sent.getLast? = t.store.enqueued.getLast?) := by
  obtain ⟨holder, h⟩ := orderly_of_run hreach
  obtain ⟨hlength, holder, ht⟩ := h.continues hrun fun i _ => work_le
  refine ⟨hlength, fun hstuck => ?_⟩
  have hidle : ∀ i, (t.phase i).draining = false := by
    intro i
    by_contra hdraining
    obtain ⟨action, ⟨store, phase⟩, haction, hact⟩ :=
      exists_act_of_draining (Bool.eq_true_of_not_eq_false hdraining)
    exact hstuck (i, action) _ ⟨haction, Processes.step_eq_some.mpr ⟨store, phase, hact, rfl⟩⟩
  have hsaving := ht.held.flag_eq_false hidle
  have hpending : t.store.pendingSave = none := by
    simpa [hsaving] using ht.drained
  have hlast := ht.kept.last
  rw [Store.taken, hpending, Option.toList_none, List.append_nil] at hlast
  exact ⟨hsaving, hlast⟩

end Runs

/-- Reports at 10, 20 and 30 seconds of a video of one minute. -/
def threeReports (i : Fin 3) : ProgressCall where
  currentTime := 10 * (i + 1 : ℕ)
  totalWatched := 10 * (i + 1 : ℕ)
  duration := some 60

def firstSaveFails {ι : Type} (first second third : ι) : List (ι × Action) :=
  [(first, .enqueueProgress), (second, .enqueueProgress), (first, .complete false),
    (third, .enqueueProgress), (first, .resume true none), (first, .loop),
    (first, .complete true), (first, .resume true (some false)), (first, .loop)]

/-- The first save fails while two more reports come, of which the last one is sent. -/
theorem saves_in_order_after_failure :
    ∃ t, Run (Fires (Processes.step (act threeReports))) (initial (Fin 3))
        (firstSaveFails 0 1 2) t ∧
      (t.store.enqueued.map Payload.call = [0, 1, 2] ∧ t.store.sent.map Payload.call = [0, 2] ∧
        t.store.syncError = false ∧ ∀ i, (t.phase i).draining = false) ∧
      t.store.sent.Sublist t.store.enqueued ∧
      ∀ payload, t.store.enqueued.getLast? = some payload → payload ∈ t.store.sent := by
  obtain ⟨t, hrun, hend⟩ : ∃ t, Run (Fires (Processes.step (act threeReports))) (initial (Fin 3))
      (firstSaveFails 0 1 2) t ∧ t.store.enqueued.map Payload.call = [0, 1, 2] ∧
      t.store.sent.map Payload.call = [0, 2] ∧ t.store.syncError = false ∧
      ∀ i, (t.phase i).draining = false :=
    exists_run_of_any_decide (by decide +kernel)
  obtain ⟨-, hsent, -, hlast⟩ := saves_in_order threeReports hrun
  exact ⟨t, hrun, hend, hsent, hlast hend.2.2.2⟩

/-- The first save fails after a second report has come, so that six steps are left. -/
theorem drain_ends_after_six :
    ∃ earlier actions s t,
      Run (Fires (Processes.step (act threeReports))) (initial (Fin 3)) earlier s ∧
      Run (Continues threeReports) s actions t ∧ actions.length = 6 ∧
      ((∀ a u, ¬ Continues threeReports t a u) →
        t.store.saving = false ∧ t.store.sent.getLast? = t.store.enqueued.getLast?) := by
  have hcheck : ([(0, .enqueueProgress), (1, .enqueueProgress)].foldlM
      (Processes.step (act threeReports)) (initial (Fin 3))).any (fun s => decide
        (([(0, .complete false), (0, .resume true none), (0, .loop), (0, .complete true),
          (0, .resume true none), (0, .loop)].foldlM (stepMeeting
            (fun _ a => a.2 ≠ .enqueueProgress) (Processes.step (act threeReports))) s).isSome)) =
              true := by
    decide +kernel
  obtain ⟨s, hs, hsix⟩ := exists_of_any_decide hcheck
  obtain ⟨t, ht⟩ := Option.isSome_iff_exists.mp hsix
  have hreach := run_foldlM hs
  have hrun := run_meeting_foldlM ht
  exact ⟨_, _, s, t, hreach, hrun, rfl, (drain_ends threeReports hreach hrun).2⟩

end LearningPlatform.SaveQueue
