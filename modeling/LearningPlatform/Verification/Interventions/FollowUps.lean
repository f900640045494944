import LearningPlatform.Verification.Interventions.Updates
import LearningPlatform.Verification.Notifications

/-! # Due notifications of an intervention

A run of the job checks under the row lock that the intervention is due and not yet notified, and
commits the mark together with the notification. Staff clear the mark only with a write of the due
time. -/

namespace LearningPlatform

open Shared

variable {ι : Type*}

/-! ## The log of commits -/

/-- Between two due notifications staff wrote the due time; the log is newest first. -/
def OncePerDueTime (log : List FollowUpEvent) : Prop :=
  ∀ newer between older row jobNow row' jobNow',
    log = newer ++ .notified row jobNow :: (between ++ .notified row' jobNow' :: older) →
    .staffWrite ∈ between

namespace InterventionDesk

/-- The log of a desk, with its row: the notifications were due and sent once, and the last one
since the last write of the due time has left its mark. -/
structure Audited (desk : InterventionDesk ι) : Prop where
  once : OncePerDueTime desk.log
  due : ∀ row jobNow, .notified row jobNow ∈ desk.log → row.due? jobNow = true
  marked : ∀ between older row jobNow, desk.log = between ++ .notified row jobNow :: older →
    .staffWrite ∈ between ∨ desk.row.notified? = true

variable {desk desk' : InterventionDesk ι}

theorem Audited.of_log_eq_nil (hlog : desk.log = []) : desk.Audited :=
  ⟨by simp [OncePerDueTime, hlog], by simp [hlog], by simp [hlog]⟩

theorem Audited.of_eq (h : desk.Audited) (hlog : desk'.log = desk.log)
    (hmark : desk.row.notified? = true → desk'.row.notified? = true) : desk'.Audited := by
  refine ⟨by rw [hlog]; exact h.once, by rw [hlog]; exact h.due, ?_⟩
  intro between older row jobNow heq
  rw [hlog] at heq
  exact (h.marked between older row jobNow heq).imp_right hmark

theorem Audited.staffWrite (h : desk.Audited) (hlog : desk'.log = .staffWrite :: desk.log) :
    desk'.Audited := by
  refine ⟨?_, ?_, ?_⟩
  · intro newer between older row jobNow row' jobNow' heq
    rw [hlog] at heq
    cases newer with
    | nil => simp at heq
    | cons event newer => exact h.once newer between older _ _ _ _ (List.cons.inj heq).2
  · intro row jobNow hmem
    rw [hlog] at hmem
    exact h.due row jobNow (by simpa using hmem)
  · intro between older row jobNow heq
    rw [hlog] at heq
    cases between with
    | nil => simp at heq
    | cons event between => exact .inl (by simp [← (List.cons.inj heq).1])

/-- A run of the job commits a due notification of a row without a mark and leaves the mark. -/
theorem Audited.notified (h : desk.Audited) {jobNow : Time} (hdue : desk.row.due? jobNow = true)
    (hunmarked : desk.row.notified? = false)
    (hlog : desk'.log = .notified desk.row jobNow :: desk.log)
    (hmarked : desk'.row.notified? = true) : desk'.Audited := by
  refine ⟨?_, ?_, fun _ _ _ _ _ => .inr hmarked⟩
  · intro newer between older row jobNow row' jobNow' heq
    rw [hlog] at heq
    cases newer with
    | nil =>
      refine (h.marked between older row' jobNow' (List.cons.inj heq).2).resolve_right ?_
      simp [hunmarked]
    | cons event newer => exact h.once newer between older _ _ _ _ (List.cons.inj heq).2
  · intro row jobNow' hmem
    rw [hlog] at hmem
    rcases List.mem_cons.mp hmem with heq | hmem
    · obtain ⟨rfl, rfl⟩ := FollowUpEvent.notified.inj heq
      exact hdue
    · exact h.due row jobNow' hmem

end InterventionDesk

/-! ## Due notifications in the table -/

/-- An unread notification that a follow-up is due. -/
def Notification.FollowUpDue (row : Notification) : Prop :=
  row.title = "Student follow-up due" ∧ row.readAt = none

/-- A write that adds no due notification. -/
structure NotificationTable.Quiet (table table' : NotificationTable) : Prop where
  sound : table'.Sound
  due : ∀ row ∈ table'.rows, row.FollowUpDue → row ∈ table.rows

namespace NotificationTable.Quiet

variable {table table' : NotificationTable}

theorem refl (h : table.Sound) : table.Quiet table :=
  ⟨h, fun _ hrow _ => hrow⟩

theorem close (h : table.Quiet table') (p : Notification → Bool) (now : Time) :
    table.Quiet (table'.updateWhere p (Notification.close now)) := by
  refine ⟨h.sound.updateAll fun _ _ => rfl, fun row hrow hdue => ?_⟩
  rcases mem_updateAll.mp hrow with ⟨old, -, -, rfl⟩ | ⟨hold, -⟩
  · cases hdue.2
  · exact h.due row hold hdue

theorem assigned (h : table.Quiet table') (row : InterventionRow) (context : SupportContext)
    (now : Time) : table.Quiet (row.assigned context now table') := by
  refine ⟨h.sound.deliver, fun notification hmem hdue => ?_⟩
  rcases NotificationTable.mem_of_mem_deliver h.sound hmem with hold | hshows
  · exact h.due notification hold hdue
  · have htitle : "Student intervention assigned" = "Student follow-up due" :=
      hshows.title.symm.trans hdue.1
    exact absurd htitle (by decide)

theorem afterUpdate (h : table.Sound) (loaded saved : InterventionRow) (context : SupportContext)
    (now : Time) : table.Quiet (loaded.afterUpdate saved context now table) := by
  have hclosed := (refl h).close (·.userId != saved.ownerId) now
  unfold InterventionRow.afterUpdate
  dsimp only
  split
  · split
    · exact refl h
    · exact hclosed.assigned saved context now
  · split
    · exact (refl h).close _ now
    · exact hclosed.close _ now

end NotificationTable.Quiet

/-- A statement that logs a due notification leaves it unread with the owner of the intervention,
and no other statement adds one. -/
structure InterventionDesk.Delivers (desk desk' : InterventionDesk ι) : Prop where
  sound : desk'.notifications.Sound
  logged : ∀ row jobNow, desk'.log = .notified row jobNow :: desk.log →
    ∃ notification ∈ desk'.notifications.rows, notification.FollowUpDue ∧
      notification.notifiable = .intervention row.id ∧ notification.userId = row.ownerId
  due : ∀ notification ∈ desk'.notifications.rows, notification.FollowUpDue →
    notification ∈ desk.notifications.rows ∨
      ∃ jobNow, desk'.log = .notified desk.row jobNow :: desk.log

theorem InterventionDesk.Delivers.of_quiet {desk desk' : InterventionDesk ι}
    (h : desk.notifications.Quiet desk'.notifications)
    (hlog : desk'.log = desk.log ∨ desk'.log = .staffWrite :: desk.log) : desk.Delivers desk' := by
  refine ⟨h.sound, fun row jobNow heq => ?_, fun row hrow hdue => .inl (h.due row hrow hdue)⟩
  rcases hlog with hlog | hlog
  · exact absurd (hlog.symm.trans heq).symm (List.cons_ne_self _ _)
  · cases hlog.symm.trans heq

theorem InterventionDesk.Delivers.commitFollowUp {desk : InterventionDesk ι}
    (h : desk.notifications.Sound) (context : SupportContext) (row : InterventionRow)
    (jobNow : Time) : desk.Delivers (desk.commitFollowUp context desk.row row jobNow) := by
  refine ⟨h.deliver, fun row' jobNow' heq => ?_, fun _ _ _ => .inr ⟨jobNow, rfl⟩⟩
  obtain ⟨rfl, rfl⟩ := FollowUpEvent.notified.inj (List.cons.inj heq).1
  obtain ⟨notification, hmem, hnotifiable, huser, hshows, hunread⟩ :=
    desk.notifications.exists_mem_deliver (.intervention desk.row.id) desk.row.ownerId
      (desk.row.notification context "Student follow-up due" none) desk.now
  exact ⟨notification, hmem, ⟨hshows.title, hunread⟩, hnotifiable, huser⟩

/-! ## Assertions -/

/-- What a call knows in each phase. A run of the job that holds the lock has read the row as it
is; after a run a due row is marked until it is edited. -/
def InterventionPhase.FollowsUp (call : InterventionCall) (i : ι) (desk : InterventionDesk ι) :
    InterventionPhase → Prop
  | .prepared copy changed => changed.nextFollowUpAt = copy.nextFollowUpAt →
      changed.followUpNotifiedAt = copy.followUpNotifiedAt
  | .listed _ edits => edits ≤ desk.edits
  | .locked fresh edits => edits ≤ desk.edits ∧ desk.lock = some i ∧ fresh = desk.row ∧
      ∀ jobNow, call = .followUpJob jobNow →
        desk.row.due? jobNow = true ∧ desk.row.notified? = false
  | .ran edits => edits ≤ desk.edits ∧ ∀ jobNow, call = .followUpJob jobNow →
      desk.edits = edits → desk.row.due? jobNow = true → desk.row.notified? = true
  | _ => True

/-- What a statement changes for the other calls: a lock is respected, and until the next edit a
row that is due was due, with its mark kept. -/
structure InterventionDesk.Evolves (desk desk' : InterventionDesk ι) (i : ι) : Prop where
  edits : desk.edits ≤ desk'.edits
  unedited : desk'.edits = desk.edits → ∀ jobNow, desk'.row.due? jobNow = true →
    desk.row.due? jobNow = true ∧ (desk.row.notified? = true → desk'.row.notified? = true)
  lock : ∀ j, j ≠ i → desk.lock = some j → desk'.lock = some j ∧ desk'.row = desk.row

theorem InterventionPhase.FollowsUp.stable {call : InterventionCall} {i j : ι}
    {desk desk' : InterventionDesk ι} {phase : InterventionPhase}
    (h : phase.FollowsUp call j desk) (hji : j ≠ i) (hevolves : desk.Evolves desk' i) :
    phase.FollowsUp call j desk' := by
  cases phase with
  | prepared copy changed => exact h
  | listed copy edits => exact h.trans hevolves.edits
  | locked fresh edits =>
    obtain ⟨hle, hlock, hfresh, hdue⟩ := h
    obtain ⟨hlock', hrow⟩ := hevolves.lock j hji hlock
    rw [← hrow] at hfresh hdue
    exact ⟨hle.trans hevolves.edits, hlock', hfresh, hdue⟩
  | ran edits =>
    obtain ⟨hle, hran⟩ := h
    refine ⟨hle.trans hevolves.edits, fun jobNow hcall hedits hdue => ?_⟩
    have hsame : desk'.edits = desk.edits := by
      have := hevolves.edits
      omega
    obtain ⟨hdue', hmark⟩ := hevolves.unedited hsame jobNow hdue
    exact hmark (hran jobNow hcall (by omega) hdue')
  | _ => trivial

/-! ## Statements -/

namespace InterventionDesk

variable {desk : InterventionDesk ι}

variable {desk' : InterventionDesk ι}

theorem Evolves.of_eq {i : ι} (hrow : desk'.row = desk.row) (hlock : desk'.lock = desk.lock)
    (hedits : desk'.edits = desk.edits) : desk.Evolves desk' i := by
  refine ⟨hedits.ge, fun _ jobNow hdue => ?_, fun j _ hj => ⟨hlock.trans hj, hrow⟩⟩
  rw [hrow] at hdue ⊢
  exact ⟨hdue, id⟩

theorem Evolves.edit (hlock : desk.lock.isSome = false) (row : InterventionRow) (i : ι) :
    desk.Evolves (desk.edit row) i := by
  have hnone : desk.lock = none := by simpa using hlock
  unfold InterventionDesk.edit
  split
  · rename_i hsame
    refine ⟨le_rfl, fun _ jobNow hdue => ⟨hsame ▸ hdue, fun hmark => hsame ▸ hmark⟩, ?_⟩
    intro j _ hj
    cases hnone ▸ hj
  · refine ⟨Nat.le_succ _, fun heq => absurd heq (Nat.succ_ne_self _), ?_⟩
    intro j _ hj
    cases hnone ▸ hj

theorem save_row (desk : InterventionDesk ι) (copy changed : InterventionRow) :
    (desk.save copy changed).row = copy.update changed desk.row desk.now := by
  unfold save
  split <;> rfl

theorem save_notifications (desk : InterventionDesk ι) (copy changed : InterventionRow) :
    (desk.save copy changed).notifications = desk.notifications := by
  unfold save
  split <;> rfl

theorem save_log (desk : InterventionDesk ι) (copy changed : InterventionRow) :
    (desk.save copy changed).log = desk.log ∨
      (desk.save copy changed).log = .staffWrite :: desk.log := by
  unfold save
  split
  · exact .inl rfl
  · exact .inr rfl

theorem Evolves.save (hlock : desk.lock.isSome = false) (copy changed : InterventionRow) (i : ι) :
    desk.Evolves (desk.save copy changed) i := by
  have hedit := Evolves.edit hlock (copy.update changed desk.row desk.now) i
  unfold InterventionDesk.save
  split
  · exact hedit
  · exact ⟨hedit.edits, hedit.unedited, hedit.lock⟩

theorem Audited.save (h : desk.Audited) {copy changed : InterventionRow}
    (hmark : changed.nextFollowUpAt = copy.nextFollowUpAt →
      changed.followUpNotifiedAt = copy.followUpNotifiedAt) :
    (desk.save copy changed).Audited := by
  by_cases hnext : changed.nextFollowUpAt = copy.nextFollowUpAt
  · refine h.of_eq (by simp [InterventionDesk.save, edit, hnext]) fun hmarked => ?_
    rw [save_row]
    simpa [InterventionRow.notified?, InterventionRow.update, savedColumn, hnext,
      hmark hnext] using hmarked
  · exact h.staffWrite (by simp [InterventionDesk.save, hnext])

theorem Audited.commitFollowUp (h : desk.Audited) {context : SupportContext}
    {row : InterventionRow} {jobNow : Time} (hdue : desk.row.due? jobNow = true)
    (hunmarked : desk.row.notified? = false)
    (hwritten : desk.row.markNotified context jobNow desk.now = .ok row) :
    (desk.commitFollowUp context desk.row row jobNow).Audited := by
  obtain ⟨-, hnext, hnotified⟩ := InterventionRow.markNotified_ok hwritten
  exact h.notified hdue hunmarked rfl (InterventionRow.notified?_of_due hdue hnext hnotified)

theorem Evolves.unlock {i : ι} (hlock : desk.lock = some i) (hedits : desk'.edits = desk.edits)
    (hrow : ∀ jobNow, desk'.row.due? jobNow = true → desk.row.due? jobNow = true ∧
      (desk.row.notified? = true → desk'.row.notified? = true)) : desk.Evolves desk' i := by
  refine ⟨hedits.ge, fun _ => hrow, fun j hji hj => ?_⟩
  rw [hlock] at hj
  exact absurd (Option.some.inj hj).symm hji

/-- What a statement leaves to its own call and to the others. -/
structure Done (desk desk' : InterventionDesk ι) (call : InterventionCall) (i : ι)
    (phase' : InterventionPhase) : Prop where
  audited : desk'.Audited
  evolves : desk.Evolves desk' i
  follows : phase'.FollowsUp call i desk'

theorem start_follows (desk : InterventionDesk ι) (call : InterventionCall) (i : ι) :
    (desk.start call).FollowsUp call i desk := by
  unfold start
  split
  · split <;> trivial
  · split <;> trivial
  · split
    · exact le_refl desk.edits
    · rename_i jobNow hskip
      refine ⟨le_rfl, fun jobNow' hcall _ hdue => ?_⟩
      obtain rfl := InterventionCall.followUpJob.inj hcall
      simpa [hdue] using hskip

theorem Audited.next (h : desk.Audited) {context : SupportContext} {i : ι} {call : InterventionCall}
    {phase phase' : InterventionPhase} (hphase : phase.FollowsUp call i desk)
    (hnext : desk.next context i call phase = some (desk', phase')) :
    desk.Done desk' call i phase' := by
  cases takes_of_next hnext with
  | start call => exact ⟨h, .of_eq rfl rfl rfl, desk.start_follows call i⟩
  | prepare hpatch =>
    obtain ⟨record, hwritten, -, hnotified⟩ := InterventionRow.written_of_patch hpatch
    exact ⟨h, .of_eq rfl rfl rfl, fun hunchanged =>
      (hwritten.followUpNotifiedAt hunchanged).trans hnotified⟩
  | refuse => exact ⟨h, .of_eq rfl rfl rfl, trivial⟩
  | save hfree => exact ⟨h.save hphase, .save hfree _ _ i, trivial⟩
  | notify => exact ⟨h.of_eq rfl id, .of_eq rfl rfl rfl, trivial⟩
  | cancel hfree =>
    have hevolves := Evolves.edit hfree (desk.row.cancel desk.now) i
    exact ⟨h.of_eq rfl id, ⟨hevolves.edits, hevolves.unedited, hevolves.lock⟩, trivial⟩
  | lock hfree hdue hunmarked =>
    refine ⟨h.of_eq rfl id, ⟨le_rfl, fun _ _ hdue => ⟨hdue, id⟩, ?_⟩, hphase, rfl, rfl, ?_⟩
    · intro j _ hj
      simp [hj] at hfree
    · rintro _ ⟨rfl⟩
      exact ⟨hdue, hunmarked⟩
  | skip hskip =>
    refine ⟨h, .of_eq rfl rfl rfl, hphase, ?_⟩
    rintro _ ⟨rfl⟩ _ hdue
    exact hskip hdue
  | commit hwritten =>
    obtain ⟨hle, hlock, rfl, hready⟩ := hphase
    obtain ⟨hdue, hunmarked⟩ := hready _ rfl
    obtain ⟨hstatus, hnext', hnotified⟩ := InterventionRow.markNotified_ok hwritten
    have hmarked := InterventionRow.notified?_of_due hdue hnext' hnotified
    refine ⟨h.commitFollowUp hdue hunmarked hwritten, .unlock hlock rfl ?_,
      hle, fun _ _ _ _ => hmarked⟩
    intro jobNow' hdue'
    refine ⟨?_, fun _ => hmarked⟩
    simpa [InterventionDesk.commitFollowUp, InterventionRow.due?, InterventionRow.active?,
      hstatus, hnext'] using hdue'
  | raise => exact ⟨h.of_eq rfl id, .unlock hphase.2.1 rfl fun _ hdue => ⟨hdue, id⟩, trivial⟩

end InterventionDesk

/-! ## Runs -/

section Runs

variable {context : SupportContext} {calls : ι → InterventionCall}

theorem keeps_followUps (s : Processes ι (InterventionDesk ι) InterventionPhase) (i : ι)
    (a : InterventionAction) (desk : InterventionDesk ι) (phase : InterventionPhase)
    (h : s.Holds InterventionDesk.Audited fun i desk phase => phase.FollowsUp (calls i) i desk)
    (hact : InterventionDesk.act context calls i a s.store (s.phase i) = some (desk, phase)) :
    s.Keeps InterventionDesk.Audited (fun i desk phase => phase.FollowsUp (calls i) i desk) i desk
      phase := by
  have hdone : s.store.Done desk (calls i) i phase := by
    cases a with
    | tick duration =>
      cases hact
      exact ⟨h.store.of_eq rfl id, .of_eq rfl rfl rfl, h.phase i⟩
    | next => exact h.store.next (h.phase i) hact
    | abort =>
      have hself := h.phase i
      cases hphase : s.phase i with
      | locked fresh edits =>
        rw [hphase] at hact hself
        cases hact
        exact ⟨h.store.of_eq rfl id, .unlock hself.2.1 rfl fun _ hdue => ⟨hdue, id⟩, trivial⟩
      | _ =>
        cases hphase ▸ hact
  exact ⟨hdone.audited, hdone.follows, fun j hji => (h.phase j).stable hji hdone.evolves⟩

theorem delivers_of_act {i : ι} {a : InterventionAction} {desk desk' : InterventionDesk ι}
    {phase phase' : InterventionPhase} (hsound : desk.notifications.Sound)
    (hfollows : phase.FollowsUp (calls i) i desk)
    (hact : InterventionDesk.act context calls i a desk phase = some (desk', phase')) :
    desk.Delivers desk' := by
  have hquiet := NotificationTable.Quiet.refl hsound
  cases a with
  | tick duration =>
    cases hact
    exact .of_quiet hquiet (.inl rfl)
  | next =>
    have htakes : desk.Takes context i (calls i) phase desk' phase' :=
      InterventionDesk.takes_of_next hact
    generalize calls i = call at htakes hfollows
    cases htakes with
    | start _ | prepare _ | refuse | lock _ _ _ | skip _ | raise =>
      exact .of_quiet hquiet (.inl rfl)
    | save _ => exact .of_quiet (by rwa [desk.save_notifications]) (desk.save_log _ _)
    | notify => exact .of_quiet (.afterUpdate hsound ..) (.inl rfl)
    | cancel _ => exact .of_quiet (hquiet.close _ _) (.inl rfl)
    | commit _ =>
      obtain ⟨-, -, rfl, -⟩ := hfollows
      exact .commitFollowUp hsound context _ _
  | abort =>
    cases phase with
    | locked fresh edits =>
      cases hact
      exact .of_quiet hquiet (.inl rfl)
    | _ => cases hact

/-- In every run of updates, restarts and follow-up jobs on an intervention: at most one due
notification is committed between two writes of the due time by staff, none while the intervention
is terminal or not due at the time of the job, and after a run of the job that did not raise, an
intervention that is due at the time of the job is marked as notified until it is edited. What is
logged is what is delivered: an entry leaves an unread due notification with the owner, and a step
without one adds no such notification. -/
theorem follow_up_notified_once [DecidableEq ι]
    {s t : Processes ι (InterventionDesk ι) InterventionPhase}
    {actions : List (ι × InterventionAction)} (hwaiting : ∀ i, s.phase i = .waiting)
    (hlog : s.store.log = []) (hsound : s.store.notifications.Sound)
    (hrun : Run (Fires (Processes.step (InterventionDesk.act context calls))) s actions t) :
    OncePerDueTime t.store.log ∧
    (∀ row jobNow, .notified row jobNow ∈ t.store.log →
      row.status.active? = true ∧ ∃ next ∈ row.nextFollowUpAt, next ≤ jobNow) ∧
    (∀ i jobNow edits next, calls i = .followUpJob jobNow → t.phase i = .ran edits →
      t.store.edits = edits → t.store.row.status.active? = true →
      t.store.row.nextFollowUpAt = some next → next ≤ jobNow →
      ∃ notifiedAt, t.store.row.followUpNotifiedAt = some notifiedAt ∧ next ≤ notifiedAt) ∧
    ∀ action u, Processes.step (InterventionDesk.act context calls) t action = some u →
      (∀ row jobNow, u.store.log = .notified row jobNow :: t.store.log →
        ∃ notification ∈ u.store.notifications.rows, notification.FollowUpDue ∧
          notification.notifiable = .intervention row.id ∧ notification.userId = row.ownerId) ∧
      ∀ notification ∈ u.store.notifications.rows, notification.FollowUpDue →
        notification ∈ t.store.notifications.rows ∨
          ∃ jobNow, u.store.log = .notified t.store.row jobNow :: t.store.log := by
  have hholds : t.Holds (fun desk => desk.Audited ∧ desk.notifications.Sound)
      fun i desk phase => phase.FollowsUp (calls i) i desk := by
    refine .run hrun (fun u i a desk phase hu hact => ?_)
      ⟨⟨.of_log_eq_nil hlog, hsound⟩, fun i => by rw [hwaiting i]; trivial⟩
    have hkeeps := keeps_followUps u i a desk phase ⟨hu.store.1, hu.phase⟩ hact
    exact ⟨⟨hkeeps.invariant, (delivers_of_act hu.store.2 (hu.phase i) hact).sound⟩, hkeeps.self,
      hkeeps.others⟩
  refine ⟨hholds.store.1.once, fun row jobNow hmem => ?_, ?_, fun action u hstep => ?_⟩
  · exact InterventionRow.due?_eq_true.mp (hholds.store.1.due row jobNow hmem)
  · intro i jobNow edits next hcall hran hedits hactive hnext hle
    have hphase := hholds.phase i
    rw [hran] at hphase
    have hdue : t.store.row.due? jobNow = true :=
      InterventionRow.due?_eq_true.mpr ⟨hactive, next, hnext, hle⟩
    have hmarked := hphase.2 jobNow hcall hedits hdue
    simpa [InterventionRow.notified?, hnext, Option.any_eq_true] using hmarked
  · obtain ⟨store, phase, hact, rfl⟩ := Processes.step_eq_some.mp hstep
    have hdelivers := delivers_of_act hholds.store.2 (hholds.phase _) hact
    exact ⟨hdelivers.logged, hdelivers.due⟩

end Runs

def supportTeam : SupportContext where
  users := [{ id := 1, role := .instructor }, { id := 2, role := .admin }]
  studentName := "Student"

def openIntervention : InterventionRow :=
  { id := 3, enrollmentId := 4, triggerType := .manual, ownerId := 1, createdById := 1
    nextFollowUpAt := some 5 }

def beforeCalls (row : InterventionRow) :
    Processes ℕ (InterventionDesk ℕ) InterventionPhase where
  store := { row }
  phase _ := .waiting

def twoJobs : ℕ → InterventionCall := fun _ => .followUpJob 10

/-- Both runs list the intervention before the first one locks it. -/
def overlappingJobs : List (ℕ × InterventionAction) :=
  [(0, .next), (1, .next), (0, .next), (0, .next), (1, .next)]

/-- One of two overlapping runs notifies, and the intervention is marked when both have ended. -/
theorem overlapping_jobs_notify_once : ∃ t,
    Run (Fires (Processes.step (InterventionDesk.act supportTeam twoJobs)))
      (beforeCalls openIntervention) overlappingJobs t ∧
    t.store.log = [.notified openIntervention 10] ∧ OncePerDueTime t.store.log ∧
    ∃ notifiedAt, t.store.row.followUpNotifiedAt = some notifiedAt ∧ 5 ≤ notifiedAt := by
  have hcheck : (overlappingJobs.foldlM
      (Processes.step (InterventionDesk.act supportTeam twoJobs))
      (beforeCalls openIntervention)).any (fun t =>
        decide (t.store.log = [.notified openIntervention 10] ∧ t.phase 1 = .ran 0 ∧
          t.store.edits = 0 ∧ t.store.row.status.active? = true ∧
          t.store.row.nextFollowUpAt = some 5)) = true := by
    decide +kernel
  obtain ⟨t, ht, hlog, hran, hedits, hactive, hnext⟩ := exists_of_any_decide hcheck
  have hrun := run_foldlM ht
  obtain ⟨honce, -, hmarked, -⟩ :=
    follow_up_notified_once (fun _ => rfl) rfl (.empty _ _) hrun
  exact ⟨t, hrun, hlog, honce,
    hmarked 1 10 0 5 rfl hran hedits hactive hnext (by decide)⟩

end LearningPlatform
