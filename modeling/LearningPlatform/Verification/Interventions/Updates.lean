import LearningPlatform.Model.Intervention
import LearningPlatform.Verification.Validations

/-! # What the updates of an intervention write -/

namespace LearningPlatform

open Shared

namespace InterventionRow

variable {row loaded changed : InterventionRow} {context : SupportContext} {now jobNow : Time}

/-! ## The record that is written -/

@[simp] theorem maintainResolutionState_status :
    (row.maintainResolutionState now).status = row.status := by
  unfold maintainResolutionState
  split <;> rfl

@[simp] theorem maintainResolutionState_nextFollowUpAt :
    (row.maintainResolutionState now).nextFollowUpAt = row.nextFollowUpAt := by
  unfold maintainResolutionState
  split <;> rfl

@[simp] theorem maintainResolutionState_followUpNotifiedAt :
    (row.maintainResolutionState now).followUpNotifiedAt = row.followUpNotifiedAt := by
  unfold maintainResolutionState
  split <;> rfl

theorem outcome_of_errors (h : row.errors context = []) (hresolved : row.status = .resolved) :
    row.outcome.isSome = true := by
  simp only [errors, List.append_eq_nil_iff, errorsIf_eq_nil, requiredErrors_eq_nil,
    beq_iff_eq] at h
  obtain ⟨⟨⟨-, houtcome⟩, -⟩, -⟩ := h
  exact houtcome hresolved

/-- What `update!` writes of a record that was loaded and changed. -/
structure Written (loaded record written : InterventionRow) (now : Time) : Prop where
  status : written.status = record.status
  resolvedAt : written.resolvedAt = (record.maintainResolutionState now).resolvedAt
  outcome : written.outcome = (record.maintainResolutionState now).outcome
  resolved : record.status = .resolved → written.outcome.isSome = true
  nextFollowUpAt : written.nextFollowUpAt = record.nextFollowUpAt
  followUpNotifiedAt : written.nextFollowUpAt = loaded.nextFollowUpAt →
    written.followUpNotifiedAt = record.followUpNotifiedAt

theorem written_of_prepare {record written : InterventionRow}
    (h : loaded.prepare record context now = .ok written) : Written loaded record written now := by
  obtain ⟨herrors, rfl⟩ := saveUnless_eq_ok.mp h
  have hsame : ∀ row : InterventionRow,
      (row.clearFollowUpNotification loaded).status = row.status ∧
      (row.clearFollowUpNotification loaded).resolvedAt = row.resolvedAt ∧
      (row.clearFollowUpNotification loaded).outcome = row.outcome ∧
      (row.clearFollowUpNotification loaded).nextFollowUpAt = row.nextFollowUpAt := by
    intro row
    unfold clearFollowUpNotification
    split <;> exact ⟨rfl, rfl, rfl, rfl⟩
  obtain ⟨hstatus, hresolvedAt, houtcome, hnext⟩ := hsame (record.maintainResolutionState now)
  refine ⟨?_, hresolvedAt, houtcome, fun hresolved => ?_, ?_, fun hunchanged => ?_⟩
  · rw [hstatus, maintainResolutionState_status]
  · rw [houtcome]
    exact outcome_of_errors herrors (by simpa using hresolved)
  · rw [hnext, maintainResolutionState_nextFollowUpAt]
  · rw [hnext] at hunchanged
    rw [clearFollowUpNotification, if_pos hunchanged, maintainResolutionState_followUpNotifiedAt]

theorem written_of_patch {currentUser : User} {params : InterventionParams}
    (h : loaded.patch context currentUser params now = .ok changed) :
    ∃ record, Written loaded record changed now ∧ record.resolvedAt = loaded.resolvedAt ∧
      record.followUpNotifiedAt = loaded.followUpNotifiedAt := by
  unfold patch at h
  obtain ⟨ownerId, -, h⟩ := bind_eq_ok.mp h
  split at h
  · exact ⟨_, written_of_prepare h, rfl, rfl⟩
  · cases h

/-! ## The follow-up job -/

theorem markNotified_ok {written : InterventionRow}
    (h : row.markNotified context jobNow now = .ok written) :
    written.status = row.status ∧ written.nextFollowUpAt = row.nextFollowUpAt ∧
      written.followUpNotifiedAt = some jobNow := by
  obtain ⟨changed, hprepare, h⟩ := bind_eq_ok.mp h
  cases h
  have hwritten := written_of_prepare hprepare
  simp only [update, changedColumn_current]
  exact ⟨hwritten.status, hwritten.nextFollowUpAt,
    hwritten.followUpNotifiedAt hwritten.nextFollowUpAt⟩

theorem due?_eq_true : row.due? now = true ↔
    row.active? = true ∧ ∃ next ∈ row.nextFollowUpAt, next ≤ now := by
  simp [due?, Option.any_eq_true]

theorem notified?_of_due (hdue : row.due? jobNow = true)
    (hnext : changed.nextFollowUpAt = row.nextFollowUpAt)
    (hnotified : changed.followUpNotifiedAt = some jobNow) : changed.notified? = true := by
  obtain ⟨-, hdue⟩ := due?_eq_true.mp hdue
  simp only [notified?, hnotified, hnext, Option.any_some, Option.any_eq_true, decide_eq_true_eq]
  exact hdue

end InterventionRow

/-! ## Statements of a call -/

namespace InterventionDesk

variable {ι : Type*}

/-- What the next statement of a call does. -/
inductive Takes (context : SupportContext) (i : ι) (desk : InterventionDesk ι) :
    InterventionCall → InterventionPhase → InterventionDesk ι → InterventionPhase → Prop where
  | start (call : InterventionCall) : Takes context i desk call .waiting desk (desk.start call)
  | prepare {currentUser : User} {params : InterventionParams} {copy changed : InterventionRow} :
      copy.patch context currentUser params desk.now = .ok changed →
      Takes context i desk (.patch currentUser params) (.loaded copy) desk (.prepared copy changed)
  | refuse {call : InterventionCall} {copy : InterventionRow} {failure : Failure} :
      Takes context i desk call (.loaded copy) desk (.refused failure)
  | save {call : InterventionCall} {copy changed : InterventionRow} : desk.lock.isSome = false →
      Takes context i desk call (.prepared copy changed) (desk.save copy changed)
        (.saved copy changed)
  | notify {call : InterventionCall} {copy changed : InterventionRow} :
      Takes context i desk call (.saved copy changed)
        { desk with
          notifications := copy.afterUpdate changed context desk.now desk.notifications } .finished
  | cancel {call : InterventionCall} {copy : InterventionRow} : desk.lock.isSome = false →
      Takes context i desk call (.selected copy)
        { desk.edit (desk.row.cancel desk.now) with
          notifications := desk.notifications.updateWhere (fun _ => true)
            (Notification.close desk.now) } .finished
  | lock {jobNow : Time} {copy : InterventionRow} {edits : ℕ} : desk.lock.isSome = false →
      desk.row.due? jobNow = true → desk.row.notified? = false →
      Takes context i desk (.followUpJob jobNow) (.listed copy edits)
        { desk with lock := some i } (.locked desk.row edits)
  | skip {jobNow : Time} {copy : InterventionRow} {edits : ℕ} :
      (desk.row.due? jobNow = true → desk.row.notified? = true) →
      Takes context i desk (.followUpJob jobNow) (.listed copy edits) desk (.ran edits)
  | commit {jobNow : Time} {fresh row : InterventionRow} {edits : ℕ} :
      fresh.markNotified context jobNow desk.now = .ok row →
      Takes context i desk (.followUpJob jobNow) (.locked fresh edits)
        (desk.commitFollowUp context fresh row jobNow) (.ran edits)
  | raise {call : InterventionCall} {fresh : InterventionRow} {edits : ℕ} :
      Takes context i desk call (.locked fresh edits) { desk with lock := none } .raised

theorem takes_of_next {context : SupportContext} {i : ι} {desk desk' : InterventionDesk ι}
    {call : InterventionCall} {phase phase' : InterventionPhase}
    (h : desk.next context i call phase = some (desk', phase')) :
    desk.Takes context i call phase desk' phase' := by
  cases phase with
  | waiting =>
    cases h
    exact .start call
  | loaded copy =>
    cases call with
    | patch currentUser params =>
      simp only [next] at h
      split at h
      · rename_i changed hpatch
        cases h
        exact .prepare hpatch
      · cases h
        exact .refuse
    | _ => cases h
  | prepared copy changed =>
    simp only [next] at h
    split at h
    · cases h
    · rename_i hfree
      cases h
      exact .save (by simpa using hfree)
  | saved copy changed =>
    cases h
    exact .notify
  | selected copy =>
    simp only [next] at h
    split at h
    · cases h
    · rename_i hfree
      cases h
      exact .cancel (by simpa using hfree)
  | listed copy edits =>
    cases call with
    | followUpJob jobNow =>
      simp only [next] at h
      split at h
      · cases h
      · rename_i hfree
        split at h
        · rename_i hready
          cases h
          obtain ⟨hdue, hunmarked⟩ := Bool.and_eq_true_iff.mp hready
          exact .lock (by simpa using hfree) hdue (by simpa using hunmarked)
        · rename_i hskip
          cases h
          exact .skip fun hdue => by simpa [hdue] using hskip
    | _ => cases h
  | locked fresh edits =>
    cases call with
    | followUpJob jobNow =>
      simp only [next] at h
      split at h
      · rename_i row hwritten
        cases h
        exact .commit hwritten
      · cases h
        exact .raise
    | _ => cases h
  | ran edits => cases h
  | finished => cases h
  | refused failure => cases h
  | raised => cases h

end InterventionDesk

end LearningPlatform
