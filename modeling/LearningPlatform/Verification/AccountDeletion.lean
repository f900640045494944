import LearningPlatform.Model.AccountDeletion

/-! # Deletion of accounts that look unused

`safe_to_hard_delete?` asks for thirteen associations. A deletion of an account that passes fails
exactly if one of the other columns that stand in its way refers to the account. -/

namespace LearningPlatform

open Shared

/-! ## Columns -/

/-- The columns that stand in the way of a deletion and that `safe_to_hard_delete?` does not look
at: associations that restrict, and foreign keys without an association. -/
def User.uncheckedColumns : List UserColumn :=
  [.contentReportsReporter, .contentReportsReportedUser, .contentReportsReviewedBy,
    .dataDeletionRequestsUser, .dataDeletionRequestsResolvedBy, .interventionsOwner,
    .interventionsCreatedBy, .interventionNotesAuthor, .recoveryPlansOwner,
    .recoveryPlansCreatedBy, .recoveryPlanCheckInsAuthor, .cableTokenNoncesUser,
    .enrollmentRestartsPerformedBy, .enrollmentRestartsStudent, .messagesPinnedBy]

theorem nodup_associations : (userPolicy.associations.map Prod.fst).Nodup := by
  decide

theorem blocks?_of_mem_uncheckedColumns :
    ∀ column ∈ User.uncheckedColumns, userPolicy.blocks? column = true := by
  decide

theorem checked_of_blocks? {column : UserColumn} (h : userPolicy.blocks? column = true)
    (hunchecked : column ∉ User.uncheckedColumns) : column ∈ User.checkedColumns := by
  revert h hunchecked
  cases column <;> decide

def UserTable.refusing? : UserTable → Bool
  | .announcements | .cableTokenNonces | .contentReports | .dataDeletionRequests
  | .enrollmentRestarts | .interventionNotes | .interventions | .messageAttachments | .messages
  | .recoveryPlanCheckIns | .recoveryPlans => true
  | _ => false

theorem refusing?_of_blocks? {column : UserColumn} (h : userPolicy.blocks? column = true) :
    column.table.refusing? = true := by
  revert h
  cases column <;> decide

theorem not_refusing?_of_destroy :
    ∀ association ∈ userPolicy.associations, association.2 = .destroy →
      association.1.table.refusing? = false := by
  decide

theorem separate_userPolicy : userPolicy.Separate UserColumn.table := by
  intro column other htable hdestroy
  by_contra hblocks
  have hrefusing := refusing?_of_blocks? (by simpa using hblocks)
  rw [← htable, not_refusing?_of_destroy _ hdestroy rfl] at hrefusing
  cases hrefusing

/-! ## Deletions -/

section Deletions

variable {store : AccountStore} {account : Account} {currentUserId : ℕ}

theorem refers?_of_safeToHardDelete? (hsafe : store.safeToHardDelete? account = true)
    {row : LinkedRow UserColumn.table} (hrow : row ∈ store.rows) {column : UserColumn}
    (hcolumn : column ∈ User.checkedColumns) : row.refers? column account.id = false := by
  obtain ⟨-, hnone⟩ := Bool.and_eq_true_iff.mp hsafe
  have hcolumn := List.all_eq_true.mp hnone column hcolumn
  rw [Bool.not_eq_true', List.any_eq_false] at hcolumn
  simpa using hcolumn row hrow

theorem destroy_of_safe (hother : account.id ≠ currentUserId) (hactive : account.archived = false)
    (hsafe : store.safeToHardDelete? account = true) :
    store.destroy currentUserId account = store.destroy! account := by
  unfold AccountStore.destroy
  rw [if_neg hother, if_neg (by simp [hactive]), if_pos hsafe]

/-- The account is gone, and nothing refers to it. -/
structure AccountStore.Without (store : AccountStore) (account : Account) : Prop where
  gone : ∀ other ∈ store.accounts, other.id ≠ account.id
  unreferenced : ∀ row ∈ store.rows, ∀ column, row.refers? column account.id = false

theorem delete_isOk_iff_of_safe (hsafe : store.safeToHardDelete? account = true) :
    (∃ rows, userPolicy.delete account.id store.rows = .ok rows) ↔
      ∀ row ∈ store.rows, ∀ column ∈ User.uncheckedColumns,
        row.refers? column account.id = false := by
  rw [DeletionPolicy.delete_isOk_iff nodup_associations separate_userPolicy]
  constructor
  · intro h row hrow column hcolumn
    exact h row hrow column (blocks?_of_mem_uncheckedColumns column hcolumn)
  · intro h row hrow column hblocks
    by_cases hcolumn : column ∈ User.uncheckedColumns
    · exact h row hrow column hcolumn
    · exact refers?_of_safeToHardDelete? hsafe hrow (checked_of_blocks? hblocks hcolumn)

theorem destroy!_deletes_iff :
    (∃ store', store.destroy! account = .deleted store' ∧ store'.Without account) ↔
      ∃ rows, userPolicy.delete account.id store.rows = .ok rows := by
  unfold AccountStore.destroy!
  constructor
  · intro ⟨store', hdeleted, _⟩
    split at hdeleted
    · rename_i rows hrows
      exact ⟨rows, hrows⟩
    · cases hdeleted
  · intro ⟨rows, hrows⟩
    rw [hrows]
    refine ⟨_, rfl, ?_, fun row hrow column => DeletionPolicy.delete_rows hrows hrow column⟩
    intro other hmem
    simpa using (List.mem_filter.mp hmem).2

/-- A request to remove an account that is safe to delete deletes it exactly if the account is an
active one of somebody else and no row refers to it in a column that the check leaves out. -/
theorem safe_hard_delete_succeeds_iff (hsafe : store.safeToHardDelete? account = true) :
    (∃ store', store.destroy currentUserId account = .deleted store' ∧ store'.Without account) ↔
      account.id ≠ currentUserId ∧ account.archived = false ∧
        ∀ row ∈ store.rows, ∀ column ∈ User.uncheckedColumns,
          row.refers? column account.id = false := by
  by_cases hother : account.id = currentUserId
  · simp [AccountStore.destroy, hother]
  by_cases hactive : account.archived = false
  · rw [destroy_of_safe hother hactive hsafe, destroy!_deletes_iff, delete_isOk_iff_of_safe hsafe]
    simp only [ne_eq, hother, hactive, not_false_eq_true, true_and]
  · simp [AccountStore.destroy, hother, hactive]

end Deletions

/-! ## An invited instructor -/

namespace AccountDeletionExample

/-- An instructor (user 7) who was invited and has not signed in. -/
def invited : Account where
  id := 7
  email := "instructor@example.com"
  clerkId := "pending_7"

def notification : LinkedRow UserColumn.table where
  home := .notifications
  id := 1
  links := [(.notificationsUser, 7), (.notificationsActor, 1)]
  owned := by decide

def intervention : LinkedRow UserColumn.table where
  home := .interventions
  id := 2
  links := [(.interventionsOwner, 7), (.interventionsCreatedBy, 1)]
  owned := by decide

def store (rows : List (LinkedRow UserColumn.table)) : AccountStore where
  accounts := [{ id := 1, email := "admin@example.com", clerkId := "user_1" }, invited]
  rows

theorem invited_instructor_deleted : ∃ store',
    (store [notification]).destroy 1 invited = .deleted store' ∧ store'.Without invited :=
  (safe_hard_delete_succeeds_iff (by decide)).mpr ⟨by decide, rfl, by decide⟩

/-- The admin assigns an intervention to the invited instructor, then deletes the invitation. -/
theorem assigned_instructor_not_deleted :
    SupportContext.ownerFor ⟨[{ id := 1, role := .admin }, { id := 7, role := .instructor }], ""⟩
        { id := 1, role := .admin } (some 7) = .ok 7 ∧
      SupportContext.staffErrors
        ⟨[{ id := 1, role := .admin }, { id := 7, role := .instructor }], ""⟩ "Owner" 7 = [] ∧
      (store [intervention]).safeToHardDelete? invited = true ∧
      (store [intervention]).destroy 1 invited = .raised (.restricted .interventionsOwner) :=
  ⟨by decide, by decide, by decide, rfl⟩

end AccountDeletionExample

end LearningPlatform
