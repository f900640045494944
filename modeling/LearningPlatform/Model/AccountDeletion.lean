import LearningPlatform.Model.Intervention
import LearningPlatform.Shared.Deletion

/-! # Deletion of accounts

`UsersController#destroy` with `User#safe_to_hard_delete?`, the associations of `User` and the
foreign keys of the schema that refer to users. -/

namespace LearningPlatform

open Shared

/-! ## Columns that refer to users -/

/-- The tables with a foreign key to `users`. -/
inductive UserTable where
  | announcements
  | cableTokenNonces
  | channelReadStates
  | clerkIdentities
  | cohortModuleSubmissionWindows
  | contentBlocks
  | contentReports
  | dataDeletionRequests
  | directConversationMembers
  | enrollmentRestarts
  | enrollments
  | feedbackSnippets
  | helpRequests
  | interventionNotes
  | interventions
  | knowledgeCheckAttempts
  | messageAttachments
  | messagePreferences
  | messageReactions
  | messages
  | mobilePushTokens
  | notifications
  | officeHours
  | progresses
  | pushSubscriptions
  | recordings
  | recoveryPlanCheckIns
  | recoveryPlans
  | submissions
  | userBlocks
  | watchProgresses
  | workspaceMemberships
  deriving DecidableEq, Repr

/-- The foreign keys to `users`, in the order of `schema.rb`. -/
inductive UserColumn where
  | announcementsAuthor
  | cableTokenNoncesUser
  | channelReadStatesUser
  | clerkIdentitiesUser
  | cohortModuleSubmissionWindowsCreatedBy
  | cohortModuleSubmissionWindowsUpdatedBy
  | contentBlocksS3VideoUploadedBy
  | contentReportsReportedUser
  | contentReportsReporter
  | contentReportsReviewedBy
  | dataDeletionRequestsUser
  | dataDeletionRequestsResolvedBy
  | directConversationMembersUser
  | enrollmentRestartsPerformedBy
  | enrollmentRestartsStudent
  | enrollmentsUser
  | feedbackSnippetsCreatedBy
  | helpRequestsOwner
  | helpRequestsStudent
  | interventionNotesAuthor
  | interventionsCreatedBy
  | interventionsOwner
  | knowledgeCheckAttemptsUser
  | messageAttachmentsUploadedBy
  | messagePreferencesUser
  | messageReactionsUser
  | messagesAuthor
  | messagesPinnedBy
  | mobilePushTokensUser
  | notificationsUser
  | notificationsActor
  | officeHoursCreatedBy
  | progressesUser
  | pushSubscriptionsUser
  | recordingsUploadedBy
  | recoveryPlanCheckInsAuthor
  | recoveryPlansCreatedBy
  | recoveryPlansOwner
  | submissionsUser
  | submissionsGradedBy
  | userBlocksBlockedUser
  | userBlocksBlocker
  | watchProgressesUser
  | workspaceMembershipsUser
  deriving DecidableEq, Repr

namespace UserColumn

def table : UserColumn → UserTable
  | .announcementsAuthor => .announcements
  | .cableTokenNoncesUser => .cableTokenNonces
  | .channelReadStatesUser => .channelReadStates
  | .clerkIdentitiesUser => .clerkIdentities
  | .cohortModuleSubmissionWindowsCreatedBy | .cohortModuleSubmissionWindowsUpdatedBy =>
    .cohortModuleSubmissionWindows
  | .contentBlocksS3VideoUploadedBy => .contentBlocks
  | .contentReportsReportedUser | .contentReportsReporter | .contentReportsReviewedBy =>
    .contentReports
  | .dataDeletionRequestsUser | .dataDeletionRequestsResolvedBy => .dataDeletionRequests
  | .directConversationMembersUser => .directConversationMembers
  | .enrollmentRestartsPerformedBy | .enrollmentRestartsStudent => .enrollmentRestarts
  | .enrollmentsUser => .enrollments
  | .feedbackSnippetsCreatedBy => .feedbackSnippets
  | .helpRequestsOwner | .helpRequestsStudent => .helpRequests
  | .interventionNotesAuthor => .interventionNotes
  | .interventionsCreatedBy | .interventionsOwner => .interventions
  | .knowledgeCheckAttemptsUser => .knowledgeCheckAttempts
  | .messageAttachmentsUploadedBy => .messageAttachments
  | .messagePreferencesUser => .messagePreferences
  | .messageReactionsUser => .messageReactions
  | .messagesAuthor | .messagesPinnedBy => .messages
  | .mobilePushTokensUser => .mobilePushTokens
  | .notificationsUser | .notificationsActor => .notifications
  | .officeHoursCreatedBy => .officeHours
  | .progressesUser => .progresses
  | .pushSubscriptionsUser => .pushSubscriptions
  | .recordingsUploadedBy => .recordings
  | .recoveryPlanCheckInsAuthor => .recoveryPlanCheckIns
  | .recoveryPlansCreatedBy | .recoveryPlansOwner => .recoveryPlans
  | .submissionsUser | .submissionsGradedBy => .submissions
  | .userBlocksBlockedUser | .userBlocksBlocker => .userBlocks
  | .watchProgressesUser => .watchProgresses
  | .workspaceMembershipsUser => .workspaceMemberships

/-- The columns without `null: false`. -/
def nullable : List UserColumn :=
  [.cohortModuleSubmissionWindowsCreatedBy, .cohortModuleSubmissionWindowsUpdatedBy,
    .contentBlocksS3VideoUploadedBy, .contentReportsReviewedBy, .dataDeletionRequestsResolvedBy,
    .helpRequestsOwner, .messagesPinnedBy, .notificationsActor, .officeHoursCreatedBy,
    .recordingsUploadedBy, .submissionsGradedBy]

end UserColumn

/-! ## Associations -/

/-- The associations of `User` with a `dependent` option. -/
def User.associations : List (UserColumn × Dependent) :=
  [(.enrollmentsUser, .destroy),
    (.progressesUser, .destroy),
    (.submissionsUser, .destroy),
    (.submissionsGradedBy, .nullify),
    (.watchProgressesUser, .destroy),
    (.recordingsUploadedBy, .nullify),
    (.contentBlocksS3VideoUploadedBy, .nullify),
    (.announcementsAuthor, .nullify),
    (.notificationsUser, .destroy),
    (.notificationsActor, .nullify),
    (.pushSubscriptionsUser, .destroy),
    (.mobilePushTokensUser, .destroy),
    (.clerkIdentitiesUser, .destroy),
    (.messagesAuthor, .nullify),
    (.channelReadStatesUser, .destroy),
    (.directConversationMembersUser, .destroy),
    (.workspaceMembershipsUser, .destroy),
    (.messageAttachmentsUploadedBy, .restrict),
    (.messageReactionsUser, .destroy),
    (.messagePreferencesUser, .destroy),
    (.userBlocksBlocker, .destroy),
    (.userBlocksBlockedUser, .destroy),
    (.contentReportsReporter, .restrict),
    (.contentReportsReportedUser, .restrict),
    (.dataDeletionRequestsUser, .restrict),
    (.officeHoursCreatedBy, .nullify),
    (.cohortModuleSubmissionWindowsCreatedBy, .nullify),
    (.cohortModuleSubmissionWindowsUpdatedBy, .nullify),
    (.helpRequestsStudent, .destroy),
    (.helpRequestsOwner, .nullify),
    (.feedbackSnippetsCreatedBy, .destroy),
    (.knowledgeCheckAttemptsUser, .destroy),
    (.interventionsOwner, .restrict),
    (.interventionsCreatedBy, .restrict),
    (.interventionNotesAuthor, .restrict),
    (.recoveryPlansOwner, .restrict),
    (.recoveryPlansCreatedBy, .restrict),
    (.recoveryPlanCheckInsAuthor, .restrict)]

/-- Of the foreign keys to `users`, only that of the recordings has an `on_delete` action. -/
def userPolicy : DeletionPolicy UserColumn where
  associations := User.associations
  notNull column := !UserColumn.nullable.contains column
  nullifies column := column == .recordingsUploadedBy

/-! ## Accounts -/

/-- The columns of a user that a deletion looks at. -/
structure Account where
  id : ℕ
  email : String
  clerkId : String
  archived : Bool := false
  deriving DecidableEq, Repr

def Account.invitePending? (account : Account) : Bool :=
  "pending_".toList.isPrefixOf account.clerkId.toList

structure AccountStore where
  accounts : List Account
  rows : List (LinkedRow UserColumn.table)

/-- The associations that `safe_to_hard_delete?` asks for rows. -/
def User.checkedColumns : List UserColumn :=
  [.enrollmentsUser, .messagesAuthor, .announcementsAuthor, .submissionsUser, .progressesUser,
    .watchProgressesUser, .recordingsUploadedBy, .contentBlocksS3VideoUploadedBy,
    .messageAttachmentsUploadedBy, .directConversationMembersUser, .helpRequestsStudent,
    .feedbackSnippetsCreatedBy, .knowledgeCheckAttemptsUser]

def AccountStore.safeToHardDelete? (store : AccountStore) (account : Account) : Bool :=
  account.invitePending? && User.checkedColumns.all fun column =>
    !store.rows.any (·.refers? column account.id)

inductive DestroyOutcome where
  | yourself
  | alreadyArchived
  | deleted (store : AccountStore)
  /-- `destroy!` raises, and its transaction is rolled back. -/
  | raised (error : DeletionError UserColumn)
  /-- `archive!`. -/
  | archives

/-- `destroy!` of a user. The rows that it destroys have no rows below them that a check of
`safe_to_hard_delete?` has not ruled out. -/
def AccountStore.destroy! (store : AccountStore) (account : Account) : DestroyOutcome :=
  match userPolicy.delete account.id store.rows with
  | .ok rows => .deleted { accounts := store.accounts.filter (·.id != account.id), rows }
  | .error error => .raised error

/-- `UsersController#destroy`. -/
def AccountStore.destroy (store : AccountStore) (currentUserId : ℕ) (account : Account) :
    DestroyOutcome :=
  if account.id = currentUserId then .yourself
  else if account.archived then .alreadyArchived
  else if store.safeToHardDelete? account then store.destroy! account
  else .archives

end LearningPlatform
