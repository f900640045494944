import LearningPlatform.Verification.DirectConversation.Equations
import LearningPlatform.Verification.Messaging.Schema

/-! # Recipients of messages and readers of conversations -/

namespace LearningPlatform

open Shared MessagingDatabase

variable {m : MessagingDatabase} {user : User}

/-! ## Queries for one user -/

theorem enrolled?_eq_true {userId cohortId : ℕ} :
    m.enrolled? userId cohortId = true ↔ ∃ enrollment ∈ m.enrollments,
      enrollment.userId = userId ∧ enrollment.cohortId = cohortId ∧
        enrollment.status = .active := by
  simp [enrolled?, and_assoc]

theorem member?_eq_true {workspaceId userId : ℕ} :
    m.member? workspaceId userId = true ↔ ∃ row ∈ m.workspaceMemberships,
      row.workspaceId = workspaceId ∧ row.userId = userId := by
  simp [member?]

variable {workspace : WorkspaceRow}

/-- A workspace is visible to the staff, to the active students of its cohort and to its
members. -/
theorem workspaceVisibleTo?_eq_true :
    m.workspaceVisibleTo? workspace user = true ↔
      user.staff? = true ∨
      (∃ cohortId ∈ workspace.cohortId, ∃ enrollment ∈ m.enrollments,
        enrollment.userId = user.id ∧ enrollment.cohortId = cohortId ∧
          enrollment.status = .active) ∨
      ∃ row ∈ m.workspaceMemberships, row.workspaceId = workspace.id ∧ row.userId = user.id := by
  simp only [workspaceVisibleTo?, Bool.or_eq_true, Option.any_eq_true, enrolled?_eq_true,
    member?_eq_true, or_assoc, Option.mem_def]

theorem MessagingSchema.member?_of_cohort (h : MessagingSchema m)
    (hworkspace : workspace ∈ m.workspaces) (hcohort : workspace.cohortId ≠ none) (userId : ℕ) :
    m.member? workspace.id userId = false := by
  refine Bool.eq_false_iff.mpr fun hmember => ?_
  obtain ⟨row, hrow, hid, -⟩ := member?_eq_true.mp hmember
  obtain ⟨owner, howner, hownerId, htype⟩ := h.memberships row hrow
  obtain rfl := h.workspaceKeys.eq_of_key howner hworkspace (hownerId.trans hid)
  exact hcohort ((h.types owner howner).mp htype)

theorem mem_recipientUsers (h : MessagingSchema m) (hworkspace : workspace ∈ m.workspaces)
    (huser : user ∈ m.users) :
    user ∈ m.recipientUsers workspace ↔
      user.archived? = false ∧ m.workspaceVisibleTo? workspace user = true := by
  cases hcohort : workspace.cohortId with
  | some cohortId =>
    have hmember := h.member?_of_cohort hworkspace (by simp [hcohort]) user.id
    have hstudent : user.id ∈ (m.enrollments.filter fun enrollment =>
        enrollment.cohortId == cohortId && enrollment.status == .active).map (·.userId) ↔
        m.enrolled? user.id cohortId = true := by
      simp [enrolled?_eq_true, and_comm, and_assoc]
    simp only [recipientUsers, hcohort, workspaceVisibleTo?, hmember, List.mem_filter, huser,
      List.contains_iff_mem, Bool.and_eq_true, Bool.or_eq_true, Bool.not_eq_true', hstudent,
      Option.any_some, Bool.or_false, true_and]
    rw [or_comm]
  | none =>
    have hmember : user.id ∈ (m.workspaceMemberships.filter
        (·.workspaceId == workspace.id)).map (·.userId) ↔
        m.member? workspace.id user.id = true := by
      simp [member?_eq_true, and_assoc]
    simp only [recipientUsers, hcohort, workspaceVisibleTo?, List.mem_filter, huser,
      List.contains_iff_mem, Bool.and_eq_true, Bool.or_eq_true, Bool.not_eq_true', hmember,
      Option.any_none, Bool.or_false, true_and]
    rw [or_comm]

/-! ## Destinations -/

theorem mem_channelRecipients (h : MessagingSchema m) {channel : Channel}
    (hchannel : channel ∈ m.channels) (huser : user ∈ m.users) :
    user ∈ m.channelRecipients channel ↔
      user.archived? = false ∧ m.channelVisibleTo? channel user = true := by
  unfold channelRecipients channelVisibleTo?
  split
  · rename_i hstaffOnly
    simp [hstaffOnly, huser]
  · rename_i hvisibility
    obtain ⟨workspace, hworkspace, hid⟩ := h.channels channel hchannel
    rw [← hid, h.workspace? hworkspace]
    have hvisible : (channel.visibility != .staffOnly) = true := by simpa using hvisibility
    have hstaff : user.staff? = true → m.workspaceVisibleTo? workspace user = true := by
      intro hstaff
      simp [workspaceVisibleTo?, hstaff]
    simp only [mem_recipientUsers h hworkspace huser, hvisible, Option.any_some, Bool.true_and,
      Bool.or_eq_true]
    exact and_congr_right fun _ => ⟨.inr, fun hor => hor.elim hstaff id⟩

theorem mem_conversationUsers {conversationId : ℕ} (huser : user ∈ m.users) :
    user ∈ m.conversationUsers conversationId ↔ user.id ∈ m.memberIds conversationId := by
  simp [Database.conversationUsers, huser]

theorem directVisibleTo?_eq_true {conversation : DirectConversation} :
    m.directVisibleTo? conversation user = true ↔
      m.conversationWorkspaceVisible? conversation user = true ∧
        user.id ∈ m.memberIds conversation.id := by
  simp [directVisibleTo?, Database.conversationVisibleTo?]

/-- The user is no member of the direct conversation, or may read it. -/
def Destination.OnlyReaders (m : MessagingDatabase) (user : User) : Destination → Prop
  | .channel _ => True
  | .directConversation row => user.id ∈ m.memberIds row.id →
      user.archived? = false ∧ m.conversationWorkspaceVisible? row user = true

/-- Channels send to exactly the unarchived users who may read them. A direct conversation does
so for a user exactly if the user, when a member, is not archived and still sees the workspace. -/
theorem recipients_are_readers_iff (h : m.Reachable) {destination : Destination}
    (hstored : destination.Stored m) (huser : user ∈ m.users) :
    (user ∈ destination.recipients m ↔
        user.archived? = false ∧ destination.visibleTo? m user = true) ↔
      destination.OnlyReaders m user := by
  cases destination with
  | channel channel =>
    exact iff_of_true (mem_channelRecipients h.schema hstored huser) trivial
  | directConversation conversation =>
    simp only [Destination.recipients, Destination.visibleTo?, Destination.OnlyReaders,
      mem_conversationUsers huser, directVisibleTo?_eq_true]
    constructor
    · intro hiff hmember
      obtain ⟨harchived, hvisible, -⟩ := hiff.mp hmember
      exact ⟨harchived, hvisible⟩
    · intro honly
      refine ⟨fun hmember => ?_, fun hreader => hreader.2.2⟩
      obtain ⟨harchived, hvisible⟩ := honly hmember
      exact ⟨harchived, hvisible, hmember⟩

/-! ## A member who left the class -/

def messagingAdmin : User := { id := 1, role := .admin }

def firstStudent : User := { id := 2 }

def secondStudent : User := { id := 3 }

/-- An administrator, two students and a curriculum. -/
def newSchool : MessagingDatabase where
  users := [messagingAdmin, firstStudent, secondStudent]
  curricula := [{ id := 4 }]
  nextId := 5

/-- Both students are enrolled in a cohort, and one writes to the other. -/
def directMessages : List MessagingRequest :=
  [.createCohort messagingAdmin { curriculumId := some 4, startDate := some (some 0) }
      { name := "Fall", slug := "fall-5" },
    .platform (.createEnrollment 5 2 0),
    .platform (.createEnrollment 5 3 0),
    .createDirectConversation firstStudent (.workspace 1) [3]]

def studentsTalking : MessagingDatabase :=
  directMessages.foldl MessagingRequest.perform newSchool

def studentDropped : MessagingDatabase :=
  MessagingRequest.perform studentsTalking (.platform (.updateEnrollment 7 .dropped 1))

def studentsConversation : DirectConversation :=
  { id := 8, workspaceId := 1, cohortId := some 5, memberKey := "2:3" }

theorem studentsTalking_reachable : studentsTalking.Reachable :=
  ⟨newSchool, directMessages, by simp [MessagingDatabase.Fresh, newSchool], run_foldl _ _ _⟩

theorem studentDropped_reachable : studentDropped.Reachable := by
  refine ⟨newSchool, directMessages ++ [.platform (.updateEnrollment 7 .dropped 1)],
    by simp [MessagingDatabase.Fresh, newSchool], ?_⟩
  have hrun := run_foldl MessagingRequest.perform newSchool
    (directMessages ++ [.platform (.updateEnrollment 7 .dropped 1)])
  rwa [List.foldl_append] at hrun

/-- The other student may still post, and the messages are sent to someone who may not read the
conversation. -/
theorem dropped_member_receives_messages :
    ∃ m : MessagingDatabase, m.Reachable ∧
      ∃ (destination : Destination) (sender recipient : User), destination.Stored m ∧
        sender ∈ m.users ∧ destination.canPost? m sender = true ∧
        recipient ∈ destination.recipients m ∧ recipient.archived? = false ∧
        destination.visibleTo? m recipient = false := by
  refine ⟨studentDropped, studentDropped_reachable, .directConversation studentsConversation,
    firstStudent, secondStudent, ?_⟩
  simp only [Destination.Stored]
  decide +kernel

theorem members_of_class_receive_messages :
    secondStudent ∈ Destination.recipients studentsTalking
        (.directConversation studentsConversation) ↔
      secondStudent.archived? = false ∧ Destination.visibleTo? studentsTalking secondStudent
        (.directConversation studentsConversation) = true := by
  have hstored : Destination.Stored studentsTalking
      (.directConversation studentsConversation) := by
    simp only [Destination.Stored]
    decide +kernel
  refine (recipients_are_readers_iff studentsTalking_reachable hstored (by decide +kernel)).mpr ?_
  simp only [Destination.OnlyReaders]
  decide +kernel

end LearningPlatform
