import LearningPlatform.Verification.Messaging.Recipients

/-! # List scopes and single-record predicates -/

namespace LearningPlatform

open Shared MessagingDatabase

variable {m : MessagingDatabase} {user : User}

/-! ## Records with a list scope -/

inductive MessagingRecord where
  | workspace (workspace : WorkspaceRow)
  | destination (destination : Destination)

namespace MessagingRecord

def Stored (m : MessagingDatabase) : MessagingRecord → Prop
  | .workspace row => row ∈ m.workspaces
  | .destination row => row.Stored m

def Active : MessagingRecord → Prop
  | .workspace row => row.status = .active
  | .destination (.channel row) => row.status = .active
  | .destination (.directConversation row) => row.status = .active

/-- Membership in the scope `visible_for`. -/
def Listed (m : MessagingDatabase) (user : User) : MessagingRecord → Prop
  | .workspace row => row ∈ m.workspacesVisibleFor user
  | .destination (.channel row) => row ∈ m.channelsVisibleFor user
  | .destination (.directConversation row) => row ∈ m.directConversationsVisibleFor user

def visibleTo? (m : MessagingDatabase) (user : User) : MessagingRecord → Bool
  | .workspace row => m.workspaceVisibleTo? row user
  | .destination row => row.visibleTo? m user

end MessagingRecord

/-! ## Workspaces -/

theorem mem_activeCohortIds {cohortId : ℕ} :
    cohortId ∈ m.activeCohortIds user ↔ m.enrolled? user.id cohortId = true := by
  simp [activeCohortIds, enrolled?_eq_true, and_comm, and_assoc, and_left_comm]

theorem mem_workspacesVisibleFor {workspace : WorkspaceRow} :
    workspace ∈ m.workspacesVisibleFor user ↔ workspace ∈ m.workspaces ∧
      workspace.status = .active ∧ m.workspaceVisibleTo? workspace user = true := by
  have henrolled : (workspace.cohortId.any fun cohortId =>
      (m.activeCohortIds user).contains cohortId) =
      workspace.cohortId.any fun cohortId => m.enrolled? user.id cohortId := by
    cases workspace.cohortId with
    | none => rfl
    | some cohortId =>
      rw [Option.any_some, Option.any_some, Bool.eq_iff_iff, List.contains_iff_mem]
      exact mem_activeCohortIds
  unfold workspacesVisibleFor workspaceVisibleTo?
  cases hstaff : user.staff? with
  | true => simp
  | false =>
    simp only [Bool.false_eq_true, if_false, List.mem_filter, henrolled, member?, Bool.false_or,
      Bool.and_eq_true, beq_iff_eq]

theorem MessagingSchema.mem_visibleIds (h : MessagingSchema m) {id : ℕ} :
    id ∈ (m.workspacesVisibleFor user).map (·.id) ↔ ∃ workspace, m.workspace? id = some workspace ∧
      workspace.status = .active ∧ m.workspaceVisibleTo? workspace user = true := by
  rw [List.mem_map]
  constructor
  · rintro ⟨workspace, hlisted, rfl⟩
    obtain ⟨hworkspace, hactive, hvisible⟩ := mem_workspacesVisibleFor.mp hlisted
    exact ⟨workspace, h.workspace? hworkspace, hactive, hvisible⟩
  · rintro ⟨workspace, hfind, hactive, hvisible⟩
    obtain ⟨hworkspace, hid⟩ := workspace?_eq_some hfind
    exact ⟨workspace, mem_workspacesVisibleFor.mpr ⟨hworkspace, hactive, hvisible⟩, hid⟩

/-! ## Channels and direct conversations -/

/-- The workspace with this id is active. -/
def MessagingDatabase.WorkspaceActive (m : MessagingDatabase) (id : ℕ) : Prop :=
  ∃ workspace, m.workspace? id = some workspace ∧ workspace.status = .active

theorem MessagingSchema.mem_visibleIds_iff (h : MessagingSchema m) {id : ℕ} :
    id ∈ (m.workspacesVisibleFor user).map (·.id) ↔ m.WorkspaceActive id ∧
      ((m.workspace? id).any fun workspace => m.workspaceVisibleTo? workspace user) = true := by
  rw [h.mem_visibleIds]
  constructor
  · rintro ⟨workspace, hfind, hactive, hvisible⟩
    exact ⟨⟨workspace, hfind, hactive⟩, by simpa [hfind] using hvisible⟩
  · rintro ⟨⟨workspace, hfind, hactive⟩, hvisible⟩
    exact ⟨workspace, hfind, hactive, by simpa [hfind] using hvisible⟩

theorem MessagingSchema.mem_channelsVisibleFor (h : MessagingSchema m) {channel : Channel} :
    channel ∈ m.channelsVisibleFor user ↔ channel ∈ m.channels ∧ channel.status = .active ∧
      m.channelVisibleTo? channel user = true ∧
        (user.staff? = true ∨ m.WorkspaceActive channel.workspaceId) := by
  unfold channelsVisibleFor channelVisibleTo?
  cases hstaff : user.staff? with
  | true => simp
  | false =>
    have hvisibility : channel.visibility = .cohort ↔ channel.visibility ≠ .staffOnly := by
      cases channel.visibility <;> simp
    simp only [Bool.false_eq_true, if_false, List.mem_filter, Bool.and_eq_true, beq_iff_eq,
      List.contains_iff_mem, h.mem_visibleIds_iff, hvisibility, Bool.false_or, bne_iff_ne,
      false_or]
    tauto

theorem MessagingSchema.mem_directConversationsVisibleFor (h : MessagingSchema m)
    {conversation : DirectConversation} :
    conversation ∈ m.directConversationsVisibleFor user ↔
      conversation ∈ m.directConversations ∧ conversation.status = .active ∧
        m.directVisibleTo? conversation user = true ∧
          m.WorkspaceActive conversation.workspaceId := by
  simp only [directConversationsVisibleFor, List.mem_filter, Bool.and_eq_true, beq_iff_eq,
    List.contains_iff_mem, h.mem_visibleIds_iff, directVisibleTo?_eq_true,
    conversationWorkspaceVisible?]
  tauto

/-- An active record that the user may see lies in an active workspace; staff see the channels
of every workspace in their lists. -/
def MessagingRecord.InActiveWorkspace (m : MessagingDatabase) (user : User) :
    MessagingRecord → Prop
  | .workspace _ => True
  | .destination (.channel row) => row.status = .active → m.channelVisibleTo? row user = true →
      user.staff? = true ∨ m.WorkspaceActive row.workspaceId
  | .destination (.directConversation row) => row.status = .active →
      m.directVisibleTo? row user = true → m.WorkspaceActive row.workspaceId

/-- A scope with a further condition agrees with the predicate exactly if the condition follows
from it. -/
theorem iff_and_iff {listed stored active visible further : Prop} (hstored : stored)
    (h : listed ↔ stored ∧ active ∧ visible ∧ further) :
    (listed ↔ active ∧ visible) ↔ (active → visible → further) := by
  tauto

theorem listed_iff_visible_iff (h : m.Reachable) {record : MessagingRecord}
    (hstored : record.Stored m) :
    (record.Listed m user ↔ record.Active ∧ record.visibleTo? m user = true) ↔
      record.InActiveWorkspace m user := by
  cases record with
  | workspace workspace =>
    refine iff_of_true ?_ trivial
    simp only [MessagingRecord.Listed, mem_workspacesVisibleFor]
    exact and_iff_right hstored
  | destination destination =>
    cases destination with
    | channel channel => exact iff_and_iff hstored h.schema.mem_channelsVisibleFor
    | directConversation conversation =>
      exact iff_and_iff hstored h.schema.mem_directConversationsVisibleFor

/-! ## An archived community workspace -/

/-- An administrator opens a community workspace for a student. -/
def openCommunity : List MessagingRequest :=
  [.createWorkspace messagingAdmin { name := some "Alumni" } ["alumni"] [2]]

def communityOpen : MessagingDatabase :=
  openCommunity.foldl MessagingRequest.perform newSchool

/-- The workspace is archived; its channel is not. -/
def communityArchived : MessagingDatabase :=
  MessagingRequest.perform communityOpen
    (.updateWorkspace messagingAdmin 1 { status := some .archived })

def generalChannel : Channel :=
  { id := 2, workspaceId := 1, name := "General"
    description := some "General discussion for this workspace." }

theorem communityOpen_reachable : communityOpen.Reachable :=
  ⟨newSchool, openCommunity, by simp [MessagingDatabase.Fresh, newSchool], run_foldl _ _ _⟩

theorem communityArchived_reachable : communityArchived.Reachable := by
  refine ⟨newSchool, openCommunity ++
      [.updateWorkspace messagingAdmin 1 { status := some .archived }],
    by simp [MessagingDatabase.Fresh, newSchool], ?_⟩
  have hrun := run_foldl MessagingRequest.perform newSchool
    (openCommunity ++ [.updateWorkspace messagingAdmin 1 { status := some .archived }])
  rwa [List.foldl_append] at hrun

/-- The channel is in no list of the student, but it is visible and open for posts by its id. -/
theorem unlisted_channel_accepts_posts :
    ∃ m : MessagingDatabase, m.Reachable ∧ ∃ (channel : Channel) (user : User),
      channel ∈ m.channels ∧ user ∈ m.users ∧ channel.status = .active ∧
        channel ∉ m.channelsVisibleFor user ∧ m.channelVisibleTo? channel user = true ∧
          m.channelCanPost? channel user = true := by
  refine ⟨communityArchived, communityArchived_reachable, generalChannel, firstStudent, ?_⟩
  decide +kernel

theorem open_community_channel_listed :
    generalChannel ∈ communityOpen.channelsVisibleFor firstStudent ↔
      generalChannel.status = .active ∧
        communityOpen.channelVisibleTo? generalChannel firstStudent = true := by
  have hstored : MessagingRecord.Stored communityOpen
      (.destination (.channel generalChannel)) := by
    simp only [MessagingRecord.Stored, Destination.Stored]
    decide +kernel
  refine (listed_iff_visible_iff communityOpen_reachable hstored).mpr fun _ _ => .inr ?_
  exact ⟨{ id := 1, name := "Alumni", slug := "alumni", workspaceType := .community },
    by decide +kernel, rfl⟩

end LearningPlatform
