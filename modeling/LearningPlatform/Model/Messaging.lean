import LearningPlatform.Model.DirectConversation
import LearningPlatform.Model.Requests

/-! # Workspaces, channels and direct conversations

Who may see them, who receives their messages, and the requests that change the tables on which
these answers depend. -/

namespace LearningPlatform

open Shared

/-! ## Rows -/

inductive WorkspaceType where
  | cohort
  | community
  deriving DecidableEq, Repr

inductive WorkspaceStatus where
  | active
  | archived
  deriving DecidableEq, Repr

structure WorkspaceRow extends Workspace where
  name : String
  slug : String
  description : Option String := none
  workspaceType : WorkspaceType := .cohort
  status : WorkspaceStatus := .active
  deriving DecidableEq, Repr

inductive MembershipRole where
  | member
  | manager
  deriving DecidableEq, Repr

structure WorkspaceMembership where
  workspaceId : ℕ
  userId : ℕ
  role : MembershipRole := .member
  deriving DecidableEq, Repr

inductive ChannelVisibility where
  | cohort
  | staffOnly
  deriving DecidableEq, Repr

inductive ChannelStatus where
  | active
  | archived
  deriving DecidableEq, Repr

structure Channel where
  id : ℕ
  workspaceId : ℕ
  cohortId : Option ℕ := none
  name : String
  description : Option String := none
  visibility : ChannelVisibility := .cohort
  status : ChannelStatus := .active
  position : ℤ := 0
  deriving DecidableEq, Repr

structure UserBlock where
  blockerId : ℕ
  blockedUserId : ℕ
  deriving DecidableEq, Repr

/-- The database with the tables of the workspaces. -/
structure MessagingDatabase extends Database where
  workspaces : List WorkspaceRow := []
  workspaceMemberships : List WorkspaceMembership := []
  channels : List Channel := []
  userBlocks : List UserBlock := []
  /-- The next value of the id sequences of workspaces and channels. -/
  nextMessagingId : ℕ := 1

namespace MessagingDatabase

variable (m : MessagingDatabase)

def workspace? (id : ℕ) : Option WorkspaceRow :=
  m.workspaces.find? (·.id == id)

def channel? (id : ℕ) : Option Channel :=
  m.channels.find? (·.id == id)

/-! ## Workspaces -/

/-- `user.enrollments.active.exists?(cohort_id:)`. -/
def enrolled? (userId cohortId : ℕ) : Bool :=
  m.enrollments.any fun enrollment =>
    enrollment.userId == userId && enrollment.cohortId == cohortId && enrollment.status == .active

/-- `workspace_memberships.exists?(user_id:)`. -/
def member? (workspaceId userId : ℕ) : Bool :=
  m.workspaceMemberships.any fun row => row.workspaceId == workspaceId && row.userId == userId

def workspaceVisibleTo? (workspace : WorkspaceRow) (user : User) : Bool :=
  user.staff? || (workspace.cohortId.any fun cohortId => m.enrolled? user.id cohortId) ||
    m.member? workspace.id user.id

/-- `user.enrollments.active.select(:cohort_id)`. -/
def activeCohortIds (user : User) : List ℕ :=
  (m.enrollments.filter fun enrollment =>
    enrollment.userId == user.id && enrollment.status == .active).map (·.cohortId)

def workspacesVisibleFor (user : User) : List WorkspaceRow :=
  if user.staff? then m.workspaces.filter (·.status == .active)
  else m.workspaces.filter fun workspace =>
    workspace.status == .active &&
      ((workspace.cohortId.any fun cohortId => (m.activeCohortIds user).contains cohortId) ||
        m.workspaceMemberships.any fun row =>
          row.workspaceId == workspace.id && row.userId == user.id)

/-- `Workspace#available_users_scope` without the exclusion of one user; the order by name is
not modelled. -/
def recipientUsers (workspace : WorkspaceRow) : List User :=
  match workspace.cohortId with
  | some cohortId =>
    let studentIds := (m.enrollments.filter fun enrollment =>
      enrollment.cohortId == cohortId && enrollment.status == .active).map (·.userId)
    m.users.filter fun user => !user.archived? && (studentIds.contains user.id || user.staff?)
  | none =>
    let memberIds := (m.workspaceMemberships.filter (·.workspaceId == workspace.id)).map
      (·.userId)
    m.users.filter fun user => !user.archived? && (memberIds.contains user.id || user.staff?)

def availableUsersFor (workspace : WorkspaceRow) (currentUser : User) : List User :=
  (m.recipientUsers workspace).filter (·.id != currentUser.id)

/-! ## Channels and direct conversations -/

def channelsVisibleFor (user : User) : List Channel :=
  if user.staff? then m.channels.filter (·.status == .active)
  else
    let workspaceIds := (m.workspacesVisibleFor user).map (·.id)
    m.channels.filter fun channel =>
      channel.status == .active && workspaceIds.contains channel.workspaceId &&
        channel.visibility == .cohort

def channelVisibleTo? (channel : Channel) (user : User) : Bool :=
  user.staff? || (channel.visibility != .staffOnly &&
    (m.workspace? channel.workspaceId).any fun workspace => m.workspaceVisibleTo? workspace user)

def channelCanPost? (channel : Channel) (user : User) : Bool :=
  m.channelVisibleTo? channel user && channel.status != .archived

def channelRecipients (channel : Channel) : List User :=
  if channel.visibility = .staffOnly then m.users.filter fun user => !user.archived? && user.staff?
  else
    match m.workspace? channel.workspaceId with
    | none => []
    | some workspace => m.recipientUsers workspace

/-- `workspace.visible_to?` of the workspace of a conversation. -/
def conversationWorkspaceVisible? (conversation : DirectConversation) (user : User) : Bool :=
  (m.workspace? conversation.workspaceId).any fun workspace => m.workspaceVisibleTo? workspace user

def directVisibleTo? (conversation : DirectConversation) (user : User) : Bool :=
  m.conversationVisibleTo? (m.conversationWorkspaceVisible? conversation user) conversation.id
    user.id

def directConversationsVisibleFor (user : User) : List DirectConversation :=
  m.directConversations.filter fun conversation =>
    (m.memberIds conversation.id).contains user.id &&
      ((m.workspacesVisibleFor user).map (·.id)).contains conversation.workspaceId &&
        conversation.status == .active

/-- `UserBlock.between(...).exists?`. -/
def blockedBetween? (userId : ℕ) (others : List ℕ) : Bool :=
  m.userBlocks.any fun block =>
    (block.blockerId == userId && others.contains block.blockedUserId) ||
      (others.contains block.blockerId && block.blockedUserId == userId)

/-- `DirectConversation#can_post?` with `blocked_for?`. -/
def directCanPost? (conversation : DirectConversation) (user : User) : Bool :=
  conversation.status == .active && m.directVisibleTo? conversation user &&
    !m.blockedBetween? user.id
      (((m.conversationUsers conversation.id).map (·.id)).filter (· != user.id))

end MessagingDatabase

inductive Destination where
  | channel (channel : Channel)
  | directConversation (conversation : DirectConversation)
  deriving DecidableEq, Repr

namespace Destination

/-- The destination is a row of its table. -/
def Stored (m : MessagingDatabase) : Destination → Prop
  | .channel row => row ∈ m.channels
  | .directConversation row => row ∈ m.directConversations

/-- `recipients`, who get the broadcasts and notifications of its messages. -/
def recipients (m : MessagingDatabase) : Destination → List User
  | .channel row => m.channelRecipients row
  | .directConversation row => m.conversationUsers row.id

def visibleTo? (m : MessagingDatabase) (user : User) : Destination → Bool
  | .channel row => m.channelVisibleTo? row user
  | .directConversation row => m.directVisibleTo? row user

def canPost? (m : MessagingDatabase) (user : User) : Destination → Bool
  | .channel row => m.channelCanPost? row user
  | .directConversation row => m.directCanPost? row user

end Destination

/-! ## Saving workspaces, memberships and channels -/

namespace MessagingDatabase

variable (m : MessagingDatabase)

def workspaceErrors (workspace : WorkspaceRow) : List String :=
  let others := m.workspaces.filter (·.id != workspace.id)
  presenceErrors "Name" (some workspace.name) ++
  presenceErrors "Slug" (some workspace.slug) ++
  (if others.any (·.slug == workspace.slug) then ["Slug has already been taken"] else []) ++
  (if workspace.cohortId.isSome && others.any (·.cohortId == workspace.cohortId) then
    ["Cohort has already been taken"] else []) ++
  (match workspace.workspaceType, workspace.cohortId with
    | .cohort, none => ["Cohort must exist for cohort workspaces"]
    | .community, some _ => ["Cohort must be blank for community workspaces"]
    | _, _ => [])

def insertWorkspace! (workspace : WorkspaceRow) : Except Failure MessagingDatabase :=
  saveUnless (m.workspaceErrors workspace)
    { m with
      workspaces := m.workspaces ++ [workspace], nextMessagingId := m.nextMessagingId + 1 }

/-- `workspace_memberships.create_or_find_by!(user:)`. -/
def addMember (workspaceId : ℕ) (role : MembershipRole) (userId : ℕ) : MessagingDatabase :=
  if m.member? workspaceId userId then m
  else { m with workspaceMemberships := m.workspaceMemberships ++ [{ workspaceId, userId, role }] }

/-- The members of a list of users that all exist. -/
def addMembers! (workspaceId : ℕ) (userIds : List ℕ) : Except Failure MessagingDatabase :=
  if userIds.all fun userId => (m.user? userId).isSome then
    .ok (userIds.foldl (fun m userId => m.addMember workspaceId .member userId) m)
  else .error .recordNotFound

def channelErrors (channel : Channel) : List String :=
  presenceErrors "Name" (some channel.name) ++
  (if m.channels.any fun other => other.id != channel.id &&
      other.workspaceId == channel.workspaceId && other.name == channel.name then
    ["Name has already been taken"] else []) ++
  countErrors "Position" (some channel.position)

def insertChannel! (channel : Channel) : Except Failure MessagingDatabase :=
  saveUnless (m.channelErrors channel)
    { m with channels := m.channels ++ [channel], nextMessagingId := m.nextMessagingId + 1 }

/-- Name and description of the default channel. -/
def defaultChannel : WorkspaceType → String × String
  | .cohort => ("Class Chat", "General class discussion for this cohort.")
  | .community => ("General", "General discussion for this workspace.")

def ensureDefaultChannels! (workspace : WorkspaceRow) : Except Failure MessagingDatabase :=
  let (name, description) := defaultChannel workspace.workspaceType
  if m.channels.any fun channel => channel.workspaceId == workspace.id && channel.name == name then
    .ok m
  else m.insertChannel!
    { id := m.nextMessagingId, workspaceId := workspace.id, cohortId := workspace.cohortId, name
      description := some description }

/-- What a workspace takes from its cohort besides the id: the name, the slug made of the name
and the id, and whether the cohort is archived. -/
structure CohortLabel where
  name : String
  slug : String
  archived : Bool := false
  deriving DecidableEq, Repr

def findOrCreateForCohort! (cohortId : ℕ) (label : CohortLabel) :
    Except Failure (MessagingDatabase × WorkspaceRow) := do
  match m.workspaces.find? (·.cohortId == some cohortId) with
  | some workspace => .ok (m, workspace)
  | none =>
    let workspace : WorkspaceRow :=
      { id := m.nextMessagingId, cohortId := some cohortId, name := label.name
        slug := label.slug, description := some ("Workspace for " ++ label.name)
        workspaceType := .cohort, status := if label.archived then .archived else .active }
    let m ← m.insertWorkspace! workspace
    let m ← m.ensureDefaultChannels! workspace
    .ok (m, workspace)

/-- `workspace_id` or `cohort_id` of a request. -/
inductive WorkspaceChoice where
  | workspace (id : ℕ)
  | cohort (id : ℕ) (label : CohortLabel)
  | missing
  deriving DecidableEq, Repr

/-- `resolved_workspace` and `workspace_for_mutation!`. -/
def resolveWorkspace! : WorkspaceChoice → Except Failure (MessagingDatabase × WorkspaceRow)
  | .workspace id => (orNotFound (m.workspace? id)).map (m, ·)
  | .cohort id label => do
    let cohort ← orNotFound (m.cohort? id)
    m.findOrCreateForCohort! cohort.id label
  | .missing => .error .recordNotFound

end MessagingDatabase

/-! ## Requests -/

namespace MessagingDatabase

def requireStaff! (user : User) : Except Failure Unit :=
  if user.staff? then .ok () else .error (.forbidden "Staff access required")

def requireAdmin! (user : User) : Except Failure Unit :=
  if user.role = .admin then .ok () else .error (.forbidden "Admin access required")

/-- `params.permit(:name, :description, :status)`. -/
structure WorkspaceParams where
  name : Option String := none
  description : Option String := none
  status : Option WorkspaceStatus := none
  deriving DecidableEq, Repr

/-- `create_community_workspace!` with the slugs of the attempts that are left. A slug that is
taken leads to the next attempt. -/
def createCommunityWorkspace! (m : MessagingDatabase) (currentUser : User) (userIds : List ℕ)
    (workspace : WorkspaceRow) : List String → Except Failure MessagingDatabase
  | [] => .error (.recordInvalid ["Slug has already been taken"])
  | slug :: slugs =>
    let workspace := { workspace with slug }
    if m.workspaces.any (·.slug == slug) && !slugs.isEmpty then
      createCommunityWorkspace! m currentUser userIds workspace slugs
    else do
      let m ← m.insertWorkspace! workspace
      let m := m.addMember workspace.id .manager currentUser.id
      let m ← m.addMembers! workspace.id userIds
      m.ensureDefaultChannels! workspace

variable (m : MessagingDatabase)

def createWorkspace (currentUser : User) (params : WorkspaceParams) (slugs : List String)
    (userIds : List ℕ) : Except Failure MessagingDatabase := do
  requireStaff! currentUser
  let userIds := (userIds.filter (· != 0)).dedup.filter (· != currentUser.id)
  m.createCommunityWorkspace! currentUser userIds
    { id := m.nextMessagingId, name := params.name.getD "", slug := ""
      description := params.description, workspaceType := .community
      status := params.status.getD .active } slugs

def updateWorkspace (currentUser : User) (id : ℕ) (params : WorkspaceParams) :
    Except Failure MessagingDatabase := do
  requireStaff! currentUser
  let workspace ← orNotFound (m.workspace? id)
  if workspace.workspaceType != .community then
    .error (.unprocessable "Only community workspaces can be edited manually")
  else
    let changed :=
      { workspace with
        name := params.name.getD workspace.name
        description := params.description.or workspace.description
        status := params.status.getD workspace.status }
    saveUnless (m.workspaceErrors changed)
      { m with
        workspaces := updateAll (·.id == workspace.id) (fun _ => changed) m.workspaces }

def cohortMembershipMessage : String :=
  "Cohort workspace membership is managed by cohort enrollments"

def createMemberships (currentUser : User) (workspaceId : ℕ) (userIds : List ℕ) :
    Except Failure MessagingDatabase := do
  requireStaff! currentUser
  let workspace ← orNotFound (m.workspace? workspaceId)
  if workspace.workspaceType != .community then
    .error (.unprocessable cohortMembershipMessage)
  else m.addMembers! workspace.id (userIds.filter (· != 0)).dedup

def destroyMembership (currentUser : User) (workspaceId userId : ℕ) :
    Except Failure MessagingDatabase := do
  requireStaff! currentUser
  let workspace ← orNotFound (m.workspace? workspaceId)
  if workspace.workspaceType != .community then
    .error (.unprocessable cohortMembershipMessage)
  else if m.member? workspace.id userId then
    .ok { m with
      workspaceMemberships := deleteAll
        (fun row => row.workspaceId == workspace.id && row.userId == userId)
        m.workspaceMemberships }
  else .error .recordNotFound

/-- `channel_params.except(:cohort_id, :workspace_id)`. -/
structure ChannelParams where
  name : Option String := none
  description : Option String := none
  visibility : Option ChannelVisibility := none
  status : Option ChannelStatus := none
  position : Option ℤ := none
  deriving DecidableEq, Repr

def ChannelParams.assign (params : ChannelParams) (channel : Channel) : Channel :=
  { channel with
    name := params.name.getD channel.name
    description := params.description.or channel.description
    visibility := params.visibility.getD channel.visibility
    status := params.status.getD channel.status
    position := params.position.getD channel.position }

def createChannel (currentUser : User) (choice : WorkspaceChoice) (params : ChannelParams) :
    Except Failure MessagingDatabase := do
  requireStaff! currentUser
  let (m, workspace) ← m.resolveWorkspace! choice
  m.insertChannel! (params.assign
    { id := m.nextMessagingId, workspaceId := workspace.id, cohortId := workspace.cohortId
      name := "" })

/-- `@channel.update` with the links of `sync_workspace_links`. -/
def saveChannel (currentUser : User) (id : ℕ) (params : ChannelParams) :
    Except Failure MessagingDatabase := do
  requireStaff! currentUser
  let channel ← orNotFound (m.channel? id)
  let changed := params.assign
    { channel with
      cohortId := channel.cohortId.or ((m.workspace? channel.workspaceId).bind (·.cohortId)) }
  saveUnless (m.channelErrors changed)
    { m with channels := updateAll (·.id == channel.id) (fun _ => changed) m.channels }

def destroyChannel (currentUser : User) (id : ℕ) : Except Failure MessagingDatabase :=
  m.saveChannel currentUser id { status := some .archived }

def createDirectConversation (currentUser : User) (choice : WorkspaceChoice) (userIds : List ℕ) :
    Except Failure MessagingDatabase := do
  let (m, workspace) ← m.resolveWorkspace! choice
  if !m.workspaceVisibleTo? workspace currentUser then
    .error (.forbidden "Workspace is not visible")
  else
    let requested := (userIds.filter (· != 0)).dedup
    if requested.isEmpty then .error (.unprocessable "Choose at least one other member")
    else
      let ids := requested ++ [currentUser.id]
      let allowedIds :=
        (m.availableUsersFor workspace currentUser).map (·.id) ++ [currentUser.id]
      if !ids.all allowedIds.contains then .error .recordNotFound
      else
        let users := m.users.filter fun user => ids.contains user.id
        if m.blockedBetween? currentUser.id
            ((users.map (·.id)).filter (· != currentUser.id)) then
          .error (.forbidden
            "This direct conversation is unavailable because one of its members is blocked")
        else
          let (db, _) ← findOrCreateFor! m.toDatabase workspace.toWorkspace users
          .ok { m with toDatabase := db }

def createBlock (currentUser : User) (blockedUserId : ℕ) : Except Failure MessagingDatabase := do
  let user ← orNotFound (m.user? blockedUserId)
  if user.archived? then .error .recordNotFound
  else if !currentUser.staff? && !(m.workspacesVisibleFor currentUser).any fun workspace =>
      (m.recipientUsers workspace).any (·.id == user.id) then
    .error (.forbidden "User is not visible")
  else if currentUser.id = user.id then
    .error (.recordInvalid ["Blocked user cannot be yourself"])
  else if m.userBlocks.contains ⟨currentUser.id, user.id⟩ then .ok m
  else .ok { m with userBlocks := m.userBlocks ++ [⟨currentUser.id, user.id⟩] }

def destroyBlock (currentUser : User) (blockedUserId : ℕ) : Except Failure MessagingDatabase :=
  if m.userBlocks.contains ⟨currentUser.id, blockedUserId⟩ then
    .ok { m with userBlocks := deleteAll (· == ⟨currentUser.id, blockedUserId⟩) m.userBlocks }
  else .error .recordNotFound

/-- `UsersController#create`; `existing` is the user that has the email address. -/
def createUser (currentUser : User) (existing : Option ℕ) (role : Option Role) :
    Except Failure MessagingDatabase := do
  requireAdmin! currentUser
  match existing.bind m.user? with
  | some user =>
    .ok { m with
      users := updateAll (·.id == user.id)
        (fun row => { row with archivedAt := none, role := role.getD row.role }) m.users }
  | none =>
    .ok { m with
      users := m.users ++ [{ id := m.nextId, role := role.getD .student }]
      nextId := m.nextId + 1 }

def updateUser (currentUser : User) (id : ℕ) (role : Option Role) :
    Except Failure MessagingDatabase := do
  requireAdmin! currentUser
  let user ← orNotFound (m.user? id)
  .ok { m with
    users := updateAll (·.id == user.id)
      (fun row => { row with role := role.getD row.role }) m.users }

/-- The part of `safe_to_hard_delete?` that reads modelled tables. -/
def unusedBy? (userId : ℕ) : Bool :=
  !m.enrollments.any (·.userId == userId) && !m.submissions.any (·.userId == userId) &&
    !m.progresses.any (·.userId == userId) && !m.watchProgresses.any (·.userId == userId) &&
    !m.directConversationMembers.any (·.userId == userId) &&
    !m.knowledgeCheckAttempts.any (·.userId == userId)

/-- `UsersController#destroy`. `deletable` stands for the rest of `safe_to_hard_delete?`: the
invitation is pending and no other table refers to the user. -/
def destroyUser (currentUser : User) (id : ℕ) (deletable : Bool) (now : Time) :
    Except Failure MessagingDatabase := do
  requireAdmin! currentUser
  let user ← orNotFound (m.user? id)
  if user.id = currentUser.id then .error (.unprocessable "You cannot archive yourself")
  else if user.archived? then .ok m
  else if deletable && m.unusedBy? user.id then
    .ok { m with
      users := deleteAll (·.id == user.id) m.users
      notifications := updateAll (·.actorId == some user.id)
        (fun row => { row with actorId := none })
        (deleteAll (·.userId == user.id) m.notifications)
      workspaceMemberships := deleteAll (·.userId == user.id) m.workspaceMemberships
      userBlocks := deleteAll
        (fun block => block.blockerId == user.id || block.blockedUserId == user.id)
        m.userBlocks }
  else
    let db ← archive! m.toDatabase user.id now
    .ok { m with toDatabase := db }

def unarchiveUser (currentUser : User) (id : ℕ) : Except Failure MessagingDatabase := do
  requireAdmin! currentUser
  let db ← unarchive! m.toDatabase id
  .ok { m with toDatabase := db }

/-- `CohortsController#create` with the callback that provides the workspace. -/
def createCohort (currentUser : User) (params : CohortParams) (label : CohortLabel) :
    Except Failure MessagingDatabase := do
  requireAdmin! currentUser
  let id := m.nextId
  let db ← LearningPlatform.createCohort m.toDatabase params
  let (m, _) ← findOrCreateForCohort! { m with toDatabase := db } id label
  .ok m

/-- `@cohort.destroy` with its dependent rows; the restarts of the cohort refer to it and have
no such rule. -/
def destroyCohort (currentUser : User) (id : ℕ) : Except Failure MessagingDatabase := do
  requireAdmin! currentUser
  let cohort ← orNotFound (m.cohort? id)
  if m.enrollmentRestarts.any (·.cohortId == cohort.id) then
    .error (.invalidForeignKey "enrollment_restarts" "cohort_id")
  else
    let enrollmentIds := (m.enrollments.filter (·.cohortId == cohort.id)).map (·.id)
    let db ← enrollmentIds.foldlM destroyEnrollment m.toDatabase
    let recordingIds := (db.recordings.filter (·.cohortId == cohort.id)).map (·.id)
    let workspaceIds := (m.workspaces.filter (·.cohortId == some cohort.id)).map (·.id)
    let conversationIds := (db.directConversations.filter fun conversation =>
      workspaceIds.contains conversation.workspaceId ||
        conversation.cohortId == some cohort.id).map (·.id)
    let db := { db with
      cohorts := deleteAll (·.id == cohort.id) db.cohorts
      cohortModuleSchedules := deleteAll (·.cohortId == cohort.id) db.cohortModuleSchedules
      submissionWindows := deleteAll (·.cohortId == cohort.id) db.submissionWindows
      recordings := deleteAll (·.cohortId == cohort.id) db.recordings
      watchProgresses := deleteAll (fun row => recordingIds.contains row.recordingId)
        db.watchProgresses
      directConversations := deleteAll (fun row => conversationIds.contains row.id)
        db.directConversations
      directConversationMembers := deleteAll
        (fun row => conversationIds.contains row.directConversationId)
        db.directConversationMembers }
    .ok { m with
      toDatabase := db
      workspaces := deleteAll (·.cohortId == some cohort.id) m.workspaces
      workspaceMemberships := deleteAll (fun row => workspaceIds.contains row.workspaceId)
        m.workspaceMemberships
      channels := deleteAll
        (fun row => workspaceIds.contains row.workspaceId || row.cohortId == some cohort.id)
        m.channels }

end MessagingDatabase

/-- The requests that change who sees or receives messages, and the requests of the other
controllers. -/
inductive MessagingRequest where
  | createWorkspace (currentUser : User) (params : MessagingDatabase.WorkspaceParams)
      (slugs : List String) (userIds : List ℕ)
  | updateWorkspace (currentUser : User) (id : ℕ) (params : MessagingDatabase.WorkspaceParams)
  | createMemberships (currentUser : User) (workspaceId : ℕ) (userIds : List ℕ)
  | destroyMembership (currentUser : User) (workspaceId userId : ℕ)
  | createChannel (currentUser : User) (choice : MessagingDatabase.WorkspaceChoice)
      (params : MessagingDatabase.ChannelParams)
  | updateChannel (currentUser : User) (id : ℕ) (params : MessagingDatabase.ChannelParams)
  | destroyChannel (currentUser : User) (id : ℕ)
  | createDirectConversation (currentUser : User) (choice : MessagingDatabase.WorkspaceChoice)
      (userIds : List ℕ)
  | createBlock (currentUser : User) (blockedUserId : ℕ)
  | destroyBlock (currentUser : User) (blockedUserId : ℕ)
  | createUser (currentUser : User) (existing : Option ℕ) (role : Option Role)
  | updateUser (currentUser : User) (id : ℕ) (role : Option Role)
  | destroyUser (currentUser : User) (id : ℕ) (deletable : Bool) (now : Time)
  | unarchiveUser (currentUser : User) (id : ℕ)
  | createCohort (currentUser : User) (params : CohortParams)
      (label : MessagingDatabase.CohortLabel)
  | destroyCohort (currentUser : User) (id : ℕ)
  | platform (request : PlatformRequest)

def MessagingRequest.execute (m : MessagingDatabase) :
    MessagingRequest → Except Failure MessagingDatabase
  | .createWorkspace currentUser params slugs userIds =>
    m.createWorkspace currentUser params slugs userIds
  | .updateWorkspace currentUser id params => m.updateWorkspace currentUser id params
  | .createMemberships currentUser workspaceId userIds =>
    m.createMemberships currentUser workspaceId userIds
  | .destroyMembership currentUser workspaceId userId =>
    m.destroyMembership currentUser workspaceId userId
  | .createChannel currentUser choice params => m.createChannel currentUser choice params
  | .updateChannel currentUser id params => m.saveChannel currentUser id params
  | .destroyChannel currentUser id => m.destroyChannel currentUser id
  | .createDirectConversation currentUser choice userIds =>
    m.createDirectConversation currentUser choice userIds
  | .createBlock currentUser blockedUserId => m.createBlock currentUser blockedUserId
  | .destroyBlock currentUser blockedUserId => m.destroyBlock currentUser blockedUserId
  | .createUser currentUser existing role => m.createUser currentUser existing role
  | .updateUser currentUser id role => m.updateUser currentUser id role
  | .destroyUser currentUser id deletable now => m.destroyUser currentUser id deletable now
  | .unarchiveUser currentUser id => m.unarchiveUser currentUser id
  | .createCohort currentUser params label => m.createCohort currentUser params label
  | .destroyCohort currentUser id => m.destroyCohort currentUser id
  | .platform request =>
    (request.execute m.toDatabase).map fun db => { m with toDatabase := db }

/-- A failed request leaves the database as it was. -/
def MessagingRequest.perform (m : MessagingDatabase) (request : MessagingRequest) :
    MessagingDatabase :=
  match request.execute m with
  | .ok m' => m'
  | .error _ => m

end LearningPlatform
