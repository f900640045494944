import LearningPlatform.Model.Params
import LearningPlatform.Shared.JoinedKey

/-! # Direct conversations and user archival

`DirectConversation.find_or_create_for!`, `User#archive!` and `User#unarchive!`. -/

namespace LearningPlatform

open Shared

/-! ## Members and keys -/

def memberKeyFor (userIds : List ℕ) : String :=
  joinDecimals ':' (canonical userIds)

variable (db : Database)

def Database.memberIds (conversationId : ℕ) : List ℕ :=
  (db.directConversationMembers.filter (·.directConversationId == conversationId)).map (·.userId)

def Database.conversation? (id : ℕ) : Option DirectConversation :=
  db.directConversations.find? (·.id == id)

def Database.conversationUsers (conversationId : ℕ) : List User :=
  db.users.filter fun user => (db.memberIds conversationId).contains user.id

/-- `visible_to?`, with the workspace's own answer for the user as an argument. -/
def Database.conversationVisibleTo? (workspaceVisible : Bool) (conversationId userId : ℕ) : Bool :=
  workspaceVisible && (db.memberIds conversationId).contains userId

/-! ## Saving a conversation -/

/-- The validations of `member_key`: presence, and uniqueness within the workspace. -/
def Database.validateConversation (conversation : DirectConversation) : Except Failure Unit :=
  if conversation.memberKey = "" then
    .error (.recordInvalid ["Member key can't be blank"])
  else if db.directConversations.any fun other =>
      other.id != conversation.id && other.workspaceId == conversation.workspaceId &&
        other.memberKey == conversation.memberKey then
    .error (.recordInvalid ["Member key has already been taken"])
  else .ok ()

def Database.putConversation (conversation : DirectConversation) : Database :=
  { db with
    directConversations :=
      updateAll (·.id == conversation.id) (fun _ => conversation) db.directConversations }

def Database.updateConversation! (conversation : DirectConversation) : Except Failure Database := do
  db.validateConversation conversation
  .ok (db.putConversation conversation)

/-! ## `find_or_create_for!` -/

def Database.findConversation (workspaceId : ℕ) (memberKey : String) : Option DirectConversation :=
  db.directConversations.find? fun conversation =>
    conversation.workspaceId == workspaceId && conversation.memberKey == memberKey

/-- The transaction that stores a new conversation and one member row per user. -/
def Database.createConversation! (workspace : Workspace) (memberKey : String) (userIds : List ℕ) :
    Except Failure (Database × DirectConversation) := do
  let conversation : DirectConversation :=
    { id := db.nextId, workspaceId := workspace.id, cohortId := workspace.cohortId, memberKey }
  db.validateConversation conversation
  if userIds.all fun userId => (db.user? userId).isSome then
    .ok
      ({ db with
          directConversations := db.directConversations ++ [conversation]
          directConversationMembers :=
            db.directConversationMembers ++ userIds.map (⟨conversation.id, ·⟩)
          nextId := db.nextId + 1 },
        conversation)
  else .error (.recordInvalid ["User must exist"])

def findOrCreateFor! (workspace : Workspace) (users : List User) :
    Except Failure (Database × DirectConversation) :=
  let userIds := canonical (users.map (·.id))
  let memberKey := memberKeyFor userIds
  match db.findConversation workspace.id memberKey with
  | some conversation =>
    if conversation.status = .archived then
      let conversation := { conversation with status := .active }
      (db.updateConversation! conversation).map (·, conversation)
    else .ok (db, conversation)
  | none => db.createConversation! workspace memberKey userIds

/-! ## Archiving a user -/

def Database.setArchivedAt (userId : ℕ) (archivedAt : Option Time) : Database :=
  { db with users := updateAll (·.id == userId) (fun user => { user with archivedAt }) db.users }

def Database.activeMemberIds (conversationId : ℕ) : List ℕ :=
  ((db.conversationUsers conversationId).filter fun user => !user.archived?).map (·.id)

def Database.keyTaken? (conversation : DirectConversation) (memberKey : String) : Bool :=
  db.directConversations.any fun other =>
    other.workspaceId == conversation.workspaceId && other.id != conversation.id &&
      other.memberKey == memberKey

def Database.detachMember (conversationId userId : ℕ) : Database :=
  { db with
    directConversationMembers :=
      deleteAll (fun row => row.directConversationId == conversationId && row.userId == userId)
        db.directConversationMembers }

/-- One iteration of `archive_or_detach_direct_conversations!`. -/
def archiveOrDetach (userId : ℕ) (db : Database) (conversationId : ℕ) :
    Except Failure Database := do
  let conversation ← orNotFound (db.conversation? conversationId)
  let activeMemberIds := db.activeMemberIds conversationId
  let activeMemberKey := memberKeyFor activeMemberIds
  if activeMemberIds.length ≤ 1 then
    db.updateConversation! { conversation with status := .archived }
  else if db.keyTaken? conversation activeMemberKey then
    db.updateConversation! { conversation with status := .archived }
  else
    (db.detachMember conversationId userId).updateConversation!
      { conversation with memberKey := activeMemberKey }

/-- The conversations of a user in the order of `find_each`. -/
def Database.conversationIdsOf (userId : ℕ) : List ℕ :=
  ((db.directConversations.map (·.id)).filter fun id => (db.memberIds id).contains userId)
    |>.insertionSort (· ≤ ·)

def archiveOrDetachAll (userId : ℕ) : List ℕ → Database → Except Failure Database
  | [], db => .ok db
  | conversationId :: rest, db =>
    match archiveOrDetach userId db conversationId with
    | .error failure => .error failure
    | .ok db => archiveOrDetachAll userId rest db

/-- The transaction of `archive!`. Push tokens and subscriptions are not modelled. -/
def archive! (userId : ℕ) (now : Time) : Except Failure Database := do
  let _ ← orNotFound (db.user? userId)
  let db := db.setArchivedAt userId (some now)
  archiveOrDetachAll userId (db.conversationIdsOf userId) db

def unarchive! (userId : ℕ) : Except Failure Database := do
  let _ ← orNotFound (db.user? userId)
  .ok (db.setArchivedAt userId none)

/-! ## Call sequences -/

inductive ConversationCall where
  | findOrCreateFor (workspace : Workspace) (users : List User)
  | archive (userId : ℕ) (now : Time)
  | unarchive (userId : ℕ)

/-- The database after a call; a call that raises is rolled back. -/
def ConversationCall.perform : ConversationCall → Database
  | .findOrCreateFor workspace users =>
    match findOrCreateFor! db workspace users with
    | .ok (db', _) => db'
    | .error _ => db
  | .archive userId now =>
    match archive! db userId now with
    | .ok db' => db'
    | .error _ => db
  | .unarchive userId =>
    match unarchive! db userId with
    | .ok db' => db'
    | .error _ => db

end LearningPlatform
