import LearningPlatform.Model.Messaging
import LearningPlatform.Model.MessageWindow
import Mathlib.Data.List.Infix

/-! # Messages as a user receives them

`MessageJson`, the pages, lists and threads that show it, the broadcasts, the notification list
and the message search. A message whose author is in a block relation with the reader is masked
when it is rendered. Names of cohorts, the timestamps of channels and conversations and the order
of the lists by name are left out. -/

namespace LearningPlatform

open Shared

/-! ## Rows -/

/-- The columns of a user that a payload shows. -/
structure UserProfile where
  userId : ℕ
  fullName : String
  email : String
  avatarUrl : Option String := none
  deriving DecidableEq, Repr

structure MessageAttachment where
  id : ℕ
  messageId : ℕ
  filename : String
  contentType : String
  byteSize : ℕ
  s3Key : String
  deriving DecidableEq, Repr

structure MessageReaction where
  messageId : ℕ
  userId : ℕ
  emoji : String
  deriving DecidableEq, Repr

structure ChannelReadState where
  userId : ℕ
  channelId : ℕ
  lastReadMessageId : Option ℕ := none
  lastReadAt : Option Time := none
  deriving DecidableEq, Repr

/-- The column `last_read_at` of a member of a direct conversation. -/
structure DirectReadState where
  userId : ℕ
  directConversationId : ℕ
  lastReadAt : Option Time := none
  deriving DecidableEq, Repr

inductive PreferenceTarget where
  | channel (id : ℕ)
  | directConversation (id : ℕ)
  deriving DecidableEq, Repr

structure MessagePreference where
  userId : ℕ
  target : PreferenceTarget
  muted : Bool := false
  deriving DecidableEq, Repr

/-- The database with the tables of the messages. -/
structure MessageStore extends MessagingDatabase where
  messages : List Message := []
  messageIds : (messages.map (·.id)).Nodup
  messageAttachments : List MessageAttachment := []
  messageReactions : List MessageReaction := []
  channelReadStates : List ChannelReadState := []
  directReadStates : List DirectReadState := []
  messagePreferences : List MessagePreference := []
  userProfiles : List UserProfile := []

/-- What the code asks of other systems: presigned URLs, if the object storage is configured, and
the lower case of the database and of Ruby. -/
structure MessageServices where
  presignedUrl : Option (String → String) := none
  lower : String → String
  downcase : String → String

/-! ## Payloads -/

structure UserJson where
  id : ℕ
  fullName : String
  email : String
  role : Option Role
  avatarUrl : Option String
  deriving DecidableEq, Repr

/-- `reaction_user_json` and `receipt_user_json`. -/
structure PersonJson where
  id : ℕ
  fullName : String
  avatarUrl : Option String
  deriving DecidableEq, Repr

structure AttachmentJson where
  id : ℕ
  filename : String
  contentType : String
  byteSize : ℕ
  image : Bool
  url : Option String
  deriving DecidableEq, Repr

structure ReactionJson where
  emoji : String
  count : ℕ
  reacted : Bool
  users : List PersonJson
  deriving DecidableEq, Repr

structure ReceiptsJson where
  count : ℕ
  users : List PersonJson
  deriving DecidableEq, Repr

structure MessageJson where
  id : ℕ
  channelId : Option ℕ
  directConversationId : Option ℕ
  parentMessageId : Option ℕ
  body : String
  mentionUserIds : List ℕ
  editedAt : Option Time
  deletedAt : Option Time
  pinnedAt : Option Time
  pinnedById : Option ℕ
  createdAt : Time
  updatedAt : Time
  mine : Bool
  blocked : Bool
  author : UserJson
  attachments : List AttachmentJson
  reactions : List ReactionJson
  replyCount : ℕ
  readReceipts : Option ReceiptsJson
  deriving DecidableEq, Repr

structure LatestJson where
  id : ℕ
  body : String
  createdAt : Time
  authorName : String
  deriving DecidableEq, Repr

structure ChannelJson where
  channel : Channel
  workspaceName : Option String
  workspaceType : Option WorkspaceType
  muted : Bool
  unreadCount : ℕ
  lastReadAt : Option Time
  latestMessage : Option LatestJson
  deriving DecidableEq, Repr

structure ConversationJson where
  conversation : DirectConversation
  workspaceName : Option String
  workspaceType : Option WorkspaceType
  title : String
  muted : Bool
  unreadCount : ℕ
  lastReadAt : Option Time
  latestMessage : Option LatestJson
  users : List UserJson
  deriving DecidableEq, Repr

/-- The channel or the conversation of a page or broadcast. -/
inductive PlaceJson where
  | channel (channel : ChannelJson)
  | directConversation (conversation : ConversationJson)
  deriving DecidableEq, Repr

structure MessagePage where
  place : PlaceJson
  messages : List MessageJson
  pinnedMessages : List MessageJson
  pageMeta : MessageWindowMeta
  deriving DecidableEq, Repr

structure ThreadJson where
  rootMessage : MessageJson
  replies : List MessageJson
  deriving DecidableEq, Repr

inductive BroadcastEvent where
  | created
  | updated
  | deleted
  deriving DecidableEq, Repr

structure BroadcastJson where
  event : BroadcastEvent
  channelId : Option ℕ
  directConversationId : Option ℕ
  message : MessageJson
  place : Option PlaceJson
  deriving DecidableEq, Repr

/-- `json[:context]` of a search result. -/
structure SearchContext where
  label : String
  workspaceId : Option ℕ
  cohortId : Option ℕ
  deriving DecidableEq, Repr

structure NotificationJson where
  notification : Notification
  actorName : Option String
  actorEmail : Option String
  deriving DecidableEq, Repr

structure NotificationList where
  notifications : List NotificationJson
  unreadCount : ℕ
  totalCount : ℕ
  page : ℕ
  perPage : ℕ
  deriving DecidableEq, Repr

/-! ## Rendering a message -/

namespace MessageStore

variable (s : MessageStore)

def profile (userId : ℕ) : UserProfile :=
  (s.userProfiles.find? (·.userId == userId)).getD { userId, fullName := "", email := "" }

def userJson (userId : ℕ) : UserJson where
  id := userId
  fullName := (s.profile userId).fullName
  email := (s.profile userId).email
  role := (s.user? userId).map (·.role)
  avatarUrl := (s.profile userId).avatarUrl

def personJson (userId : ℕ) : PersonJson where
  id := userId
  fullName := (s.profile userId).fullName
  avatarUrl := (s.profile userId).avatarUrl

/-- `user.blocked_relationship_user_ids`: outgoing and incoming blocks. -/
def blockedRelationshipUserIds (userId : ℕ) : List ℕ :=
  (s.userBlocks.filter (·.blockerId == userId)).map (·.blockedUserId) ++
    (s.userBlocks.filter (·.blockedUserId == userId)).map (·.blockerId)

/-- The author is someone else, in a block relation with the reader. -/
def blockedAuthor? (user : User) (authorId : ℕ) : Bool :=
  authorId != user.id && (s.blockedRelationshipUserIds user.id).contains authorId

def attachmentsOf (message : Message) : List MessageAttachment :=
  s.messageAttachments.filter (·.messageId == message.id)

def reactionsOf (message : Message) : List MessageReaction :=
  s.messageReactions.filter (·.messageId == message.id)

def attachmentJson (services : MessageServices) (streamUrl : Bool)
    (attachment : MessageAttachment) : AttachmentJson where
  id := attachment.id
  filename := attachment.filename
  contentType := attachment.contentType
  byteSize := attachment.byteSize
  image := "image/".toList.isPrefixOf attachment.contentType.toList
  url := if streamUrl then services.presignedUrl.map (· attachment.s3Key) else none

/-- `group_by(&:emoji)`: one entry per emoji, in the order of first occurrence. -/
def reactionJson (user : User) (message : Message) : List ReactionJson :=
  let reactions := s.reactionsOf message
  (reactions.map (·.emoji)).reverse.dedup.reverse.map fun emoji =>
    let group := reactions.filter (·.emoji == emoji)
    { emoji
      count := group.length
      reacted := group.any (·.userId == user.id)
      users := group.map fun reaction => s.personJson reaction.userId }

def replyCount (message : Message) : ℕ :=
  (s.messages.filter fun reply =>
    reply.parentMessageId == some message.id && reply.deletedAt.isNone).length

def render (services : MessageServices) (s : MessageStore) (user : User) (streamUrl : Bool)
    (readReceipts : Option ReceiptsJson) (message : Message) : MessageJson :=
  let blocked := s.blockedAuthor? user message.authorId
  { id := message.id
    channelId := message.channelId
    directConversationId := message.directConversationId
    parentMessageId := message.parentMessageId
    body := if blocked then "" else message.body.getD ""
    mentionUserIds := if blocked then [] else message.mentionUserIds
    editedAt := message.editedAt
    deletedAt := message.deletedAt
    pinnedAt := message.pinnedAt
    pinnedById := message.pinnedById
    createdAt := message.createdAt
    updatedAt := message.updatedAt
    mine := message.authorId == user.id
    blocked
    author := s.userJson message.authorId
    attachments :=
      if blocked then [] else (s.attachmentsOf message).map (attachmentJson services streamUrl)
    reactions := if blocked then [] else s.reactionJson user message
    replyCount := s.replyCount message
    readReceipts }

def attachmentPreview (message : Message) : String :=
  let count := (s.attachmentsOf message).length
  if count = 1 then "Attachment" else toString count ++ " attachments"

def latest (user : User) (message : Message) : LatestJson where
  id := message.id
  body :=
    if s.blockedAuthor? user message.authorId then "Message hidden"
    else (presence message.body).getD (s.attachmentPreview message)
  createdAt := message.createdAt
  authorName := (s.profile message.authorId).fullName

/-! ## Messages of a channel or conversation -/

/-- The condition of `destination.messages.visible`. -/
def visibleIn? (destination : Destination) (message : Message) : Bool :=
  message.deletedAt.isNone && match destination with
    | .channel channel => message.channelId == some channel.id
    | .directConversation conversation => message.directConversationId == some conversation.id

def scopeOf (destination : Destination) : MessageScope where
  messages := s.messages.filter (visibleIn? destination)
  ids := s.messageIds.sublist (List.filter_sublist.map _)

/-- The columns of `ORDER BY pinned_at, created_at, id`. -/
def pinKey (message : Message) : Time ×ₗ Time ×ₗ ℕ :=
  toLex (message.pinnedAt.getD 0, toLex (message.createdAt, message.id))

/-- `pinned_recent` with `PINNED_LIMIT`. -/
def pinnedRecent (destination : Destination) : List Message :=
  (orderByDesc pinKey ((s.scopeOf destination).messages.filter (·.pinnedAt.isSome))).take 25

def latestMessage (destination : Destination) : Option Message :=
  (orderByDesc Message.key (s.scopeOf destination).messages).head?

/-- `last_read_at` of a user in a channel or conversation. -/
def lastReadAt (user : User) : Destination → Option Time
  | .channel channel => (s.channelReadStates.find? fun state =>
    state.userId == user.id && state.channelId == channel.id).bind (·.lastReadAt)
  | .directConversation conversation => (s.directReadStates.find? fun state =>
    state.userId == user.id && state.directConversationId == conversation.id).bind (·.lastReadAt)

/-- `unread_count_for`. -/
def unreadCount (user : User) (destination : Destination) : ℕ :=
  ((s.scopeOf destination).messages.filter fun message =>
    message.authorId != user.id &&
      (s.lastReadAt user destination).all fun lastReadAt => lastReadAt < message.createdAt).length

/-- The readers that may appear in receipts, with the times up to which they have read. -/
def readers : Destination → List (ℕ × Time)
  | .channel channel =>
    let memberIds : List ℕ := match s.workspace? channel.workspaceId with
      | none => []
      | some workspace => (s.recipientUsers workspace).map fun member => member.id
    (s.channelReadStates.filter fun state =>
      state.channelId == channel.id && memberIds.contains state.userId).filterMap fun state =>
        state.lastReadAt.map (state.userId, ·)
  | .directConversation conversation =>
    (s.directReadStates.filter (·.directConversationId == conversation.id)).filterMap fun state =>
      state.lastReadAt.map (state.userId, ·)

def readReceiptsFor (destination : Destination) (message : Message) : ReceiptsJson :=
  let readers := (s.readers destination).filter fun (userId, lastReadAt) =>
    userId != message.authorId && message.createdAt ≤ lastReadAt
  { count := readers.length, users := (readers.take 5).map fun reader => s.personJson reader.1 }

def muted? (user : User) (destination : Destination) : Bool :=
  let target : PreferenceTarget := match destination with
    | .channel channel => .channel channel.id
    | .directConversation conversation => .directConversation conversation.id
  s.messagePreferences.any fun row => row.userId == user.id && row.target == target && row.muted

def titleFor (user : User) (conversation : DirectConversation) : String :=
  ", ".intercalate (((s.conversationUsers conversation.id).filter (·.id != user.id)).map
    fun other => (s.profile other.id).fullName)

/-- `channel_json` and `conversation_json`. -/
def placeJson (user : User) (latestMessage : Option Message) : Destination → PlaceJson
  | .channel channel => .channel
      { channel
        workspaceName := (s.workspace? channel.workspaceId).map (·.name)
        workspaceType := (s.workspace? channel.workspaceId).map (·.workspaceType)
        muted := s.muted? user (.channel channel)
        unreadCount := s.unreadCount user (.channel channel)
        lastReadAt := s.lastReadAt user (.channel channel)
        latestMessage := latestMessage.map (s.latest user) }
  | .directConversation conversation => .directConversation
      { conversation
        workspaceName := (s.workspace? conversation.workspaceId).map (·.name)
        workspaceType := (s.workspace? conversation.workspaceId).map (·.workspaceType)
        title := s.titleFor user conversation
        muted := s.muted? user (.directConversation conversation)
        unreadCount := s.unreadCount user (.directConversation conversation)
        lastReadAt := s.lastReadAt user (.directConversation conversation)
        latestMessage := latestMessage.map (s.latest user)
        users := (s.conversationUsers conversation.id).map fun other => s.userJson other.id }

/-! ## Pages, lists, threads and broadcasts -/

/-- `ChannelsController#show` and `DirectConversationsController#show`. -/
def showPage (services : MessageServices) (s : MessageStore) (user : User) (params : WindowParams)
    (destination : Destination) : MessagePage :=
  let scope := s.scopeOf destination
  let messages := scope.windowedMessages params
  { place := s.placeJson user messages.getLast? destination
    messages := messages.map fun message =>
      s.render services user true (some (s.readReceiptsFor destination message)) message
    pinnedMessages := (s.pinnedRecent destination).map (s.render services user true none)
    pageMeta := messageWindowMeta scope messages }

/-- The lists of the two controllers, with the latest message of every entry. -/
def indexPlaces (user : User) (destinations : List Destination) : List PlaceJson :=
  destinations.map fun destination =>
    s.placeJson user (s.latestMessage destination) destination

def message? (id : ℕ) : Option Message :=
  s.messages.find? (·.id == id)

/-- `message.channel || message.direct_conversation`. -/
def destination? (message : Message) : Option Destination :=
  match message.channelId.bind s.channel? with
  | some channel => some (.channel channel)
  | none => (message.directConversationId.bind s.conversation?).map .directConversation

/-- `message.parent_message || message`. -/
def threadRoot (message : Message) : Message :=
  (message.parentMessageId.bind s.message?).getD message

/-- `root.replies.visible.chronological`. -/
def repliesTo (root : Message) : List Message :=
  orderBy Message.key (s.messages.filter fun reply =>
    reply.parentMessageId == some root.id && reply.deletedAt.isNone)

def thread (services : MessageServices) (s : MessageStore) (user : User) (message : Message) :
    Except Failure ThreadJson :=
  let root := s.threadRoot message
  if (s.destination? root).any (·.visibleTo? s.toMessagingDatabase user) then
    .ok
      { rootMessage := s.render services user true none root
        replies := (s.repliesTo root).map (s.render services user true none) }
  else .error (.forbidden "Conversation is not visible")

/-- `payload_for_user`; only authors are told who has read a message. -/
def payloadForUser (services : MessageServices) (s : MessageStore) (user : User)
    (event : BroadcastEvent) (message : Message) (destination : Destination) : BroadcastJson where
  event
  channelId := message.channelId
  directConversationId := message.directConversationId
  message := s.render services user true
    (if message.authorId = user.id then some (s.readReceiptsFor destination message) else none)
    message
  place := some (s.placeJson user (s.latestMessage destination) destination)

/-! ## Notifications -/

/-- `Notification.visible_to`: not (a message type and a blocked actor). -/
def visibleNotifications (user : User) : List Notification :=
  let blockedActorIds := s.blockedRelationshipUserIds user.id
  s.notifications.filter fun row =>
    row.userId == user.id && (blockedActorIds.isEmpty ||
      !(["message", "direct_message"].contains row.notificationType &&
        row.actorId.all blockedActorIds.contains))

inductive NotificationSort where
  | createdDesc
  | createdAsc
  | readDesc
  | readAsc
  deriving DecidableEq, Repr

structure NotificationParams where
  notificationType : Option String := none
  read : Option Bool := none
  sort : NotificationSort := .createdDesc
  page : Option ℤ := none
  perPage : Option ℤ := none
  deriving DecidableEq, Repr

/-- The rows in the requested order; rows that are not read come first in descending order. -/
def NotificationSort.apply (rows : List Notification) : NotificationSort → List Notification
  | .createdDesc => rows.insertionSort fun first second => second.createdAt ≤ first.createdAt
  | .createdAsc => rows.insertionSort fun first second => first.createdAt ≤ second.createdAt
  | .readDesc => (rows.filter (·.readAt.isNone)).insertionSort
        (fun first second => second.createdAt ≤ first.createdAt) ++
      (rows.filter (·.readAt.isSome)).insertionSort fun first second =>
        toLex (second.readAt.getD 0, second.createdAt) ≤
          toLex (first.readAt.getD 0, first.createdAt)
  | .readAsc => (rows.filter (·.readAt.isSome)).insertionSort
        (fun first second => toLex (first.readAt.getD 0, first.createdAt) ≤
          toLex (second.readAt.getD 0, second.createdAt)) ++
      (rows.filter (·.readAt.isNone)).insertionSort fun first second =>
        first.createdAt ≤ second.createdAt

def notificationJson (row : Notification) : NotificationJson where
  notification := row
  actorName := row.actorId.map fun actorId => (s.profile actorId).fullName
  actorEmail := row.actorId.map fun actorId => (s.profile actorId).email

def notificationsIndex (user : User) (params : NotificationParams) : NotificationList :=
  let ofType := (s.visibleNotifications user).filter fun row =>
    params.notificationType.all (· == row.notificationType)
  let filtered := ofType.filter fun row => params.read.all (· == row.readAt.isSome)
  let page := (max 1 (min (params.page.getD 1) 10000)).toNat
  let perPage := (max 1 (min (params.perPage.getD 50) 100)).toNat
  { notifications := (((params.sort.apply filtered).drop ((page - 1) * perPage)).take perPage).map
      s.notificationJson
    unreadCount := (ofType.filter (·.readAt.isNone)).length
    totalCount := filtered.length
    page
    perPage }

/-! ## Search -/

/-- `LOWER(body) LIKE '%…%'` with the wildcards of the query escaped. -/
def matches? (services : MessageServices) (query : String) (message : Message) : Bool :=
  message.body.any fun body =>
    (services.downcase query).toList <:+: (services.lower body).toList

/-- The messages that a search may return. -/
def searchable? (user : User) (message : Message) : Bool :=
  message.deletedAt.isNone &&
    ((message.channelId.any fun id =>
        ((s.channelsVisibleFor user).map (·.id)).contains id) ||
      message.directConversationId.any fun id =>
        ((s.directConversationsVisibleFor user).map (·.id)).contains id)

/-- The messages that `MessagesSearchController#index` finds. -/
def found (services : MessageServices) (s : MessageStore) (user : User) (q : String)
    (limit : Option ℤ) : List Message :=
  let query := strip q
  if query.length < 2 then []
  else
    (orderByDesc Message.key
      (s.messages.filter fun message => matches? services query message &&
        s.searchable? user message)).take (max 1 (min (limit.getD 30) 50)).toNat

def searchContext (user : User) (message : Message) : Option SearchContext :=
  (s.destination? message).map fun
    | .channel channel =>
      { label := "#" ++ channel.name, workspaceId := some channel.workspaceId
        cohortId := channel.cohortId }
    | .directConversation conversation =>
      { label := s.titleFor user conversation, workspaceId := some conversation.workspaceId
        cohortId := conversation.cohortId }

def resultJson (services : MessageServices) (s : MessageStore) (user : User) (message : Message) :
    MessageJson × Option SearchContext :=
  (s.render services user false none message, s.searchContext user message)

end MessageStore

/-! ## Everything a user receives -/

inductive MessageQuery where
  | channels
  | channel (id : ℕ) (params : WindowParams)
  | directConversations
  | directConversation (id : ℕ) (params : WindowParams)
  | thread (messageId : ℕ)
  | broadcast (event : BroadcastEvent) (messageId : ℕ)
  | notifications (params : MessageStore.NotificationParams)
  | search (q : String) (limit : Option ℤ)
  deriving DecidableEq, Repr

inductive MessagePayload where
  | places (places : List PlaceJson)
  | page (page : MessagePage)
  | thread (thread : ThreadJson)
  /-- A broadcast, if the user is a recipient. -/
  | broadcast (payload : Option BroadcastJson)
  | notifications (list : NotificationList)
  | results (results : List (MessageJson × Option SearchContext))
  deriving DecidableEq, Repr

/-- What `user` receives in answer to a request, or when a message is broadcast. -/
def MessageStore.receive (services : MessageServices) (s : MessageStore) (user : User) :
    MessageQuery → Except Failure MessagePayload
  | .channels =>
    .ok (.places (s.indexPlaces user ((s.channelsVisibleFor user).map .channel)))
  | .channel id params => do
    let channel ← orNotFound (s.channel? id)
    if s.channelVisibleTo? channel user then
      .ok (.page (s.showPage services user params (.channel channel)))
    else .error (.forbidden "Channel is not visible")
  | .directConversations =>
    .ok (.places (s.indexPlaces user
      ((s.directConversationsVisibleFor user).map .directConversation)))
  | .directConversation id params => do
    let conversation ← orNotFound (s.conversation? id)
    if s.directVisibleTo? conversation user then
      .ok (.page (s.showPage services user params (.directConversation conversation)))
    else .error (.forbidden "Conversation is not visible")
  | .thread messageId => do
    let message ← orNotFound (s.message? messageId)
    (s.thread services user message).map .thread
  | .broadcast event messageId => do
    let message ← orNotFound (s.message? messageId)
    .ok (.broadcast ((s.destination? message).bind fun destination =>
      if (destination.recipients s.toMessagingDatabase).any (·.id == user.id) then
        some (s.payloadForUser services user event message destination)
      else none))
  | .notifications params => .ok (.notifications (s.notificationsIndex user params))
  | .search q limit =>
    .ok (.results ((s.found services user q limit).map (s.resultJson services user)))

end LearningPlatform
