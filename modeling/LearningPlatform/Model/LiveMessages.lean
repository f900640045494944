import LearningPlatform.Model.MessageRequests

/-! # Broadcasts and the web client

Requests on messages statement by statement, each followed by its broadcasts, the job that sends
read receipts, and the list of the conversation that the web page shows. A broadcast renders the
record that the request holds in memory. The events of one user arrive in the order in which they
were sent. -/

namespace LearningPlatform

open Shared

/-! ## The list on the page -/

/-- `new Date(created_at).getTime()` and the id. -/
def MessageJson.clientKey (message : MessageJson) : ℕ ×ₗ ℕ :=
  toLex (message.createdAt / 1000, message.id)

def sortChronologicalMessages (messages : List MessageJson) : List MessageJson :=
  orderBy MessageJson.clientKey messages

/-- An own reaction that the page shows stays, as the sender of an event may not know of it. -/
def mergeIncomingMessage (existing incoming : MessageJson) : MessageJson :=
  { incoming with
    reactions := incoming.reactions.map fun reaction =>
      match existing.reactions.find? (·.emoji == reaction.emoji) with
      | some shown => { reaction with reacted := shown.reacted || reaction.reacted }
      | none => reaction }

/-- The conversation that is selected on the page of a user. -/
structure WebConversation where
  user : User
  target : Destination
  messages : List MessageJson := []
  /-- The messages whose deletion the page has processed; the code keeps no such list. -/
  deletionsProcessed : List ℕ := []

namespace WebConversation

/-- `belongsToTarget`. -/
def belongs? (page : WebConversation) (event : BroadcastJson) : Bool :=
  match page.target with
  | .channel row => event.channelId == some row.id
  | .directConversation row => event.directConversationId == some row.id

/-- The change of `messages` in the handler of `subscribeToUserMessages`. -/
def merge (messages : List MessageJson) (event : BroadcastJson) : List MessageJson :=
  let message := event.message
  if event.event = .deleted then messages.filter (·.id != message.id)
  else if messages.any (·.id == message.id) then
    sortChronologicalMessages (messages.map fun item =>
      if item.id == message.id then mergeIncomingMessage item message else item)
  else sortChronologicalMessages (messages ++ [message])

def receive (page : WebConversation) (event : BroadcastJson) : WebConversation :=
  if page.belongs? event then
    { page with
      messages := merge page.messages event
      deletionsProcessed :=
        if event.event = .deleted then event.message.id :: page.deletionsProcessed
        else page.deletionsProcessed }
  else page

end WebConversation

/-! ## Calls -/

/-- The requests on messages, reactions, and `ReadReceiptBroadcastJob`. -/
inductive LiveCall where
  | request (sender : Sender) (request : MessageRequest)
  | react (sender : Sender) (id : ℕ) (emoji : String)
  | unreact (sender : Sender) (id : ℕ) (emoji : String)
  | readReceipts (destination : Destination) (readerId : ℕ) (previousLastReadAt : Option Time)
  deriving DecidableEq, Repr

/-- A broadcast that a call has still to make: of a record in memory, or of `root.reload`. -/
inductive PendingBroadcast where
  | copy (event : BroadcastEvent) (message : Message)
  | reload (id : ℕ)
  deriving DecidableEq, Repr

inductive LivePhase where
  | waiting
  | refused
  | loaded (message : Message)
  | sending (pending : List PendingBroadcast)
  deriving DecidableEq, Repr

/-- The phase after a broadcast that failed. -/
def LivePhase.lose? : LivePhase → Option LivePhase
  | .sending (_ :: rest) => some (.sending rest)
  | _ => none

inductive LiveAction where
  | tick (duration : ℕ)
  /-- The tables without messages change. -/
  | tables (database : MessagingDatabase)
  /-- The next event reaches the page. -/
  | deliver
  | next
  /-- `safe_broadcast` logs an error and goes on. -/
  | lose

/-- The tables, the clock, the events under way and the page. -/
structure LiveDesk where
  desk : MessageDesk
  now : Time := 0
  wire : List BroadcastJson := []
  page : WebConversation

namespace MessageDesk

/-- The rows of `react`. The validation of `create_or_find_by!` finds a reaction that is there. -/
def react! (desk : MessageDesk) (sender : Sender) (emoji : String) (message : Message) :
    Except Failure MessageDesk :=
  let emoji := strip emoji
  let reaction : MessageReaction := { messageId := message.id, userId := sender.user.id, emoji }
  if !sender.termsAccepted then
    .error (.forbidden "Accept the current Community Guidelines and Terms before sharing content")
  else if !desk.store.editable? sender.user message then
    .error (.forbidden "Cannot react to this message")
  else if message.deletedAt.isSome then
    .error (.forbidden "Cannot react to deleted messages")
  else if blank? emoji then .error (.unprocessable "Emoji is required")
  else
    saveUnless (lengthErrors "Emoji" 32 (some emoji) ++
        if desk.store.messageReactions.contains reaction then ["Emoji has already been taken"]
        else [])
      { desk with store := { desk.store with
          messageReactions := desk.store.messageReactions ++ [reaction] } }

def unreact! (desk : MessageDesk) (sender : Sender) (emoji : String) (message : Message) :
    Except Failure MessageDesk :=
  let emoji := strip emoji
  if !desk.store.editable? sender.user message then
    .error (.forbidden "Cannot remove reactions from this message")
  else if message.deletedAt.isSome then
    .error (.forbidden "Cannot remove reactions from deleted messages")
  else if blank? emoji then .error (.unprocessable "Emoji is required")
  else
    .ok { desk with store := { desk.store with
      messageReactions := deleteAll (fun row => row.messageId == message.id &&
        row.userId == sender.user.id && row.emoji == emoji) desk.store.messageReactions } }

end MessageDesk

/-- The record in memory after its update was saved. -/
def Message.saved (loaded changed : Message) (now : Time) : Message :=
  loaded.update changed loaded now

/-- `updated(thread_root(message).reload)`, if the message is a reply. -/
def Message.rootBroadcast (message : Message) : List PendingBroadcast :=
  match message.parentMessageId with
  | none => []
  | some id => [.reload id]

namespace LiveDesk

/-- The messages that `ReadReceiptBroadcastJob` loads. -/
def receiptMessages (s : LiveDesk) (destination : Destination) (readerId : ℕ)
    (previousLastReadAt : Option Time) : List Message :=
  (orderByDesc Message.key ((s.desk.store.scopeOf destination).messages.filter fun message =>
    message.authorId != readerId &&
      previousLastReadAt.all fun previous => previous < message.createdAt)).take 50

/-- The message of a post and the broadcasts that follow its transaction. -/
def post (storage : AttachmentStorage) (s : LiveDesk) (sender : Sender) (request : MessageRequest)
    (destination : Option Destination) (params : MessageParams) : LiveDesk × LivePhase :=
  match destination, s.desk.handle! storage sender s.now request with
  | some destination, .ok desk =>
    let message := s.desk.messageFor destination sender.user params s.now
    ({ s with desk }, .sending (.copy .created message :: message.rootBroadcast))
  | _, _ => (s, .refused)

/-- `set_message`. -/
def load (s : LiveDesk) (id : ℕ) : LiveDesk × LivePhase :=
  match s.desk.store.message? id with
  | none => (s, .refused)
  | some message => (s, .loaded message)

def start (storage : AttachmentStorage) (s : LiveDesk) : LiveCall → LiveDesk × LivePhase
  | .request sender (.create channelId params) =>
    s.post storage sender (.create channelId params)
      ((s.desk.store.channel? channelId).map .channel) params
  | .request sender (.createDirect conversationId params) =>
    s.post storage sender (.createDirect conversationId params)
      ((s.desk.store.conversation? conversationId).map .directConversation) params
  | .request _ (.update id _) => s.load id
  | .request _ (.destroy id) => s.load id
  | .request _ (.pin id) => s.load id
  | .request _ (.unpin id) => s.load id
  | .react _ id _ => s.load id
  | .unreact _ id _ => s.load id
  | .readReceipts destination readerId previousLastReadAt =>
    (s, .sending ((s.receiptMessages destination readerId previousLastReadAt).map
      (.copy .updated)))

/-- The update of a loaded message, and the broadcasts that follow it. -/
def save (s : LiveDesk) (result : Except Failure MessageDesk)
    (pending : List PendingBroadcast) : LiveDesk × LivePhase :=
  match result with
  | .error _ => (s, .refused)
  | .ok desk => ({ s with desk }, .sending pending)

/-- The mentions that `update` saves. -/
def editMentions (s : LiveDesk) (sender : Sender) (params : MessageParams) (message : Message) :
    List ℕ :=
  match s.desk.store.destination? message with
  | none => []
  | some destination => s.desk.store.sanitizedMentionUserIds sender.user params destination

/-- The checks and the write of a call that has loaded its message. -/
def write (s : LiveDesk) (message : Message) : LiveCall → LiveDesk × LivePhase
  | .request sender (.update _ params) =>
    let changed := message.assignEdit params.body (s.editMentions sender params message) s.now
    s.save (s.desk.update! sender params s.now message)
      [.copy .updated (message.saved changed s.now)]
  | .request sender (.destroy _) =>
    s.save (s.desk.destroy! sender s.now message)
      (.copy .deleted (message.saved (message.assignDeleted s.now) s.now) ::
        message.rootBroadcast)
  | .request sender (.pin _) =>
    s.save (s.desk.pin! sender s.now message)
      [.copy .updated (message.saved (message.assignPin sender.user s.now) s.now)]
  | .request sender (.unpin _) =>
    s.save (s.desk.unpin! sender s.now message)
      [.copy .updated (message.saved message.assignUnpin s.now)]
  | .react sender _ emoji =>
    s.save (s.desk.react! sender emoji message) [.copy .updated message]
  | .unreact sender _ emoji =>
    s.save (s.desk.unreact! sender emoji message) [.copy .updated message]
  | .request _ (.create _ _) | .request _ (.createDirect _ _) | .readReceipts _ _ _ =>
    (s, .refused)

/-- The event and the record of a broadcast. -/
def record? (s : LiveDesk) : PendingBroadcast → Option (BroadcastEvent × Message)
  | .copy event message => some (event, message)
  | .reload id => (s.desk.store.message? id).map fun message => (.updated, message)

/-- The payload for the user of the page, who gets it as a recipient. -/
def payload? (services : MessageServices) (s : LiveDesk) (pending : PendingBroadcast) :
    Option BroadcastJson :=
  (s.record? pending).bind fun (event, message) =>
    (s.desk.store.destination? message).bind fun destination =>
      if (destination.recipients s.desk.store.toMessagingDatabase).any (·.id == s.page.user.id) then
        some (s.desk.store.payloadForUser services s.page.user event message destination)
      else none

def broadcast (services : MessageServices) (s : LiveDesk) (pending : PendingBroadcast) : LiveDesk :=
  { s with wire := s.wire ++ (s.payload? services pending).toList }

def next (services : MessageServices) (storage : AttachmentStorage) (call : LiveCall)
    (s : LiveDesk) : LivePhase → Option (LiveDesk × LivePhase)
  | .waiting => some (s.start storage call)
  | .loaded message => some (s.write message call)
  | .sending (pending :: rest) => some (s.broadcast services pending, .sending rest)
  | .sending [] => none
  | .refused => none

def act {ι : Type*} (services : MessageServices) (storage : AttachmentStorage)
    (calls : ι → LiveCall) : Processes.Statement ι LiveDesk LivePhase LiveAction
  | _, .tick duration, s, phase => some ({ s with now := s.now + duration }, phase)
  | _, .tables database, s, phase =>
    some ({ s with desk := { s.desk with
      store := { s.desk.store with toMessagingDatabase := database } } }, phase)
  | _, .deliver, s, phase =>
    match s.wire with
    | [] => none
    | event :: wire => some ({ s with wire, page := s.page.receive event }, phase)
  | i, .next, s, phase => s.next services storage (calls i) phase
  | _, .lose, s, phase => phase.lose?.map (s, ·)

end LiveDesk

end LearningPlatform
