import LearningPlatform.Model.HelpRequest
import LearningPlatform.Model.MessageView
import LearningPlatform.Shared.Process

/-! # Posting in a channel and marking it read

`MessagesController#create` and `ChannelsController#mark_read` on one channel, statement by
statement. A post takes its timestamp before its row is committed, and `mark_read!` takes
`last_read_at` after the last message was selected. -/

namespace LearningPlatform

open Shared

/-! ## Messages counted as read -/

namespace MessageStore

/-- The messages that `unread_count_for` counts. -/
def unreadMessages (s : MessageStore) (user : User) (destination : Destination) : List Message :=
  (s.scopeOf destination).messages.filter fun message =>
    message.authorId != user.id &&
      (s.lastReadAt user destination).all fun lastReadAt => lastReadAt < message.createdAt

/-- The users that `read_receipts_for` finds for a message. -/
def receiptReaders (s : MessageStore) (destination : Destination) (message : Message) : List ℕ :=
  ((s.readers destination).filter fun (userId, lastReadAt) =>
    userId != message.authorId && message.createdAt ≤ lastReadAt).map (·.1)

/-- A message that is not unread for the user in the lists, or shows the user as a reader. -/
def CountedAsRead (s : MessageStore) (destination : Destination) (user : User)
    (message : Message) : Prop :=
  message ∈ (s.scopeOf destination).messages ∧
    (message ∉ s.unreadMessages user destination ∨ user.id ∈ s.receiptReaders destination message)

instance (s : MessageStore) (destination : Destination) (user : User) (message : Message) :
    Decidable (s.CountedAsRead destination user message) :=
  inferInstanceAs (Decidable (_ ∧ _))

end MessageStore

/-! ## Read states -/

/-- `mark_read!` on a loaded read state writes the columns that change. -/
def ChannelReadState.markRead! (copy : ChannelReadState) (message : Option Message) (now : Time)
    (state : ChannelReadState) : ChannelReadState :=
  { state with
    lastReadMessageId :=
      changedColumn copy.lastReadMessageId (message.map (·.id)) state.lastReadMessageId
    lastReadAt := changedColumn copy.lastReadAt (some now) state.lastReadAt }

namespace MessageStore

/-- The row of the unique index on user and channel. -/
def readState? (s : MessageStore) (userId channelId : ℕ) : Option ChannelReadState :=
  s.channelReadStates.find? fun state => state.userId == userId && state.channelId == channelId

def findOrCreateReadState (s : MessageStore) (userId channelId : ℕ) :
    MessageStore × ChannelReadState :=
  match s.readState? userId channelId with
  | some state => (s, state)
  | none =>
    let state := { userId, channelId }
    ({ s with channelReadStates := s.channelReadStates ++ [state] }, state)

def markRead! (s : MessageStore) (copy : ChannelReadState) (message : Option Message)
    (now : Time) : MessageStore :=
  { s with
    channelReadStates := updateAll
      (fun state => state.userId == copy.userId && state.channelId == copy.channelId)
      (copy.markRead! message now) s.channelReadStates }

end MessageStore

/-! ## Posts -/

/-- The parameters of a post. `attached` says that there are attachments, which passed their
checks; the ids are those that `sanitized_mention_user_ids_for` keeps. -/
structure MessageDraft where
  body : String := ""
  parentMessageId : Option ℕ := none
  mentionUserIds : List ℕ := []
  attached : Bool := false
  deriving DecidableEq, Repr

namespace MessageStore

/-- The validations of a message in a channel. -/
def draftErrors (s : MessageStore) (channel : Channel) (draft : MessageDraft) : List String :=
  let parent := draft.parentMessageId.bind s.message?
  lengthErrors "Body" 5000 (presence (some draft.body)) ++
  errorsIf (draft.parentMessageId.isSome && !parent.any fun parent =>
      parent.channelId == some channel.id && parent.directConversationId == none)
    ["Parent message must belong to the same conversation"] ++
  errorsIf (parent.any (·.parentMessageId.isSome)) ["Parent message must be a thread root"]

/-- The checks of `MessagesController#create`. -/
def acceptsPost? (s : MessageStore) (channel : Channel) (author : User) (draft : MessageDraft) :
    Bool :=
  s.channelCanPost? channel author && !(blank? (strip draft.body) && !draft.attached) &&
    (s.draftErrors channel draft).isEmpty

/-- The row becomes visible. Primary keys come from a sequence, so none is used twice. -/
def commitMessage? (s : MessageStore) (message : Message) : Option MessageStore :=
  if h : message.id ∈ s.messages.map (·.id) then none
  else some
    { s with
      messages := s.messages ++ [message]
      messageIds := by
        rw [List.map_append, List.nodup_append]
        refine ⟨s.messageIds, List.nodup_singleton _, ?_⟩
        rintro id hid other hother rfl
        obtain rfl : id = message.id := by simpa using hother
        exact h hid }

end MessageStore

/-! ## Calls -/

inductive ReadCall where
  | markRead (user : User)
  | post (author : User) (draft : MessageDraft)
  deriving DecidableEq, Repr

/-- What `mark_read!` is called for. The code keeps the last message only; `visible` are the
messages that were visible up to it when it was chosen. -/
structure ReadMark where
  userId : ℕ
  lastMessage : Option Message
  visible : List Message
  upToLast : ∀ message ∈ visible, ∃ last ∈ lastMessage, message.key ≤ last.key
  deriving DecidableEq

inductive ReadPhase where
  | waiting
  | refused
  | stamped (author : User) (draft : MessageDraft) (createdAt : Time)
  | inserted (message : Message)
  | chosen (mark : ReadMark)
  | loaded (mark : ReadMark) (copy : ChannelReadState)
  | finished (mark : ReadMark) (lastReadAt : Time)
  deriving DecidableEq

inductive ReadAction where
  | tick (duration : ℕ)
  | next
  deriving DecidableEq, Repr

/-- The committed rows, the sequence of message ids and the clock. -/
structure ReadDesk where
  store : MessageStore
  nextMessageId : ℕ
  now : Time

namespace ReadDesk

/-- `@channel.messages.visible.order(created_at: :desc, id: :desc).first`. -/
def chooseLast (desk : ReadDesk) (channel : Channel) (user : User) : ReadMark where
  userId := user.id
  lastMessage := desk.store.latestMessage (.channel channel)
  visible := (desk.store.scopeOf (.channel channel)).messages
  upToLast _ hmessage := le_of_head?_orderByDesc hmessage

/-- `mark_read_for` is called with the message of the post. -/
def chooseOwn (store : MessageStore) (channel : Channel) (message : Message) : ReadMark where
  userId := message.authorId
  lastMessage := some message
  visible := (store.scopeOf (.channel channel)).messages.filter (·.key ≤ message.key)
  upToLast _ hmessage := ⟨message, rfl, by simpa using (List.mem_filter.mp hmessage).2⟩

def messageOf (desk : ReadDesk) (channel : Channel) (author : User) (draft : MessageDraft)
    (createdAt : Time) : Message :=
  { id := desk.nextMessageId
    channelId := some channel.id
    authorId := author.id
    body := some draft.body
    mentionUserIds := draft.mentionUserIds
    parentMessageId := draft.parentMessageId
    createdAt
    updatedAt := createdAt }

/-- The checks of a call, and the selection or the timestamp that follows them. -/
def start (desk : ReadDesk) (channel : Channel) : ReadCall → ReadPhase
  | .markRead user =>
    if desk.store.channelVisibleTo? channel user then .chosen (desk.chooseLast channel user)
    else .refused
  | .post author draft =>
    if desk.store.acceptsPost? channel author draft then .stamped author draft desk.now
    else .refused

def next (channel : Channel) (call : ReadCall) (desk : ReadDesk) :
    ReadPhase → Option (ReadDesk × ReadPhase)
  | .waiting => some (desk, desk.start channel call)
  | .stamped author draft createdAt =>
    some ({ desk with nextMessageId := desk.nextMessageId + 1 },
      .inserted (desk.messageOf channel author draft createdAt))
  | .inserted message =>
    (desk.store.commitMessage? message).map fun store =>
      ({ desk with store }, .chosen (chooseOwn store channel message))
  | .chosen mark =>
    let (store, copy) := desk.store.findOrCreateReadState mark.userId channel.id
    some ({ desk with store }, .loaded mark copy)
  | .loaded mark copy =>
    some ({ desk with store := desk.store.markRead! copy mark.lastMessage desk.now },
      .finished mark desk.now)
  | .finished _ _ => none
  | .refused => none

/-- Time may pass before every statement. -/
def act {ι : Type*} (channel : Channel) (calls : ι → ReadCall) :
    Processes.Statement ι ReadDesk ReadPhase ReadAction
  | _, .tick duration, desk, phase => some ({ desk with now := desk.now + duration }, phase)
  | i, .next, desk, phase => desk.next channel (calls i) phase

end ReadDesk

end LearningPlatform
