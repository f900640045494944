import LearningPlatform.Model.ReadMarks

/-! # Requests on messages

`MessagesController`: posting in a channel or a direct conversation, editing, deleting, pinning
and unpinning. A request either fails or leaves the rows that its transaction committed. The read
states, notifications and broadcasts that follow the commit are not part of this model. -/

namespace LearningPlatform

open Shared

/-! ## Parameters -/

structure AttachmentParams where
  s3Key : String
  filename : String
  contentType : String
  byteSize : ℤ
  deriving DecidableEq, Repr

structure MessageParams where
  body : Option String := none
  parentMessageId : Option ℕ := none
  mentionUserIds : List ℕ := []
  attachments : List AttachmentParams := []
  deriving DecidableEq, Repr

/-- The current user and `CommunityPolicy.accepted?`. -/
structure Sender where
  user : User
  termsAccepted : Bool := true
  deriving DecidableEq, Repr

/-! ## Uploaded attachments -/

structure ObjectMetadata where
  contentType : String
  contentLength : ℤ
  deriving DecidableEq, Repr

/-- `S3Service.object_metadata`, if the storage is configured, and Ruby's `downcase`. -/
structure AttachmentStorage where
  objectMetadata : Option (String → Option ObjectMetadata) := none
  downcase : String → String

def Destination.messageAttachmentPrefix : Destination → String
  | .channel row => "message_attachments/channel_" ++ toString row.id ++ "/"
  | .directConversation row => "message_attachments/dm_" ++ toString row.id ++ "/"

namespace AttachmentStorage

/-- `downcase.split(";").first`, stripped; a text of semicolons has no first part. -/
def mediaType? (storage : AttachmentStorage) (contentType : String) : Option String :=
  let text := (storage.downcase contentType).toList
  if text.all (· == ';') then none
  else some (strip (String.ofList (text.takeWhile (· != ';'))))

def validateUploadedAttachment! (storage : AttachmentStorage) (destination : Destination)
    (attachment : AttachmentParams) : Except Failure Unit :=
  if !destination.messageAttachmentPrefix.toList.isPrefixOf attachment.s3Key.toList then
    .error (.recordInvalid ["Attachment path is not allowed"])
  else
    match storage.objectMetadata with
    | none => .ok ()
    | some objectMetadata =>
      match objectMetadata attachment.s3Key with
      | none => .error (.recordInvalid ["Attachment upload was not found"])
      | some metadata =>
        match storage.mediaType? metadata.contentType with
        | none => .error (.argumentError "undefined method 'strip' for nil")
        | some uploadedType =>
          if uploadedType ≠ storage.downcase attachment.contentType then
            .error (.recordInvalid ["Attachment content type does not match upload"])
          else if metadata.contentLength ≠ attachment.byteSize then
            .error (.recordInvalid ["Attachment size does not match upload"])
          else .ok ()

end AttachmentStorage

/-! ## Rows -/

namespace Message

def editableBy? (message : Message) (user : User) : Bool :=
  message.authorId == user.id || user.staff?

def assignEdit (message : Message) (body : Option String) (mentionUserIds : List ℕ)
    (now : Time) : Message :=
  { message with body, mentionUserIds, editedAt := some now }

def assignDeleted (message : Message) (now : Time) : Message :=
  { message with deletedAt := some now, pinnedAt := none, pinnedById := none }

def assignPin (message : Message) (user : User) (now : Time) : Message :=
  { message with pinnedAt := some now, pinnedById := some user.id }

def assignUnpin (message : Message) : Message :=
  { message with pinnedAt := none, pinnedById := none }

/-- An `UPDATE` of the changed columns of a row. -/
def update (loaded changed current : Message) (now : Time) : Message :=
  { current with
    body := savedColumn loaded changed current (·.body)
    mentionUserIds := savedColumn loaded changed current (·.mentionUserIds)
    editedAt := savedColumn loaded changed current (·.editedAt)
    deletedAt := savedColumn loaded changed current (·.deletedAt)
    pinnedAt := savedColumn loaded changed current (·.pinnedAt)
    pinnedById := savedColumn loaded changed current (·.pinnedById)
    updatedAt := if changed = loaded then current.updatedAt else now }

end Message

namespace Destination

def active? : Destination → Bool
  | .channel row => row.status == .active
  | .directConversation row => row.status == .active

def channelId? : Destination → Option ℕ
  | .channel row => some row.id
  | .directConversation _ => none

def directConversationId? : Destination → Option ℕ
  | .channel _ => none
  | .directConversation row => some row.id

end Destination

namespace MessageStore

def messageErrors (s : MessageStore) (message : Message) : List String :=
  let parent := message.parentMessageId.bind s.message?
  lengthErrors "Body" 5000 (presence message.body) ++
  errorsIf (message.channelId.isSome == message.directConversationId.isSome)
    ["must belong to one channel or direct conversation"] ++
  errorsIf (message.parentMessageId.isSome && !parent.any fun parent =>
      parent.channelId == message.channelId &&
        parent.directConversationId == message.directConversationId)
    ["Parent message must belong to the same conversation"] ++
  errorsIf (parent.any (·.parentMessageId.isSome)) ["Parent message must be a thread root"]

def attachmentErrors (s : MessageStore) (attachment : AttachmentParams) : List String :=
  presenceErrors "S3 key" (some attachment.s3Key) ++
  errorsIf (s.messageAttachments.any (·.s3Key == attachment.s3Key))
    ["S3 key has already been taken"] ++
  presenceErrors "Filename" (some attachment.filename) ++
  presenceErrors "Content type" (some attachment.contentType) ++
  errorsIf (attachment.byteSize ≤ 0) ["Byte size must be greater than 0"]

/-- `update` and `update!` of a loaded row. -/
def updateMessage! (s : MessageStore) (loaded changed : Message) (now : Time) :
    Except Failure MessageStore :=
  saveUnless (s.messageErrors changed)
    { s with
      messages := updateAll (·.id == loaded.id) (loaded.update changed · now) s.messages
      messageIds := by
        rw [map_updateAll (f := (loaded.update changed · now)) (·.id) fun _ => rfl]
        exact s.messageIds }

/-- `message_channel_editable?`. -/
def editable? (s : MessageStore) (user : User) (message : Message) : Bool :=
  (s.destination? message).any fun destination =>
    destination.active? && destination.visibleTo? s.toMessagingDatabase user

/-- `sanitized_mention_user_ids_for`; the values of the parameter are numbers. -/
def sanitizedMentionUserIds (s : MessageStore) (user : User) (params : MessageParams)
    (destination : Destination) : List ℕ :=
  (((destination.recipients s.toMessagingDatabase).map (·.id)).filter
    params.mentionUserIds.contains).filter (· != user.id)

end MessageStore

/-! ## Requests -/

/-- The tables with the id sequences of messages and attachments. -/
structure MessageDesk where
  store : MessageStore
  nextMessageId : ℕ := 1
  nextAttachmentId : ℕ := 1

namespace MessageDesk

/-- One round of `persist_files!`. -/
def persistFile! (messageId : ℕ) (desk : MessageDesk) (attachment : AttachmentParams) :
    Except Failure MessageDesk :=
  saveUnless (desk.store.attachmentErrors attachment)
    { desk with
      store := { desk.store with
        messageAttachments := desk.store.messageAttachments ++
          [{ id := desk.nextAttachmentId
             messageId
             filename := attachment.filename
             contentType := attachment.contentType
             byteSize := attachment.byteSize.toNat
             s3Key := attachment.s3Key }] }
      nextAttachmentId := desk.nextAttachmentId + 1 }

/-- The record that `create_message_for` saves. -/
def messageFor (desk : MessageDesk) (destination : Destination) (user : User)
    (params : MessageParams) (now : Time) : Message :=
  { id := desk.nextMessageId
    channelId := destination.channelId?
    directConversationId := destination.directConversationId?
    authorId := user.id
    body := some (params.body.getD "")
    mentionUserIds := desk.store.sanitizedMentionUserIds user params destination
    parentMessageId := params.parentMessageId
    createdAt := now
    updatedAt := now }

/-- `save!` of a new message. -/
def insertMessage! (desk : MessageDesk) (message : Message) : Except Failure MessageDesk := do
  let message ← saveUnless (desk.store.messageErrors message) message
  match desk.store.commitMessage? message with
  | none => .error (.recordNotUnique "messages_pkey")
  | some store => .ok { desk with store, nextMessageId := desk.nextMessageId + 1 }

/-- `create_message_for` up to the end of its transaction. -/
def createMessageFor! (storage : AttachmentStorage) (desk : MessageDesk)
    (destination : Destination) (user : User) (params : MessageParams) (now : Time) :
    Except Failure MessageDesk := do
  if blank? (strip (params.body.getD "")) && params.attachments.isEmpty then
    .error (.unprocessable "Message must include text or an attachment")
  else
    params.attachments.forM (storage.validateUploadedAttachment! destination)
    let message := desk.messageFor destination user params now
    let desk ← desk.insertMessage! message
    params.attachments.foldlM (persistFile! message.id) desk

/-- `create` and `create_direct` after the destination was found. -/
def create! (storage : AttachmentStorage) (desk : MessageDesk) (sender : Sender)
    (destination : Destination) (refusal : String) (params : MessageParams) (now : Time) :
    Except Failure MessageDesk :=
  if !sender.termsAccepted then
    .error (.forbidden "Accept the current Community Guidelines and Terms before sharing content")
  else if !destination.canPost? desk.store.toMessagingDatabase sender.user then
    .error (.forbidden refusal)
  else desk.createMessageFor! storage destination sender.user params now

/-- The update of a message under the conditions of its action. -/
def change! (desk : MessageDesk) (sender : Sender) (message changed : Message) (allowed : Bool)
    (refusals : String × String) (now : Time) : Except Failure MessageDesk :=
  if !desk.store.editable? sender.user message then .error (.forbidden refusals.1)
  else if !allowed then .error (.forbidden refusals.2)
  else (desk.store.updateMessage! message changed now).map fun store => { desk with store }

end MessageDesk

inductive MessageRequest where
  | create (channelId : ℕ) (params : MessageParams)
  | createDirect (directConversationId : ℕ) (params : MessageParams)
  | update (id : ℕ) (params : MessageParams)
  | destroy (id : ℕ)
  | pin (id : ℕ)
  | unpin (id : ℕ)
  deriving DecidableEq, Repr

namespace MessageDesk

/-- `set_message` and the action that follows. -/
def withMessage! (desk : MessageDesk) (id : ℕ) (action : Message → Except Failure MessageDesk) :
    Except Failure MessageDesk :=
  orNotFound (desk.store.message? id) >>= action

def update! (desk : MessageDesk) (sender : Sender) (params : MessageParams) (now : Time)
    (message : Message) : Except Failure MessageDesk :=
  if !sender.termsAccepted then
    .error (.forbidden "Accept the current Community Guidelines and Terms before sharing content")
  else
    let mentionUserIds := match desk.store.destination? message with
      | none => []
      | some destination => desk.store.sanitizedMentionUserIds sender.user params destination
    desk.change! sender message (message.assignEdit params.body mentionUserIds now)
      (message.editableBy? sender.user)
      ("Cannot edit messages in this channel", "Cannot edit this message") now

def destroy! (desk : MessageDesk) (sender : Sender) (now : Time) (message : Message) :
    Except Failure MessageDesk :=
  desk.change! sender message (message.assignDeleted now) (message.editableBy? sender.user)
    ("Cannot delete messages in this channel", "Cannot delete this message") now

def pin! (desk : MessageDesk) (sender : Sender) (now : Time) (message : Message) :
    Except Failure MessageDesk :=
  desk.change! sender message (message.assignPin sender.user now) sender.user.staff?
    ("Cannot pin messages in this conversation", "Only staff can pin messages") now

def unpin! (desk : MessageDesk) (sender : Sender) (now : Time) (message : Message) :
    Except Failure MessageDesk :=
  desk.change! sender message message.assignUnpin sender.user.staff?
    ("Cannot unpin messages in this conversation", "Only staff can unpin messages") now

/-- The action of a request. -/
def handle! (storage : AttachmentStorage) (desk : MessageDesk) (sender : Sender) (now : Time) :
    MessageRequest → Except Failure MessageDesk
  | .create channelId params => do
    let channel ← orNotFound (desk.store.channel? channelId)
    desk.create! storage sender (.channel channel) "Cannot post in this channel" params now
  | .createDirect directConversationId params => do
    let conversation ← orNotFound (desk.store.conversation? directConversationId)
    desk.create! storage sender (.directConversation conversation)
      "Cannot post in this conversation" params now
  | .update id params => desk.withMessage! id (desk.update! sender params now)
  | .destroy id => desk.withMessage! id (desk.destroy! sender now)
  | .pin id => desk.withMessage! id (desk.pin! sender now)
  | .unpin id => desk.withMessage! id (desk.unpin! sender now)

end MessageDesk

/-- A request with its sender and the time at which it is handled. -/
structure MessageCall where
  sender : Sender
  now : Time
  request : MessageRequest
  deriving DecidableEq, Repr

/-- A request that fails leaves the tables as they were. -/
def MessageDesk.perform (storage : AttachmentStorage) (desk : MessageDesk) (call : MessageCall) :
    MessageDesk :=
  match desk.handle! storage call.sender call.now call.request with
  | .error _ => desk
  | .ok desk => desk

/-- Between the requests the tables without messages may change in any way. -/
inductive MessageEvent where
  | call (call : MessageCall)
  | tables (database : MessagingDatabase)

def MessageDesk.happen (storage : AttachmentStorage) (desk : MessageDesk) :
    MessageEvent → MessageDesk
  | .call call => desk.perform storage call
  | .tables database => { desk with store := { desk.store with toMessagingDatabase := database } }

end LearningPlatform
