import LearningPlatform.Model.MessageRequests

/-! # Message lists of the mobile app

The reducers of `message-state.ts` on the messages of a conversation. Optimistic messages have
negative ids; a time is compared as `new Date(text).getTime()`, in milliseconds. -/

namespace LearningPlatform

open Shared

/-! ## Messages -/

inductive ClientStatus where
  | sending
  | failed
  deriving DecidableEq, Repr

structure MobileAttachment where
  id : ℤ
  filename : String
  contentType : String
  byteSize : ℕ
  image : Bool
  url : Option String
  deriving DecidableEq, Repr

/-- The fields that every message has beside its id and its creation time. -/
structure MobileFields where
  channelId : Option ℕ := none
  directConversationId : Option ℕ := none
  parentMessageId : Option ℕ := none
  body : String
  mentionUserIds : List ℕ := []
  editedAt : Option Time := none
  deletedAt : Option Time := none
  pinnedAt : Option Time := none
  updatedAt : Time := 0
  mine : Bool := false
  reactions : List ReactionJson := []
  attachments : List MobileAttachment := []
  author : UserJson
  deriving DecidableEq, Repr

/-- The interface `Message`; an optional field that an object does not have is `none`. -/
structure MobileMessage where
  id : ℤ
  createdAt : ℕ
  fields : MobileFields
  pinnedById : Option (Option ℕ) := none
  blocked : Option Bool := none
  readReceipts : Option ReceiptsJson := none
  replyCount : Option ℕ := none
  clientStatus : Option ClientStatus := none
  clientError : Option String := none
  clientUploads : Option (List AttachmentParams) := none
  deriving DecidableEq, Repr

namespace MobileMessage

/-- The comparison of `sortMessages`: `time || left.id - right.id`. -/
def key (message : MobileMessage) : ℕ ×ₗ ℤ :=
  toLex (message.createdAt, message.id)

/-- `{ ...message, ...incoming }`. -/
def spread (message incoming : MobileMessage) : MobileMessage :=
  { incoming with
    pinnedById := incoming.pinnedById.or message.pinnedById
    blocked := incoming.blocked.or message.blocked
    readReceipts := incoming.readReceipts.or message.readReceipts
    replyCount := incoming.replyCount.or message.replyCount
    clientStatus := incoming.clientStatus.or message.clientStatus
    clientError := incoming.clientError.or message.clientError
    clientUploads := incoming.clientUploads.or message.clientUploads }

end MobileMessage

structure MobileMessageEvent where
  event : BroadcastEvent
  message : MobileMessage
  deriving DecidableEq, Repr

/-! ## Reducers -/

namespace Mobile

def sortMessages (messages : List MobileMessage) : List MobileMessage :=
  orderBy MobileMessage.key messages

/-- The message of an event merged into the one with its id. -/
def mergeInto (messages : List MobileMessage) (incoming : MobileMessage) : List MobileMessage :=
  messages.map fun message => if message.id = incoming.id then message.spread incoming else message

def mergeMessageEvent (messages : List MobileMessage) (payload : MobileMessageEvent) :
    List MobileMessage :=
  match payload.event with
  | .created =>
    if messages.any (·.id == payload.message.id) then mergeInto messages payload.message
    else sortMessages (messages ++ [payload.message])
  | .deleted => messages.filter (·.id != payload.message.id)
  | .updated => mergeInto messages payload.message

def reconcileOptimistic (messages : List MobileMessage) (optimisticId : ℤ)
    (canonical : MobileMessage) : List MobileMessage :=
  sortMessages ((messages.filter fun message =>
    message.id != optimisticId && message.id != canonical.id) ++ [canonical])

def prependOlderMessages (current older : List MobileMessage) : List MobileMessage :=
  let ids := current.map (·.id)
  sortMessages ((older.filter fun message => !ids.contains message.id) ++ current)

end Mobile

end LearningPlatform
