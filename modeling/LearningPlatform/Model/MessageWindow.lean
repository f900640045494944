import LearningPlatform.Model.Schema
import LearningPlatform.Shared.Window
import Mathlib.Data.Prod.Lex

/-! # Windows of messages

The concern `MessageWindowing` on the visible messages of a channel or direct conversation, and
the list that the mobile client builds from the pages. -/

namespace LearningPlatform

open Shared

/-! ## Rows -/

structure Message where
  id : ℕ
  channelId : Option ℕ := none
  directConversationId : Option ℕ := none
  authorId : ℕ
  body : Option String := none
  mentionUserIds : List ℕ := []
  parentMessageId : Option ℕ := none
  editedAt : Option Time := none
  deletedAt : Option Time := none
  pinnedAt : Option Time := none
  pinnedById : Option ℕ := none
  createdAt : Time
  updatedAt : Time := 0
  deriving DecidableEq, Repr

/-- The columns of `ORDER BY created_at, id`. -/
def Message.key (message : Message) : Time ×ₗ ℕ :=
  toLex (message.createdAt, message.id)

/-- `messages.created_at < ? OR (messages.created_at = ? AND messages.id < ?)`. -/
def Message.before? (message anchor : Message) : Bool :=
  message.createdAt < anchor.createdAt ||
    (message.createdAt == anchor.createdAt && message.id < anchor.id)

/-- `messages.created_at > ? OR (messages.created_at = ? AND messages.id > ?)`. -/
def Message.after? (message anchor : Message) : Bool :=
  anchor.createdAt < message.createdAt ||
    (message.createdAt == anchor.createdAt && anchor.id < message.id)

/-! ## Pages -/

/-- The messages of a scope, with distinct primary keys. -/
structure MessageScope where
  messages : List Message
  ids : (messages.map (·.id)).Nodup

/-- The parameters of a page; a limit is what `to_i` made of it. -/
structure WindowParams where
  messageLimit : Option ℤ := none
  beforeMessageId : Option ℕ := none
  aroundMessageId : Option ℕ := none
  deriving DecidableEq, Repr

/-- `params.fetch(:message_limit, 100).to_i.clamp(1, 200)`. -/
def messageLimit (limit : Option ℤ) : ℕ :=
  (max 1 (min (limit.getD 100) 200)).toNat

namespace MessageScope

variable (scope : MessageScope)

/-- The whole scope in `(created_at, id)` order. -/
def chronological : List Message :=
  orderBy Message.key scope.messages

def findBy? (id : ℕ) : Option Message :=
  scope.messages.find? (·.id == id)

def latestMessages (limit : ℕ) : List Message :=
  orderBy Message.key ((orderByDesc Message.key scope.messages).take limit)

def messagesBefore (anchor : Message) (limit : ℕ) : List Message :=
  orderBy Message.key
    ((orderByDesc Message.key (scope.messages.filter (·.before? anchor))).take limit)

/-- The page around an anchor: half of the limit before it and the rest after it. -/
def messagesAround (anchor : Message) (limit : ℕ) : List Message :=
  let before :=
    (orderByDesc Message.key (scope.messages.filter (·.before? anchor))).take (limit / 2)
  let after := (orderBy Message.key (scope.messages.filter (·.after? anchor))).take
    (limit - before.length - 1)
  orderBy Message.key (before ++ anchor :: after)

def windowedMessages (params : WindowParams) : List Message :=
  let limit := messageLimit params.messageLimit
  match params.beforeMessageId, params.aroundMessageId with
  | some id, _ =>
    match scope.findBy? id with
    | none => scope.latestMessages limit
    | some anchor => scope.messagesBefore anchor limit
  | none, some id =>
    match scope.findBy? id with
    | none => scope.latestMessages limit
    | some anchor => scope.messagesAround anchor limit
  | none, none => scope.latestMessages limit

end MessageScope

structure MessageWindowMeta where
  oldestMessageId : Option ℕ
  newestMessageId : Option ℕ
  hasOlder : Bool
  hasNewer : Bool
  deriving DecidableEq, Repr

def messageWindowMeta (scope : MessageScope) (messages : List Message) : MessageWindowMeta where
  oldestMessageId := messages.head?.map (·.id)
  newestMessageId := messages.getLast?.map (·.id)
  hasOlder := messages.head?.any fun first => scope.messages.any (·.before? first)
  hasNewer := messages.getLast?.any fun last => scope.messages.any (·.after? last)

/-! ## Reading a whole conversation -/

/-- Pages from the one with `before_message_id = before` on, until `has_older` is false. The
limit of request `n` is `limits n`; the result is `none` if `fuel` requests do not suffice. -/
def olderPages (scope : MessageScope) (limits : ℕ → Option ℤ) (before : Option ℕ)
    (request : ℕ) : ℕ → Option (List (List Message))
  | 0 => none
  | fuel + 1 =>
    let page := scope.windowedMessages
      { messageLimit := limits request, beforeMessageId := before }
    let pageMeta := messageWindowMeta scope page
    if pageMeta.hasOlder then
      (olderPages scope limits pageMeta.oldestMessageId (request + 1) fuel).map (page :: ·)
    else some [page]

/-- The pages of a client that starts with the latest one. -/
def readPages (scope : MessageScope) (limits : ℕ → Option ℤ) (fuel : ℕ) :
    Option (List (List Message)) :=
  olderPages scope limits none 0 fuel

/-! ## The mobile client -/

/-- `new Date(created_at).getTime()`: the JSON text of a time has three decimals. -/
def Message.getTime (message : Message) : ℕ :=
  message.createdAt / 1000

/-- The comparison of `sortMessages`: `time || left.id - right.id`. -/
def Message.clientKey (message : Message) : ℕ ×ₗ ℕ :=
  toLex (message.getTime, message.id)

def sortMessages (messages : List Message) : List Message :=
  orderBy Message.clientKey messages

def prependOlderMessages (current older : List Message) : List Message :=
  let ids := current.map (·.id)
  sortMessages (older.filter (fun message => !ids.contains message.id) ++ current)

/-- The messages on the screen after the first page and `loadOlder` for each further page. -/
def loadPages : List (List Message) → List Message
  | [] => []
  | latest :: older => older.foldl prependOlderMessages (sortMessages latest)

end LearningPlatform
