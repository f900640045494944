import LearningPlatform.Model.MessageView
import LearningPlatform.Shared.Newest

/-! # Threads on the page

The replies that `Messages.tsx` groups by the root messages of their threads. -/

namespace LearningPlatform

open Shared

/-- The parent id, which is falsy if it is null or zero. -/
def MessageJson.parentId? (message : MessageJson) : Option ℕ :=
  message.parentMessageId.filter (· ≠ 0)

/-- `messagesById.get(id)`: of messages with one id the last one is in the map. -/
def messageById (messages : List MessageJson) (id : ℕ) : Option MessageJson :=
  messages.reverse.find? (·.id == id)

/-- The loop of `rootMessageIdFor`; none if its condition is evaluated more than `fuel` times. -/
def chainEnd (messages : List MessageJson) :
    ℕ → Option MessageJson → Option (Option MessageJson)
  | 0, _ => none
  | fuel + 1, current =>
    match current.bind MessageJson.parentId? with
    | none => some current
    | some parentId => chainEnd messages fuel (messageById messages parentId)

def rootMessageIdFor (messages : List MessageJson) (fuel : ℕ) (message : MessageJson) : Option ℕ :=
  (chainEnd messages fuel (some message)).map fun current =>
    ((current.map (·.id)).filter (· ≠ 0)).getD message.id

/-- `items.sort` by the milliseconds of `created_at`. -/
def sortReplies (items : List MessageJson) : List MessageJson :=
  items.insertionSort fun a b => a.createdAt / 1000 ≤ b.createdAt / 1000

/-- The map `threadReplies`. -/
def threadReplies (fuel : ℕ) (messages : List MessageJson) :
    Option (List (ℕ × List MessageJson)) :=
  (messages.foldlM (fun replies message =>
    if message.parentId? = none then some replies
    else (rootMessageIdFor messages fuel message).map fun rootId =>
      addToEntry replies rootId message) []).map
    fun replies => replies.map fun (key, items) => (key, sortReplies items)

end LearningPlatform
