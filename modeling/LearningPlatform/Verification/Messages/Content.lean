import LearningPlatform.Verification.Messages.Requests

/-! # What stored messages contain

A post has a text or an attachment, and a deletion unpins. An edit may take the text away, and
a pin does not ask whether the message is deleted. -/

namespace LearningPlatform

open Shared

/-! ## Content -/

/-- Visible messages have content and deleted messages are not pinned. -/
structure MessageStore.Kept (s : MessageStore) : Prop where
  content : ∀ message ∈ s.messages, message.deletedAt = none → s.HasContent message
  unpinned : ∀ message ∈ s.messages, message.deletedAt.isSome = true → message.pinnedAt = none

/-- An edit of a visible message without attachments has a text, and a pinned message is not
deleted. -/
def MessageRequest.KeepsContent (s : MessageStore) : MessageRequest → Prop
  | .update id params => ∀ message ∈ s.message? id, message.deletedAt = none →
      (presence params.body).isSome = true ∨ s.attachmentsOf message ≠ []
  | .pin id => ∀ message ∈ s.message? id, message.deletedAt = none
  | _ => True

instance (s : MessageStore) : ∀ request : MessageRequest, Decidable (request.KeepsContent s)
  | .update id _ => inferInstanceAs (Decidable (∀ message ∈ s.message? id, _ → _))
  | .pin id => inferInstanceAs (Decidable (∀ message ∈ s.message? id, _ = _))
  | .create _ _ | .createDirect _ _ | .destroy _ | .unpin _ => .isTrue trivial

def KeepsContent (desk : MessageDesk) : MessageEvent → Prop
  | .call call => call.request.KeepsContent desk.store
  | .tables _ => True

instance (desk : MessageDesk) : ∀ event : MessageEvent, Decidable (KeepsContent desk event)
  | .call call => inferInstanceAs (Decidable (call.request.KeepsContent desk.store))
  | .tables _ => .isTrue trivial

/-! ## What a request keeps -/

namespace MessageDesk

variable {desk desk' : MessageDesk}

variable {message : Message} {now : Time} {sender : Sender}

theorem attachmentsOf_congr {s s' : MessageStore} {message' : Message}
    (hrows : s.messageAttachments = s'.messageAttachments) (hid : message.id = message'.id) :
    s.attachmentsOf message = s'.attachmentsOf message' := by
  simp [MessageStore.attachmentsOf, hrows, hid]

theorem Posts.kept (h : desk.Posts desk') (hkept : desk.store.Kept) : desk'.store.Kept := by
  obtain ⟨message, hmessages, hvisible, hcontent⟩ := h.messages
  constructor
  · intro other hother hdeleted
    rw [hmessages] at hother
    rcases List.mem_append.mp hother with hold | hnew
    · rcases hkept.content other hold hdeleted with hbody | hfiles
      · exact .inl hbody
      · obtain ⟨row, hrow⟩ := List.exists_mem_of_ne_nil _ hfiles
        obtain ⟨hmem, howner⟩ := List.mem_filter.mp hrow
        exact .inr (List.ne_nil_of_mem (List.mem_filter.mpr ⟨h.attachments hmem, howner⟩))
    · rw [List.mem_singleton.mp hnew]
      exact hcontent
  · intro other hother hdeleted
    rw [hmessages] at hother
    rcases List.mem_append.mp hother with hold | hnew
    · exact hkept.unpinned other hold hdeleted
    · rw [List.mem_singleton.mp hnew, hvisible] at hdeleted
      cases hdeleted

theorem Updates.mem {loaded changed : Message} (h : desk.Updates loaded changed now desk')
    (hmem : message ∈ desk'.store.messages) :
    message = loaded.update changed loaded now ∨ message ∈ desk.store.messages := by
  rw [h.messages] at hmem
  rcases mem_updateAll.mp hmem with ⟨old, hold, hid, rfl⟩ | ⟨hold, -⟩
  · have hsame : old = loaded :=
      List.inj_on_of_nodup_map desk.store.messageIds hold h.stored (beq_iff_eq.mp hid)
    exact .inl (by rw [hsame])
  · exact .inr hold

theorem Updates.kept {loaded changed : Message} (h : desk.Updates loaded changed now desk')
    (hkept : desk.store.Kept)
    (hcontent : changed.deletedAt = none → (presence changed.body).isSome = true ∨
      desk.store.attachmentsOf loaded ≠ [])
    (hunpinned : changed.deletedAt.isSome = true → changed.pinnedAt = none) : desk'.store.Kept := by
  constructor
  · intro message hmem hdeleted
    rcases h.mem hmem with rfl | hold
    · simp only [Message.update, changedColumn_current] at hdeleted
      rcases hcontent hdeleted with hbody | hfiles
      · left
        simpa only [Message.update, changedColumn_current] using hbody
      · right
        have hsame : desk'.store.attachmentsOf (loaded.update changed loaded now) =
            desk.store.attachmentsOf loaded := attachmentsOf_congr h.attachments rfl
        rwa [hsame]
    · rcases hkept.content message hold hdeleted with hbody | hfiles
      · exact .inl hbody
      · right
        rwa [attachmentsOf_congr h.attachments rfl]
  · intro message hmem hdeleted
    rcases h.mem hmem with rfl | hold
    · simp only [Message.update, changedColumn_current] at hdeleted ⊢
      exact hunpinned hdeleted
    · exact hkept.unpinned message hold hdeleted

section

variable (hmem : message ∈ desk.store.messages)

include hmem

theorem update!_kept {params : MessageParams} (hkept : desk.store.Kept)
    (hbody : message.deletedAt = none → (presence params.body).isSome = true ∨
      desk.store.attachmentsOf message ≠ [])
    (h : desk.update! sender params now message = .ok desk') : desk'.store.Kept := by
  obtain ⟨mentionUserIds, hupdates⟩ := update!_updates hmem h
  exact hupdates.kept hkept hbody (hkept.unpinned message hmem)

theorem destroy!_kept (hkept : desk.store.Kept)
    (h : desk.destroy! sender now message = .ok desk') : desk'.store.Kept := by
  have hupdates := change!_updates hmem h
  refine hupdates.kept hkept (fun hdeleted => ?_) fun _ => rfl
  cases hdeleted

theorem pin!_kept (hkept : desk.store.Kept)
    (hvisible : message.deletedAt = none) (h : desk.pin! sender now message = .ok desk') :
    desk'.store.Kept := by
  have hupdates := change!_updates hmem h
  refine hupdates.kept hkept (hkept.content message hmem) fun hdeleted => ?_
  simp only [Message.assignPin, hvisible] at hdeleted
  cases hdeleted

theorem unpin!_kept (hkept : desk.store.Kept)
    (h : desk.unpin! sender now message = .ok desk') : desk'.store.Kept := by
  have hupdates := change!_updates hmem h
  exact hupdates.kept hkept (hkept.content message hmem) fun _ => rfl

end

theorem handle!_kept {storage : AttachmentStorage} {request : MessageRequest}
    (hkept : desk.store.Kept) (hcondition : request.KeepsContent desk.store)
    (h : desk.handle! storage sender now request = .ok desk') : desk'.store.Kept := by
  cases request with
  | create channelId params => exact (handle!_create h).1.kept hkept
  | createDirect directConversationId params => exact (handle!_createDirect h).1.kept hkept
  | update id params =>
    obtain ⟨message, hfound, hmem, h⟩ := withMessage!_eq_ok h
    exact update!_kept hmem hkept (hcondition message hfound) h
  | destroy id =>
    obtain ⟨message, -, hmem, h⟩ := withMessage!_eq_ok h
    exact destroy!_kept hmem hkept h
  | pin id =>
    obtain ⟨message, hfound, hmem, h⟩ := withMessage!_eq_ok h
    exact pin!_kept hmem hkept (hcondition message hfound) h
  | unpin id =>
    obtain ⟨message, -, hmem, h⟩ := withMessage!_eq_ok h
    exact unpin!_kept hmem hkept h

theorem happen_kept {storage : AttachmentStorage} {event : MessageEvent}
    (hkept : desk.store.Kept) (hcondition : KeepsContent desk event) :
    (desk.happen storage event).store.Kept := by
  cases event with
  | call call =>
    simp only [happen, perform]
    split
    · exact hkept
    · rename_i h
      exact handle!_kept hkept hcondition h
  | tables database => exact ⟨hkept.content, hkept.unpinned⟩

end MessageDesk

/-! ## Every sequence of requests -/

/-- From empty tables, as long as no edit takes the text of a visible message without
attachments and no deleted message is pinned. -/
theorem messages_have_content (storage : AttachmentStorage) {desk desk' : MessageDesk}
    {events : List MessageEvent} (hempty : desk.store.messages = [])
    (hrun : Run (Meeting KeepsContent (Performs (MessageDesk.happen storage))) desk events desk') :
    ∀ message ∈ desk'.store.messages,
      (message.deletedAt = none → desk'.store.HasContent message) ∧
      (message.deletedAt.isSome = true → message.pinnedAt = none) := by
  have hinitial : desk.store.Kept := by
    constructor <;> simp [hempty]
  have hkept : desk'.store.Kept := by
    refine hrun.invariant (fun desk => desk.store.Kept) ?_ hinitial
    rintro desk event next hkept ⟨hcondition, hstep⟩
    rw [← show desk.happen storage event = next from hstep]
    exact MessageDesk.happen_kept hkept hcondition
  intro message hmem
  exact ⟨hkept.content message hmem, hkept.unpinned message hmem⟩

def quietChannel : MessageDesk where
  store := { channels := [{ id := 1, workspaceId := 1, name := "General" }], messageIds := by simp }

def localStorage : AttachmentStorage where
  downcase := id

def instructorCalls (now : Time) (request : MessageRequest) : MessageEvent :=
  .call { sender := { user := { id := 7, role := .instructor } }, now, request }

/-- Two posts, a correction of the first, a pin, and the deletion of the second. -/
def keptMessages : List MessageEvent :=
  [instructorCalls 10 (.create 1 { body := some "Welcome" }),
   instructorCalls 11 (.create 1
    { attachments := [{ s3Key := "message_attachments/channel_1/a/plan.pdf", filename := "plan.pdf"
                        contentType := "application/pdf", byteSize := 90 }] }),
   instructorCalls 12 (.update 1 { body := some "Welcome back" }),
   instructorCalls 13 (.pin 2),
   instructorCalls 14 (.destroy 2)]

theorem kept_messages_have_content :
    let desk := keptMessages.foldl (MessageDesk.happen localStorage) quietChannel
    desk.store.messages.map (fun message => (message.id, message.deletedAt)) =
        [(1, none), (2, some 14)] ∧
      ∀ message ∈ desk.store.messages,
        (message.deletedAt = none → desk.store.HasContent message) ∧
        (message.deletedAt.isSome = true → message.pinnedAt = none) := by
  have hrun : Run (Meeting KeepsContent (Performs (MessageDesk.happen localStorage))) quietChannel
      keptMessages (keptMessages.foldl (MessageDesk.happen localStorage) quietChannel) :=
    run_meeting_foldl (by decide +kernel)
  exact ⟨by decide +kernel, messages_have_content localStorage rfl hrun⟩

/-- An edit without a body is saved, and a message is pinned after its deletion. -/
theorem edit_and_pin_break_content :
    let desk := [instructorCalls 10 (.create 1 { body := some "Welcome" }),
      instructorCalls 11 (.update 1 { body := some "" }),
      instructorCalls 12 (.create 1 { body := some "Agenda" }),
      instructorCalls 13 (.destroy 2),
      instructorCalls 14 (.pin 2)].foldl (MessageDesk.happen localStorage) quietChannel
    (∃ message ∈ desk.store.messages, message.deletedAt = none ∧
        ¬ desk.store.HasContent message) ∧
      ∃ message ∈ desk.store.messages, message.deletedAt.isSome = true ∧
        message.pinnedAt ≠ none := by
  decide +kernel

end LearningPlatform
