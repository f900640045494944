import LearningPlatform.Model.MessageRequests
import LearningPlatform.Verification.Validations

/-! # What the requests on messages do to the tables -/

namespace LearningPlatform

open Shared

theorem mem_of_mem_strip {text : String} {c : Char} (h : c ∈ (strip text).toList) :
    c ∈ text.toList := by
  simp only [strip, String.toList_ofList, List.mem_reverse] at h
  have hback := (List.dropWhile_suffix stripped?).mem h
  exact (List.dropWhile_suffix stripped?).mem (List.mem_reverse.mp hback)

theorem blank?_strip {text : String} (h : blank? text = true) : blank? (strip text) = true := by
  simp only [blank?, List.all_eq_true] at h ⊢
  intro c hc
  exact h c (mem_of_mem_strip hc)

/-! ## Posts and updates -/

/-- A body that is not blank, or an attachment. -/
def MessageStore.HasContent (s : MessageStore) (message : Message) : Prop :=
  (presence message.body).isSome = true ∨ s.attachmentsOf message ≠ []

instance (s : MessageStore) (message : Message) : Decidable (s.HasContent message) :=
  inferInstanceAs (Decidable (_ ∨ _))

namespace MessageDesk

/-- A post adds one message, with content, and only attachments besides it. -/
structure Posts (desk desk' : MessageDesk) : Prop where
  messages : ∃ message, desk'.store.messages = desk.store.messages ++ [message] ∧
    message.deletedAt = none ∧ desk'.store.HasContent message
  attachments : desk.store.messageAttachments ⊆ desk'.store.messageAttachments

/-- The keys that the unique index of the attachments holds. -/
def attachmentKeys (desk : MessageDesk) : List String :=
  desk.store.messageAttachments.map (·.s3Key)

/-- The files of a post get keys that were not taken. -/
structure StoresFiles (desk : MessageDesk) (params : MessageParams) (desk' : MessageDesk) :
    Prop where
  free : ∀ attachment ∈ params.attachments, attachment.s3Key ∉ desk.attachmentKeys
  taken : ∀ attachment ∈ params.attachments, attachment.s3Key ∈ desk'.attachmentKeys

/-- An update replaces one row and leaves the attachments. -/
structure Updates (desk : MessageDesk) (loaded changed : Message) (now : Time)
    (desk' : MessageDesk) : Prop where
  stored : loaded ∈ desk.store.messages
  messages : desk'.store.messages =
    updateAll (·.id == loaded.id) (loaded.update changed · now) desk.store.messages
  attachments : desk'.store.messageAttachments = desk.store.messageAttachments

variable {desk desk' : MessageDesk}

theorem persistFile!_eq_ok {messageId : ℕ} {attachment : AttachmentParams}
    (h : persistFile! messageId desk attachment = .ok desk') :
    attachment.s3Key ∉ desk.attachmentKeys ∧ desk'.store.messages = desk.store.messages ∧
      ∃ row : MessageAttachment, row.messageId = messageId ∧ row.s3Key = attachment.s3Key ∧
        desk'.store.messageAttachments = desk.store.messageAttachments ++ [row] := by
  obtain ⟨herrors, rfl⟩ := saveUnless_eq_ok.mp h
  refine ⟨?_, rfl, _, rfl, rfl, rfl⟩
  simp only [MessageStore.attachmentErrors, List.append_eq_nil_iff, errorsIf_eq_nil] at herrors
  intro htaken
  obtain ⟨row, hrow, hkey⟩ := List.mem_map.mp htaken
  exact absurd (herrors.1.1.1.2 (List.any_eq_true.mpr ⟨row, hrow, by simp [hkey]⟩)) (by simp)

theorem persistFiles_eq_ok {messageId : ℕ} {attachments : List AttachmentParams}
    (h : attachments.foldlM (persistFile! messageId) desk = .ok desk') :
    (∀ attachment ∈ attachments, attachment.s3Key ∉ desk.attachmentKeys) ∧
      desk'.store.messages = desk.store.messages ∧
      ∃ rows : List MessageAttachment, (∀ row ∈ rows, row.messageId = messageId) ∧
        rows.map (·.s3Key) = attachments.map (·.s3Key) ∧
        desk'.store.messageAttachments = desk.store.messageAttachments ++ rows := by
  induction attachments generalizing desk with
  | nil =>
    obtain rfl : desk = desk' := by simpa [pure, Except.pure] using h
    exact ⟨by simp, rfl, [], by simp, rfl, by simp⟩
  | cons attachment attachments ih =>
    rw [List.foldlM_cons] at h
    obtain ⟨next, hnext, h⟩ := bind_eq_ok.mp h
    obtain ⟨hfree, hmessages, row, hrow, hkey, hfirst⟩ := persistFile!_eq_ok hnext
    obtain ⟨hfrees, hmessages', rows, hrows, hkeys, hrest⟩ := ih h
    refine ⟨?_, hmessages'.trans hmessages, row :: rows, ?_, ?_, ?_⟩
    · intro other hother
      rcases List.mem_cons.mp hother with rfl | hother
      · exact hfree
      · intro htaken
        apply hfrees other hother
        simp only [attachmentKeys, hfirst, List.map_append, List.mem_append]
        exact .inl htaken
    · simpa using ⟨hrow, hrows⟩
    · simp [hkey, hkeys]
    · rw [hrest, hfirst]
      simp

theorem insertMessage!_eq_ok {message : Message} (h : desk.insertMessage! message = .ok desk') :
    desk'.store.messages = desk.store.messages ++ [message] ∧
      desk'.store.messageAttachments = desk.store.messageAttachments := by
  obtain ⟨saved, hsaved, h⟩ := bind_eq_ok.mp h
  obtain ⟨-, rfl⟩ := saveUnless_eq_ok.mp hsaved
  split at h
  · cases h
  · rename_i store hstore
    cases h
    unfold MessageStore.commitMessage? at hstore
    split at hstore
    · cases hstore
    · cases hstore
      exact ⟨rfl, rfl⟩

theorem createMessageFor!_posts {storage : AttachmentStorage} {destination : Destination}
    {user : User} {params : MessageParams} {now : Time}
    (h : desk.createMessageFor! storage destination user params now = .ok desk') :
    desk.Posts desk' ∧ desk.StoresFiles params desk' := by
  unfold createMessageFor! at h
  obtain ⟨hcontent, h⟩ := ite_error_eq_ok.mp h
  obtain ⟨-, -, h⟩ := bind_eq_ok.mp h
  obtain ⟨inserted, hinserted, h⟩ := bind_eq_ok.mp h
  obtain ⟨hmessages, hattachments⟩ := insertMessage!_eq_ok hinserted
  obtain ⟨hfree, hmessages', rows, hrows, hkeys, hfiles⟩ := persistFiles_eq_ok h
  rw [hmessages] at hmessages'
  rw [hattachments] at hfiles
  refine ⟨⟨⟨_, hmessages', rfl, ?_⟩, ?_⟩, ?_, ?_⟩
  · -- The first check refused a post without text and files.
    by_cases hblank : blank? (params.body.getD "") = true
    · have hne : params.attachments ≠ [] := by
        intro hnil
        exact hcontent (by simp [blank?_strip hblank, hnil])
      have hrows_ne : rows ≠ [] := by
        rintro rfl
        exact hne (List.map_eq_nil_iff.mp hkeys.symm)
      obtain ⟨row, hrow⟩ := List.exists_mem_of_ne_nil rows hrows_ne
      right
      apply List.ne_nil_of_mem (a := row)
      simp [MessageStore.attachmentsOf, hfiles, hrow, hrows row hrow]
    · left
      simp [messageFor, presence, hblank]
  · rw [hfiles]
    exact List.subset_append_left _ _
  · simpa only [attachmentKeys, hattachments] using hfree
  · intro attachment hattachment
    have hkey : attachment.s3Key ∈ rows.map (·.s3Key) := by
      rw [hkeys]
      exact List.mem_map_of_mem hattachment
    simp only [attachmentKeys, hfiles, List.map_append, List.mem_append]
    exact .inr hkey

theorem create!_posts {storage : AttachmentStorage} {sender : Sender} {destination : Destination}
    {refusal : String} {params : MessageParams} {now : Time}
    (h : desk.create! storage sender destination refusal params now = .ok desk') :
    desk.Posts desk' ∧ desk.StoresFiles params desk' := by
  unfold create! at h
  obtain ⟨-, h⟩ := ite_error_eq_ok.mp h
  obtain ⟨-, h⟩ := ite_error_eq_ok.mp h
  exact createMessageFor!_posts h

theorem change!_updates {sender : Sender} {message changed : Message} {allowed : Bool}
    {refusals : String × String} {now : Time} (hmem : message ∈ desk.store.messages)
    (h : desk.change! sender message changed allowed refusals now = .ok desk') :
    desk.Updates message changed now desk' := by
  unfold change! at h
  obtain ⟨-, h⟩ := ite_error_eq_ok.mp h
  obtain ⟨-, h⟩ := ite_error_eq_ok.mp h
  obtain ⟨store, hstore, rfl⟩ := map_eq_ok.mp h
  obtain ⟨-, rfl⟩ := saveUnless_eq_ok.mp hstore
  exact ⟨hmem, rfl, rfl⟩

theorem withMessage!_eq_ok {id : ℕ} {action : Message → Except Failure MessageDesk}
    (h : desk.withMessage! id action = .ok desk') :
    ∃ message, desk.store.message? id = some message ∧ message ∈ desk.store.messages ∧
      action message = .ok desk' := by
  obtain ⟨message, hmessage, h⟩ := orNotFound_bind_eq_ok.mp h
  exact ⟨message, hmessage, List.mem_of_find?_eq_some hmessage, h⟩

end MessageDesk

/-! ## Requests -/

namespace MessageDesk

variable {storage : AttachmentStorage} {desk desk' : MessageDesk} {sender : Sender} {now : Time}

variable {params : MessageParams}

theorem handle!_create {channelId : ℕ}
    (h : desk.handle! storage sender now (.create channelId params) = .ok desk') :
    desk.Posts desk' ∧ desk.StoresFiles params desk' := by
  obtain ⟨channel, -, h⟩ := orNotFound_bind_eq_ok.mp h
  exact create!_posts h

theorem handle!_createDirect {directConversationId : ℕ}
    (h : desk.handle! storage sender now (.createDirect directConversationId params) = .ok desk') :
    desk.Posts desk' ∧ desk.StoresFiles params desk' := by
  obtain ⟨conversation, -, h⟩ := orNotFound_bind_eq_ok.mp h
  exact create!_posts h

theorem update!_updates {message : Message} (hmem : message ∈ desk.store.messages)
    (h : desk.update! sender params now message = .ok desk') :
    ∃ mentionUserIds, desk.Updates message (message.assignEdit params.body mentionUserIds now) now
      desk' := by
  unfold update! at h
  obtain ⟨-, h⟩ := ite_error_eq_ok.mp h
  exact ⟨_, change!_updates hmem h⟩

end MessageDesk

end LearningPlatform
