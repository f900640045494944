import LearningPlatform.Model.Threads

/-! # Replies under their roots

In threads of depth one the chain of a reply has two messages. The walk ends at the root if it is
loaded; behind a root that is not loaded it ends with the reply's own id. -/

namespace LearningPlatform

open Shared

variable {forest messages : List MessageJson} {message : MessageJson}

/-- Threads of depth one, with positive ids. -/
structure ThreadForest (forest : List MessageJson) : Prop where
  ids : (forest.map (·.id)).Nodup
  positive : ∀ message ∈ forest, 0 < message.id
  roots : ∀ message ∈ forest, ∀ rootId, message.parentMessageId = some rootId →
    ∃ root ∈ forest, root.id = rootId ∧ root.parentMessageId = none

/-- Messages of the forest that the page has loaded. -/
structure LoadedFrom (forest messages : List MessageJson) : Prop where
  subset : messages ⊆ forest
  ids : (messages.map (·.id)).Nodup

theorem messageById_eq_some_iff (hids : (messages.map (·.id)).Nodup) {id : ℕ} :
    messageById messages id = some message ↔ message ∈ messages ∧ message.id = id := by
  constructor
  · intro h
    exact ⟨by simpa using List.mem_of_find?_eq_some h, by simpa using List.find?_some h⟩
  · rintro ⟨hmem, hid⟩
    refine find?_eq_some_of_unique (by simpa using hmem) (by simpa using hid) ?_
    intro other hother hsame
    exact List.inj_on_of_nodup_map hids (by simpa using hother) hmem
      ((by simpa using hsame : other.id = id).trans hid.symm)

theorem ThreadForest.parentId?_eq (h : ThreadForest forest) (hmem : message ∈ forest) :
    message.parentId? = message.parentMessageId := by
  cases hparent : message.parentMessageId with
  | none => simp [MessageJson.parentId?, hparent]
  | some rootId =>
    obtain ⟨root, hroot, rfl, -⟩ := h.roots message hmem rootId hparent
    have hpositive := (h.positive root hroot).ne'
    simp [MessageJson.parentId?, hparent, Option.filter_some, hpositive]

/-- The id under which a reply is filed. -/
def filedUnder (messages : List MessageJson) (message : MessageJson) : ℕ :=
  match message.parentMessageId.bind (messageById messages) with
  | some root => root.id
  | none => message.id

/-- Two evaluations of the condition suffice. -/
theorem rootMessageIdFor_eq (h : ThreadForest forest) (hloaded : LoadedFrom forest messages)
    (hmem : message ∈ messages) (hreply : message.parentId? ≠ none) {fuel : ℕ} (hfuel : 2 ≤ fuel) :
    rootMessageIdFor messages fuel message = some (filedUnder messages message) := by
  obtain ⟨fuel, rfl⟩ := Nat.exists_eq_add_of_le' hfuel
  rw [h.parentId?_eq (hloaded.subset hmem)] at hreply
  obtain ⟨rootId, hparent⟩ := Option.ne_none_iff_exists'.mp hreply
  have hparentId : message.parentId? = some rootId := by
    rw [h.parentId?_eq (hloaded.subset hmem), hparent]
  rw [rootMessageIdFor, filedUnder, hparent, Option.bind_some]
  cases hroot : messageById messages rootId with
  | none => simp [chainEnd, hparentId, hroot]
  | some root =>
    obtain ⟨hmemRoot, hid⟩ := (messageById_eq_some_iff hloaded.ids).mp hroot
    have hrootForest := hloaded.subset hmemRoot
    have hend : root.parentId? = none := by
      obtain ⟨other, hother, hotherId, hnone⟩ :=
        h.roots message (hloaded.subset hmem) rootId hparent
      obtain rfl := List.inj_on_of_nodup_map h.ids hother hrootForest (hotherId.trans hid.symm)
      rw [h.parentId?_eq hrootForest, hnone]
    have hpositive := (h.positive root hrootForest).ne'
    simp [chainEnd, hparentId, hroot, hend, Option.filter_some, hpositive]

theorem isSome_rootMessageIdFor (h : ThreadForest forest) (hloaded : LoadedFrom forest messages)
    (hmem : message ∈ messages) {fuel : ℕ} (hfuel : 2 ≤ fuel) :
    (rootMessageIdFor messages fuel message).isSome := by
  by_cases hroot : message.parentId? = none
  · obtain ⟨fuel, rfl⟩ := Nat.exists_eq_add_of_le' hfuel
    simp [rootMessageIdFor, chainEnd, hroot]
  · rw [rootMessageIdFor_eq h hloaded hmem hroot hfuel]
    rfl

/-! ## The grouping -/

def loadedReplies (messages : List MessageJson) : List MessageJson :=
  messages.filter fun message => message.parentId?.isSome

/-- What the grouping makes of the replies. -/
def groupedReplies (messages : List MessageJson) : List (ℕ × List MessageJson) :=
  ((loadedReplies messages).foldl (groupInto (filedUnder messages)) []).map
    fun (key, items) => (key, sortReplies items)

/-- A message stands in the entry of a key. -/
def Filed (replies : List (ℕ × List MessageJson)) (message : MessageJson) (key : ℕ) : Prop :=
  ∃ items, (key, items) ∈ replies ∧ message ∈ items

theorem threadReplies_eq (h : ThreadForest forest) (hloaded : LoadedFrom forest messages) {fuel : ℕ}
    (hfuel : 2 ≤ fuel) :
    threadReplies fuel messages = some (groupedReplies messages) := by
  have hfold (loaded : List MessageJson) (hsubset : loaded ⊆ messages)
      (replies : List (ℕ × List MessageJson)) :
      loaded.foldlM (fun replies message =>
          if message.parentId? = none then some replies
          else (rootMessageIdFor messages fuel message).map fun rootId =>
            addToEntry replies rootId message) replies =
        some ((loadedReplies loaded).foldl (groupInto (filedUnder messages)) replies) := by
    induction loaded generalizing replies with
    | nil => rfl
    | cons message loaded ih =>
      obtain ⟨hmem, hrest⟩ := List.cons_subset.mp hsubset
      by_cases hreply : message.parentId? = none
      · simpa [List.foldlM_cons, loadedReplies, hreply] using ih hrest replies
      · have hroot := rootMessageIdFor_eq h hloaded hmem hreply hfuel
        have hsome : message.parentId?.isSome := Option.isSome_iff_ne_none.mpr hreply
        simpa [List.foldlM_cons, loadedReplies, hreply, hroot, hsome, groupInto] using ih hrest _
  rw [threadReplies, hfold messages (List.Subset.refl _)]
  rfl

theorem filed_iff {key : ℕ} :
    Filed (groupedReplies messages) message key ↔
      message ∈ loadedReplies messages ∧ filedUnder messages message = key := by
  rw [← mem_foldl_groupInto_iff]
  constructor
  · rintro ⟨items, hentry, hitem⟩
    obtain ⟨⟨other, unsorted⟩, hunsorted, heq⟩ := List.mem_map.mp hentry
    obtain ⟨rfl, rfl⟩ := Prod.mk.inj heq
    exact ⟨unsorted, hunsorted, (List.mem_insertionSort _).mp hitem⟩
  · rintro ⟨items, hentry, hitem⟩
    exact ⟨_, List.mem_map_of_mem hentry, (List.mem_insertionSort _).mpr hitem⟩

/-- The walk ends from every loaded message. The grouping files every loaded reply under its root,
and only there, just if the roots of the loaded replies are loaded. -/
theorem replies_filed_under_roots_iff (forest messages : List MessageJson)
    (h : ThreadForest forest) (hloaded : LoadedFrom forest messages) :
    (∀ message ∈ messages, ∀ fuel, 2 ≤ fuel →
      (rootMessageIdFor messages fuel message).isSome) ∧
    ∃ replies, (∀ fuel, 2 ≤ fuel → threadReplies fuel messages = some replies) ∧
      ((∀ reply ∈ messages, ∀ rootId, reply.parentMessageId = some rootId →
          ∀ key, Filed replies reply key ↔ key = rootId) ↔
        ∀ reply ∈ messages, ∀ rootId, reply.parentMessageId = some rootId →
          ∃ root ∈ messages, root.id = rootId) := by
  refine ⟨fun message hmem fuel hfuel => isSome_rootMessageIdFor h hloaded hmem hfuel,
    _, fun fuel hfuel => threadReplies_eq h hloaded hfuel, ?_⟩
  refine forall₄_congr fun reply hreply rootId hparent => ?_
  have hmem : reply ∈ loadedReplies messages := by
    refine List.mem_filter.mpr ⟨hreply, ?_⟩
    rw [h.parentId?_eq (hloaded.subset hreply), hparent]
    rfl
  simp only [filed_iff, hmem, true_and]
  rw [filedUnder, hparent, Option.bind_some]
  cases hroot : messageById messages rootId with
  | some root =>
    obtain ⟨hmem, rfl⟩ := (messageById_eq_some_iff hloaded.ids).mp hroot
    exact iff_of_true (fun key => eq_comm) ⟨root, hmem, rfl⟩
  | none =>
    refine iff_of_false ?_ ?_
    · -- the reply would be its own root
      intro hfiled
      obtain ⟨root, hmem, hid, hnone⟩ := h.roots reply (hloaded.subset hreply) rootId hparent
      have hsame : reply.id = root.id := ((hfiled reply.id).mp rfl).trans hid.symm
      obtain rfl := List.inj_on_of_nodup_map h.ids (hloaded.subset hreply) hmem hsame
      cases hparent ▸ hnone
    · rintro ⟨root, hmem, hid⟩
      rw [(messageById_eq_some_iff hloaded.ids).mpr ⟨hmem, hid⟩] at hroot
      cases hroot

namespace ThreadsExample

def posted (id : ℕ) (parentMessageId : Option ℕ) : MessageJson where
  id := id
  channelId := some 1
  directConversationId := none
  parentMessageId := parentMessageId
  body := "Hello"
  mentionUserIds := []
  editedAt := none
  deletedAt := none
  pinnedAt := none
  pinnedById := none
  createdAt := id
  updatedAt := id
  mine := false
  blocked := false
  author := { id := 1, fullName := "Ann", email := "ann@csg.dev", role := none, avatarUrl := none }
  attachments := []
  reactions := []
  replyCount := 0
  readReceipts := none

def thread : List MessageJson :=
  [posted 1 none, posted 2 (some 1), posted 3 (some 1)]

theorem thread_forest : ThreadForest thread :=
  ⟨by decide, by decide, by decide⟩

theorem reply_filed_under_loaded_root :
    ∃ replies, threadReplies 2 [posted 1 none, posted 3 (some 1)] = some replies ∧
      Filed replies (posted 3 (some 1)) 1 := by
  obtain ⟨-, replies, hreplies, hfiled⟩ := replies_filed_under_roots_iff thread
    [posted 1 none, posted 3 (some 1)] thread_forest ⟨by decide, by decide⟩
  refine ⟨replies, hreplies 2 le_rfl, ?_⟩
  exact (hfiled.mpr (by decide) (posted 3 (some 1)) (by decide) 1 rfl 1).mpr rfl

/-- The older part of the conversation is not loaded, and the reply stands under its own id. -/
theorem reply_filed_under_itself :
    ThreadForest thread ∧ LoadedFrom thread [posted 3 (some 1)] ∧
      threadReplies 2 [posted 3 (some 1)] = some [(3, [posted 3 (some 1)])] :=
  ⟨thread_forest, ⟨by decide, by decide⟩, by decide⟩

end ThreadsExample

end LearningPlatform
