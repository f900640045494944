import LearningPlatform.Model.MessageWindow
import LearningPlatform.Shared.Table

/-! # Pages of messages tile a conversation -/

namespace LearningPlatform

open Shared

/-! ## The keyset -/

theorem Message.before?_eq (message anchor : Message) :
    message.before? anchor = decide (message.key < anchor.key) := by
  rw [Bool.eq_iff_iff]
  simp [Message.before?, Message.key, Prod.Lex.toLex_lt_toLex]

theorem Message.after?_eq (message anchor : Message) :
    message.after? anchor = decide (anchor.key < message.key) := by
  rw [Bool.eq_iff_iff, Message.after?, BEq.comm (a := message.createdAt)]
  simp [Message.key, Prod.Lex.toLex_lt_toLex]

theorem nodup_key_of_ids {first : Message → ℕ} {messages : List Message}
    (h : (messages.map (·.id)).Nodup) :
    (messages.map fun message => toLex (first message, message.id)).Nodup := by
  apply List.Nodup.of_map fun key : ℕ ×ₗ ℕ => (ofLex key).2
  simpa [List.map_map, Function.comp_def] using h

theorem one_le_messageLimit (limit : Option ℤ) : 1 ≤ messageLimit limit := by
  unfold messageLimit
  omega

namespace MessageScope

variable {scope : MessageScope} {older newer : List Message} {anchor : Message}

theorem keys (scope : MessageScope) : (scope.messages.map Message.key).Nodup :=
  nodup_key_of_ids scope.ids

theorem findBy?_of_mem (h : anchor ∈ scope.messages) : scope.findBy? anchor.id = some anchor := by
  refine find?_eq_some_of_unique h (by simp) fun other hother heq => ?_
  exact List.inj_on_of_nodup_map scope.ids hother h (by simpa using heq)

theorem mem_chronological {message : Message} :
    message ∈ scope.chronological ↔ message ∈ scope.messages :=
  mem_orderBy

/-! ## What each page is -/

theorem latestMessages_eq (scope : MessageScope) (limit : ℕ) :
    scope.latestMessages limit = scope.chronological.rtake limit :=
  orderBy_take_orderByDesc scope.keys limit

theorem messagesBefore_eq (h : scope.chronological = older ++ anchor :: newer) (limit : ℕ) :
    scope.messagesBefore anchor limit = older.rtake limit := by
  have hkeys : ((scope.messages.filter fun message => message.key < anchor.key).map
      Message.key).Nodup :=
    scope.keys.sublist (List.filter_sublist.map _)
  simp only [messagesBefore, Message.before?_eq]
  rw [orderBy_take_orderByDesc hkeys, orderBy_filter_lt scope.keys h]

theorem messagesAround_eq (h : scope.chronological = older ++ anchor :: newer) (limit : ℕ) :
    scope.messagesAround anchor limit =
      older.rtake (limit / 2) ++
        anchor :: newer.take (limit - (older.rtake (limit / 2)).length - 1) := by
  have hlength : ((orderByDesc Message.key
      (scope.messages.filter fun message => message.key < anchor.key)).take (limit / 2)).length =
      (older.rtake (limit / 2)).length := by
    rw [← messagesBefore_eq h, messagesBefore, (orderBy_perm _ _).length_eq]
    simp only [Message.before?_eq]
  simp only [messagesAround, Message.before?_eq, Message.after?_eq, hlength]
  exact orderBy_around scope.keys h _ _

theorem windowedMessages_latest (limit : Option ℤ) :
    scope.windowedMessages { messageLimit := limit } =
      scope.chronological.rtake (messageLimit limit) :=
  latestMessages_eq scope _

theorem windowedMessages_before (h : scope.chronological = older ++ anchor :: newer)
    (limit : Option ℤ) :
    scope.windowedMessages { messageLimit := limit, beforeMessageId := some anchor.id } =
      older.rtake (messageLimit limit) := by
  have hmem : anchor ∈ scope.messages := mem_chronological.mp (by simp [h])
  simp only [windowedMessages, findBy?_of_mem hmem, messagesBefore_eq h]

theorem windowedMessages_around (h : scope.chronological = older ++ anchor :: newer)
    (limit : Option ℤ) :
    scope.windowedMessages { messageLimit := limit, aroundMessageId := some anchor.id } =
      scope.messagesAround anchor (messageLimit limit) := by
  have hmem : anchor ∈ scope.messages := mem_chronological.mp (by simp [h])
  simp only [windowedMessages, findBy?_of_mem hmem]

/-! ## Blocks of the order -/

/-- The flags of a page that is a block of the order say whether something is left on a side. -/
theorem messageWindowMeta_block {page : List Message}
    (h : scope.chronological = older ++ page ++ newer) (hpage : page ≠ []) :
    ((messageWindowMeta scope page).hasOlder = true ↔ older ≠ []) ∧
      ((messageWindowMeta scope page).hasNewer = true ↔ newer ≠ []) := by
  constructor
  · obtain ⟨first, rest, rfl⟩ := List.exists_cons_of_ne_nil hpage
    have hfirst : scope.chronological = older ++ first :: (rest ++ newer) := by simp [h]
    simp only [messageWindowMeta, List.head?_cons, Option.any_some, Message.before?_eq]
    exact any_lt_iff scope.keys hfirst
  · obtain ⟨rest, last, rfl⟩ := List.eq_nil_or_concat page |>.resolve_left hpage
    have hlast : scope.chronological = (older ++ rest) ++ last :: newer := by simp [h]
    simp only [messageWindowMeta, List.concat_eq_append, List.getLast?_concat, Option.any_some,
      Message.after?_eq]
    exact any_gt_iff scope.keys hlast

/-- A page around an anchor is a block with the anchor in it, no longer than the limit. -/
theorem messagesAround_block (h : scope.chronological = older ++ anchor :: newer) {limit : ℕ}
    (hlimit : 1 ≤ limit) :
    ∃ before after, scope.chronological = before ++ scope.messagesAround anchor limit ++ after ∧
      anchor ∈ scope.messagesAround anchor limit ∧
      (scope.messagesAround anchor limit).length ≤ limit := by
  rw [messagesAround_eq h]
  have hhalf : (older.rtake (limit / 2)).length ≤ limit / 2 := by
    simp only [List.rtake, List.length_drop]
    omega
  generalize hafter : limit - (older.rtake (limit / 2)).length - 1 = after
  have holder : older.rdrop (limit / 2) ++ older.rtake (limit / 2) = older :=
    List.take_append_drop _ _
  have hnewer : newer.take after ++ newer.drop after = newer := List.take_append_drop _ _
  refine ⟨older.rdrop (limit / 2), newer.drop after, ?_, by simp, ?_⟩
  · calc
      scope.chronological = older ++ anchor :: newer := h
      _ = (older.rdrop (limit / 2) ++ older.rtake (limit / 2)) ++
            anchor :: (newer.take after ++ newer.drop after) := by rw [holder, hnewer]
      _ = _ := by simp
  · simp only [List.length_append, List.length_cons, List.length_take]
    omega

end MessageScope

/-! ## Reading back to the first message -/

/-- If the next request returns the end of `rest`, the pages from it on are a tiling of `rest`.
The induction is on the number of requests; every request leaves less of `rest`. -/
theorem olderPages_tile {scope : MessageScope} (limits : ℕ → Option ℤ) (fuel : ℕ) :
    ∀ (before : Option ℕ) (request : ℕ) (rest newer : List Message),
      scope.chronological = rest ++ newer →
      (∀ limit, scope.windowedMessages { messageLimit := limit, beforeMessageId := before } =
        rest.rtake (messageLimit limit)) →
      rest.length < fuel →
      ∃ pages, olderPages scope limits before request fuel = some pages ∧
        pages.reverse.flatten = rest := by
  induction fuel with
  | zero =>
    intro before request rest newer _ _ hfuel
    omega
  | succ fuel ih =>
    intro before request rest newer h hwindow hfuel
    simp only [olderPages, hwindow]
    have hlimit := one_le_messageLimit (limits request)
    generalize messageLimit (limits request) = limit at hlimit
    have hsplit : rest = rest.rdrop limit ++ rest.rtake limit :=
      (List.take_append_drop _ rest).symm
    by_cases hpage : rest.rtake limit = []
    · -- A page is empty only if nothing is left.
      have hrest : rest = [] := by
        simp only [List.rtake, List.drop_eq_nil_iff] at hpage
        exact List.length_eq_zero_iff.mp (by omega)
      simp [hrest, messageWindowMeta]
    · have hblock : scope.chronological = rest.rdrop limit ++ rest.rtake limit ++ newer := by
        rw [← hsplit, h]
      obtain ⟨holder, -⟩ := MessageScope.messageWindowMeta_block hblock hpage
      by_cases hmore : rest.rdrop limit = []
      · have hfalse : (messageWindowMeta scope (rest.rtake limit)).hasOlder = false :=
          Bool.eq_false_iff.mpr fun htrue => holder.mp htrue hmore
        refine ⟨[rest.rtake limit], by simp [hfalse], ?_⟩
        nth_rewrite 2 [hsplit]
        simp [hmore]
      · obtain ⟨first, tail, hfirst⟩ := List.exists_cons_of_ne_nil hpage
        have hanchor : scope.chronological = rest.rdrop limit ++ first :: (tail ++ newer) := by
          simp [hblock, hfirst]
        have hlength : (rest.rdrop limit).length < fuel := by
          simp only [List.rtake, List.drop_eq_nil_iff] at hpage
          simp only [List.rdrop, List.length_take]
          omega
        obtain ⟨pages, hpages, hflatten⟩ := ih (some first.id) (request + 1) _ _ hanchor
          (MessageScope.windowedMessages_before hanchor) hlength
        refine ⟨rest.rtake limit :: pages, ?_, ?_⟩
        · rw [if_pos (holder.mpr hmore)]
          have holdest : (messageWindowMeta scope (rest.rtake limit)).oldestMessageId =
              some first.id := by
            simp [messageWindowMeta, hfirst]
          simp [holdest, hpages]
        · simp [hflatten, ← hsplit]

theorem readPages_tile (scope : MessageScope) (limits : ℕ → Option ℤ) :
    ∃ pages, readPages scope limits (scope.messages.length + 1) = some pages ∧
      pages.reverse.flatten = scope.chronological := by
  refine olderPages_tile limits _ none 0 scope.chronological [] (by simp)
    MessageScope.windowedMessages_latest ?_
  rw [MessageScope.chronological, (orderBy_perm _ _).length_eq]
  omega

/-! ## The list on the screen -/

theorem sortMessages_perm (messages : List Message) : (sortMessages messages).Perm messages :=
  orderBy_perm _ _

theorem sortMessages_ordered {messages : List Message} (h : (messages.map (·.id)).Nodup) :
    Ordered Message.clientKey (sortMessages messages) :=
  ordered_orderBy (nodup_key_of_ids h)

theorem prependOlderMessages_eq {current older : List Message}
    (h : ((older ++ current).map (·.id)).Nodup) :
    prependOlderMessages current older = sortMessages (older ++ current) := by
  rw [List.map_append, List.nodup_append] at h
  have hnew : older.filter (fun message => !(current.map (·.id)).contains message.id) = older := by
    refine List.filter_eq_self.mpr fun message hmessage => ?_
    have hnot : message.id ∉ current.map (·.id) := fun hmem =>
      h.2.2 message.id (List.mem_map_of_mem hmessage) message.id hmem rfl
    simpa using hnot
  simp only [prependOlderMessages, hnew]

theorem foldl_prependOlderMessages {older : List (List Message)} :
    ∀ {current : List Message}, ((older.reverse.flatten ++ current).map (·.id)).Nodup →
      Ordered Message.clientKey current →
      (older.foldl prependOlderMessages current).Perm (older.reverse.flatten ++ current) ∧
        Ordered Message.clientKey (older.foldl prependOlderMessages current) := by
  induction older with
  | nil =>
    intro current _ hordered
    exact ⟨by simp, hordered⟩
  | cons page older ih =>
    intro current hids hordered
    have hflatten : (page :: older).reverse.flatten ++ current =
        older.reverse.flatten ++ (page ++ current) := by simp
    rw [hflatten] at hids ⊢
    have hpage : ((page ++ current).map (·.id)).Nodup :=
      hids.sublist ((List.sublist_append_right _ _).map _)
    have hperm : (older.reverse.flatten ++ sortMessages (page ++ current)).Perm
        (older.reverse.flatten ++ (page ++ current)) :=
      (sortMessages_perm _).append_left _
    rw [List.foldl_cons, prependOlderMessages_eq hpage]
    obtain ⟨hresult, hsorted⟩ := ih ((hperm.map _).nodup_iff.mpr hids)
      (sortMessages_ordered hpage)
    exact ⟨hresult.trans hperm, hsorted⟩

theorem loadPages_spec {pages : List (List Message)}
    (h : (pages.reverse.flatten.map (·.id)).Nodup) :
    (loadPages pages).Perm pages.reverse.flatten ∧
      Ordered Message.clientKey (loadPages pages) := by
  cases pages with
  | nil => exact ⟨.nil, .nil⟩
  | cons latest older =>
    have hflatten : (latest :: older).reverse.flatten = older.reverse.flatten ++ latest := by simp
    rw [hflatten] at h ⊢
    have hlatest : (latest.map (·.id)).Nodup :=
      h.sublist ((List.sublist_append_right _ _).map _)
    have hperm : (older.reverse.flatten ++ sortMessages latest).Perm
        (older.reverse.flatten ++ latest) :=
      (sortMessages_perm _).append_left _
    obtain ⟨hresult, hsorted⟩ := foldl_prependOlderMessages
      ((hperm.map _).nodup_iff.mpr h) (sortMessages_ordered hlatest)
    exact ⟨hresult.trans hperm, hsorted⟩

/-! ## Whole conversations -/

/-- Reading back from the latest page, with any limits, ends and returns every message once, in
order; a client shows each of them once, ordered by the times it was sent and the ids. A page
around a message is a block of the order. -/
theorem pages_tile_conversation (scope : MessageScope) :
    (∀ limits : ℕ → Option ℤ, ∃ pages,
      readPages scope limits (scope.messages.length + 1) = some pages ∧
        pages.reverse.flatten.Perm scope.messages ∧
        Ordered Message.key pages.reverse.flatten ∧
        (loadPages pages).Perm scope.messages ∧
        Ordered Message.clientKey (loadPages pages)) ∧
      ∀ anchor ∈ scope.messages, ∀ limit : Option ℤ, ∃ older page newer,
        scope.windowedMessages { messageLimit := limit, aroundMessageId := some anchor.id } =
          page ∧
        scope.messages.Perm (older ++ page ++ newer) ∧
        Ordered Message.key (older ++ page ++ newer) ∧
        anchor ∈ page ∧ page.length ≤ messageLimit limit ∧
        ((messageWindowMeta scope page).hasOlder = true ↔ older ≠ []) ∧
        ((messageWindowMeta scope page).hasNewer = true ↔ newer ≠ []) := by
  have hperm : scope.chronological.Perm scope.messages := orderBy_perm _ _
  have hordered : Ordered Message.key scope.chronological := ordered_orderBy scope.keys
  constructor
  · intro limits
    obtain ⟨pages, hpages, hflatten⟩ := readPages_tile scope limits
    rw [← hflatten] at hperm hordered
    obtain ⟨hload, hclient⟩ := loadPages_spec ((hperm.map _).nodup_iff.mpr scope.ids)
    exact ⟨pages, hpages, hperm, hordered, hload.trans hperm, hclient⟩
  · intro anchor hanchor limit
    obtain ⟨older, newer, h⟩ := List.append_of_mem (MessageScope.mem_chronological.mpr hanchor)
    obtain ⟨before, after, hblock, hmem, hlength⟩ :=
      MessageScope.messagesAround_block h (one_le_messageLimit limit)
    obtain ⟨holder, hnewer⟩ :=
      MessageScope.messageWindowMeta_block hblock (List.ne_nil_of_mem hmem)
    rw [hblock] at hperm hordered
    exact ⟨before, _, after, MessageScope.windowedMessages_around h limit, hperm.symm, hordered,
      hmem, hlength, holder, hnewer⟩

/-- Three messages, the first two with one timestamp. -/
def threeMessages : MessageScope where
  messages :=
    [{ id := 2, authorId := 1, createdAt := 5000 }, { id := 1, authorId := 1, createdAt := 5000 },
      { id := 3, authorId := 1, createdAt := 7000 }]
  ids := by decide

theorem pages_of_threeMessages :
    (∃ pages, readPages threeMessages (fun _ => some 2) 4 = some pages ∧
      pages.reverse.flatten.Perm threeMessages.messages) ∧
      ∃ older page newer, threeMessages.windowedMessages
          { messageLimit := some 1, aroundMessageId := some 2 } = page ∧
        threeMessages.messages.Perm (older ++ page ++ newer) ∧ page.length ≤ 1 := by
  constructor
  · obtain ⟨pages, hpages, hperm, -⟩ :=
      (pages_tile_conversation threeMessages).1 fun _ => some 2
    exact ⟨pages, hpages, hperm⟩
  · obtain ⟨older, page, newer, hpage, hperm, -, -, hlength, -⟩ :=
      (pages_tile_conversation threeMessages).2
        { id := 2, authorId := 1, createdAt := 5000 } (by decide) (some 1)
    exact ⟨older, page, newer, hpage, hperm, hlength⟩

end LearningPlatform
