import LearningPlatform.Model.MessageView
import LearningPlatform.Verification.Messages.Windows

/-! # Blocked text does not reach the reader

The reader's view of a store is the store with the text, mentions, attachments and reactions of
blocked authors removed, and with the text of the notifications about their messages. Two stores
that differ only in these have one view. -/

namespace LearningPlatform

open Shared

/-! ## Windows of changed messages -/

section Windows

variable {f : Message → Message} {scope scope' : MessageScope}

theorem windowedMessages_map (hid : ∀ message, (f message).id = message.id)
    (htime : ∀ message, (f message).createdAt = message.createdAt)
    (hscope : scope'.messages = scope.messages.map f) (params : WindowParams) :
    scope'.windowedMessages params = (scope.windowedMessages params).map f := by
  have hkey (message : Message) : (f message).key = message.key := by
    simp only [Message.key, hid, htime]
  have hfind (id : ℕ) : scope'.findBy? id = (scope.findBy? id).map f := by
    simp only [MessageScope.findBy?, hscope, List.find?_map, Function.comp_def, hid]
  have hbefore (anchor : Message) : scope'.messages.filter (·.before? (f anchor)) =
      (scope.messages.filter (·.before? anchor)).map f := by
    simp only [hscope, List.filter_map, Function.comp_def, Message.before?, hid, htime]
  have hafter (anchor : Message) : scope'.messages.filter (·.after? (f anchor)) =
      (scope.messages.filter (·.after? anchor)).map f := by
    simp only [hscope, List.filter_map, Function.comp_def, Message.after?, hid, htime]
  have hlatest (limit : ℕ) : scope'.latestMessages limit = (scope.latestMessages limit).map f := by
    simp only [MessageScope.latestMessages, hscope, orderByDesc_map hkey, ← List.map_take,
      orderBy_map hkey]
  cases hb : params.beforeMessageId with
  | some id =>
    simp only [MessageScope.windowedMessages, hb, hfind]
    cases scope.findBy? id with
    | none => exact hlatest _
    | some anchor =>
      simp only [Option.map_some, MessageScope.messagesBefore, hbefore, orderByDesc_map hkey,
        ← List.map_take, orderBy_map hkey]
  | none =>
    cases ha : params.aroundMessageId with
    | none => simpa only [MessageScope.windowedMessages, hb, ha] using hlatest _
    | some id =>
      simp only [MessageScope.windowedMessages, hb, ha, hfind]
      cases scope.findBy? id with
      | none => exact hlatest _
      | some anchor =>
        simp only [Option.map_some, MessageScope.messagesAround, hbefore, hafter,
          orderByDesc_map hkey, orderBy_map hkey, ← List.map_take, List.length_map,
          ← List.map_cons, ← List.map_append]

theorem messageWindowMeta_map (hid : ∀ message, (f message).id = message.id)
    (htime : ∀ message, (f message).createdAt = message.createdAt)
    (hscope : scope'.messages = scope.messages.map f) (messages : List Message) :
    messageWindowMeta scope' (messages.map f) = messageWindowMeta scope messages := by
  simp only [messageWindowMeta, List.head?_map, List.getLast?_map, Option.map_map, hscope,
    Option.any_map, List.any_map, Function.comp_def, Message.before?, Message.after?, hid, htime]

theorem mem_of_mem_windowedMessages {params : WindowParams} {message : Message}
    (h : message ∈ scope.windowedMessages params) : message ∈ scope.messages := by
  have hlatest (limit : ℕ) (h : message ∈ scope.latestMessages limit) :
      message ∈ scope.messages :=
    (List.mem_insertionSort _).mp (List.mem_of_mem_take (mem_orderBy.mp h))
  have hselected {p : Message → Bool} {limit : ℕ}
      (h : message ∈ (orderByDesc Message.key (scope.messages.filter p)).take limit) :
      message ∈ scope.messages :=
    (List.mem_filter.mp ((List.mem_insertionSort _).mp (List.mem_of_mem_take h))).1
  unfold MessageScope.windowedMessages at h
  dsimp only at h
  split at h
  · split at h
    · exact hlatest _ h
    · exact hselected (mem_orderBy.mp h)
  · split at h
    · exact hlatest _ h
    · rename_i anchor hanchor
      rcases List.mem_append.mp (mem_orderBy.mp h) with hbefore | hrest
      · exact hselected hbefore
      · rcases List.mem_cons.mp hrest with rfl | hafter
        · exact List.mem_of_find?_eq_some hanchor
        · exact (List.mem_filter.mp (mem_orderBy.mp (List.mem_of_mem_take hafter))).1
  · exact hlatest _ h

end Windows

/-! ## The reader's view -/

namespace MessageStore

variable {s : MessageStore} {user : User} {services : MessageServices}

/-- The message without its content, if its author is blocked. -/
def maskMessage (s : MessageStore) (user : User) (message : Message) : Message :=
  let blocked := s.blockedAuthor? user message.authorId
  { message with
    body := if blocked then none else message.body
    mentionUserIds := if blocked then [] else message.mentionUserIds }

/-- The message with this id has a blocked author. -/
def ofBlocked? (s : MessageStore) (user : User) (messageId : ℕ) : Bool :=
  (s.message? messageId).any fun message => s.blockedAuthor? user message.authorId

/-- The row notifies of a message of a blocked author. -/
def hiddenNotification? (s : MessageStore) (user : User) (row : Notification) : Bool :=
  ["message", "direct_message"].contains row.notificationType &&
    row.actorId.any (s.blockedRelationshipUserIds user.id).contains

def maskNotification (s : MessageStore) (user : User) (row : Notification) : Notification :=
  if s.hiddenNotification? user row then { row with title := "", body := none } else row

/-- The reader's view of a store. -/
def masked (s : MessageStore) (user : User) : MessageStore :=
  { s with
    messages := s.messages.map (s.maskMessage user)
    messageIds := by simpa [List.map_map, Function.comp_def, maskMessage] using s.messageIds
    messageAttachments :=
      s.messageAttachments.filter fun row => !s.ofBlocked? user row.messageId
    messageReactions := s.messageReactions.filter fun row => !s.ofBlocked? user row.messageId
    notifications := s.notifications.map (s.maskNotification user) }

variable {message : Message} {destination : Destination}

theorem message?_of_mem (h : message ∈ s.messages) : s.message? message.id = some message := by
  refine find?_eq_some_of_unique h (by simp) fun other hother heq => ?_
  exact List.inj_on_of_nodup_map s.messageIds hother h (by simpa using heq)

theorem ofBlocked?_of_mem (h : message ∈ s.messages) :
    s.ofBlocked? user message.id = s.blockedAuthor? user message.authorId := by
  simp [ofBlocked?, message?_of_mem h]

theorem maskMessage_of_not_blocked (h : s.blockedAuthor? user message.authorId = false) :
    s.maskMessage user message = message := by
  simp [maskMessage, h]

theorem filter_masked {p : Message → Bool}
    (hp : ∀ message, p (s.maskMessage user message) = p message) :
    (s.masked user).messages.filter p = (s.messages.filter p).map (s.maskMessage user) := by
  simp only [masked, List.filter_map, Function.comp_def, hp]

/-! ## Rendering -/

theorem filter_ofMessage {α : Type*} (rows : List α) (messageId : α → ℕ) (h : message ∈ s.messages)
    (hblocked : s.blockedAuthor? user message.authorId = false) :
    (rows.filter fun row => !s.ofBlocked? user (messageId row)).filter
        (messageId · == message.id) = rows.filter (messageId · == message.id) := by
  rw [List.filter_filter]
  refine List.filter_congr fun row _ => ?_
  by_cases hrow : messageId row = message.id
  · simp [hrow, ofBlocked?_of_mem h, hblocked]
  · simp [hrow]

theorem attachmentsOf_masked (h : message ∈ s.messages)
    (hblocked : s.blockedAuthor? user message.authorId = false) :
    (s.masked user).attachmentsOf message = s.attachmentsOf message :=
  filter_ofMessage s.messageAttachments (·.messageId) h hblocked

theorem reactionsOf_masked (h : message ∈ s.messages)
    (hblocked : s.blockedAuthor? user message.authorId = false) :
    (s.masked user).reactionsOf message = s.reactionsOf message :=
  filter_ofMessage s.messageReactions (·.messageId) h hblocked

theorem replyCount_masked (s : MessageStore) (user : User) (message : Message) :
    (s.masked user).replyCount (s.maskMessage user message) = s.replyCount message := by
  unfold replyCount
  rw [filter_masked fun _ => rfl, List.length_map]
  rfl

theorem render_masked {message : Message} (h : message ∈ s.messages) (streamUrl : Bool)
    (receipts : Option ReceiptsJson) :
    (s.masked user).render services user streamUrl receipts (s.maskMessage user message) =
      s.render services user streamUrl receipts message := by
  have hreplies := replyCount_masked s user message
  cases hblocked : s.blockedAuthor? user message.authorId with
  | true =>
    have hblocked' : (s.masked user).blockedAuthor? user
        (s.maskMessage user message).authorId = true := hblocked
    simp only [render, hblocked, hblocked', hreplies, if_true]
    rfl
  | false =>
    rw [maskMessage_of_not_blocked hblocked] at hreplies ⊢
    have hblocked' : (s.masked user).blockedAuthor? user message.authorId = false := hblocked
    simp only [render, hblocked, hblocked', hreplies, attachmentsOf_masked h hblocked,
      reactionJson, reactionsOf_masked h hblocked]
    rfl

theorem latest_masked (h : message ∈ s.messages) :
    (s.masked user).latest user (s.maskMessage user message) = s.latest user message := by
  cases hblocked : s.blockedAuthor? user message.authorId with
  | true =>
    have hblocked' : (s.masked user).blockedAuthor? user
        (s.maskMessage user message).authorId = true := hblocked
    simp only [latest, hblocked, hblocked', if_true]
    rfl
  | false =>
    rw [maskMessage_of_not_blocked hblocked]
    have hblocked' : (s.masked user).blockedAuthor? user message.authorId = false := hblocked
    simp only [latest, hblocked, hblocked', attachmentPreview, attachmentsOf_masked h hblocked]
    rfl

/-! ## Places -/

theorem scopeOf_masked (s : MessageStore) (user : User) (destination : Destination) :
    ((s.masked user).scopeOf destination).messages =
      (s.scopeOf destination).messages.map (s.maskMessage user) :=
  filter_masked fun _ => rfl

theorem mem_of_mem_scopeOf (h : message ∈ (s.scopeOf destination).messages) :
    message ∈ s.messages :=
  (List.mem_filter.mp h).1

theorem latestMessage_masked (s : MessageStore) (user : User) (destination : Destination) :
    (s.masked user).latestMessage destination =
      (s.latestMessage destination).map (s.maskMessage user) := by
  unfold latestMessage
  rw [scopeOf_masked, orderByDesc_map (f := s.maskMessage user) fun _ => rfl, List.head?_map]

theorem mem_of_latestMessage (h : s.latestMessage destination = some message) :
    message ∈ s.messages :=
  mem_of_mem_scopeOf ((List.mem_insertionSort _).mp (List.mem_of_head? h))

theorem pinnedRecent_masked (s : MessageStore) (user : User) (destination : Destination) :
    (s.masked user).pinnedRecent destination =
      (s.pinnedRecent destination).map (s.maskMessage user) := by
  unfold pinnedRecent
  rw [scopeOf_masked, List.filter_map, orderByDesc_map (f := s.maskMessage user) fun _ => rfl,
    List.map_take]
  rfl

theorem mem_of_mem_pinnedRecent (h : message ∈ s.pinnedRecent destination) : message ∈ s.messages :=
  mem_of_mem_scopeOf
    (List.mem_filter.mp ((List.mem_insertionSort _).mp (List.mem_of_mem_take h))).1

theorem unreadCount_masked (s : MessageStore) (user : User) (destination : Destination) :
    (s.masked user).unreadCount user destination = s.unreadCount user destination := by
  unfold unreadCount
  rw [scopeOf_masked, List.filter_map, List.length_map]
  rfl

theorem placeJson_masked {latest : Option Message}
    (h : ∀ message, latest = some message → message ∈ s.messages) (destination : Destination) :
    (s.masked user).placeJson user (latest.map (s.maskMessage user)) destination =
      s.placeJson user latest destination := by
  have hlatest : (latest.map (s.maskMessage user)).map ((s.masked user).latest user) =
      latest.map (s.latest user) := by
    cases latest with
    | none => rfl
    | some message => simp only [Option.map_some, latest_masked (h message rfl)]
  cases destination with
  | channel channel =>
    simp only [placeJson, hlatest, unreadCount_masked]
    rfl
  | directConversation conversation =>
    simp only [placeJson, hlatest, unreadCount_masked]
    rfl

theorem map_render_masked {messages : List Message} (h : ∀ message ∈ messages, message ∈ s.messages)
    (streamUrl : Bool) (receipts : Message → Option ReceiptsJson)
    (hreceipts : ∀ message, receipts (s.maskMessage user message) = receipts message) :
    (messages.map (s.maskMessage user)).map (fun message =>
        (s.masked user).render services user streamUrl (receipts message) message) =
      messages.map fun message => s.render services user streamUrl (receipts message) message := by
  rw [List.map_map]
  refine List.map_congr_left fun message hmessage => ?_
  simp only [Function.comp_apply, hreceipts]
  exact render_masked (h message hmessage) _ _

/-! ## Pages, lists, threads and broadcasts -/

theorem showPage_masked (s : MessageStore) (user : User) (params : WindowParams)
    (destination : Destination) :
    (s.masked user).showPage services user params destination =
      s.showPage services user params destination := by
  have hwindow := windowedMessages_map (f := s.maskMessage user) (fun _ => rfl) (fun _ => rfl)
    (scopeOf_masked s user destination) params
  have hmem : ∀ message ∈ (s.scopeOf destination).windowedMessages params,
      message ∈ s.messages := fun message hmessage =>
    mem_of_mem_scopeOf (mem_of_mem_windowedMessages hmessage)
  simp only [showPage, hwindow, pinnedRecent_masked, List.getLast?_map]
  rw [placeJson_masked fun message hlast => hmem message (List.mem_of_getLast? hlast),
    messageWindowMeta_map (f := s.maskMessage user) (fun _ => rfl) (fun _ => rfl)
      (scopeOf_masked s user destination)]
  congr 1
  · exact map_render_masked hmem true
      (fun message => some (s.readReceiptsFor destination message)) fun _ => rfl
  · exact map_render_masked (fun message hmessage => mem_of_mem_pinnedRecent hmessage) true
      (fun _ => none) fun _ => rfl

theorem indexPlaces_masked (s : MessageStore) (user : User) (destinations : List Destination) :
    (s.masked user).indexPlaces user destinations = s.indexPlaces user destinations := by
  refine List.map_congr_left fun destination _ => ?_
  rw [latestMessage_masked]
  exact placeJson_masked (fun message hlatest => mem_of_latestMessage hlatest) destination

theorem message?_masked (s : MessageStore) (user : User) (id : ℕ) :
    (s.masked user).message? id = (s.message? id).map (s.maskMessage user) := by
  simp only [message?, masked, List.find?_map, Function.comp_def]
  rfl

theorem threadRoot_masked (s : MessageStore) (user : User) (message : Message) :
    (s.masked user).threadRoot (s.maskMessage user message) =
      s.maskMessage user (s.threadRoot message) := by
  have hparent : (s.maskMessage user message).parentMessageId = message.parentMessageId := rfl
  unfold threadRoot
  rw [hparent]
  cases message.parentMessageId with
  | none => rfl
  | some parentId =>
    rw [Option.bind_some, Option.bind_some, message?_masked]
    cases s.message? parentId <;> rfl

theorem threadRoot_mem (h : message ∈ s.messages) : s.threadRoot message ∈ s.messages := by
  unfold threadRoot
  cases hparent : message.parentMessageId.bind s.message? with
  | none => exact h
  | some root =>
    obtain ⟨parentId, -, hroot⟩ := Option.bind_eq_some_iff.mp hparent
    exact List.mem_of_find?_eq_some hroot

theorem repliesTo_masked (s : MessageStore) (user : User) (root : Message) :
    (s.masked user).repliesTo (s.maskMessage user root) =
      (s.repliesTo root).map (s.maskMessage user) := by
  unfold repliesTo
  rw [filter_masked fun _ => rfl, orderBy_map (f := s.maskMessage user) fun _ => rfl]
  rfl

theorem thread_masked (h : message ∈ s.messages) :
    (s.masked user).thread services user (s.maskMessage user message) =
      s.thread services user message := by
  have hreplies : ∀ reply ∈ s.repliesTo (s.threadRoot message), reply ∈ s.messages :=
    fun reply hreply => (List.mem_filter.mp (mem_orderBy.mp hreply)).1
  simp only [thread, threadRoot_masked, repliesTo_masked, render_masked (threadRoot_mem h)]
  rw [map_render_masked hreplies true (fun _ => none) fun _ => rfl]
  rfl

theorem payloadForUser_masked (h : message ∈ s.messages) (event : BroadcastEvent)
    (destination : Destination) :
    (s.masked user).payloadForUser services user event (s.maskMessage user message) destination =
      s.payloadForUser services user event message destination := by
  simp only [payloadForUser, render_masked h, latestMessage_masked]
  rw [placeJson_masked fun message hlatest => mem_of_latestMessage hlatest]
  rfl

theorem hiddenNotification?_of_visible {row : Notification}
    (h : row ∈ s.visibleNotifications user) : s.hiddenNotification? user row = false := by
  have hvisible := (List.mem_filter.mp h).2
  unfold hiddenNotification?
  cases hactor : row.actorId with
  | none => simp
  | some actorId =>
    by_cases hblocked : actorId ∈ s.blockedRelationshipUserIds user.id
    · -- The list of blocked users is not empty, so the row is filtered by its type.
      have hsome : (s.blockedRelationshipUserIds user.id).isEmpty = false :=
        List.isEmpty_eq_false_iff.mpr (List.ne_nil_of_mem hblocked)
      simp only [hactor, hsome, Option.all_some, List.contains_iff_mem.mpr hblocked,
        Bool.and_true, Bool.false_or, Bool.and_eq_true, Bool.not_eq_true'] at hvisible
      rw [hvisible.2, Bool.false_and]
    · simp [hblocked]

theorem visibleNotifications_masked (s : MessageStore) (user : User) :
    (s.masked user).visibleNotifications user = s.visibleNotifications user := by
  have hmap : (s.masked user).visibleNotifications user =
      (s.visibleNotifications user).map (s.maskNotification user) := by
    refine List.filter_map.trans (congrArg _ (List.filter_congr fun row _ => ?_))
    simp only [Function.comp_apply, maskNotification]
    split <;> rfl
  rw [hmap]
  refine (List.map_congr_left fun row hrow => ?_).trans (List.map_id _)
  simp [maskNotification, hiddenNotification?_of_visible hrow]

/-- Whatever the reader receives without searching can be computed from the reader's view. -/
theorem receive_masked (s : MessageStore) (user : User) {query : MessageQuery}
    (h : ∀ q limit, query ≠ .search q limit) :
    (s.masked user).receive services user query = s.receive services user query := by
  cases query with
  | channels =>
    simp only [receive, indexPlaces_masked]
    rfl
  | channel id params =>
    simp only [receive, showPage_masked]
    rfl
  | directConversations =>
    simp only [receive, indexPlaces_masked]
    rfl
  | directConversation id params =>
    simp only [receive, showPage_masked]
    rfl
  | thread messageId =>
    simp only [receive, message?_masked]
    cases hmessage : s.message? messageId with
    | none => rfl
    | some message =>
      exact congrArg (Except.map MessagePayload.thread)
        (thread_masked (List.mem_of_find?_eq_some hmessage))
  | broadcast event messageId =>
    simp only [receive, message?_masked]
    cases hmessage : s.message? messageId with
    | none => rfl
    | some message =>
      change Except.ok _ = Except.ok _
      simp only [payloadForUser_masked (List.mem_of_find?_eq_some hmessage)]
      rfl
  | notifications params =>
    simp only [receive, notificationsIndex, visibleNotifications_masked]
    rfl
  | search q limit => exact absurd rfl (h q limit)

/-! ## Search -/

theorem mem_of_mem_found {q : String} {limit : Option ℤ}
    (h : message ∈ s.found services user q limit) : message ∈ s.messages := by
  unfold found at h
  dsimp only at h
  split at h
  · cases h
  · exact (List.mem_filter.mp ((List.mem_insertionSort _).mp (List.mem_of_mem_take h))).1

/-- The found messages as the reader sees them. -/
def foundView (services : MessageServices) (s : MessageStore) (user : User) (q : String)
    (limit : Option ℤ) : List Message :=
  (s.found services user q limit).map (s.maskMessage user)

theorem mem_of_mem_foundView {q : String} {limit : Option ℤ}
    (h : message ∈ s.foundView services user q limit) : message ∈ (s.masked user).messages := by
  obtain ⟨source, hsource, rfl⟩ := List.mem_map.mp h
  exact List.mem_map_of_mem (mem_of_mem_found hsource)

theorem receive_search (services : MessageServices) (s : MessageStore) (user : User) (q : String)
    (limit : Option ℤ) :
    s.receive services user (.search q limit) = .ok (.results
      ((s.foundView services user q limit).map ((s.masked user).resultJson services user))) := by
  have hresults : (s.foundView services user q limit).map
      ((s.masked user).resultJson services user) =
      (s.found services user q limit).map (s.resultJson services user) := by
    rw [foundView, List.map_map]
    refine List.map_congr_left fun message hmessage => ?_
    simp only [Function.comp_apply, resultJson, render_masked (mem_of_mem_found hmessage)]
    rfl
  simp only [receive, hresults]

/-- The ids of the messages that a search may return, newest first. -/
def searchableIds (s : MessageStore) (user : User) : List ℕ :=
  (orderByDesc Message.key (s.messages.filter (s.searchable? user))).map (·.id)

/-- The text of the message with this id contains the query. -/
def bodyMatches? (services : MessageServices) (s : MessageStore) (query : String) (id : ℕ) :
    Bool :=
  (s.message? id).any (matches? services query)

theorem nodup_searchableIds (s : MessageStore) (user : User) : (s.searchableIds user).Nodup :=
  ((List.perm_insertionSort _ _).map _).nodup_iff.mpr
    (s.messageIds.sublist (List.filter_sublist.map _))

theorem found_ids (services : MessageServices) (s : MessageStore) (user : User) (q : String)
    (limit : Option ℤ) : (s.found services user q limit).map (·.id) =
      if (strip q).length < 2 then []
      else ((s.searchableIds user).filter (s.bodyMatches? services (strip q))).take
        (max 1 (min (limit.getD 30) 50)).toNat := by
  let scope : MessageScope :=
    ⟨s.messages.filter (s.searchable? user), s.messageIds.sublist (List.filter_sublist.map _)⟩
  unfold found
  dsimp only
  split
  · rfl
  · rw [← List.filter_filter, orderByDesc_filter scope.keys, List.map_take, searchableIds,
      List.filter_map]
    congr 2
    refine List.filter_congr fun message hmessage => ?_
    have hmem : message ∈ s.messages :=
      (List.mem_filter.mp ((List.mem_insertionSort _).mp hmessage)).1
    simp [bodyMatches?, message?_of_mem hmem]

theorem searchableIds_masked (s : MessageStore) (user : User) :
    (s.masked user).searchableIds user = s.searchableIds user := by
  unfold searchableIds
  rw [show (s.masked user).searchable? user = s.searchable? user from rfl,
    filter_masked fun _ => rfl, orderByDesc_map (f := s.maskMessage user) fun _ => rfl,
    List.map_map]
  rfl

end MessageStore

/-- Rows of one table are determined by their ids, one list at a time. -/
theorem eq_of_map_id_eq {messages first second : List Message}
    (hids : (messages.map (·.id)).Nodup) (hfirst : ∀ message ∈ first, message ∈ messages)
    (hsecond : ∀ message ∈ second, message ∈ messages)
    (h : first.map (·.id) = second.map (·.id)) : first = second := by
  induction first generalizing second with
  | nil => simpa using h.symm
  | cons message first ih =>
    cases second with
    | nil => simp at h
    | cons other second =>
      simp only [List.map_cons, List.cons.injEq] at h
      rw [List.inj_on_of_nodup_map hids (hfirst message (by simp))
          (hsecond other (by simp)) h.1,
        ih (fun row hrow => hfirst row (List.mem_cons_of_mem _ hrow))
          (fun row hrow => hsecond row (List.mem_cons_of_mem _ hrow)) h.2]

/-- For a search: every text of a blocked author that the reader may search, and that does not
stand behind as many newer results as the limit, contains the query in both stores or in neither.
Nothing is required of other requests. -/
def MessageQuery.SameMatches (services : MessageServices) (s s' : MessageStore) (user : User) :
    MessageQuery → Prop
  | .search q limit => (strip q).length < 2 ∨
      ∀ newer id older, s.searchableIds user = newer ++ id :: older →
        s.ofBlocked? user id = true →
        (newer.filter (s.bodyMatches? services (strip q))).length <
          (max 1 (min (limit.getD 30) 50)).toNat →
        s.bodyMatches? services (strip q) id = s'.bodyMatches? services (strip q) id
  | _ => True

variable {services : MessageServices} {s s' : MessageStore} {user : User}

theorem search_eq_iff_ids (h : s.masked user = s'.masked user) (q : String) (limit : Option ℤ) :
    s.receive services user (.search q limit) = s'.receive services user (.search q limit) ↔
      (s.found services user q limit).map (·.id) =
        (s'.found services user q limit).map (·.id) := by
  have hids (store : MessageStore) : (store.foundView services user q limit).map (·.id) =
      (store.found services user q limit).map (·.id) := by
    simp only [MessageStore.foundView, List.map_map]
    rfl
  rw [MessageStore.receive_search, MessageStore.receive_search, ← hids s, ← hids s', h]
  constructor
  · intro heq
    simp only [Except.ok.injEq, MessagePayload.results.injEq] at heq
    have hresult := congrArg (List.map fun result => result.1.id) heq
    simpa only [List.map_map, Function.comp_def, MessageStore.resultJson,
      MessageStore.render] using hresult
  · intro heq
    rw [eq_of_map_id_eq (s'.masked user).messageIds
      (fun message hmessage => h ▸ MessageStore.mem_of_mem_foundView hmessage)
      (fun message hmessage => MessageStore.mem_of_mem_foundView hmessage) heq]

theorem bodyMatches?_eq (h : s.masked user = s'.masked user) {id : ℕ}
    (hblocked : s.ofBlocked? user id = false) (query : String) :
    s.bodyMatches? services query id = s'.bodyMatches? services query id := by
  have hmessage := congrArg (MessageStore.message? · id) h
  simp only [MessageStore.message?_masked] at hmessage
  have hauthors (authorId : ℕ) :
      s'.blockedAuthor? user authorId = s.blockedAuthor? user authorId :=
    (congrArg (MessageStore.blockedAuthor? · user authorId) h).symm
  unfold MessageStore.ofBlocked? at hblocked
  unfold MessageStore.bodyMatches?
  cases hs : s.message? id with
  | none =>
    rw [hs] at hmessage
    rw [Option.map_eq_none_iff.mp hmessage.symm]
  | some message =>
    rw [hs] at hmessage hblocked
    obtain ⟨message', hs', hmask⟩ := Option.map_eq_some_iff.mp hmessage.symm
    have hauthor : message'.authorId = message.authorId := congrArg (·.authorId) hmask
    rw [MessageStore.maskMessage_of_not_blocked (hauthors _ ▸ hauthor ▸ hblocked),
      MessageStore.maskMessage_of_not_blocked hblocked] at hmask
    rw [hs', hmask]

theorem search_eq_iff (h : s.masked user = s'.masked user) (q : String) (limit : Option ℤ) :
    s.receive services user (.search q limit) = s'.receive services user (.search q limit) ↔
      (MessageQuery.search q limit).SameMatches services s s' user := by
  have hids : s'.searchableIds user = s.searchableIds user := by
    rw [← MessageStore.searchableIds_masked s', ← h, MessageStore.searchableIds_masked]
  rw [search_eq_iff_ids h, MessageStore.found_ids, MessageStore.found_ids, hids]
  split
  · rename_i hshort
    exact iff_of_true rfl (.inl hshort)
  · rename_i hlong
    simp only [MessageQuery.SameMatches]
    rw [take_filter_eq_iff (s.nodup_searchableIds user), or_iff_right hlong]
    refine forall₄_congr fun newer id older heq => ?_
    cases hblocked : s.ofBlocked? user id with
    | true => simp
    | false => simp [bodyMatches?_eq h hblocked (strip q)]

/-- In two stores that differ only in the content of blocked authors' messages and of the
notifications about them, the reader receives the same, except for a search whose query is in a
text of a blocked author in one of them only. -/
theorem blocked_text_unseen_iff (h : s.masked user = s'.masked user) (query : MessageQuery) :
    s.receive services user query = s'.receive services user query ↔
      query.SameMatches services s s' user := by
  by_cases hsearch : ∃ q limit, query = .search q limit
  · obtain ⟨q, limit, rfl⟩ := hsearch
    exact search_eq_iff h q limit
  · have hother : ∀ q limit, query ≠ .search q limit := fun q limit heq =>
      hsearch ⟨q, limit, heq⟩
    have hsame : query.SameMatches services s s' user := by
      cases query with
      | search q limit => exact absurd rfl (hother q limit)
      | _ => trivial
    refine iff_of_true ?_ hsame
    rw [← MessageStore.receive_masked s user hother, ← MessageStore.receive_masked s' user hother,
      h]

/-! ## A search that tells blocked texts apart -/

def asciiServices : MessageServices where
  lower text := String.ofList (text.toList.map Char.toLower)
  downcase text := String.ofList (text.toList.map Char.toLower)

/-- A student has blocked the author of the only message of the class channel, of which the
student was notified before. -/
def blockedMessage (body : String) : MessageStore where
  users := [{ id := 1, role := .admin }, { id := 2 }, { id := 3 }]
  enrollments := [{ id := 6, userId := 2, cohortId := 5 }, { id := 7, userId := 3, cohortId := 5 }]
  workspaces := [{ id := 1, cohortId := some 5, name := "Fall", slug := "fall-5" }]
  channels := [{ id := 2, workspaceId := 1, cohortId := some 5, name := "Class Chat" }]
  userBlocks := [⟨2, 3⟩]
  notifications := [{ id := 1, userId := 2, actorId := some 3, notifiable := .other "Message" 1,
                      notificationType := "message", title := "Class Chat", body := some body }]
  messages := [{ id := 1, channelId := some 2, authorId := 3, body := some body, createdAt := 0 }]
  messageIds := by simp

theorem blockedMessage_masked (body body' : String) :
    (blockedMessage body).masked { id := 2 } = (blockedMessage body').masked { id := 2 } := rfl

/-- The text is masked in the results, but it decides whether the message is found. -/
theorem search_distinguishes_blocked_texts :
    ∃ (s s' : MessageStore) (user : User) (q : String), s.masked user = s'.masked user ∧
      s.receive asciiServices user (.search q none) ≠
        s'.receive asciiServices user (.search q none) := by
  refine ⟨blockedMessage "My secret", blockedMessage "Good morning", { id := 2 }, "secret",
    blockedMessage_masked _ _, ?_⟩
  decide +kernel

/-- A page, the notifications, and a search for a word that is in neither text. -/
theorem blocked_text_unseen_in_channel :
    [.channel 2 {}, .notifications {}, .search "holiday" none].Forall fun query =>
      (blockedMessage "My secret").receive asciiServices { id := 2 } query =
        (blockedMessage "Good morning").receive asciiServices { id := 2 } query := by
  refine ⟨(blocked_text_unseen_iff (blockedMessage_masked _ _) _).mpr ?_,
    (blocked_text_unseen_iff (blockedMessage_masked _ _) _).mpr ?_,
    (blocked_text_unseen_iff (blockedMessage_masked _ _) _).mpr ?_⟩
  · trivial
  · trivial
  · refine .inr fun newer id older hids _ _ => ?_
    have hsearchable : (blockedMessage "My secret").searchableIds { id := 2 } = [1] := by
      decide +kernel
    have hid : id ∈ [1] := hsearchable ▸ hids ▸ by simp
    obtain rfl := List.mem_singleton.mp hid
    decide +kernel

end LearningPlatform
