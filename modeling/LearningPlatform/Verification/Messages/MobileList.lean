import LearningPlatform.Model.MobileMessages

/-! # The mobile message list against the server's

The client holds the server's messages from some key upwards, sorted. The server creates,
changes and deletes messages; the client applies the events, each at least once, and keeps
holding that window. -/

namespace LearningPlatform.Mobile

open Shared

/-! ## Lists of messages -/

def DistinctIds (messages : List MobileMessage) : Prop :=
  (messages.map (·.id)).Nodup

instance (messages : List MobileMessage) : Decidable (DistinctIds messages) :=
  inferInstanceAs (Decidable (messages.map (·.id)).Nodup)

/-- Sorted by `(created_at, id)` and without duplicate ids. -/
def WellSorted (messages : List MobileMessage) : Prop :=
  Ordered MobileMessage.key messages ∧ DistinctIds messages

/-- The messages of the server from `bound` upwards. -/
def window (bound : ℕ ×ₗ ℤ) (server : List MobileMessage) : List MobileMessage :=
  above MobileMessage.key bound server

variable {messages : List MobileMessage} {message payload new : MobileMessage}

theorem DistinctIds.keys (h : DistinctIds messages) : (messages.map MobileMessage.key).Nodup := by
  refine List.Nodup.of_map (fun key => (ofLex key).2) ?_
  rw [List.map_map]
  exact h

theorem DistinctIds.eq (h : DistinctIds messages) {first second : MobileMessage}
    (hfirst : first ∈ messages) (hsecond : second ∈ messages) (hid : first.id = second.id) :
    first = second :=
  List.inj_on_of_nodup_map h hfirst hsecond hid

theorem DistinctIds.filter (h : DistinctIds messages) (p : MobileMessage → Bool) :
    DistinctIds (messages.filter p) :=
  h.sublist (List.filter_sublist.map _)

theorem DistinctIds.append_singleton (h : DistinctIds messages)
    (hnew : message.id ∉ messages.map (·.id)) : DistinctIds (messages ++ [message]) := by
  rw [DistinctIds, List.map_append]
  exact h.append (by simp) (by simpa using hnew)

theorem distinctIds_map {f : MobileMessage → MobileMessage}
    (hf : ∀ message, (f message).id = message.id) :
    DistinctIds (messages.map f) ↔ DistinctIds messages := by
  rw [DistinctIds, List.map_map]
  exact iff_of_eq (congrArg List.Nodup (List.map_congr_left fun message _ => hf message))

theorem wellSorted_sortMessages (h : DistinctIds messages) : WellSorted (sortMessages messages) :=
  ⟨ordered_orderBy h.keys, ((orderBy_perm _ messages).map _).nodup_iff.mpr h⟩

theorem wellSorted_window {bound : ℕ ×ₗ ℤ} {server : List MobileMessage}
    (h : DistinctIds server) : WellSorted (window bound server) :=
  wellSorted_sortMessages (h.filter _)

theorem sortMessages_congr {first second : List MobileMessage} (h : DistinctIds second)
    (hperm : first.Perm second) : sortMessages first = sortMessages second :=
  (ordered_orderBy h.keys).orderBy_eq ((orderBy_perm _ second).trans hperm.symm)

/-! ## Events of the server -/

/-- An optional field in an event: it has the new value, or it is left out and is unchanged. -/
def Carried {α : Type} (sent old new : Option α) : Prop :=
  (new.isSome ∧ sent = new) ∨ (sent = none ∧ new = old)

/-- The payload of the event for the change of a message from `old` to `new`. -/
structure Carries (payload old new : MobileMessage) : Prop where
  id : payload.id = new.id
  createdAt : payload.createdAt = new.createdAt
  fields : payload.fields = new.fields
  pinnedById : Carried payload.pinnedById old.pinnedById new.pinnedById
  blocked : Carried payload.blocked old.blocked new.blocked
  readReceipts : Carried payload.readReceipts old.readReceipts new.readReceipts
  replyCount : Carried payload.replyCount old.replyCount new.replyCount
  clientStatus : Carried payload.clientStatus old.clientStatus new.clientStatus
  clientError : Carried payload.clientError old.clientError new.clientError
  clientUploads : Carried payload.clientUploads old.clientUploads new.clientUploads

/-- The version `new` of the message with its id. -/
def replaced (new message : MobileMessage) : MobileMessage :=
  if message.id = new.id then new else message

/-- One operation on the server's list with the event that it sends; `change` is an edit, a
reaction, a pin or their opposites. -/
inductive ServerStep (bound : ℕ ×ₗ ℤ) :
    List MobileMessage → MobileMessageEvent → List MobileMessage → Prop where
  | create {server message} (hnew : message.id ∉ server.map (·.id))
      (hbound : bound ≤ message.key) :
      ServerStep bound server ⟨.created, message⟩ (server ++ [message])
  | change {server old new payload} (hold : old ∈ server) (hid : new.id = old.id)
      (hcreated : new.createdAt = old.createdAt) (hcarries : Carries payload old new) :
      ServerStep bound server ⟨.updated, payload⟩ (server.map (replaced new))
  | delete {server payload} :
      ServerStep bound server ⟨.deleted, payload⟩ (server.filter (·.id != payload.id))

theorem Carried.or_eq {α : Type} {sent old new : Option α} (h : Carried sent old new) :
    sent.or old = new := by
  rcases h with ⟨hsome, rfl⟩ | ⟨rfl, rfl⟩
  · exact Option.or_of_isSome hsome
  · exact Option.none_or

theorem Carried.again {α : Type} {sent old new : Option α} (h : Carried sent old new) :
    Carried sent new new :=
  h.imp_right fun hleft => ⟨hleft.1, rfl⟩

theorem Carries.spread_eq {old : MobileMessage} (h : Carries payload old new) :
    old.spread payload = new := by
  cases new
  simp only [MobileMessage.spread, MobileMessage.mk.injEq]
  exact ⟨h.id, h.createdAt, h.fields, h.pinnedById.or_eq, h.blocked.or_eq, h.readReceipts.or_eq,
    h.replyCount.or_eq, h.clientStatus.or_eq, h.clientError.or_eq, h.clientUploads.or_eq⟩

theorem Carries.again {old : MobileMessage} (h : Carries payload old new) :
    Carries payload new new :=
  ⟨h.id, h.createdAt, h.fields, h.pinnedById.again, h.blocked.again, h.readReceipts.again,
    h.replyCount.again, h.clientStatus.again, h.clientError.again, h.clientUploads.again⟩

theorem carried_self_iff {α : Type} {sent old : Option α} :
    Carried sent old old ↔ sent.or old = old := by
  cases sent <;> cases old <;> simp [Carried]

/-- A payload leaves a message as it is if every key that it has is in the message with the same
value. -/
theorem carries_self_iff : Carries payload message message ↔ message.spread payload = message := by
  refine ⟨Carries.spread_eq, fun heq => ?_⟩
  have hkey {α : Type} (field : MobileMessage → α) :
      field (message.spread payload) = field message := congrArg field heq
  exact ⟨hkey (·.id), hkey (·.createdAt), hkey (·.fields),
    carried_self_iff.mpr (hkey (·.pinnedById)), carried_self_iff.mpr (hkey (·.blocked)),
    carried_self_iff.mpr (hkey (·.readReceipts)), carried_self_iff.mpr (hkey (·.replyCount)),
    carried_self_iff.mpr (hkey (·.clientStatus)),
    carried_self_iff.mpr (hkey (·.clientError)), carried_self_iff.mpr (hkey (·.clientUploads))⟩

theorem spread_self (message : MobileMessage) : message.spread message = message := by
  simp [MobileMessage.spread]

theorem replaced_id (new message : MobileMessage) : (replaced new message).id = message.id := by
  unfold replaced
  split
  case isTrue h => exact h.symm
  case isFalse => rfl

/-! ## Merging an event -/

/-- Merging a payload into a list where it makes the message with its id into `new`. -/
theorem mergeInto_eq (hid : payload.id = new.id)
    (h : ∀ message ∈ messages, message.id = new.id → message.spread payload = new) :
    mergeInto messages payload = messages.map (replaced new) := by
  refine List.map_congr_left ?_
  intro message hmessage
  unfold replaced
  rw [hid]
  split
  case isTrue heq => exact h message hmessage heq
  case isFalse => rfl

theorem map_replaced_eq_self (h : ∀ message ∈ messages, message.id = new.id → message = new) :
    messages.map (replaced new) = messages := by
  refine (List.map_congr_left ?_).trans (List.map_id messages)
  intro message hmessage
  unfold replaced
  split
  case isTrue heq => exact (h message hmessage heq).symm
  case isFalse => rfl

theorem mergeMessageEvent_created_present (h : message.id ∈ messages.map (·.id)) :
    mergeMessageEvent messages ⟨.created, message⟩ = mergeInto messages message := by
  simp only [mergeMessageEvent]
  exact if_pos (by simpa using h)

theorem mergeMessageEvent_created_absent (h : message.id ∉ messages.map (·.id)) :
    mergeMessageEvent messages ⟨.created, message⟩ = sortMessages (messages ++ [message]) := by
  simp only [mergeMessageEvent]
  exact if_neg (by simpa using h)

section Steps

variable {bound : ℕ ×ₗ ℤ} {server server' : List MobileMessage} {event : MobileMessageEvent}

theorem ServerStep.distinctIds (h : ServerStep bound server event server')
    (hids : DistinctIds server) : DistinctIds server' := by
  cases h with
  | create hnew => exact hids.append_singleton hnew
  | change => exact (distinctIds_map (replaced_id _)).mpr hids
  | delete => exact hids.filter _

theorem window_map_replaced {old new : MobileMessage} (hids : DistinctIds server)
    (hold : old ∈ server) (hid : new.id = old.id) (hcreated : new.createdAt = old.createdAt) :
    window bound (server.map (replaced new)) = (window bound server).map (replaced new) := by
  refine above_map ?_
  intro message hmessage
  unfold replaced
  split
  case isTrue heq =>
    obtain rfl : message = old := hids.eq hmessage hold (heq.trans hid)
    rw [MobileMessage.key, hid, hcreated, MobileMessage.key]
  case isFalse => rfl

theorem ServerStep.merge_window (h : ServerStep bound server event server')
    (hids : DistinctIds server) :
    mergeMessageEvent (window bound server) event = window bound server' := by
  cases h with
  | @create message hnew hbound =>
    have habsent : message.id ∉ (window bound server).map (·.id) := by
      intro hmem
      obtain ⟨other, hother, hid⟩ := List.mem_map.mp hmem
      exact hnew (List.mem_map.mpr ⟨other, (mem_above.mp hother).1, hid⟩)
    rw [mergeMessageEvent_created_absent habsent]
    exact (above_append_singleton (hids.append_singleton hnew).keys hbound).symm
  | @change old new payload hold hid hcreated hcarries =>
    rw [window_map_replaced hids hold hid hcreated]
    refine mergeInto_eq hcarries.id ?_
    intro message hmessage heq
    obtain rfl : message = old := hids.eq (mem_above.mp hmessage).1 hold (heq.trans hid)
    exact hcarries.spread_eq
  | delete => exact (above_filter hids.keys _).symm

theorem ServerStep.merge_again (h : ServerStep bound server event server')
    (hids : DistinctIds server) :
    mergeMessageEvent (window bound server') event = window bound server' := by
  have hids' := h.distinctIds hids
  cases h with
  | @create message hnew hbound =>
    have hmember : message ∈ window bound (server ++ [message]) :=
      mem_above.mpr ⟨by simp, hbound⟩
    have heq : ∀ other ∈ window bound (server ++ [message]), other.id = message.id →
        other = message :=
      fun other hother => (wellSorted_window hids').2.eq hother hmember
    rw [mergeMessageEvent_created_present (List.mem_map_of_mem hmember),
      mergeInto_eq rfl, map_replaced_eq_self heq]
    intro other hother hid
    rw [heq other hother hid, spread_self]
  | @change old new payload hold hid hcreated hcarries =>
    have heq : ∀ other ∈ window bound (server.map (replaced new)), other.id = new.id →
        other = new := by
      intro other hother hother_id
      obtain ⟨before, -, rfl⟩ := List.mem_map.mp (mem_above.mp hother).1
      rw [replaced_id] at hother_id
      exact if_pos hother_id
    refine (mergeInto_eq hcarries.id ?_).trans (map_replaced_eq_self heq)
    intro other hother hother_id
    rw [heq other hother hother_id, hcarries.again.spread_eq]
  | @delete payload =>
    refine List.filter_eq_self.mpr ?_
    intro message hmessage
    exact (List.mem_filter.mp (mem_above.mp hmessage).1).2

end Steps

/-! ## Runs -/

/-- An event that is delivered once and then `repeats` more times. -/
structure Delivery where
  event : MobileMessageEvent
  repeats : ℕ

def deliver (messages : List MobileMessage) (delivery : Delivery) : List MobileMessage :=
  (fun current => mergeMessageEvent current delivery.event)^[delivery.repeats + 1] messages

/-- The operations of a server whose events reach the client as `deliveries`. -/
def ServerRun (bound : ℕ ×ₗ ℤ) : List MobileMessage → List Delivery → List MobileMessage → Prop :=
  Run fun server delivery server' => ServerStep bound server delivery.event server'

theorem deliver_window {bound : ℕ ×ₗ ℤ} {server server' : List MobileMessage}
    {delivery : Delivery} (h : ServerStep bound server delivery.event server')
    (hids : DistinctIds server) :
    deliver (window bound server) delivery = window bound server' := by
  rw [deliver, Function.iterate_succ_apply, h.merge_window hids]
  exact Function.iterate_fixed (h.merge_again hids) delivery.repeats

theorem ServerRun.deliver_window {bound : ℕ ×ₗ ℤ} {server server' : List MobileMessage}
    {deliveries : List Delivery} (h : ServerRun bound server deliveries server')
    (hids : DistinctIds server) :
    deliveries.foldl deliver (window bound server) = window bound server' ∧
      DistinctIds server' := by
  induction h with
  | nil => exact ⟨rfl, hids⟩
  | cons hstep _ ih =>
    rw [List.foldl_cons, Mobile.deliver_window hstep hids]
    exact ih (hstep.distinctIds hids)

/-! ## Older pages -/

/-- A page that reaches from the window down to `lower`; it may overlap the window. -/
structure OlderPage (server : List MobileMessage) (lower bound : ℕ ×ₗ ℤ)
    (page : List MobileMessage) : Prop where
  distinct : DistinctIds page
  sound : ∀ message ∈ page, message ∈ server ∧ lower ≤ message.key
  complete : ∀ message ∈ server, lower ≤ message.key → message.key < bound → message ∈ page

theorem prependOlderMessages_window {server page : List MobileMessage} {lower bound : ℕ ×ₗ ℤ}
    (hids : DistinctIds server) (hle : lower ≤ bound) (hpage : OlderPage server lower bound page) :
    prependOlderMessages (window bound server) page = window lower server := by
  have hwindow : DistinctIds (window bound server) := (wellSorted_window hids).2
  have hdistinct : DistinctIds
      ((page.filter fun message => !((window bound server).map (·.id)).contains message.id) ++
        window bound server) := by
    rw [DistinctIds, List.map_append]
    refine (hpage.distinct.filter _).append hwindow ?_
    intro id hfirst hsecond
    obtain ⟨message, hmessage, rfl⟩ := List.mem_map.mp hfirst
    simp only [List.mem_filter, Bool.not_eq_true', List.contains_eq_mem,
      decide_eq_false_iff_not] at hmessage
    exact hmessage.2 hsecond
  refine (ordered_orderBy hdistinct.keys).eq_above hids.keys ?_
  intro message
  rw [mem_orderBy, List.mem_append, List.mem_filter]
  constructor
  · rintro (⟨hmem, -⟩ | hmem)
    · exact hpage.sound message hmem
    · exact ⟨(mem_above.mp hmem).1, hle.trans (mem_above.mp hmem).2⟩
  · rintro ⟨hmem, hlower⟩
    by_cases hbound : bound ≤ message.key
    · exact Or.inr (mem_above.mpr ⟨hmem, hbound⟩)
    · refine Or.inl ⟨hpage.complete message hmem hlower (lt_of_not_ge hbound), ?_⟩
      -- A message of the window with the same id would be this message, above the bound.
      simp only [Bool.not_eq_true', List.contains_eq_mem, decide_eq_false_iff_not]
      intro hid
      obtain ⟨other, hother, hid⟩ := List.mem_map.mp hid
      obtain rfl : other = message := hids.eq (mem_above.mp hother).1 hmem hid
      exact hbound (mem_above.mp hother).2

/-! ## Optimistic messages -/

section Reconcile

variable {messages : List MobileMessage} {optimisticId : ℤ} {canonical payload : MobileMessage}

/-- The messages that `reconcileOptimistic` keeps. -/
def others (messages : List MobileMessage) (optimisticId canonicalId : ℤ) : List MobileMessage :=
  messages.filter fun message => message.id != optimisticId && message.id != canonicalId

section

variable (hids : DistinctIds messages)

include hids

theorem distinctIds_others_append :
    DistinctIds (others messages optimisticId canonical.id ++ [canonical]) := by
  refine (hids.filter _).append_singleton ?_
  intro hmem
  obtain ⟨message, hmessage, hid⟩ := List.mem_map.mp hmem
  simp [hid] at hmessage

theorem wellSorted_reconcileOptimistic :
    WellSorted (reconcileOptimistic messages optimisticId canonical) :=
  wellSorted_sortMessages (distinctIds_others_append hids)

/-- The event that came first is forgotten: the response replaces the message. -/
theorem reconcileOptimistic_mergeMessageEvent (hid : payload.id = canonical.id) :
    reconcileOptimistic (mergeMessageEvent messages ⟨.created, payload⟩) optimisticId canonical =
      reconcileOptimistic messages optimisticId canonical := by
  refine sortMessages_congr (distinctIds_others_append hids) (List.Perm.append_right _ ?_)
  change (others _ optimisticId canonical.id).Perm (others _ optimisticId canonical.id)
  by_cases hpresent : payload.id ∈ messages.map (·.id)
  · -- The merge touches only a message that is not kept.
    rw [mergeMessageEvent_created_present hpresent]
    refine List.Perm.of_eq ?_
    clear hids hpresent
    induction messages with
    | nil => rfl
    | cons message messages ih =>
      by_cases heq : message.id = payload.id
      · simpa [others, mergeInto, heq, hid, MobileMessage.spread] using ih
      · simp only [others, mergeInto, List.map_cons, heq, if_false, List.filter_cons] at ih ⊢
        rw [ih]
  · rw [mergeMessageEvent_created_absent hpresent]
    refine ((orderBy_perm _ _).filter _).trans (List.Perm.of_eq ?_)
    simp [others, List.filter_append, hid]

theorem mergeMessageEvent_reconcileOptimistic (hid : payload.id = canonical.id) :
    mergeMessageEvent (reconcileOptimistic messages optimisticId canonical) ⟨.created, payload⟩ =
      (reconcileOptimistic messages optimisticId canonical).map
        (replaced (canonical.spread payload)) := by
  have hmember : canonical ∈ reconcileOptimistic messages optimisticId canonical :=
    mem_orderBy.mpr (by simp)
  have hmerged : (canonical.spread payload).id = canonical.id := hid
  rw [mergeMessageEvent_created_present (hid ▸ List.mem_map_of_mem hmember)]
  refine mergeInto_eq rfl ?_
  intro message hmessage heq
  rw [(wellSorted_reconcileOptimistic hids).2.eq hmessage hmember (heq.trans hmerged)]

/-- Both orders give the same list exactly when the event adds nothing to the response. -/
theorem reconcile_created_comm_iff (hid : payload.id = canonical.id) :
    mergeMessageEvent (reconcileOptimistic messages optimisticId canonical) ⟨.created, payload⟩ =
        reconcileOptimistic (mergeMessageEvent messages ⟨.created, payload⟩) optimisticId
          canonical ↔
      Carries payload canonical canonical := by
  have hmember : canonical ∈ reconcileOptimistic messages optimisticId canonical :=
    mem_orderBy.mpr (by simp)
  rw [reconcileOptimistic_mergeMessageEvent hids hid,
    mergeMessageEvent_reconcileOptimistic hids hid, carries_self_iff]
  constructor
  · intro heq
    have hmerged : replaced (canonical.spread payload) canonical ∈
        reconcileOptimistic messages optimisticId canonical :=
      heq ▸ List.mem_map_of_mem hmember
    have hreplaced : replaced (canonical.spread payload) canonical = canonical.spread payload :=
      if_pos hid.symm
    rw [hreplaced] at hmerged
    exact (wellSorted_reconcileOptimistic hids).2.eq hmerged hmember hid
  · intro heq
    rw [heq]
    exact map_replaced_eq_self fun message hmessage =>
      (wellSorted_reconcileOptimistic hids).2.eq hmessage hmember

end

theorem wellSorted_mergeMessageEvent_created (hsorted : WellSorted messages)
    (hcreated : ∀ message ∈ messages, message.id = payload.id →
      message.createdAt = payload.createdAt) :
    WellSorted (mergeMessageEvent messages ⟨.created, payload⟩) := by
  by_cases hpresent : payload.id ∈ messages.map (·.id)
  · rw [mergeMessageEvent_created_present hpresent]
    have hmerged : ∀ message ∈ messages,
        (if message.id = payload.id then message.spread payload else message).key =
          message.key := by
      intro message hmessage
      split
      case isTrue hid =>
        rw [MobileMessage.key, MobileMessage.key, hid, hcreated message hmessage hid]
        rfl
      case isFalse => rfl
    have hkeys : (mergeInto messages payload).map MobileMessage.key =
        messages.map MobileMessage.key := by
      rw [mergeInto, List.map_map]
      exact List.map_congr_left hmerged
    have hordered : Ordered MobileMessage.key (mergeInto messages payload) :=
      List.pairwise_map.mp (hkeys ▸ List.pairwise_map.mpr hsorted.1)
    refine ⟨hordered, ?_⟩
    rw [mergeInto, distinctIds_map]
    · exact hsorted.2
    · intro message
      split
      case isTrue hid => exact hid.symm
      case isFalse => rfl
  · rw [mergeMessageEvent_created_absent hpresent]
    exact wellSorted_sortMessages (hsorted.2.append_singleton hpresent)

theorem createdAt_of_mem_reconcileOptimistic (hids : DistinctIds messages)
    (hid : payload.id = canonical.id) (hcreated : canonical.createdAt = payload.createdAt) :
    ∀ message ∈ reconcileOptimistic messages optimisticId canonical, message.id = payload.id →
      message.createdAt = payload.createdAt := by
  intro message hmessage heq
  have hmember : canonical ∈ reconcileOptimistic messages optimisticId canonical :=
    mem_orderBy.mpr (by simp)
  rw [(wellSorted_reconcileOptimistic hids).2.eq hmessage hmember (heq.trans hid), hcreated]

/-- Reconciling the message that was put into the list while it was being sent. -/
theorem reconcileOptimistic_window {bound : ℕ ×ₗ ℤ} {server : List MobileMessage}
    {optimistic : MobileMessage} (hids : DistinctIds server)
    (hoptimistic : optimistic.id ∉ server.map (·.id))
    (hnew : canonical.id ∉ server.map (·.id)) (hbound : bound ≤ canonical.key) :
    reconcileOptimistic (sortMessages (window bound server ++ [optimistic])) optimistic.id
      canonical = window bound (server ++ [canonical]) := by
  have hall : DistinctIds (server ++ [canonical]) := hids.append_singleton hnew
  have hwindow : DistinctIds (window bound server ++ [canonical]) := by
    refine (wellSorted_window hids).2.append_singleton ?_
    intro hmem
    obtain ⟨message, hmessage, hid⟩ := List.mem_map.mp hmem
    exact hnew (List.mem_map.mpr ⟨message, (mem_above.mp hmessage).1, hid⟩)
  have hkept : others (window bound server ++ [optimistic]) optimistic.id canonical.id =
      window bound server := by
    rw [others, List.filter_append, List.filter_eq_self.mpr]
    · simp
    · intro message hmessage
      have hmem := List.mem_map_of_mem (f := (·.id)) (mem_above.mp hmessage).1
      simp only [Bool.and_eq_true, bne_iff_ne, ne_eq]
      exact ⟨fun hid => hoptimistic (hid ▸ hmem), fun hid => hnew (hid ▸ hmem)⟩
  refine Eq.trans ?_ (above_append_singleton hall.keys hbound).symm
  refine sortMessages_congr hwindow (List.Perm.append_right _ ?_)
  exact ((orderBy_perm _ _).filter _).trans (List.Perm.of_eq hkept)

end Reconcile

/-! ## Refinement -/

/-- A client that holds the server's messages from `bound` upwards holds them after every run of
the server, however often each event is delivered, and holds those from `lower` upwards after an
older page. The response to a sent message and its created event may come in either order exactly
if every key of the event is in the response with the same value. A reconciled message is in the
window, and every list is sorted and has distinct ids. -/
theorem mobile_messages_refine (bound : ℕ ×ₗ ℤ) (server : List MobileMessage)
    (hids : DistinctIds server) :
    (∀ deliveries server', ServerRun bound server deliveries server' →
      deliveries.foldl deliver (window bound server) = window bound server' ∧
        WellSorted (window bound server')) ∧
    (∀ lower page, lower ≤ bound → OlderPage server lower bound page →
      prependOlderMessages (window bound server) page = window lower server ∧
        WellSorted (window lower server)) ∧
    (∀ messages optimisticId response payload, WellSorted messages →
      payload.id = response.id → response.createdAt = payload.createdAt →
      (∀ message ∈ messages, message.id = payload.id →
        message.createdAt = payload.createdAt) →
      (mergeMessageEvent (reconcileOptimistic messages optimisticId response)
          ⟨.created, payload⟩ =
        reconcileOptimistic (mergeMessageEvent messages ⟨.created, payload⟩) optimisticId
          response ↔ Carries payload response response) ∧
      WellSorted (reconcileOptimistic messages optimisticId response) ∧
      WellSorted (mergeMessageEvent messages ⟨.created, payload⟩) ∧
      WellSorted (mergeMessageEvent (reconcileOptimistic messages optimisticId response)
        ⟨.created, payload⟩) ∧
      WellSorted (reconcileOptimistic (mergeMessageEvent messages ⟨.created, payload⟩)
        optimisticId response)) ∧
    (∀ optimistic canonical, optimistic.id ∉ server.map (·.id) →
      canonical.id ∉ server.map (·.id) → bound ≤ canonical.key →
      reconcileOptimistic (sortMessages (window bound server ++ [optimistic])) optimistic.id
        canonical = window bound (server ++ [canonical])) := by
  refine ⟨?_, ?_, ?_, ?_⟩
  · intro deliveries server' hrun
    obtain ⟨hwindow, hids'⟩ := hrun.deliver_window hids
    exact ⟨hwindow, wellSorted_window hids'⟩
  · intro lower page hle hpage
    exact ⟨prependOlderMessages_window hids hle hpage, wellSorted_window hids⟩
  · intro messages optimisticId response payload hsorted hid hcreated hmessages
    have hevent := wellSorted_mergeMessageEvent_created hsorted hmessages
    have hresponse : WellSorted (reconcileOptimistic messages optimisticId response) :=
      wellSorted_reconcileOptimistic hsorted.2
    refine ⟨reconcile_created_comm_iff hsorted.2 hid, hresponse, hevent, ?_,
      wellSorted_reconcileOptimistic hevent.2⟩
    exact wellSorted_mergeMessageEvent_created hresponse
      (createdAt_of_mem_reconcileOptimistic hsorted.2 hid hcreated)
  · intro optimistic canonical hoptimistic hnew hbound
    exact reconcileOptimistic_window hids hoptimistic hnew hbound

namespace MobileListExample

def person : UserJson :=
  { id := 7, fullName := "Ana Cruz", email := "ana@example.com", role := none, avatarUrl := none }

def posted (id : ℤ) (createdAt : ℕ) (body : String) : MobileMessage :=
  { id, createdAt, fields := { body, author := person }, replyCount := some 0 }

def server : List MobileMessage :=
  [posted 1 100 "hello", posted 2 200 "first", posted 3 200 "second"]

def bound : ℕ ×ₗ ℤ := toLex (200, 2)

def edited : MobileMessage := posted 2 200 "first, edited"

def deliveries : List Delivery :=
  [⟨⟨.created, posted 4 300 "third"⟩, 1⟩, ⟨⟨.updated, edited⟩, 0⟩,
    ⟨⟨.deleted, posted 3 200 "second"⟩, 2⟩]

theorem server_distinctIds : DistinctIds server := by
  decide

theorem edited_carries : Carries edited (posted 2 200 "first") edited :=
  ⟨rfl, rfl, rfl, .inr ⟨rfl, rfl⟩, .inr ⟨rfl, rfl⟩, .inr ⟨rfl, rfl⟩, .inl ⟨rfl, rfl⟩,
    .inr ⟨rfl, rfl⟩, .inr ⟨rfl, rfl⟩, .inr ⟨rfl, rfl⟩⟩

theorem server_run : ServerRun bound server deliveries
    [posted 1 100 "hello", edited, posted 4 300 "third"] := by
  have hold : posted 2 200 "first" ∈ server ++ [posted 4 300 "third"] := by decide
  have hedit : ServerStep bound (server ++ [posted 4 300 "third"]) ⟨.updated, edited⟩
      ((server ++ [posted 4 300 "third"]).map (replaced edited)) :=
    .change hold rfl rfl edited_carries
  exact .cons (.create (by decide) (by decide)) (.cons hedit (.cons .delete (.nil _)))

theorem older_page : OlderPage server (toLex (100, 1)) bound [posted 1 100 "hello"] where
  distinct := by decide
  sound := by decide
  complete := by decide

/-- Three operations with repeated events, the page with the first message, and a message that is
sent and comes back. -/
theorem window_followed :
    deliveries.foldl deliver (window bound server) =
        window bound [posted 1 100 "hello", edited, posted 4 300 "third"] ∧
      prependOlderMessages (window bound server) [posted 1 100 "hello"] =
        window (toLex (100, 1)) server ∧
      mergeMessageEvent (reconcileOptimistic (window bound server) (-9) (posted 4 300 "third"))
          ⟨.created, posted 4 300 "third"⟩ =
        reconcileOptimistic (mergeMessageEvent (window bound server)
          ⟨.created, posted 4 300 "third"⟩) (-9) (posted 4 300 "third") ∧
      reconcileOptimistic (sortMessages (window bound server ++ [posted (-9) 250 "third"])) (-9)
        (posted 4 300 "third") = window bound (server ++ [posted 4 300 "third"]) := by
  obtain ⟨hrun, hpage, horders, hsent⟩ := mobile_messages_refine bound server server_distinctIds
  refine ⟨(hrun _ _ server_run).1, (hpage _ _ (by decide) older_page).1, ?_, ?_⟩
  · exact (horders _ _ _ _ (wellSorted_window server_distinctIds) rfl rfl (by decide)).1.mpr
      (carries_self_iff.mpr (spread_self _))
  · exact hsent (posted (-9) 250 "third") _ (by decide) (by decide) (by decide)

/-- The author's event has `read_receipts`, which the response to POST leaves out: the message
keeps them only if the event comes last. -/
theorem author_event_orders_differ :
    ∃ response payload receipts, payload = { response with readReceipts := some receipts } ∧
      response.readReceipts = none ∧
      mergeMessageEvent (reconcileOptimistic (window bound server) (-9) response)
          ⟨.created, payload⟩ ≠
        reconcileOptimistic (mergeMessageEvent (window bound server) ⟨.created, payload⟩) (-9)
          response :=
  ⟨posted 4 300 "third", _, ⟨0, []⟩, rfl, rfl, by decide⟩

end MobileListExample

end LearningPlatform.Mobile
