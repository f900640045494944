import LearningPlatform.Model.LiveMessages
import LearningPlatform.Verification.Validations

/-! # Deleted messages on the web page

The page inserts every message that an event brings, unless the event is a deletion. A deleted
message stays away as long as no other event of it is sent after its deletion. -/

namespace LearningPlatform

open Shared

/-! ## The list on the page -/

namespace WebConversation

theorem mem_merge_ids {messages : List MessageJson} {event : BroadcastJson} {id : ℕ}
    (h : id ∈ (merge messages event).map (·.id)) :
    id ∈ messages.map (·.id) ∨ id = event.message.id := by
  obtain ⟨message, hmem, rfl⟩ := List.mem_map.mp h
  simp only [merge] at hmem
  split_ifs at hmem
  · exact .inl (List.mem_map_of_mem (List.mem_filter.mp hmem).1)
  · obtain ⟨item, hitem, rfl⟩ := List.mem_map.mp (mem_orderBy.mp hmem)
    by_cases hsame : (item.id == event.message.id) = true
    · simp only [hsame, ite_true]
      exact .inr rfl
    · simp only [hsame]
      exact .inl (List.mem_map_of_mem hitem)
  · rcases List.mem_append.mp (mem_orderBy.mp hmem) with hold | hnew
    · exact .inl (List.mem_map_of_mem hold)
    · exact .inr (by rw [List.mem_singleton.mp hnew])

theorem not_mem_merge_deleted {messages : List MessageJson} {event : BroadcastJson}
    (h : event.event = .deleted) : event.message.id ∉ (merge messages event).map (·.id) := by
  simp [merge, h]

end WebConversation

/-! ## The order of the events -/

/-- The event is not followed by another kind of event of its message. -/
def BroadcastJson.ClosedBefore (first second : BroadcastJson) : Prop :=
  first.event = .deleted → second.message.id = first.message.id → second.event = .deleted

/-- What holds of the page and the events under way. -/
structure LiveDesk.Closed (s : LiveDesk) : Prop where
  wire : s.wire.Pairwise BroadcastJson.ClosedBefore
  underway : ∀ id ∈ s.page.deletionsProcessed, ∀ event ∈ s.wire, event.message.id = id →
    event.event = .deleted
  absent : ∀ id ∈ s.page.deletionsProcessed, id ∉ s.page.messages.map (·.id)

/-- No deletion of the message was sent to the page. -/
def LiveDesk.Undeleted (s : LiveDesk) (message : Message) : Prop :=
  message.id ∉ s.page.deletionsProcessed ∧
    ∀ sent ∈ s.wire, sent.event = .deleted → sent.message.id ≠ message.id

instance (s : LiveDesk) (message : Message) : Decidable (s.Undeleted message) :=
  inferInstanceAs (Decidable (_ ∧ _))

/-- A broadcast that is not a deletion is made only before the deletion of its message is. -/
def PendingBroadcast.InTime (s : LiveDesk) (pending : PendingBroadcast) : Prop :=
  match s.record? pending with
  | none => True
  | some (event, message) => event = .deleted ∨ s.Undeleted message

instance (s : LiveDesk) (pending : PendingBroadcast) : Decidable (pending.InTime s) := by
  unfold PendingBroadcast.InTime
  exact match s.record? pending with
    | none => .isTrue trivial
    | some _ => inferInstanceAs (Decidable (_ ∨ _))

def LivePhase.InTime (s : LiveDesk) : LivePhase → Prop
  | .sending (pending :: _) => pending.InTime s
  | _ => True

instance (s : LiveDesk) : ∀ phase : LivePhase, Decidable (phase.InTime s)
  | .sending (pending :: _) => inferInstanceAs (Decidable (pending.InTime s))
  | .sending [] | .waiting | .refused | .loaded _ => .isTrue trivial

def BroadcastInTime {ι : Type*} (s : Processes ι LiveDesk LivePhase) : ι × LiveAction → Prop
  | (i, .next) => (s.phase i).InTime s.store
  | _ => True

instance {ι : Type*} (s : Processes ι LiveDesk LivePhase) :
    ∀ step : ι × LiveAction, Decidable (BroadcastInTime s step)
  | (i, .next) => inferInstanceAs (Decidable ((s.phase i).InTime s.store))
  | (_, .tick _) | (_, .tables _) | (_, .deliver) | (_, .lose) => .isTrue trivial

namespace LiveDesk

/-! ## Statements that send nothing -/

/-- The events and the page are as before. -/
structure Silent (s s' : LiveDesk) : Prop where
  wire : s'.wire = s.wire
  page : s'.page = s.page

variable {s : LiveDesk} {services : MessageServices} {pending : PendingBroadcast}

theorem Silent.closed {s' : LiveDesk} (h : s.Silent s') (hs : s.Closed) : s'.Closed := by
  constructor
  · rw [h.wire]
    exact hs.wire
  · rw [h.wire, h.page]
    exact hs.underway
  · rw [h.page]
    exact hs.absent

theorem post_silent (storage : AttachmentStorage) (s : LiveDesk) (sender : Sender)
    (request : MessageRequest) (destination : Option Destination) (params : MessageParams) :
    s.Silent (s.post storage sender request destination params).1 := by
  unfold post
  split <;> exact ⟨rfl, rfl⟩

theorem load_silent (s : LiveDesk) (id : ℕ) : s.Silent (s.load id).1 := by
  unfold load
  split <;> exact ⟨rfl, rfl⟩

theorem start_silent (storage : AttachmentStorage) (s : LiveDesk) (call : LiveCall) :
    s.Silent (s.start storage call).1 := by
  cases call with
  | request sender request =>
    cases request with
    | create channelId params => exact post_silent ..
    | createDirect conversationId params => exact post_silent ..
    | update id params => exact load_silent s id
    | destroy id => exact load_silent s id
    | pin id => exact load_silent s id
    | unpin id => exact load_silent s id
  | react sender id emoji => exact load_silent s id
  | unreact sender id emoji => exact load_silent s id
  | readReceipts destination readerId previousLastReadAt => exact ⟨rfl, rfl⟩

theorem save_silent (s : LiveDesk) (result : Except Failure MessageDesk)
    (pending : List PendingBroadcast) : s.Silent (s.save result pending).1 := by
  cases result <;> exact ⟨rfl, rfl⟩

theorem write_silent (s : LiveDesk) (message : Message) (call : LiveCall) :
    s.Silent (s.write message call).1 := by
  cases call with
  | request sender request =>
    cases request with
    | create channelId params => exact ⟨rfl, rfl⟩
    | createDirect conversationId params => exact ⟨rfl, rfl⟩
    | update id params => exact save_silent ..
    | destroy id => exact save_silent ..
    | pin id => exact save_silent ..
    | unpin id => exact save_silent ..
  | react sender id emoji => exact save_silent ..
  | unreact sender id emoji => exact save_silent ..
  | readReceipts destination readerId previousLastReadAt => exact ⟨rfl, rfl⟩

/-! ## Broadcasts and deliveries -/

theorem payload?_eq_some {services : MessageServices} {s : LiveDesk} {pending : PendingBroadcast}
    {payload : BroadcastJson} (h : s.payload? services pending = some payload) :
    ∃ event message, s.record? pending = some (event, message) ∧ payload.event = event ∧
      payload.message.id = message.id := by
  unfold payload? at h
  obtain ⟨⟨event, message⟩, hrecord, h⟩ := Option.bind_eq_some_iff.mp h
  obtain ⟨destination, -, h⟩ := Option.bind_eq_some_iff.mp h
  split at h
  · cases h
    exact ⟨event, message, hrecord, rfl, rfl⟩
  · cases h

/-- A payload that is sent in time closes no message that it does not delete. -/
theorem InTime.payload {payload : BroadcastJson} (h : pending.InTime s)
    (hpayload : s.payload? services pending = some payload) :
    payload.event = .deleted ∨ (payload.message.id ∉ s.page.deletionsProcessed ∧
      ∀ sent ∈ s.wire, sent.event = .deleted → sent.message.id ≠ payload.message.id) := by
  obtain ⟨event, message, hrecord, hevent, hid⟩ := payload?_eq_some hpayload
  simp only [PendingBroadcast.InTime, hrecord] at h
  rw [hevent, hid]
  exact h

theorem broadcast_closed (hs : s.Closed) (h : pending.InTime s) :
    (s.broadcast services pending).Closed := by
  cases hpayload : s.payload? services pending with
  | none =>
    have hsilent : s.Silent (s.broadcast services pending) := by
      refine ⟨?_, rfl⟩
      simp [broadcast, hpayload]
    exact hsilent.closed hs
  | some payload =>
    have hwire : (s.broadcast services pending).wire = s.wire ++ [payload] := by
      simp [broadcast, hpayload]
    have hintime := InTime.payload h hpayload
    constructor
    · rw [hwire]
      refine List.pairwise_append.mpr ⟨hs.wire, List.pairwise_singleton _ _, ?_⟩
      intro sent hsent last hlast hdeleted hid
      obtain rfl := List.mem_singleton.mp hlast
      rcases hintime with hlast | ⟨-, hnone⟩
      · exact hlast
      · exact absurd hid.symm (hnone sent hsent hdeleted)
    · intro id hprocessed event hevent hid
      rw [hwire] at hevent
      rcases List.mem_append.mp hevent with hold | hnew
      · exact hs.underway id hprocessed event hold hid
      · obtain rfl := List.mem_singleton.mp hnew
        rcases hintime with hlast | ⟨hnot, -⟩
        · exact hlast
        · exact absurd (hid ▸ hprocessed) hnot
    · exact hs.absent

theorem deliver_closed {event : BroadcastJson} {wire : List BroadcastJson} (hs : s.Closed)
    (hwire : s.wire = event :: wire) :
    LiveDesk.Closed { s with wire, page := s.page.receive event } := by
  have hpairwise := hs.wire
  rw [hwire] at hpairwise
  obtain ⟨hfirst, hrest⟩ := List.pairwise_cons.mp hpairwise
  have hmem : ∀ other ∈ wire, other ∈ s.wire := by
    intro other hother
    rw [hwire]
    exact List.mem_cons_of_mem _ hother
  have hunderway : ∀ id ∈ s.page.deletionsProcessed, ∀ other ∈ wire, other.message.id = id →
      other.event = .deleted :=
    fun id hid other hother => hs.underway id hid other (hmem other hother)
  by_cases hbelongs : s.page.belongs? event = true
  · by_cases hdeleted : event.event = .deleted
    · -- From here on the message is among the processed deletions.
      have hpage : s.page.receive event = { s.page with
          messages := WebConversation.merge s.page.messages event
          deletionsProcessed := event.message.id :: s.page.deletionsProcessed } := by
        simp [WebConversation.receive, hbelongs, hdeleted]
      simp only [hpage]
      refine ⟨hrest, ?_, ?_⟩
      · intro id hid other hother hsame
        rcases List.mem_cons.mp hid with rfl | hid
        · exact hfirst other hother hdeleted hsame
        · exact hunderway id hid other hother hsame
      · intro id hid hshown
        rcases List.mem_cons.mp hid with rfl | hid
        · exact WebConversation.not_mem_merge_deleted hdeleted hshown
        · rcases WebConversation.mem_merge_ids hshown with hold | rfl
          · exact hs.absent id hid hold
          · exact WebConversation.not_mem_merge_deleted hdeleted hshown
    · have hpage : s.page.receive event = { s.page with
          messages := WebConversation.merge s.page.messages event } := by
        simp [WebConversation.receive, hbelongs, hdeleted]
      simp only [hpage]
      refine ⟨hrest, hunderway, ?_⟩
      intro id hid hshown
      rcases WebConversation.mem_merge_ids hshown with hold | rfl
      · exact hs.absent id hid hold
      · exact hdeleted (hs.underway _ hid event (by simp [hwire]) rfl)
  · have hpage : s.page.receive event = s.page := by
      simp [WebConversation.receive, hbelongs]
    simp only [hpage]
    exact ⟨hrest, hunderway, hs.absent⟩

theorem next_closed {storage : AttachmentStorage} {call : LiveCall} {s' : LiveDesk}
    {phase phase' : LivePhase} (hs : s.Closed) (hintime : phase.InTime s)
    (h : s.next services storage call phase = some (s', phase')) : s'.Closed := by
  cases phase with
  | waiting =>
    obtain rfl : (s.start storage call).1 = s' := congrArg Prod.fst (Option.some.inj h)
    exact (start_silent storage s call).closed hs
  | loaded message =>
    obtain rfl : (s.write message call).1 = s' := congrArg Prod.fst (Option.some.inj h)
    exact (write_silent s message call).closed hs
  | sending pending =>
    cases pending with
    | nil => cases h
    | cons pending rest =>
      obtain rfl : s.broadcast services pending = s' := congrArg Prod.fst (Option.some.inj h)
      exact broadcast_closed hs hintime
  | refused => cases h

end LiveDesk

/-! ## Every run -/

theorem closed_step {ι : Type*} [DecidableEq ι] {services : MessageServices}
    {storage : AttachmentStorage} {calls : ι → LiveCall} {s t : Processes ι LiveDesk LivePhase}
    {step : ι × LiveAction} (hs : s.store.Closed) (hintime : BroadcastInTime s step)
    (hstep : Processes.step (LiveDesk.act services storage calls) s step = some t) :
    t.store.Closed := by
  obtain ⟨i, action⟩ := step
  obtain ⟨store, phase, hact, rfl⟩ := Processes.step_eq_some.mp hstep
  cases action with
  | tick duration =>
    obtain rfl := congrArg Prod.fst (Option.some.inj hact)
    have hsilent : s.store.Silent { s.store with now := s.store.now + duration } := ⟨rfl, rfl⟩
    exact hsilent.closed hs
  | tables database =>
    obtain rfl := congrArg Prod.fst (Option.some.inj hact)
    exact ⟨hs.wire, hs.underway, hs.absent⟩
  | deliver =>
    simp only [LiveDesk.act] at hact
    split at hact
    · cases hact
    · rename_i event wire hwire
      obtain rfl := congrArg Prod.fst (Option.some.inj hact)
      exact LiveDesk.deliver_closed hs hwire
  | next => exact LiveDesk.next_closed hs hintime hact
  | lose =>
    obtain ⟨after, hafter, hsame⟩ := Option.map_eq_some_iff.mp hact
    obtain rfl := congrArg Prod.fst hsame
    exact hs

/-- As long as every event that is not a deletion is sent before the deletion of its message is:
a message whose deletion the page has processed is not in its list, and no message of the list is
deleted on the server after its deletion event was delivered. -/
theorem deleted_messages_stay_away {ι : Type*} [DecidableEq ι] (services : MessageServices)
    (storage : AttachmentStorage) (calls : ι → LiveCall) {s t : Processes ι LiveDesk LivePhase}
    {steps : List (ι × LiveAction)} (hwire : s.store.wire = [])
    (hprocessed : s.store.page.deletionsProcessed = []) (hrun : Run (Meeting BroadcastInTime
      (Fires (Processes.step (LiveDesk.act services storage calls)))) s steps t) :
    (∀ id ∈ t.store.page.deletionsProcessed, id ∉ t.store.page.messages.map (·.id)) ∧
      ∀ shown ∈ t.store.page.messages, ¬ ((∃ message ∈ t.store.desk.store.messages,
        message.id = shown.id ∧ message.deletedAt.isSome = true) ∧
        shown.id ∈ t.store.page.deletionsProcessed) := by
  have hinitial : s.store.Closed := by
    constructor <;> simp [hwire, hprocessed]
  have hclosed : t.store.Closed := by
    refine hrun.invariant (fun s => s.store.Closed) ?_ hinitial
    rintro s step t hs ⟨hintime, hstep⟩
    exact closed_step hs hintime hstep
  refine ⟨hclosed.absent, ?_⟩
  rintro shown hshown ⟨-, hdeleted⟩
  exact hclosed.absent shown.id hdeleted (List.mem_map_of_mem hshown)

/-! ## A message that a student and an instructor see -/

def plainServices : MessageServices where
  lower := id
  downcase := id

def plainStorage : AttachmentStorage where
  downcase := id

def studyChannel : Channel :=
  { id := 2, workspaceId := 1, name := "Study group" }

/-- The student 3 has the channel open; message 5 is the student's own. -/
def studyRoom : Processes ℕ LiveDesk LivePhase where
  store :=
    { desk :=
        { store :=
            { users := [{ id := 3 }, { id := 7, role := .instructor }]
              workspaces := [{ id := 1, name := "Alumni", slug := "alumni"
                               workspaceType := .community }]
              workspaceMemberships := [{ workspaceId := 1, userId := 3 }]
              channels := [studyChannel]
              messages := [{ id := 5, channelId := some 2, authorId := 3
                             body := some "See you at six", createdAt := 10 }]
              messageIds := by simp }
          nextMessageId := 6 }
      now := 20
      page := { user := { id := 3 }, target := .channel studyChannel } }
  phase _ := .waiting

/-- The receipts for the instructor's reading, a correction, and a deletion. -/
def studyCalls : ℕ → LiveCall
  | 0 => .readReceipts (.channel studyChannel) 7 none
  | 1 => .request { user := { id := 3 } } (.update 5 { body := some "See you at seven" })
  | _ => .request { user := { id := 7, role := .instructor } } (.destroy 5)

/-- The correction and the receipts are sent before the message is deleted. -/
def deletedLast : List (ℕ × LiveAction) :=
  [(1, .next), (1, .next), (0, .next), (1, .next), (0, .next), (2, .next), (2, .next), (2, .next),
   (0, .deliver), (0, .deliver), (0, .deliver)]

theorem deleted_message_gone :
    ∃ t, Run (Meeting BroadcastInTime (Fires (Processes.step
        (LiveDesk.act plainServices plainStorage studyCalls)))) studyRoom deletedLast t ∧
      t.store.page.deletionsProcessed = [5] ∧ 5 ∉ t.store.page.messages.map (·.id) := by
  have hcheck : (deletedLast.foldlM (stepMeeting BroadcastInTime (Processes.step
      (LiveDesk.act plainServices plainStorage studyCalls))) studyRoom).any
        (fun t => decide (t.store.page.deletionsProcessed = [5])) = true := by
    decide +kernel
  obtain ⟨t, ht, hprocessed⟩ := exists_of_any_decide hcheck
  have hrun := run_meeting_foldlM ht
  have hstay := deleted_messages_stay_away plainServices plainStorage studyCalls rfl rfl hrun
  exact ⟨t, hrun, hprocessed, hstay.1 5 (by simp [hprocessed])⟩

/-- The job loads the message, the instructor deletes it and the page removes it; then the job
sends its event. -/
def receiptsAfterDeletion : List (ℕ × LiveAction) :=
  [(0, .next), (2, .next), (2, .next), (2, .next), (0, .deliver), (0, .next), (0, .deliver)]

theorem late_receipt_restores_message :
    ∃ t, Run (Fires (Processes.step (LiveDesk.act plainServices plainStorage studyCalls)))
        studyRoom receiptsAfterDeletion t ∧
      5 ∈ t.store.page.deletionsProcessed ∧ 5 ∈ t.store.page.messages.map (·.id) ∧
      ∃ message ∈ t.store.desk.store.messages, message.id = 5 ∧
        message.deletedAt.isSome = true :=
  exists_run_of_any_decide (by decide +kernel)

end LearningPlatform
