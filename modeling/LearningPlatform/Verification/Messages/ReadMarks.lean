import LearningPlatform.Model.ReadMarks
import LearningPlatform.Verification.Validations

/-! # What marking a channel as read covers

Messages count as read by comparing their timestamps with `last_read_at`. A mark covers what was
visible to it if nothing is committed between its selection and its write, and if every later
message has a later timestamp. -/

namespace LearningPlatform

open Shared

/-! ## Read states -/

namespace MessageStore

variable {s : MessageStore} {userId channelId : ℕ}

theorem readState?_key {state : ChannelReadState} (h : s.readState? userId channelId = some state) :
    state.userId = userId ∧ state.channelId = channelId := by
  simpa using List.find?_some h

/-- Afterwards the lookup finds the returned row, and what other lookups found they still find. -/
theorem findOrCreateReadState_spec (s : MessageStore) (userId channelId : ℕ) :
    (s.findOrCreateReadState userId channelId).1.readState? userId channelId =
        some (s.findOrCreateReadState userId channelId).2 ∧
      ∀ otherId state, s.readState? otherId channelId = some state →
        (s.findOrCreateReadState userId channelId).1.readState? otherId channelId = some state := by
  unfold findOrCreateReadState
  cases hfound : s.readState? userId channelId with
  | some state => exact ⟨hfound, fun _ _ h => h⟩
  | none =>
    unfold readState? at hfound
    refine ⟨?_, fun otherId state hstate => ?_⟩
    · simp [readState?, List.find?_append, hfound]
    · unfold readState? at hstate
      simp [readState?, List.find?_append, hstate]

theorem findOrCreateReadState_lastReadAt {state : ChannelReadState} {otherId : ℕ}
    (h : (s.findOrCreateReadState userId channelId).1.readState? otherId channelId = some state) :
    s.readState? otherId channelId = some state ∨ state.lastReadAt = none := by
  unfold findOrCreateReadState at h
  cases hfound : s.readState? userId channelId with
  | some found => exact .inl (by simpa [hfound] using h)
  | none =>
    rw [hfound] at h
    simp only [readState?, List.find?_append, Option.or_eq_some_iff] at h
    rcases h with h | ⟨-, h⟩
    · exact .inl h
    · exact .inr (by rw [List.mem_singleton.mp (List.mem_of_find?_eq_some h)])

theorem markRead!_readState? (s : MessageStore) (copy : ChannelReadState)
    (message : Option Message) (now : Time) (userId channelId : ℕ) :
    (s.markRead! copy message now).readState? userId channelId =
      (s.readState? userId channelId).map fun state =>
        if userId = copy.userId ∧ channelId = copy.channelId then copy.markRead! message now state
        else state := by
  refine (find?_updateAll (f := copy.markRead! message now) fun _ _ => rfl).trans ?_
  refine Option.map_congr fun state hstate => ?_
  obtain ⟨huser, hchannel⟩ := readState?_key hstate
  simp [huser, hchannel]

end MessageStore

/-! ## Assertions -/

namespace ReadDesk

def messagesIn (desk : ReadDesk) (channel : Channel) : List Message :=
  (desk.store.scopeOf (.channel channel)).messages

/-- The unique index of the read states, none of which is ahead of the clock. -/
structure Sound (channel : Channel) (desk : ReadDesk) : Prop where
  unique : ∀ first ∈ desk.store.channelReadStates, ∀ second ∈ desk.store.channelReadStates,
    first.userId = second.userId → first.channelId = second.channelId → first = second
  past : ∀ userId state, desk.store.readState? userId channel.id = some state →
    ∀ time ∈ state.lastReadAt, time ≤ desk.now

end ReadDesk

/-- What a call knows in each phase. The message of another user that a finished mark did not
see has a later timestamp. -/
def ReadPhase.Asserts (channel : Channel) (user : User) (desk : ReadDesk) : ReadPhase → Prop
  | .loaded mark copy => copy.userId = mark.userId ∧ copy.channelId = channel.id ∧
      ∃ state, desk.store.readState? mark.userId channel.id = some state ∧
        NotAfter copy.lastReadAt state.lastReadAt
  | .finished mark lastReadAt => mark.userId = user.id →
      (∃ state, desk.store.readState? user.id channel.id = some state ∧
        NotAfter (some lastReadAt) state.lastReadAt) ∧
      ∀ message ∈ desk.messagesIn channel, message.authorId = user.id ∨
        message ∈ mark.visible ∨ lastReadAt < message.createdAt
  | _ => True

/-- The next statement does not disturb a mark of the user. When the mark is written, every
visible message of another user was visible to its selection; and a message of another user is
committed with a timestamp after the `last_read_at` that is in force. -/
def ReadPhase.Undisturbed (channel : Channel) (user : User) (desk : ReadDesk) : ReadPhase → Prop
  | .inserted message => message.authorId = user.id ∨
      ∀ time ∈ desk.store.lastReadAt user (.channel channel), time < message.createdAt
  | .loaded mark _ => mark.userId = user.id → ∀ message ∈ desk.messagesIn channel,
      message.authorId = user.id ∨ message ∈ mark.visible
  | _ => True

instance (channel : Channel) (user : User) (desk : ReadDesk) :
    ∀ phase : ReadPhase, Decidable (phase.Undisturbed channel user desk)
  | .inserted _ => inferInstanceAs (Decidable (_ ∨ _))
  | .loaded _ _ => inferInstanceAs (Decidable (_ → _))
  | .waiting | .refused | .stamped _ _ _ | .chosen _ | .finished _ _ => .isTrue trivial

def Undisturbed {ι : Type*} (channel : Channel) (user : User)
    (s : Processes ι ReadDesk ReadPhase) (step : ι × ReadAction) : Prop :=
  step.2 = .next → (s.phase step.1).Undisturbed channel user s.store

instance {ι : Type*} (channel : Channel) (user : User) (s : Processes ι ReadDesk ReadPhase)
    (step : ι × ReadAction) : Decidable (Undisturbed channel user s step) :=
  inferInstanceAs (Decidable (_ → _))

/-- What a statement changes for the marks of the user: times of reading advance, and a new
message of another user is later than the time in force. -/
structure ReadDesk.Advances (channel : Channel) (user : User) (desk desk' : ReadDesk) : Prop where
  states : ∀ userId state, desk.store.readState? userId channel.id = some state →
    ∃ state', desk'.store.readState? userId channel.id = some state' ∧
      NotAfter state.lastReadAt state'.lastReadAt
  messages : ∀ message ∈ desk'.messagesIn channel, message ∈ desk.messagesIn channel ∨
    message.authorId = user.id ∨
      ∀ state, desk'.store.readState? user.id channel.id = some state →
        ∀ time ∈ state.lastReadAt, time < message.createdAt

section Stability

variable {channel : Channel} {user : User} {desk desk' : ReadDesk}

theorem ReadPhase.Asserts.stable {phase : ReadPhase} (h : phase.Asserts channel user desk)
    (hadvances : desk.Advances channel user desk') : phase.Asserts channel user desk' := by
  cases phase with
  | loaded mark copy =>
    obtain ⟨huser, hchannel, state, hstate, hle⟩ := h
    obtain ⟨state', hstate', hle'⟩ := hadvances.states _ state hstate
    exact ⟨huser, hchannel, state', hstate', hle.trans hle'⟩
  | finished mark lastReadAt =>
    intro huser
    obtain ⟨⟨state, hstate, hle⟩, hseen⟩ := h huser
    obtain ⟨state', hstate', hle'⟩ := hadvances.states _ state hstate
    refine ⟨⟨state', hstate', hle.trans hle'⟩, fun message hmessage => ?_⟩
    rcases hadvances.messages message hmessage with hold | hown | hlater
    · exact hseen message hold
    · exact .inl hown
    · obtain ⟨time, htime, hle⟩ := (hle.trans hle') lastReadAt rfl
      exact .inr (.inr (hle.trans_lt (hlater state' hstate' time htime)))
  | _ => trivial

theorem ReadDesk.Advances.of_eq
    (hstates : desk'.store.channelReadStates = desk.store.channelReadStates)
    (hmessages : desk'.messagesIn channel = desk.messagesIn channel) :
    desk.Advances channel user desk' := by
  refine ⟨fun userId state hstate => ⟨state, ?_, .refl _⟩, fun message hmessage => .inl ?_⟩
  · rwa [MessageStore.readState?, hstates]
  · rwa [hmessages] at hmessage

end Stability

/-! ## Statements -/

section Statements

variable {channel : Channel} {user : User} {desk : ReadDesk}

namespace ReadDesk.Sound

theorem of_eq (h : desk.Sound channel) {desk' : ReadDesk}
    (hstates : desk'.store.channelReadStates = desk.store.channelReadStates)
    (hnow : desk.now ≤ desk'.now) : desk'.Sound channel := by
  refine ⟨by simpa only [hstates] using h.unique, fun userId state hstate time htime => ?_⟩
  rw [MessageStore.readState?, hstates] at hstate
  exact (h.past userId state hstate time htime).trans hnow

theorem find (h : desk.Sound channel) {state : ChannelReadState}
    (hstate : state ∈ desk.store.channelReadStates) :
    desk.store.readState? state.userId state.channelId = some state := by
  refine find?_eq_some_of_unique hstate (by simp) fun other hother hkey => ?_
  simp only [Bool.and_eq_true, beq_iff_eq] at hkey
  exact h.unique other hother state hstate hkey.1 hkey.2

theorem findOrCreateReadState (h : desk.Sound channel) (userId : ℕ) :
    ({ desk with store := (desk.store.findOrCreateReadState userId channel.id).1 } :
      ReadDesk).Sound channel := by
  refine ⟨?_, fun otherId state hstate time htime => ?_⟩
  · unfold MessageStore.findOrCreateReadState
    cases hfound : desk.store.readState? userId channel.id with
    | some state => exact h.unique
    | none =>
      have hnew : ∀ state ∈ desk.store.channelReadStates,
          state.userId = userId → state.channelId ≠ channel.id := by
        intro state hstate huser hchannel
        simpa [huser, hchannel] using List.find?_eq_none.mp hfound state hstate
      intro first hfirst second hsecond huser hchannel
      rcases List.mem_append.mp hfirst with hfirst | hfirst <;>
        rcases List.mem_append.mp hsecond with hsecond | hsecond
      · exact h.unique first hfirst second hsecond huser hchannel
      · obtain rfl := List.mem_singleton.mp hsecond
        exact absurd hchannel (hnew first hfirst huser)
      · obtain rfl := List.mem_singleton.mp hfirst
        exact absurd hchannel.symm (hnew second hsecond huser.symm)
      · rw [List.mem_singleton.mp hfirst, List.mem_singleton.mp hsecond]
  · rcases MessageStore.findOrCreateReadState_lastReadAt hstate with hold | hnone
    · exact h.past otherId state hold time htime
    · cases hnone ▸ htime

end ReadDesk.Sound

section Marks

variable (h : desk.Sound channel) {copy state : ChannelReadState} (message : Option Message)
  (hstate : desk.store.readState? copy.userId channel.id = some state)
  (hle : NotAfter copy.lastReadAt state.lastReadAt)

include h hstate hle

theorem ReadDesk.Sound.markRead!_lastReadAt :
    (copy.markRead! message desk.now state).lastReadAt = some desk.now := by
  simp only [ChannelReadState.markRead!, changedColumn]
  split
  · rename_i hsame
    obtain ⟨later, hlater, hnow⟩ := hle desk.now (by simpa using hsame.symm)
    rw [Option.mem_def.mp hlater, le_antisymm (h.past _ state hstate later hlater) hnow]
  · rfl

theorem ReadDesk.Sound.markRead! :
    ({ desk with store := desk.store.markRead! copy message desk.now } : ReadDesk).Sound
      channel := by
  refine ⟨?_, fun userId written hwritten time htime => ?_⟩
  · intro first hfirst second hsecond
    obtain ⟨old, hold, rfl⟩ := List.mem_map.mp hfirst
    obtain ⟨old', hold', rfl⟩ := List.mem_map.mp hsecond
    have hkey : ∀ row : ChannelReadState,
        (if row.userId == copy.userId && row.channelId == copy.channelId then
          copy.markRead! message desk.now row else row).userId = row.userId ∧
        (if row.userId == copy.userId && row.channelId == copy.channelId then
          copy.markRead! message desk.now row else row).channelId = row.channelId := by
      intro row
      split <;> exact ⟨rfl, rfl⟩
    intro huser hchannel
    rw [(hkey old).1, (hkey old').1] at huser
    rw [(hkey old).2, (hkey old').2] at hchannel
    rw [h.unique old hold old' hold' huser hchannel]
  · rw [MessageStore.markRead!_readState?] at hwritten
    obtain ⟨old, hold, rfl⟩ := Option.map_eq_some_iff.mp hwritten
    split at htime
    · rename_i hkey
      rw [hkey.1, hstate] at hold
      cases hold
      rw [h.markRead!_lastReadAt message hstate hle] at htime
      exact (Option.mem_some.mp htime).ge
    · exact h.past userId old hold time htime

theorem ReadDesk.Sound.markRead!_advances :
    desk.Advances channel user
      { desk with store := desk.store.markRead! copy message desk.now } := by
  refine ⟨fun userId old hold => ?_, fun _ hmessage => .inl hmessage⟩
  rw [MessageStore.markRead!_readState?, hold]
  refine ⟨_, rfl, ?_⟩
  split
  · rename_i hkey
    rw [hkey.1, hstate] at hold
    cases hold
    rw [h.markRead!_lastReadAt message hstate hle]
    exact fun time htime => ⟨desk.now, rfl, h.past _ state hstate time htime⟩
  · exact .refl _

end Marks

theorem ReadDesk.findOrCreateReadState_advances (desk : ReadDesk) (channel : Channel)
    (user : User) (userId : ℕ) :
    desk.Advances channel user
      { desk with store := (desk.store.findOrCreateReadState userId channel.id).1 } := by
  refine ⟨fun otherId state hstate => ⟨state, ?_, .refl _⟩, fun message hmessage => .inl ?_⟩
  · exact (desk.store.findOrCreateReadState_spec userId channel.id).2 otherId state hstate
  · unfold MessageStore.findOrCreateReadState at hmessage
    split at hmessage <;> exact hmessage

/-- A committed message of another user is later than what the user has read. -/
theorem ReadDesk.commitMessage_advances {message : Message} {store : MessageStore}
    (hcommit : desk.store.commitMessage? message = some store)
    (hquiet : (ReadPhase.inserted message).Undisturbed channel user desk) :
    desk.Advances channel user { desk with store } := by
  unfold MessageStore.commitMessage? at hcommit
  split at hcommit
  · cases hcommit
  · cases hcommit
    refine ⟨fun _ state hstate => ⟨state, hstate, .refl _⟩, fun row hrow => ?_⟩
    obtain ⟨hrow, hvisible⟩ := List.mem_filter.mp hrow
    rcases List.mem_append.mp hrow with hrow | hrow
    · exact .inl (List.mem_filter.mpr ⟨hrow, hvisible⟩)
    · obtain rfl := List.mem_singleton.mp hrow
      refine .inr (hquiet.imp_right fun hlater state hstate time htime => hlater time ?_)
      exact Option.mem_def.mpr (Option.bind_eq_some_iff.mpr ⟨state, hstate, htime⟩)

/-- What a statement leaves to its own call and to the others. -/
structure ReadDesk.Done (channel : Channel) (user : User) (desk desk' : ReadDesk)
    (phase' : ReadPhase) : Prop where
  sound : desk'.Sound channel
  advances : desk.Advances channel user desk'
  asserts : phase'.Asserts channel user desk'

theorem ReadDesk.Sound.next {call : ReadCall} {phase phase' : ReadPhase} {desk' : ReadDesk}
    (h : desk.Sound channel) (hasserts : phase.Asserts channel user desk)
    (hquiet : phase.Undisturbed channel user desk)
    (hnext : desk.next channel call phase = some (desk', phase')) :
    desk.Done channel user desk' phase' := by
  cases phase with
  | finished mark lastReadAt => cases hnext
  | refused => cases hnext
  | waiting =>
    cases hnext
    refine ⟨h, .of_eq rfl rfl, ?_⟩
    unfold ReadDesk.start
    split <;> split <;> trivial
  | stamped author draft createdAt =>
    cases hnext
    exact ⟨h.of_eq rfl le_rfl, .of_eq rfl rfl, trivial⟩
  | inserted message =>
    obtain ⟨store, hcommit, heq⟩ := Option.map_eq_some_iff.mp hnext
    obtain ⟨rfl, rfl⟩ := Prod.mk.inj heq
    refine ⟨h.of_eq ?_ le_rfl, commitMessage_advances hcommit hquiet, trivial⟩
    unfold MessageStore.commitMessage? at hcommit
    split at hcommit
    · cases hcommit
    · rw [← Option.some.inj hcommit]
  | chosen mark =>
    cases hnext
    have hfound := (desk.store.findOrCreateReadState_spec mark.userId channel.id).1
    obtain ⟨huser, hchannel⟩ := MessageStore.readState?_key hfound
    exact ⟨h.findOrCreateReadState mark.userId,
      desk.findOrCreateReadState_advances channel user mark.userId,
      huser, hchannel, _, hfound, .refl _⟩
  | loaded mark copy =>
    cases hnext
    obtain ⟨huser, hchannel, state, hstate, hle⟩ := hasserts
    rw [← huser] at hstate
    refine ⟨h.markRead! mark.lastMessage hstate hle,
      h.markRead!_advances mark.lastMessage hstate hle, fun hmark => ⟨?_, ?_⟩⟩
    · refine ⟨copy.markRead! mark.lastMessage desk.now state, ?_, ?_⟩
      · rw [MessageStore.markRead!_readState?, ← hmark, ← huser, hstate]
        simp [hchannel]
      · rw [h.markRead!_lastReadAt mark.lastMessage hstate hle]
        exact .refl _
    · intro message hmessage
      exact (hquiet hmark message hmessage).imp_right .inl

theorem keeps_of_undisturbed {ι : Type*} [DecidableEq ι] {calls : ι → ReadCall}
    (s : Processes ι ReadDesk ReadPhase) (i : ι) (a : ReadAction) (desk : ReadDesk)
    (phase : ReadPhase)
    (h : s.Holds (ReadDesk.Sound channel) fun _ desk phase => phase.Asserts channel user desk)
    (hcondition : Undisturbed channel user s (i, a))
    (hact : ReadDesk.act channel calls i a s.store (s.phase i) = some (desk, phase)) :
    s.Keeps (ReadDesk.Sound channel) (fun _ desk phase => phase.Asserts channel user desk) i desk
      phase := by
  cases a with
  | tick duration =>
    cases hact
    have hadvances : s.store.Advances channel user
        { s.store with now := s.store.now + duration } := .of_eq rfl rfl
    exact ⟨h.store.of_eq rfl (Nat.le_add_right _ _), (h.phase i).stable hadvances,
      fun j _ => (h.phase j).stable hadvances⟩
  | next =>
    have hdone := h.store.next (h.phase i) (hcondition rfl) hact
    exact ⟨hdone.sound, hdone.asserts, fun j _ => (h.phase j).stable hdone.advances⟩

end Statements

/-! ## Messages that count as read -/

/-- Other users' messages count as read up to `last_read_at`. -/
theorem ReadDesk.Sound.time_of_countedAsRead {channel : Channel} {user : User} {desk : ReadDesk}
    (h : desk.Sound channel) {message : Message}
    (hread : desk.store.CountedAsRead (.channel channel) user message) :
    message.authorId = user.id ∨
      ∃ time ∈ desk.store.lastReadAt user (.channel channel), message.createdAt ≤ time := by
  by_cases hauthor : message.authorId = user.id
  · exact .inl hauthor
  · refine .inr ?_
    obtain ⟨hmessage, hunread | hreceipt⟩ := hread
    · by_contra hlater
      push Not at hlater
      refine hunread (List.mem_filter.mpr ⟨hmessage, ?_⟩)
      simpa [hauthor, Option.all_eq_true] using hlater
    · simp only [MessageStore.receiptReaders, List.mem_map, List.mem_filter,
        MessageStore.readers, List.mem_filterMap, Option.map_eq_some_iff] at hreceipt
      obtain ⟨_, ⟨⟨state, ⟨hstate, hkey⟩, time, htime, rfl⟩, hle⟩, huser⟩ := hreceipt
      have hchannel : state.channelId = channel.id :=
        beq_iff_eq.mp (Bool.and_eq_true_iff.mp hkey).1
      have hfound := h.find hstate
      rw [hchannel, show state.userId = user.id from huser] at hfound
      refine ⟨time, ?_, of_decide_eq_true (Bool.and_eq_true_iff.mp hle).2⟩
      exact Option.mem_def.mpr (Option.bind_eq_some_iff.mpr ⟨state, hfound, htime⟩)

/-- In every run whose steps do not disturb the marks of the user, the messages that count as read
while a completed mark is in force are the user's own and those that were visible to the mark. -/
theorem read_messages_were_visible {ι : Type*} [DecidableEq ι] {channel : Channel} {user : User}
    {calls : ι → ReadCall} {s t : Processes ι ReadDesk ReadPhase}
    {actions : List (ι × ReadAction)} (hsound : s.store.Sound channel)
    (hwaiting : ∀ i, s.phase i = .waiting) (hrun : Run (Meeting (Undisturbed channel user)
      (Fires (Processes.step (ReadDesk.act channel calls)))) s actions t)
    {i : ι} {mark : ReadMark} {lastReadAt : Time}
    (hfinished : t.phase i = .finished mark lastReadAt) (huser : mark.userId = user.id)
    (hforce : t.store.store.lastReadAt user (.channel channel) = some lastReadAt) :
    ∀ message, t.store.store.CountedAsRead (.channel channel) user message →
      message.authorId = user.id ∨
        (message ∈ mark.visible ∧ ∃ last ∈ mark.lastMessage, message.key ≤ last.key) := by
  have hholds : t.Holds (ReadDesk.Sound channel)
      fun _ desk phase => phase.Asserts channel user desk := by
    refine .run_meeting hrun keeps_of_undisturbed ⟨hsound, fun j => ?_⟩
    rw [hwaiting j]
    trivial
  have hmark := hholds.phase i
  rw [hfinished] at hmark
  obtain ⟨-, hseen⟩ := hmark huser
  intro message hread
  rcases hholds.store.time_of_countedAsRead hread with hown | ⟨time, htime, hle⟩
  · exact .inl hown
  · obtain rfl : lastReadAt = time := by simpa [hforce] using htime
    rcases hseen message hread.1 with hown | hvisible | hlater
    · exact .inl hown
    · exact .inr ⟨hvisible, mark.upToLast message hvisible⟩
    · exact absurd hle (Nat.not_le.mpr hlater)

/-! ## Runs of two calls -/

def announcingTeacher : User := { id := 1, role := .instructor }

def listeningTeacher : User := { id := 2, role := .instructor }

def staffChannel : Channel :=
  { id := 3, workspaceId := 4, name := "staff", visibility := .staffOnly }

/-- One teacher posts while another marks the channel read. -/
def postAndMark : ℕ → ReadCall
  | 0 => .post announcingTeacher { body := "Exam on Friday" }
  | _ => .markRead listeningTeacher

def emptyStaffChannel : Processes ℕ ReadDesk ReadPhase where
  store :=
    { store :=
        { users := [announcingTeacher, listeningTeacher]
          workspaces := [{ id := 4, name := "School", slug := "school" }]
          channels := [staffChannel]
          messages := []
          messageIds := List.nodup_nil }
      nextMessageId := 7
      now := 10 }
  phase _ := .waiting

/-- The message is committed, then the other teacher marks the channel read. -/
def postThenMark : List (ℕ × ReadAction) :=
  [(0, .next), (0, .next), (0, .next), (1, .tick 1), (1, .next), (1, .next), (1, .next)]

/-- The post has its timestamp, but its row is committed after the selection of the other teacher
and before the write. -/
def postDuringMark : List (ℕ × ReadAction) :=
  [(0, .next), (1, .next), (0, .next), (0, .next), (1, .next), (1, .tick 1), (1, .next)]

theorem emptyStaffChannel_sound : emptyStaffChannel.store.Sound staffChannel :=
  ⟨by simp [emptyStaffChannel], by simp [emptyStaffChannel, MessageStore.readState?]⟩

/-- The second call has finished, its time is in force, and a message of the other teacher counts
as read. -/
structure MarkedRead (t : Processes ℕ ReadDesk ReadPhase) (mark : ReadMark)
    (lastReadAt : Time) (message : Message) : Prop where
  finished : t.phase 1 = .finished mark lastReadAt
  userId : mark.userId = listeningTeacher.id
  inForce : t.store.store.lastReadAt listeningTeacher (.channel staffChannel) = some lastReadAt
  author : message.authorId ≠ listeningTeacher.id
  counted : t.store.store.CountedAsRead (.channel staffChannel) listeningTeacher message

/-- The check of the states above, with the condition on the message. -/
def markedRead? (condition : ReadMark → Message → Bool) (t : Processes ℕ ReadDesk ReadPhase) :
    Bool :=
  match t.phase 1 with
  | .finished mark lastReadAt => mark.userId == listeningTeacher.id &&
      t.store.store.lastReadAt listeningTeacher (.channel staffChannel) == some lastReadAt &&
      t.store.store.messages.any fun message => message.authorId != listeningTeacher.id &&
        decide (t.store.store.CountedAsRead (.channel staffChannel) listeningTeacher message) &&
        condition mark message
  | _ => false

theorem markedRead_of_check {condition : ReadMark → Message → Bool}
    {t : Processes ℕ ReadDesk ReadPhase} (h : markedRead? condition t = true) :
    ∃ mark lastReadAt message, MarkedRead t mark lastReadAt message ∧
      condition mark message = true := by
  unfold markedRead? at h
  split at h
  · rename_i mark lastReadAt hphase
    simp only [Bool.and_eq_true, beq_iff_eq, List.any_eq_true, bne_iff_ne, ne_eq,
      decide_eq_true_eq] at h
    obtain ⟨⟨huser, hforce⟩, message, -, ⟨hauthor, hcounted⟩, hcondition⟩ := h
    exact ⟨mark, lastReadAt, message, ⟨hphase, huser, hforce, hauthor, hcounted⟩, hcondition⟩
  · cases h

/-- A message that was committed before the selection counts as read and was visible to it. -/
theorem committed_message_was_visible : ∃ t mark lastReadAt message,
    Run (Meeting (Undisturbed staffChannel listeningTeacher)
      (Fires (Processes.step (ReadDesk.act staffChannel postAndMark))))
      emptyStaffChannel postThenMark t ∧
    MarkedRead t mark lastReadAt message ∧ message ∈ mark.visible := by
  have hcheck : (postThenMark.foldlM (stepMeeting (Undisturbed staffChannel listeningTeacher)
      (Processes.step (ReadDesk.act staffChannel postAndMark))) emptyStaffChannel).any
      (markedRead? fun _ _ => true) = true := by
    decide +kernel
  obtain ⟨t, ht, hmarked⟩ := (Option.any_eq_true _ _).mp hcheck
  obtain ⟨mark, lastReadAt, message, hread, -⟩ := markedRead_of_check hmarked
  have hrun := run_meeting_foldlM ht
  refine ⟨t, mark, lastReadAt, message, hrun, hread, ?_⟩
  have hvisible := read_messages_were_visible emptyStaffChannel_sound (fun _ => rfl) hrun
    hread.finished hread.userId hread.inForce message hread.counted
  exact (hvisible.resolve_left hread.author).1

/-- A message that was committed during the mark counts as read, with a receipt, but was not visible
to the selection, which found no message. -/
theorem message_read_unseen : ∃ t mark lastReadAt message,
    Run (Fires (Processes.step (ReadDesk.act staffChannel postAndMark)))
      emptyStaffChannel postDuringMark t ∧
    MarkedRead t mark lastReadAt message ∧ message ∉ mark.visible ∧ mark.lastMessage = none ∧
    listeningTeacher.id ∈ t.store.store.receiptReaders (.channel staffChannel) message := by
  have hcheck : (postDuringMark.foldlM
      (Processes.step (ReadDesk.act staffChannel postAndMark)) emptyStaffChannel).any
      (fun t => markedRead? (fun mark message => decide (message ∉ mark.visible ∧
        mark.lastMessage = none ∧ listeningTeacher.id ∈
          t.store.store.receiptReaders (.channel staffChannel) message)) t) = true := by
    decide +kernel
  obtain ⟨t, ht, hmarked⟩ := (Option.any_eq_true _ _).mp hcheck
  obtain ⟨mark, lastReadAt, message, hread, hunseen⟩ := markedRead_of_check hmarked
  exact ⟨t, mark, lastReadAt, message, run_foldlM ht, hread, of_decide_eq_true hunseen⟩

end LearningPlatform
