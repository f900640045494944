import LearningPlatform.Model.DirectConversation
import LearningPlatform.Verification.Validations

/-! # What the conversation operations read and write -/

namespace LearningPlatform

open Shared

/-! ## Member keys -/

theorem memberKeyFor_eq_iff {ms ns : List ℕ} :
    memberKeyFor ms = memberKeyFor ns ↔ ∀ n, n ∈ ms ↔ n ∈ ns := by
  unfold memberKeyFor
  rw [(joinDecimals_injective (c := ':') (by decide)).eq_iff, canonical_eq_iff]

theorem memberKeyFor_eq_empty_iff {ns : List ℕ} : memberKeyFor ns = "" ↔ ns = [] := by
  rw [memberKeyFor, joinDecimals_eq_empty_iff, canonical_eq_nil_iff]

@[simp] theorem memberKeyFor_canonical (ns : List ℕ) :
    memberKeyFor (canonical ns) = memberKeyFor ns := by
  simp [memberKeyFor]

/-! ## Members of a conversation -/

variable {db db' : Database} {conversationId userId : ℕ} {conversation row : DirectConversation}
  {memberKey : String}

theorem mem_memberIds :
    userId ∈ db.memberIds conversationId ↔
      ⟨conversationId, userId⟩ ∈ db.directConversationMembers := by
  simp only [Database.memberIds, List.mem_map, List.mem_filter, beq_iff_eq]
  constructor
  · rintro ⟨⟨c, u⟩, ⟨hrow, rfl⟩, rfl⟩
    exact hrow
  · intro hrow
    exact ⟨_, ⟨hrow, rfl⟩, rfl⟩

theorem mem_activeMemberIds :
    userId ∈ db.activeMemberIds conversationId ↔
      userId ∈ db.memberIds conversationId ∧
        ∃ user ∈ db.users, user.id = userId ∧ user.archived? = false := by
  simp only [Database.activeMemberIds, Database.conversationUsers, List.mem_map,
    List.mem_filter, List.contains_iff_mem, Bool.not_eq_true']
  constructor
  · rintro ⟨user, ⟨⟨huser, hmember⟩, hactive⟩, rfl⟩
    exact ⟨hmember, user, huser, rfl, hactive⟩
  · rintro ⟨hmember, user, huser, rfl, hactive⟩
    exact ⟨user, ⟨⟨huser, hmember⟩, hactive⟩, rfl⟩

theorem memberIds_detachMember_self {n : ℕ} :
    n ∈ (db.detachMember conversationId userId).memberIds conversationId ↔
      n ∈ db.memberIds conversationId ∧ n ≠ userId := by
  simp [mem_memberIds, Database.detachMember, mem_deleteAll]

theorem memberIds_detachMember_of_ne {other : ℕ} (hne : other ≠ conversationId) :
    (db.detachMember conversationId userId).memberIds other = db.memberIds other := by
  simp only [Database.memberIds, Database.detachMember, deleteAll, List.filter_filter]
  congr 1
  apply List.filter_congr
  intro row _
  by_cases hrow : row.directConversationId = other
  · subst hrow
    simp [hne]
  · simp [hrow]

@[simp] theorem memberIds_putConversation (db : Database) (conversation : DirectConversation) :
    (db.putConversation conversation).memberIds = db.memberIds := rfl

/-! ## Rows of the conversation table -/

theorem conversation?_eq_some {id : ℕ} (h : db.conversation? id = some conversation) :
    conversation ∈ db.directConversations ∧ conversation.id = id :=
  ⟨List.mem_of_find?_eq_some h, by simpa using List.find?_some h⟩

theorem findConversation_eq_some {workspaceId : ℕ}
    (h : db.findConversation workspaceId memberKey = some conversation) :
    conversation ∈ db.directConversations ∧ conversation.workspaceId = workspaceId ∧
      conversation.memberKey = memberKey := by
  refine ⟨List.mem_of_find?_eq_some h, ?_⟩
  simpa using List.find?_some h

theorem findConversation_eq_none {workspaceId : ℕ}
    (h : db.findConversation workspaceId memberKey = none) :
    ∀ conversation ∈ db.directConversations,
      conversation.workspaceId = workspaceId → conversation.memberKey ≠ memberKey := by
  simpa [Database.findConversation] using h

theorem mem_putConversation :
    row ∈ (db.putConversation conversation).directConversations →
      row = conversation ∨ (row ∈ db.directConversations ∧ row.id ≠ conversation.id) := by
  intro h
  rcases mem_updateAll.mp h with ⟨_, _, _, rfl⟩ | ⟨hrow, hne⟩
  · exact .inl rfl
  · exact .inr ⟨hrow, by simpa using hne⟩

theorem mem_putConversation_of_ne (hrow : row ∈ db.directConversations)
    (hne : row.id ≠ conversation.id) :
    row ∈ (db.putConversation conversation).directConversations :=
  mem_updateAll.mpr (.inr ⟨hrow, by simpa using hne⟩)

theorem mem_putConversation_self (hrow : row ∈ db.directConversations)
    (hid : row.id = conversation.id) :
    conversation ∈ (db.putConversation conversation).directConversations :=
  mem_updateAll.mpr (.inl ⟨row, hrow, by simpa using hid, rfl⟩)

/-! ## Saves -/

theorem validateConversation_eq_ok :
    db.validateConversation conversation = .ok () ↔
      conversation.memberKey ≠ "" ∧
        ∀ other ∈ db.directConversations, other.id ≠ conversation.id →
          other.workspaceId = conversation.workspaceId →
            other.memberKey ≠ conversation.memberKey := by
  unfold Database.validateConversation
  split
  · rename_i hblank
    simp [hblank]
  · rename_i hpresent
    split
    · rename_i htaken
      simp only [reduceCtorEq, false_iff, not_and]
      intro _ hunique
      obtain ⟨other, hother, hkey⟩ := List.any_eq_true.mp htaken
      simp only [Bool.and_eq_true, bne_iff_ne, beq_iff_eq] at hkey
      exact hunique other hother hkey.1.1 hkey.1.2 hkey.2
    · rename_i hfree
      simp only [true_iff]
      refine ⟨hpresent, ?_⟩
      intro other hother hid hworkspace hkey
      apply hfree
      apply List.any_eq_true.mpr
      exact ⟨other, hother, by simp [hid, hworkspace, hkey]⟩

theorem updateConversation!_eq_ok :
    db.updateConversation! conversation = .ok db' ↔
      db.validateConversation conversation = .ok () ∧ db' = db.putConversation conversation := by
  simp [Database.updateConversation!, bind_eq_ok, Unique.exists_iff, @eq_comm _ db']

/-- A successful creation stores the conversation under the next id together with one
member row for each user. -/
theorem createConversation!_eq_ok {workspace : Workspace} {userIds : List ℕ} :
    db.createConversation! workspace memberKey userIds = .ok (db', conversation) ↔
      conversation =
          { id := db.nextId, workspaceId := workspace.id, cohortId := workspace.cohortId,
            memberKey } ∧
        db.validateConversation conversation = .ok () ∧
        (∀ userId ∈ userIds, (db.user? userId).isSome) ∧
        db' =
          { db with
            directConversations := db.directConversations ++ [conversation]
            directConversationMembers :=
              db.directConversationMembers ++ userIds.map (⟨conversation.id, ·⟩)
            nextId := db.nextId + 1 } := by
  unfold Database.createConversation!
  dsimp only
  constructor
  · intro h
    obtain ⟨_, hvalid, h⟩ := bind_eq_ok.mp h
    split at h
    · rename_i hall
      cases h
      exact ⟨rfl, hvalid, by simpa using hall, rfl⟩
    · cases h
  · rintro ⟨rfl, hvalid, hall, rfl⟩
    refine bind_eq_ok.mpr ⟨(), hvalid, if_pos ?_⟩
    simpa using hall

/-- `find_or_create_for!` returns a conversation stored under the requested key, with
its status set to active, or creates one. -/
theorem findOrCreateFor!_cases {workspace : Workspace} {users : List User}
    (h : findOrCreateFor! db workspace users = .ok (db', conversation)) :
    (∃ found, db.findConversation workspace.id (memberKeyFor (users.map (·.id))) = some found ∧
      conversation = { found with status := .active } ∧
      ((found.status = .active ∧ db' = db) ∨
        (db.validateConversation conversation = .ok () ∧
          db' = db.putConversation conversation))) ∨
    (db.findConversation workspace.id (memberKeyFor (users.map (·.id))) = none ∧
      db.createConversation! workspace (memberKeyFor (users.map (·.id)))
        (canonical (users.map (·.id))) = .ok (db', conversation)) := by
  unfold findOrCreateFor! at h
  dsimp only at h
  rw [memberKeyFor_canonical] at h
  split at h
  · rename_i found hfound
    left
    refine ⟨found, hfound, ?_⟩
    split at h
    · obtain ⟨saved, hsave, h⟩ := map_eq_ok.mp h
      cases h
      exact ⟨rfl, .inr (updateConversation!_eq_ok.mp hsave)⟩
    · rename_i hstatus
      obtain ⟨rfl, rfl⟩ := Prod.mk.inj (Except.ok.inj h)
      have hactive : found.status = .active := by
        cases hs : found.status with
        | active => rfl
        | archived => exact (hstatus hs).elim
      refine ⟨?_, .inl ⟨hactive, rfl⟩⟩
      cases found
      simp_all
  · rename_i hnone
    exact .inr ⟨hnone, h⟩

/-! ## One iteration of the archival loop -/

/-- The iteration gives the conversation a new key and drops the user's member row. -/
def Database.rekeys (db : Database) (conversation : DirectConversation) : Prop :=
  1 < (db.activeMemberIds conversation.id).length ∧
    db.keyTaken? conversation (memberKeyFor (db.activeMemberIds conversation.id)) = false

theorem archiveOrDetach_cases (h : archiveOrDetach userId db conversationId = .ok db') :
    ∃ conversation, db.conversation? conversationId = some conversation ∧
      ((¬ db.rekeys conversation ∧
          db.validateConversation { conversation with status := .archived } = .ok () ∧
          db' = db.putConversation { conversation with status := .archived }) ∨
        (db.rekeys conversation ∧
          (db.detachMember conversationId userId).validateConversation
            { conversation with
              memberKey := memberKeyFor (db.activeMemberIds conversationId) } = .ok () ∧
          db' = (db.detachMember conversationId userId).putConversation
            { conversation with
              memberKey := memberKeyFor (db.activeMemberIds conversationId) })) := by
  obtain ⟨conversation, hfound, h⟩ := orNotFound_bind_eq_ok.mp h
  obtain ⟨-, rfl⟩ := conversation?_eq_some hfound
  refine ⟨conversation, hfound, ?_⟩
  dsimp only at h
  split at h
  · rename_i hfew
    refine .inl ⟨?_, updateConversation!_eq_ok.mp h⟩
    rintro ⟨hmany, -⟩
    omega
  · rename_i hmany
    split at h
    · rename_i htaken
      refine .inl ⟨?_, updateConversation!_eq_ok.mp h⟩
      rintro ⟨-, hfree⟩
      simp [htaken] at hfree
    · rename_i hfree
      exact .inr ⟨⟨by omega, by simpa using hfree⟩, updateConversation!_eq_ok.mp h⟩

end LearningPlatform
