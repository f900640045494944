import LearningPlatform.Verification.DirectConversation.Equations

/-! # Schema constraints of the conversation tables -/

namespace LearningPlatform

open Shared

/-- The primary keys, foreign keys and unique index of the conversation tables. -/
structure ConversationSchema (db : Database) : Prop where
  userIds : (db.users.map (·.id)).Nodup
  conversationIds : (db.directConversations.map (·.id)).Nodup
  fresh : ∀ conversation ∈ db.directConversations, conversation.id < db.nextId
  memberConversation : ∀ row ∈ db.directConversationMembers,
    ∃ conversation ∈ db.directConversations, conversation.id = row.directConversationId
  memberUser : ∀ row ∈ db.directConversationMembers, ∃ user ∈ db.users, user.id = row.userId
  keyPresent : ∀ conversation ∈ db.directConversations, conversation.memberKey ≠ ""
  keyUnique : ∀ first ∈ db.directConversations, ∀ second ∈ db.directConversations,
    first.workspaceId = second.workspaceId → first.memberKey = second.memberKey →
      first.id = second.id

variable {db db' : Database} {userId : ℕ} {conversation : DirectConversation}

theorem user?_isSome_iff : (db.user? userId).isSome ↔ ∃ user ∈ db.users, user.id = userId := by
  simp [Database.user?, List.find?_isSome]

theorem putConversation_schema (hdb : ConversationSchema db)
    (hvalid : db.validateConversation conversation = .ok ()) (hid : conversation.id < db.nextId) :
    ConversationSchema (db.putConversation conversation) := by
  obtain ⟨hpresent, hunique⟩ := validateConversation_eq_ok.mp hvalid
  have hids : (db.putConversation conversation).directConversations.map (·.id) =
      db.directConversations.map (·.id) := by
    simp only [Database.putConversation, updateAll, List.map_map]
    apply List.map_congr_left
    intro row _
    by_cases hrow : row.id = conversation.id <;> simp [hrow]
  refine ⟨hdb.userIds, hids ▸ hdb.conversationIds, ?_, ?_, hdb.memberUser, ?_, ?_⟩
  · intro row hrow
    rcases mem_putConversation hrow with rfl | ⟨hold, -⟩
    · exact hid
    · exact hdb.fresh row hold
  · intro row hrow
    obtain ⟨owner, howner, heq⟩ := hdb.memberConversation row hrow
    by_cases hne : owner.id = conversation.id
    · exact ⟨conversation, mem_putConversation_self howner hne, hne ▸ heq⟩
    · exact ⟨owner, mem_putConversation_of_ne howner hne, heq⟩
  · intro row hrow
    rcases mem_putConversation hrow with rfl | ⟨hold, -⟩
    · exact hpresent
    · exact hdb.keyPresent row hold
  · intro first hfirst second hsecond hworkspace hkey
    rcases mem_putConversation hfirst with rfl | ⟨hold, hne⟩
    · rcases mem_putConversation hsecond with rfl | ⟨hold, hne⟩
      · rfl
      · exact (hunique second hold hne hworkspace.symm hkey.symm).elim
    · rcases mem_putConversation hsecond with rfl | ⟨hold', -⟩
      · exact (hunique first hold hne hworkspace hkey).elim
      · exact hdb.keyUnique first hold second hold' hworkspace hkey

theorem detachMember_schema (hdb : ConversationSchema db) (conversationId userId : ℕ) :
    ConversationSchema (db.detachMember conversationId userId) where
  userIds := hdb.userIds
  conversationIds := hdb.conversationIds
  fresh := hdb.fresh
  memberConversation row hrow := hdb.memberConversation row (mem_deleteAll.mp hrow).1
  memberUser row hrow := hdb.memberUser row (mem_deleteAll.mp hrow).1
  keyPresent := hdb.keyPresent
  keyUnique := hdb.keyUnique

theorem setArchivedAt_ids (db : Database) (userId : ℕ) (at? : Option Time) :
    (db.setArchivedAt userId at?).users.map (·.id) = db.users.map (·.id) := by
  unfold Database.setArchivedAt
  apply map_updateAll
  intro user
  rfl

theorem setArchivedAt_schema (hdb : ConversationSchema db) (userId : ℕ) (at? : Option Time) :
    ConversationSchema (db.setArchivedAt userId at?) where
  userIds := by rw [setArchivedAt_ids]; exact hdb.userIds
  conversationIds := hdb.conversationIds
  fresh := hdb.fresh
  memberConversation := hdb.memberConversation
  memberUser row hrow := by
    obtain ⟨user, huser, heq⟩ := hdb.memberUser row hrow
    have hmem : user.id ∈ (db.setArchivedAt userId at?).users.map (·.id) := by
      rw [setArchivedAt_ids]
      exact List.mem_map_of_mem huser
    obtain ⟨user', huser', hid⟩ := List.mem_map.mp hmem
    exact ⟨user', huser', hid.trans heq⟩
  keyPresent := hdb.keyPresent
  keyUnique := hdb.keyUnique

theorem createConversation!_schema (hdb : ConversationSchema db) {workspace : Workspace}
    {memberKey : String} {userIds : List ℕ}
    (h : db.createConversation! workspace memberKey userIds = .ok (db', conversation)) :
    ConversationSchema db' := by
  obtain ⟨hconversation, hvalid, husers, rfl⟩ := createConversation!_eq_ok.mp h
  obtain ⟨hpresent, hunique⟩ := validateConversation_eq_ok.mp hvalid
  have hid : conversation.id = db.nextId := by rw [hconversation]
  have hkeyed : Keyed (·.id) (db.directConversations ++ [conversation]) (db.nextId + 1) :=
    Keyed.append ⟨hdb.conversationIds, hdb.fresh⟩ hid
  refine ⟨hdb.userIds, hkeyed.nodup, hkeyed.lt, ?_, ?_, ?_, ?_⟩
  · intro row hrow
    rcases List.mem_append.mp hrow with hold | hlast
    · obtain ⟨owner, howner, heq⟩ := hdb.memberConversation row hold
      exact ⟨owner, List.mem_append_left _ howner, heq⟩
    · obtain ⟨userId, -, rfl⟩ := List.mem_map.mp hlast
      exact ⟨conversation, by simp, rfl⟩
  · intro row hrow
    rcases List.mem_append.mp hrow with hold | hlast
    · exact hdb.memberUser row hold
    · obtain ⟨userId, huserId, rfl⟩ := List.mem_map.mp hlast
      exact user?_isSome_iff.mp (husers userId huserId)
  · exact (forall_append_singleton_iff hdb.keyPresent).mpr hpresent
  · refine PairUnique.append hdb.keyUnique fun other hother hworkspace hkey => ?_
    have hold := hdb.fresh other hother
    exact hunique other hother (by omega) hworkspace hkey

theorem archiveOrDetach_schema (hdb : ConversationSchema db) {conversationId : ℕ}
    (h : archiveOrDetach userId db conversationId = .ok db') : ConversationSchema db' := by
  obtain ⟨conversation, hfound, hcases⟩ := archiveOrDetach_cases h
  have hid : conversation.id < db.nextId :=
    hdb.fresh conversation (conversation?_eq_some hfound).1
  rcases hcases with ⟨-, hvalid, rfl⟩ | ⟨-, hvalid, rfl⟩
  · exact putConversation_schema hdb hvalid hid
  · exact putConversation_schema (detachMember_schema hdb _ _) hvalid hid

/-- Whatever every iteration keeps, the whole archival loop keeps. -/
theorem archiveOrDetachAll_induction {Inv : Database → Prop}
    (hstep : ∀ db db' conversationId, Inv db → archiveOrDetach userId db conversationId = .ok db' →
      Inv db') :
    ∀ (ids : List ℕ) (db db' : Database), Inv db →
      archiveOrDetachAll userId ids db = .ok db' → Inv db' := by
  intro ids
  induction ids with
  | nil =>
    intro db db' hdb h
    cases h
    exact hdb
  | cons id ids ih =>
    intro db db' hdb h
    simp only [archiveOrDetachAll] at h
    split at h
    · cases h
    · rename_i next hnext
      exact ih next db' (hstep db next id hdb hnext) h

theorem archive!_cases {now : Time} (h : archive! db userId now = .ok db') :
    archiveOrDetachAll userId ((db.setArchivedAt userId (some now)).conversationIdsOf userId)
      (db.setArchivedAt userId (some now)) = .ok db' := by
  obtain ⟨user, -, h⟩ := orNotFound_bind_eq_ok.mp h
  exact h

theorem unarchive!_cases (h : unarchive! db userId = .ok db') :
    db' = db.setArchivedAt userId none := by
  obtain ⟨user, -, h⟩ := orNotFound_bind_eq_ok.mp h
  exact (Except.ok.inj h).symm

theorem findOrCreateFor!_schema (hdb : ConversationSchema db) {workspace : Workspace}
    {users : List User} (h : findOrCreateFor! db workspace users = .ok (db', conversation)) :
    ConversationSchema db' := by
  rcases findOrCreateFor!_cases h with ⟨found, hfound, rfl, ⟨-, rfl⟩ | ⟨hvalid, rfl⟩⟩ | ⟨-, hcreate⟩
  · exact hdb
  · exact putConversation_schema hdb hvalid (hdb.fresh found (findConversation_eq_some hfound).1)
  · exact createConversation!_schema hdb hcreate

theorem perform_schema (hdb : ConversationSchema db) (call : ConversationCall) :
    ConversationSchema (call.perform db) := by
  cases call with
  | findOrCreateFor workspace users =>
    simp only [ConversationCall.perform]
    split
    · rename_i h
      exact findOrCreateFor!_schema hdb h
    · exact hdb
  | archive userId now =>
    simp only [ConversationCall.perform]
    split
    · rename_i h
      exact archiveOrDetachAll_induction
        (fun _ _ _ hinv hnext => archiveOrDetach_schema hinv hnext) _ _ _
        (setArchivedAt_schema hdb userId (some now)) (archive!_cases h)
    · exact hdb
  | unarchive userId =>
    simp only [ConversationCall.perform]
    split
    · rename_i h
      rw [unarchive!_cases h]
      exact setArchivedAt_schema hdb userId none
    · exact hdb

end LearningPlatform
