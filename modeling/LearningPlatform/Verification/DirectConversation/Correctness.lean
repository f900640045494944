import LearningPlatform.Verification.DirectConversation.Schema
import LearningPlatform.Shared.Run

/-! # Member keys along call sequences -/

namespace LearningPlatform

open Shared

/-- Every conversation is stored under the key of its member rows. -/
def KeysMatch (db : Database) : Prop :=
  ∀ conversation ∈ db.directConversations,
    conversation.memberKey = memberKeyFor (db.memberIds conversation.id)

/-! ## Creation and lookup keep the keys -/

variable {db db' : Database} {conversation : DirectConversation} {workspace : Workspace}
  {users : List User} {userId conversationId : ℕ}

theorem putConversation_keysMatch (hdb : KeysMatch db)
    (hkey : conversation.memberKey = memberKeyFor (db.memberIds conversation.id)) :
    KeysMatch (db.putConversation conversation) := by
  intro row hrow
  rw [memberIds_putConversation]
  rcases mem_putConversation hrow with rfl | ⟨hold, -⟩
  · exact hkey
  · exact hdb row hold

theorem memberIds_createConversation! (hdb : ConversationSchema db) {memberKey : String}
    {userIds : List ℕ}
    (h : db.createConversation! workspace memberKey userIds = .ok (db', conversation)) :
    (∀ n, n ∈ db'.memberIds conversation.id ↔ n ∈ userIds) ∧
      ∀ other ∈ db.directConversations, db'.memberIds other.id = db.memberIds other.id := by
  obtain ⟨hconversation, -, -, rfl⟩ := createConversation!_eq_ok.mp h
  have hid : conversation.id = db.nextId := by rw [hconversation]
  constructor
  · intro n
    simp only [mem_memberIds, List.mem_append, List.mem_map, DirectConversationMember.mk.injEq,
      true_and, exists_eq_right]
    constructor
    · rintro (hold | hnew)
      · obtain ⟨owner, howner, heq⟩ := hdb.memberConversation _ hold
        have := hdb.fresh owner howner
        simp only at heq
        omega
      · exact hnew
    · exact .inr
  · intro other hother
    have hne : conversation.id ≠ other.id := by
      have := hdb.fresh other hother
      omega
    have hnone : ((userIds.map (DirectConversationMember.mk conversation.id)).filter
        (·.directConversationId == other.id)) = [] := by
      simp [List.filter_map, hne]
    simp only [Database.memberIds, List.filter_append, List.map_append, hnone]
    simp

theorem findOrCreateFor!_keysMatch (hdb : ConversationSchema db) (hkeys : KeysMatch db)
    (h : findOrCreateFor! db workspace users = .ok (db', conversation)) : KeysMatch db' := by
  rcases findOrCreateFor!_cases h with ⟨found, hfound, rfl, ⟨-, rfl⟩ | ⟨-, rfl⟩⟩ | ⟨-, hcreate⟩
  · exact hkeys
  · exact putConversation_keysMatch hkeys (hkeys found (findConversation_eq_some hfound).1)
  · obtain ⟨hself, hothers⟩ := memberIds_createConversation! hdb hcreate
    obtain ⟨hconversation, -, -, hdb'⟩ := createConversation!_eq_ok.mp hcreate
    intro row hrow
    rw [hdb'] at hrow
    rcases List.mem_append.mp hrow with hold | hlast
    · rw [hothers row hold]
      exact hkeys row hold
    · rw [List.mem_singleton.mp hlast]
      have hkey : conversation.memberKey = memberKeyFor (users.map (·.id)) := by
        rw [hconversation]
      rw [hkey]
      apply memberKeyFor_eq_iff.mpr
      intro n
      rw [hself n, mem_canonical]

/-! ## Archival keeps a key exactly when the new key names every remaining member -/

/-- A member other than `userId` is archived and still has a member row. -/
def Database.hasOtherArchivedMember (db : Database) (userId conversationId : ℕ) : Prop :=
  ∃ user ∈ db.users,
    user.id ∈ db.memberIds conversationId ∧ user.id ≠ userId ∧ user.archived? = true

/-- No iteration of the archival loop re-keys a conversation that has another archived
member. -/
def DetachSafe (userId : ℕ) : List ℕ → Database → Prop
  | [], _ => True
  | id :: rest, db =>
    (∀ conversation, db.conversation? id = some conversation → db.rekeys conversation →
      ¬ db.hasOtherArchivedMember userId id) ∧
    ∀ next, archiveOrDetach userId db id = .ok next → DetachSafe userId rest next

/-- The rows with this id are stored under the key of their members. -/
def MatchesAt (db : Database) (id : ℕ) : Prop :=
  ∀ conversation ∈ db.directConversations, conversation.id = id →
    conversation.memberKey = memberKeyFor (db.memberIds id)

theorem keysMatch_iff : KeysMatch db ↔ ∀ id, MatchesAt db id := by
  constructor
  · rintro h id conversation hmem rfl
    exact h conversation hmem
  · intro h conversation hmem
    exact h conversation.id conversation hmem rfl

theorem matchesAt_putConversation_of_ne {id : ℕ} (hne : id ≠ conversation.id) :
    MatchesAt (db.putConversation conversation) id ↔ MatchesAt db id := by
  constructor
  · rintro h row hrow rfl
    exact h row (mem_putConversation_of_ne hrow hne) rfl
  · rintro h row hrow rfl
    rcases mem_putConversation hrow with rfl | ⟨hold, -⟩
    · exact (hne rfl).elim
    · exact h row hold rfl

theorem matchesAt_putConversation_self {row : DirectConversation}
    (hrow : row ∈ db.directConversations) (hid : row.id = conversation.id) :
    MatchesAt (db.putConversation conversation) row.id ↔
      conversation.memberKey = memberKeyFor (db.memberIds row.id) := by
  constructor
  · intro h
    exact h conversation (mem_putConversation_self hrow hid) hid.symm
  · intro h other hother heq
    rcases mem_putConversation hother with rfl | ⟨-, hne⟩
    · exact h
    · exact (hne (heq.trans hid)).elim

/-- The active members are the members that remain after dropping `userId`, exactly when
no other member is archived. -/
theorem activeMemberIds_iff_remaining (hdb : ConversationSchema db)
    (harchived : ∀ user ∈ db.users, user.id = userId → user.archived? = true) :
    (∀ n, n ∈ db.activeMemberIds conversationId ↔
        n ∈ db.memberIds conversationId ∧ n ≠ userId) ↔
      ¬ db.hasOtherArchivedMember userId conversationId := by
  constructor
  · rintro h ⟨user, huser, hmember, hne, hgone⟩
    obtain ⟨-, other, hother, hid, hactive⟩ :=
      mem_activeMemberIds.mp ((h user.id).mpr ⟨hmember, hne⟩)
    have heq : other = user := List.inj_on_of_nodup_map hdb.userIds hother huser hid
    simp [heq, hgone] at hactive
  · intro h n
    rw [mem_activeMemberIds]
    constructor
    · rintro ⟨hmember, user, huser, rfl, hactive⟩
      refine ⟨hmember, ?_⟩
      intro heq
      simp [harchived user huser heq] at hactive
    · rintro ⟨hmember, hne⟩
      refine ⟨hmember, ?_⟩
      obtain ⟨user, huser, hid⟩ := hdb.memberUser _ (mem_memberIds.mp hmember)
      simp only at hid
      subst hid
      refine ⟨user, huser, rfl, ?_⟩
      cases hgone : user.archived? with
      | false => rfl
      | true => exact (h ⟨user, huser, hmember, hne, hgone⟩).elim

theorem archiveOrDetach_users (h : archiveOrDetach userId db conversationId = .ok db') :
    db'.users = db.users := by
  obtain ⟨conversation, -, ⟨-, -, rfl⟩ | ⟨-, -, rfl⟩⟩ := archiveOrDetach_cases h <;> rfl

theorem archiveOrDetach_matchesAt_of_ne {id : ℕ} (hne : id ≠ conversationId)
    (h : archiveOrDetach userId db conversationId = .ok db') :
    MatchesAt db' id ↔ MatchesAt db id := by
  obtain ⟨conversation, hfound, hcases⟩ := archiveOrDetach_cases h
  obtain ⟨-, rfl⟩ := conversation?_eq_some hfound
  rcases hcases with ⟨-, -, rfl⟩ | ⟨-, -, rfl⟩
  · exact matchesAt_putConversation_of_ne hne
  · refine (matchesAt_putConversation_of_ne (by exact hne)).trans ?_
    simp only [MatchesAt, memberIds_detachMember_of_ne hne]
    rfl

theorem archiveOrDetach_matchesAt_self {db db' : Database} (hdb : ConversationSchema db)
    {userId conversationId : ℕ}
    (harchived : ∀ user ∈ db.users, user.id = userId → user.archived? = true)
    (hmatch : MatchesAt db conversationId)
    (h : archiveOrDetach userId db conversationId = .ok db') :
    MatchesAt db' conversationId ↔
      ∀ conversation, db.conversation? conversationId = some conversation →
        db.rekeys conversation → ¬ db.hasOtherArchivedMember userId conversationId := by
  obtain ⟨conversation, hfound, hcases⟩ := archiveOrDetach_cases h
  obtain ⟨hmem, rfl⟩ := conversation?_eq_some hfound
  simp only [hfound, Option.some.injEq, forall_eq']
  rcases hcases with ⟨hkeep, -, rfl⟩ | ⟨hrekey, -, rfl⟩
  · refine (matchesAt_putConversation_self hmem (by rfl)).trans ?_
    simp only [hkeep, false_implies, iff_true]
    exact hmatch conversation hmem rfl
  · have hmem' : conversation ∈ (db.detachMember conversation.id userId).directConversations :=
      hmem
    refine (matchesAt_putConversation_self hmem' (by rfl)).trans ?_
    simp only [hrekey, true_implies]
    rw [memberKeyFor_eq_iff, ← activeMemberIds_iff_remaining hdb harchived]
    simp only [memberIds_detachMember_self]

/-- Over the whole loop, the visited conversations keep matching keys exactly when the
loop is safe, and the others are not touched. -/
theorem archiveOrDetachAll_matchesAt :
    ∀ (ids : List ℕ) (db db' : Database), ids.Nodup → ConversationSchema db →
      (∀ user ∈ db.users, user.id = userId → user.archived? = true) →
      (∀ id ∈ ids, MatchesAt db id) → archiveOrDetachAll userId ids db = .ok db' →
      ((∀ id ∈ ids, MatchesAt db' id) ↔ DetachSafe userId ids db) ∧
        ∀ id ∉ ids, (MatchesAt db' id ↔ MatchesAt db id) := by
  intro ids
  induction ids with
  | nil =>
    intro db db' _ _ _ _ h
    cases h
    simp [DetachSafe]
  | cons id ids ih =>
    intro db db' hnodup hdb harchived hmatch h
    obtain ⟨hid, hnodup⟩ := List.nodup_cons.mp hnodup
    simp only [archiveOrDetachAll] at h
    split at h
    · cases h
    · rename_i next hnext
      have husers := archiveOrDetach_users hnext
      have hself := archiveOrDetach_matchesAt_self hdb harchived (hmatch id (by simp)) hnext
      have harchived' : ∀ user ∈ next.users, user.id = userId → user.archived? = true := by
        rw [husers]
        exact harchived
      have hmatch' : ∀ other ∈ ids, MatchesAt next other := by
        intro other hother
        have hne : other ≠ id := by
          rintro rfl
          exact hid hother
        exact (archiveOrDetach_matchesAt_of_ne hne hnext).mpr
          (hmatch other (List.mem_cons_of_mem _ hother))
      obtain ⟨hvisited, hothers⟩ :=
        ih next db' hnodup (archiveOrDetach_schema hdb hnext) harchived' hmatch' h
      constructor
      · simp only [List.forall_mem_cons, DetachSafe, hvisited, hothers id hid, hself, hnext,
          Except.ok.injEq, forall_eq']
      · intro other hother
        simp only [List.mem_cons, not_or] at hother
        rw [hothers other hother.2, archiveOrDetach_matchesAt_of_ne hother.1 hnext]

theorem conversationIdsOf_nodup (hdb : ConversationSchema db) (userId : ℕ) :
    (db.conversationIdsOf userId).Nodup :=
  ((List.perm_insertionSort (· ≤ ·) _).nodup_iff).mpr (hdb.conversationIds.filter _)

/-- The condition on the state in which `archive!` starts. -/
def ArchiveSafe (db : Database) (userId : ℕ) (now : Time) : Prop :=
  DetachSafe userId ((db.setArchivedAt userId (some now)).conversationIdsOf userId)
    (db.setArchivedAt userId (some now))

theorem archive!_keysMatch_iff (hdb : ConversationSchema db) (hkeys : KeysMatch db) {now : Time}
    (h : archive! db userId now = .ok db') : KeysMatch db' ↔ ArchiveSafe db userId now := by
  have harchived : ∀ user ∈ (db.setArchivedAt userId (some now)).users,
      user.id = userId → user.archived? = true := by
    intro user huser hid
    rcases mem_updateAll.mp huser with ⟨old, -, -, rfl⟩ | ⟨-, hne⟩
    · rfl
    · simp [hid] at hne
  have hschema := setArchivedAt_schema hdb userId (some now)
  have hstart : ∀ id, MatchesAt (db.setArchivedAt userId (some now)) id := keysMatch_iff.mp hkeys
  obtain ⟨hvisited, hothers⟩ := archiveOrDetachAll_matchesAt _ _ _
    (conversationIdsOf_nodup hschema userId) hschema harchived (fun id _ => hstart id)
    (archive!_cases h)
  rw [keysMatch_iff, ArchiveSafe, ← hvisited]
  constructor
  · exact fun hall id _ => hall id
  · intro hall id
    by_cases hid : id ∈ (db.setArchivedAt userId (some now)).conversationIdsOf userId
    · exact hall id hid
    · exact (hothers id hid).mpr (hstart id)

/-! ## The requested members -/

/-- Where keys match, `find_or_create_for!` on existing users returns a conversation whose
members are exactly those users. -/
theorem findOrCreateFor!_members {db : Database} (hdb : ConversationSchema db)
    (hkeys : KeysMatch db) (workspace : Workspace) {users : List User} (hne : users ≠ [])
    (husers : ∀ user ∈ users, (db.user? user.id).isSome) :
    ∃ db' conversation, findOrCreateFor! db workspace users = .ok (db', conversation) ∧
      ∀ n, n ∈ db'.memberIds conversation.id ↔ n ∈ users.map (·.id) := by
  unfold findOrCreateFor!
  simp only [memberKeyFor_canonical]
  cases hfound : db.findConversation workspace.id (memberKeyFor (users.map (·.id))) with
  | some found =>
    obtain ⟨hmem, hworkspace, hkey⟩ := findConversation_eq_some hfound
    have hmembers : ∀ n, n ∈ db.memberIds found.id ↔ n ∈ users.map (·.id) :=
      memberKeyFor_eq_iff.mp ((hkeys found hmem).symm.trans hkey)
    by_cases hstatus : found.status = .archived
    · have hvalid : db.validateConversation { found with status := .active } = .ok () := by
        apply validateConversation_eq_ok.mpr
        refine ⟨hdb.keyPresent found hmem, ?_⟩
        intro other hother hid hsame heq
        exact hid (hdb.keyUnique other hother found hmem hsame heq)
      simp only [hstatus, if_true, Database.updateConversation!, hvalid]
      exact ⟨_, _, rfl, hmembers⟩
    · simp only [hstatus, if_false]
      exact ⟨_, _, rfl, hmembers⟩
  | none =>
    have hvalid : db.validateConversation
        { id := db.nextId, workspaceId := workspace.id, cohortId := workspace.cohortId,
          memberKey := memberKeyFor (users.map (·.id)) } = .ok () := by
      apply validateConversation_eq_ok.mpr
      refine ⟨?_, fun other hother _ hsame =>
        findConversation_eq_none hfound other hother hsame⟩
      intro hblank
      exact hne (List.map_eq_nil_iff.mp (memberKeyFor_eq_empty_iff.mp hblank))
    have hall : ∀ userId ∈ canonical (users.map (·.id)), (db.user? userId).isSome := by
      simpa using husers
    have hcreate := createConversation!_eq_ok.mpr ⟨rfl, hvalid, hall, rfl⟩
    refine ⟨_, _, hcreate, ?_⟩
    intro n
    rw [(memberIds_createConversation! hdb hcreate).1, mem_canonical]

/-! ## Call sequences -/

structure NoConversations (db : Database) : Prop where
  userIds : (db.users.map (·.id)).Nodup
  conversations : db.directConversations = []
  members : db.directConversationMembers = []

/-- The condition on the state before a call: archiving re-keys no conversation that
still has another archived member. -/
def ConversationCall.Safe (db : Database) : ConversationCall → Prop
  | .archive userId now => ArchiveSafe db userId now
  | _ => True

theorem NoConversations.schema (h : NoConversations db) : ConversationSchema db := by
  refine ⟨h.userIds, ?_, ?_, ?_, ?_, ?_, ?_⟩ <;> simp [h.conversations, h.members]

theorem perform_keysMatch (hdb : ConversationSchema db) (hkeys : KeysMatch db)
    {call : ConversationCall} (hsafe : call.Safe db) : KeysMatch (call.perform db) := by
  cases call with
  | findOrCreateFor workspace users =>
    simp only [ConversationCall.perform]
    split
    · rename_i h
      exact findOrCreateFor!_keysMatch hdb hkeys h
    · exact hkeys
  | archive userId now =>
    simp only [ConversationCall.perform]
    split
    · rename_i h
      exact (archive!_keysMatch_iff hdb hkeys h).mpr hsafe
    · exact hkeys
  | unarchive userId =>
    simp only [ConversationCall.perform]
    split
    · rename_i h
      rw [unarchive!_cases h]
      exact hkeys
    · exact hkeys

/-- Along every sequence of safe calls, each conversation is stored under the key of its
member rows, so `find_or_create_for!` returns a conversation with exactly the requested
members and nobody else can read it. From such a state a further `archive!` keeps the keys
exactly when it is safe. -/
theorem memberKey_matches_along_safe_calls {db db' : Database} {calls : List ConversationCall}
    (hstart : NoConversations db)
    (hrun : Run (Meeting ConversationCall.Safe (Performs ConversationCall.perform)) db calls db') :
    KeysMatch db' ∧
    (∀ (workspace : Workspace) (users : List User), users ≠ [] →
      (∀ user ∈ users, (db'.user? user.id).isSome) →
      ∃ db'' conversation, findOrCreateFor! db' workspace users = .ok (db'', conversation) ∧
        (∀ n, n ∈ db''.memberIds conversation.id ↔ n ∈ users.map (·.id)) ∧
        ∀ workspaceVisible userId,
          db''.conversationVisibleTo? workspaceVisible conversation.id userId = true →
            userId ∈ users.map (·.id)) ∧
    ∀ userId now db'', archive! db' userId now = .ok db'' →
      (KeysMatch db'' ↔ ArchiveSafe db' userId now) := by
  obtain ⟨hschema, hkeys⟩ : ConversationSchema db' ∧ KeysMatch db' := by
    refine Run.invariant (fun s => ConversationSchema s ∧ KeysMatch s) ?_ hrun ?_
    · rintro s call t ⟨hs, hk⟩ ⟨hsafe, rfl⟩
      exact ⟨perform_schema hs call, perform_keysMatch hs hk hsafe⟩
    · refine ⟨hstart.schema, ?_⟩
      simp [KeysMatch, hstart.conversations]
  refine ⟨hkeys, ?_, fun _ _ _ => archive!_keysMatch_iff hschema hkeys⟩
  intro workspace users hne husers
  obtain ⟨db'', conversation, hcall, hmembers⟩ :=
    findOrCreateFor!_members hschema hkeys workspace hne husers
  refine ⟨db'', conversation, hcall, hmembers, ?_⟩
  intro workspaceVisible userId hvisible
  simp only [Database.conversationVisibleTo?, Bool.and_eq_true, List.contains_iff_mem] at hvisible
  exact (hmembers userId).mp hvisible.2

/-- An active conversation is changed by no call that archives nobody. -/
theorem mem_perform_of_active (hdb : ConversationSchema db)
    (hmem : conversation ∈ db.directConversations) (hactive : conversation.status = .active)
    {call : ConversationCall} (hcall : ∀ userId now, call ≠ .archive userId now) :
    conversation ∈ (call.perform db).directConversations := by
  cases call with
  | findOrCreateFor workspace users =>
    simp only [ConversationCall.perform]
    split
    · rename_i h
      rcases findOrCreateFor!_cases h with
        ⟨found, hfound, rfl, ⟨-, rfl⟩ | ⟨-, rfl⟩⟩ | ⟨-, hcreate⟩
      · exact hmem
      · by_cases hid : conversation.id = found.id
        · obtain rfl : conversation = found := List.inj_on_of_nodup_map hdb.conversationIds hmem
            (findConversation_eq_some hfound).1 hid
          rw [← hactive]
          exact mem_putConversation_self hmem rfl
        · exact mem_putConversation_of_ne hmem hid
      · obtain ⟨rfl, -, -, rfl⟩ := createConversation!_eq_ok.mp hcreate
        exact List.mem_append_left _ hmem
    · exact hmem
  | archive userId now => exact absurd rfl (hcall userId now)
  | unarchive userId =>
    simp only [ConversationCall.perform]
    split
    · rename_i h
      rw [unarchive!_cases h]
      exact hmem
    · exact hmem

theorem returned_conversation (h : findOrCreateFor! db workspace users = .ok (db', conversation)) :
    conversation ∈ db'.directConversations ∧ conversation.workspaceId = workspace.id ∧
      conversation.memberKey = memberKeyFor (users.map (·.id)) ∧
        conversation.status = .active := by
  rcases findOrCreateFor!_cases h with
    ⟨found, hfound, rfl, ⟨hstatus, rfl⟩ | ⟨-, rfl⟩⟩ | ⟨-, hcreate⟩
  · obtain ⟨hmem, hworkspace, hkey⟩ := findConversation_eq_some hfound
    rw [← hstatus]
    exact ⟨hmem, hworkspace, hkey, rfl⟩
  · obtain ⟨hmem, hworkspace, hkey⟩ := findConversation_eq_some hfound
    exact ⟨mem_putConversation_self hmem rfl, hworkspace, hkey, rfl⟩
  · obtain ⟨rfl, -, -, rfl⟩ := createConversation!_eq_ok.mp hcreate
    exact ⟨by simp, rfl, rfl, rfl⟩

/-- As long as nobody is archived, whoever asks for the same users later gets the conversation that
was returned before, and the database stays as it is. -/
theorem same_users_find_same_conversation {db db₁ db₂ db₃ : Database}
    {calls later : List ConversationCall} (hstart : NoConversations db)
    (hrun : Run (Performs ConversationCall.perform) db calls db₁)
    {workspace : Workspace} {users others : List User} {conversation : DirectConversation}
    (h : findOrCreateFor! db₁ workspace users = .ok (db₂, conversation))
    (hlater : Run (Performs ConversationCall.perform) db₂ later db₃)
    (hnobody : ∀ userId now, .archive userId now ∉ later)
    (hsame : ∀ n, n ∈ others.map (·.id) ↔ n ∈ users.map (·.id)) :
    findOrCreateFor! db₃ workspace others = .ok (db₃, conversation) := by
  have hschema : ConversationSchema db₂ := by
    refine findOrCreateFor!_schema (hrun.invariant ConversationSchema ?_ hstart.schema) h
    rintro s call _ hs rfl
    exact perform_schema hs call
  obtain ⟨hmem, hworkspace, hkey, hactive⟩ := returned_conversation h
  obtain ⟨hschema, hmem⟩ : ConversationSchema db₃ ∧ conversation ∈ db₃.directConversations := by
    clear h
    induction hlater with
    | nil => exact ⟨hschema, hmem⟩
    | cons hstep _ ih =>
      obtain rfl := hstep
      simp only [List.mem_cons, not_or] at hnobody
      exact ih (fun userId now => (hnobody userId now).2) (perform_schema hschema _)
        (mem_perform_of_active hschema hmem hactive fun userId now heq =>
          (hnobody userId now).1 heq.symm)
  rw [← memberKeyFor_eq_iff.mpr hsame] at hkey
  have hfind : db₃.findConversation workspace.id (memberKeyFor (others.map (·.id))) =
      some conversation := by
    refine find?_eq_some_of_unique hmem (by simp [hworkspace, hkey]) fun other hother hfound => ?_
    simp only [Bool.and_eq_true, beq_iff_eq] at hfound
    have hid := hschema.keyUnique other hother conversation hmem
      (hfound.1.trans hworkspace.symm) (hfound.2.trans hkey.symm)
    exact List.inj_on_of_nodup_map hschema.conversationIds hother hmem hid
  simp [findOrCreateFor!, memberKeyFor_canonical, hfind, hactive]

/-! ## Concrete sequences -/

def fourUsers : Database :=
  { users := [{ id := 1 }, { id := 2 }, { id := 3 }, { id := 4 }], nextId := 10 }

def usersWithIds (ids : List ℕ) : List User :=
  ids.map fun id => { id }

theorem archiveSafe_of_perform (hdb : ConversationSchema db) (hkeys : KeysMatch db) {now : Time}
    (hok : (archive! db userId now).isOk = true)
    (hafter : KeysMatch (ConversationCall.perform db (.archive userId now))) :
    ArchiveSafe db userId now := by
  simp only [ConversationCall.perform] at hafter
  cases h : archive! db userId now with
  | error failure => simp [h, Except.isOk, Except.toBool] at hok
  | ok db' =>
    rw [h] at hafter
    exact (archive!_keysMatch_iff hdb hkeys h).mp hafter

theorem memberKey_matches_after_archive :
    KeysMatch (ConversationCall.perform
      (ConversationCall.perform fourUsers (.findOrCreateFor { id := 7 } (usersWithIds [1, 2, 3])))
      (.archive 3 100)) := by
  have hstart : NoConversations fourUsers := ⟨by decide, rfl, rfl⟩
  have hcreated := perform_schema hstart.schema
    (.findOrCreateFor { id := 7 } (usersWithIds [1, 2, 3]))
  have hsafe := archiveSafe_of_perform hcreated (by unfold KeysMatch; decide +kernel)
    (show (archive! _ 3 100).isOk = true by decide +kernel) (by unfold KeysMatch; decide +kernel)
  have hrun : Run (Meeting ConversationCall.Safe (Performs ConversationCall.perform)) fourUsers
      [.findOrCreateFor { id := 7 } (usersWithIds [1, 2, 3]), .archive 3 100] _ :=
    .cons ⟨trivial, rfl⟩ (.cons ⟨hsafe, rfl⟩ (.nil _))
  exact (memberKey_matches_along_safe_calls hstart hrun).1

/-- The conversation of users 1 and 2 is found again after another one is created, with the ids in
another order, one of them twice. -/
theorem same_users_find_after_creation : ∃ db db' conversation,
    findOrCreateFor! fourUsers { id := 7 } (usersWithIds [1, 2]) = .ok (db, conversation) ∧
      ConversationCall.perform db (.findOrCreateFor { id := 7 } (usersWithIds [3, 4])) = db' ∧
      findOrCreateFor! db' { id := 7 } (usersWithIds [2, 1, 2]) = .ok (db', conversation) := by
  obtain ⟨db, conversation, h⟩ : ∃ db conversation,
      findOrCreateFor! fourUsers { id := 7 } (usersWithIds [1, 2]) = .ok (db, conversation) :=
    ⟨_, _, rfl⟩
  exact ⟨db, _, conversation, h, rfl, same_users_find_same_conversation ⟨by decide, rfl, rfl⟩
    (.nil _) h (.cons rfl (.nil _)) (by simp) (by simp [usersWithIds])⟩

/-- User 4 is archived while another conversation already has the key `1:2:3`, and keeps
the member row. Archiving user 3 then stores `1:2` for a conversation of 1, 2 and 4. -/
def rekeyingCalls : List ConversationCall :=
  [.findOrCreateFor { id := 7 } (usersWithIds [1, 2, 3, 4]),
    .findOrCreateFor { id := 7 } (usersWithIds [1, 2, 3]), .archive 4 100, .archive 3 200,
    .unarchive 4]

theorem rekeyed_conversation_readable_by_archived_member :
    NoConversations fourUsers ∧
    Run (Performs ConversationCall.perform) fourUsers rekeyingCalls
      (rekeyingCalls.foldl ConversationCall.perform fourUsers) ∧
    ¬ KeysMatch (rekeyingCalls.foldl ConversationCall.perform fourUsers) ∧
    (match findOrCreateFor! (rekeyingCalls.foldl ConversationCall.perform fourUsers) { id := 7 }
        (usersWithIds [1, 2]) with
      | .ok (db, conversation) => db.conversationVisibleTo? true conversation.id 4
      | .error _ => false) = true := by
  refine ⟨⟨by decide, rfl, rfl⟩, run_foldl _ _ _, ?_, ?_⟩
  · unfold KeysMatch
    decide +kernel
  · decide +kernel

end LearningPlatform
