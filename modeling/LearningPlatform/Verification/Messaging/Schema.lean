import LearningPlatform.Model.Messaging
import LearningPlatform.Verification.Validations

/-! # Schema constraints of the workspace tables -/

namespace LearningPlatform

open Shared MessagingDatabase

variable {m m' : MessagingDatabase}

/-- Primary and foreign keys, and which workspaces have a cohort or members. -/
structure MessagingSchema (m : MessagingDatabase) : Prop where
  workspaceKeys : Keyed (fun row : WorkspaceRow => row.id) m.workspaces m.nextMessagingId
  types : ∀ workspace ∈ m.workspaces,
    workspace.workspaceType = .community ↔ workspace.cohortId = none
  memberships : ∀ row ∈ m.workspaceMemberships, ∃ workspace ∈ m.workspaces,
    workspace.id = row.workspaceId ∧ workspace.workspaceType = .community
  channels : ∀ channel ∈ m.channels, ∃ workspace ∈ m.workspaces,
    workspace.id = channel.workspaceId

theorem workspace?_eq_some {id : ℕ} {workspace : WorkspaceRow}
    (h : m.workspace? id = some workspace) : workspace ∈ m.workspaces ∧ workspace.id = id :=
  ⟨List.mem_of_find?_eq_some h, by simpa using List.find?_some h⟩

namespace MessagingSchema

theorem congr (h : MessagingSchema m) (hworkspaces : m'.workspaces = m.workspaces)
    (hmemberships : m'.workspaceMemberships = m.workspaceMemberships)
    (hchannels : m'.channels = m.channels) (hnext : m'.nextMessagingId = m.nextMessagingId) :
    MessagingSchema m' := by
  refine ⟨?_, ?_, ?_, ?_⟩
  · rw [hworkspaces, hnext]
    exact h.workspaceKeys
  · rw [hworkspaces]
    exact h.types
  · rw [hmemberships, hworkspaces]
    exact h.memberships
  · rw [hchannels, hworkspaces]
    exact h.channels

variable {workspace : WorkspaceRow}

theorem workspace? (h : MessagingSchema m) (hworkspace : workspace ∈ m.workspaces) :
    m.workspace? workspace.id = some workspace :=
  h.workspaceKeys.find? hworkspace

/-! ## One row -/

theorem insertWorkspace (h : MessagingSchema m) (hid : workspace.id = m.nextMessagingId)
    (hsave : m.insertWorkspace! workspace = .ok m') :
    MessagingSchema m' ∧ workspace ∈ m'.workspaces := by
  obtain ⟨herrors, rfl⟩ := saveUnless_eq_ok.mp hsave
  refine ⟨⟨h.workspaceKeys.append hid, ?_, ?_, ?_⟩, by simp⟩
  · intro row hrow
    rcases List.mem_append.mp hrow with hrow | hrow
    · exact h.types row hrow
    · rw [List.mem_singleton.mp hrow]
      simp only [workspaceErrors, List.append_eq_nil_iff] at herrors
      have htype := herrors.2
      cases hkind : workspace.workspaceType <;> cases hcohort : workspace.cohortId <;>
        simp_all
  · intro row hrow
    obtain ⟨owner, howner, heq⟩ := h.memberships row hrow
    exact ⟨owner, List.mem_append_left _ howner, heq⟩
  · intro channel hchannel
    obtain ⟨owner, howner, heq⟩ := h.channels channel hchannel
    exact ⟨owner, List.mem_append_left _ howner, heq⟩

theorem insertChannel (h : MessagingSchema m) {channel : Channel}
    (hworkspace : workspace ∈ m.workspaces) (hid : workspace.id = channel.workspaceId)
    (hsave : m.insertChannel! channel = .ok m') :
    MessagingSchema m' ∧ m'.workspaces = m.workspaces := by
  obtain ⟨-, rfl⟩ := saveUnless_eq_ok.mp hsave
  refine ⟨⟨h.workspaceKeys.mono (Nat.le_succ _), h.types, h.memberships, ?_⟩, rfl⟩
  intro row hrow
  rcases List.mem_append.mp hrow with hrow | hrow
  · exact h.channels row hrow
  · rw [List.mem_singleton.mp hrow]
    exact ⟨workspace, hworkspace, hid⟩

theorem addMember (h : MessagingSchema m) (hworkspace : workspace ∈ m.workspaces)
    (htype : workspace.workspaceType = .community) (role : MembershipRole) (userId : ℕ) :
    MessagingSchema (m.addMember workspace.id role userId) ∧
      workspace ∈ (m.addMember workspace.id role userId).workspaces := by
  unfold MessagingDatabase.addMember
  split
  · exact ⟨h, hworkspace⟩
  · refine ⟨⟨h.workspaceKeys, h.types, ?_, h.channels⟩, hworkspace⟩
    intro row hrow
    rcases List.mem_append.mp hrow with hrow | hrow
    · exact h.memberships row hrow
    · rw [List.mem_singleton.mp hrow]
      exact ⟨workspace, hworkspace, rfl, htype⟩

theorem foldl_addMember (htype : workspace.workspaceType = .community) (userIds : List ℕ) :
    ∀ {m : MessagingDatabase}, MessagingSchema m → workspace ∈ m.workspaces →
      MessagingSchema
          (userIds.foldl (fun m userId => m.addMember workspace.id .member userId) m) ∧
        workspace ∈ (userIds.foldl
          (fun m userId => m.addMember workspace.id .member userId) m).workspaces := by
  induction userIds with
  | nil => exact fun h hworkspace => ⟨h, hworkspace⟩
  | cons userId userIds ih =>
    intro m h hworkspace
    obtain ⟨hadded, hmem⟩ := h.addMember hworkspace htype .member userId
    exact ih hadded hmem

section

variable (h : MessagingSchema m)

include h

theorem addMembers (hworkspace : workspace ∈ m.workspaces)
    (htype : workspace.workspaceType = .community) {userIds : List ℕ}
    (hsave : m.addMembers! workspace.id userIds = .ok m') :
    MessagingSchema m' ∧ workspace ∈ m'.workspaces := by
  unfold MessagingDatabase.addMembers! at hsave
  split at hsave
  · cases hsave
    exact foldl_addMember htype userIds h hworkspace
  · cases hsave

theorem ensureDefaultChannels (hworkspace : workspace ∈ m.workspaces)
    (hsave : m.ensureDefaultChannels! workspace = .ok m') :
    MessagingSchema m' ∧ m'.workspaces = m.workspaces := by
  unfold MessagingDatabase.ensureDefaultChannels! at hsave
  dsimp only at hsave
  split at hsave
  · cases hsave
    exact ⟨h, rfl⟩
  · exact h.insertChannel hworkspace rfl hsave

theorem deleteMemberships (p : WorkspaceMembership → Bool) :
    MessagingSchema { m with workspaceMemberships := deleteAll p m.workspaceMemberships } :=
  ⟨h.workspaceKeys, h.types, fun row hrow => h.memberships row (mem_deleteAll.mp hrow).1,
    h.channels⟩

theorem replaceWorkspace {old new : WorkspaceRow}
    (hold : old ∈ m.workspaces) (hid : new.id = old.id)
    (htype : new.workspaceType = old.workspaceType) (hcohort : new.cohortId = old.cohortId) :
    MessagingSchema
      { m with workspaces := updateAll (·.id == old.id) (fun _ => new) m.workspaces } := by
  have hreplaced : ∀ row ∈ m.workspaces, (row.id == old.id) = true → row = old :=
    fun row hrow heq => h.workspaceKeys.eq_of_key hrow hold (beq_iff_eq.mp heq)
  refine ⟨h.workspaceKeys.updateAll fun row hrow => ?_, ?_, ?_, ?_⟩
  · rw [hid]
    exact (beq_iff_eq.mp hrow).symm
  · intro row hrow
    rcases mem_updateAll.mp hrow with ⟨-, -, -, rfl⟩ | ⟨hrow, -⟩
    · rw [htype, hcohort]
      exact h.types old hold
    · exact h.types row hrow
  · intro row hrow
    refine exists_mem_updateAll (fun owner howner heq hknown => ?_) (h.memberships row hrow)
    rw [hreplaced owner howner heq] at hknown
    exact ⟨hid.trans hknown.1, htype.trans hknown.2⟩
  · intro channel hchannel
    refine exists_mem_updateAll (fun owner howner heq hknown => ?_) (h.channels channel hchannel)
    rw [hreplaced owner howner heq] at hknown
    exact hid.trans hknown

theorem replaceChannel {old new : Channel} (hold : old ∈ m.channels)
    (hworkspace : new.workspaceId = old.workspaceId) :
    MessagingSchema
      { m with channels := updateAll (·.id == old.id) (fun _ => new) m.channels } := by
  refine ⟨h.workspaceKeys, h.types, h.memberships, ?_⟩
  intro row hrow
  rcases mem_updateAll.mp hrow with ⟨-, -, -, rfl⟩ | ⟨hrow, -⟩
  · rw [hworkspace]
    exact h.channels old hold
  · exact h.channels row hrow

end

end MessagingSchema

/-! ## Requests -/

variable {workspace : WorkspaceRow}

theorem findOrCreateForCohort_schema (h : MessagingSchema m) {cohortId : ℕ} {label : CohortLabel}
    (hsave : m.findOrCreateForCohort! cohortId label = .ok (m', workspace)) :
    MessagingSchema m' ∧ workspace ∈ m'.workspaces := by
  unfold MessagingDatabase.findOrCreateForCohort! at hsave
  split at hsave
  · rename_i found hfound
    cases hsave
    exact ⟨h, List.mem_of_find?_eq_some hfound⟩
  · obtain ⟨m₁, hworkspace, hsave⟩ := bind_eq_ok.mp hsave
    obtain ⟨m₂, hchannel, hsave⟩ := bind_eq_ok.mp hsave
    cases hsave
    obtain ⟨h₁, hmem⟩ := h.insertWorkspace rfl hworkspace
    obtain ⟨h₂, heq⟩ := h₁.ensureDefaultChannels hmem hchannel
    exact ⟨h₂, heq ▸ hmem⟩

variable {choice : WorkspaceChoice} {currentUser : User} {userIds : List ℕ} {id : ℕ}

section

variable (h : MessagingSchema m)

include h

theorem resolveWorkspace_schema (hresolve : m.resolveWorkspace! choice = .ok (m', workspace)) :
    MessagingSchema m' ∧ workspace ∈ m'.workspaces := by
  cases choice with
  | workspace id =>
    obtain ⟨found, hfound, hresolve⟩ := map_eq_ok.mp hresolve
    cases hresolve
    exact ⟨h, (workspace?_eq_some (orNotFound_eq_ok.mp hfound)).1⟩
  | cohort id label =>
    obtain ⟨cohort, -, hresolve⟩ := orNotFound_bind_eq_ok.mp hresolve
    exact findOrCreateForCohort_schema h hresolve
  | missing => cases hresolve

theorem createCommunityWorkspace_schema {slugs : List String} :
    ∀ workspace : WorkspaceRow, workspace.id = m.nextMessagingId →
      workspace.workspaceType = .community →
      m.createCommunityWorkspace! currentUser userIds workspace slugs = .ok m' →
      MessagingSchema m' := by
  induction slugs with
  | nil =>
    intro workspace _ _ hsave
    cases hsave
  | cons slug slugs ih =>
    intro workspace hid htype hsave
    simp only [createCommunityWorkspace!] at hsave
    generalize hslug : ({ workspace with slug } : WorkspaceRow) = attempt at hsave
    have hattempt : attempt.id = workspace.id := by rw [← hslug]
    have hid' : attempt.id = m.nextMessagingId := hattempt.trans hid
    have htype' : attempt.workspaceType = .community := by rw [← hslug, htype]
    split at hsave
    · exact ih attempt hid' htype' hsave
    · obtain ⟨m₁, hinsert, hsave⟩ := bind_eq_ok.mp hsave
      obtain ⟨m₂, hmembers, hsave⟩ := bind_eq_ok.mp hsave
      rw [← hattempt] at hmembers
      obtain ⟨h₁, hmem₁⟩ := h.insertWorkspace hid' hinsert
      obtain ⟨h₂, hmem₂⟩ := h₁.addMember hmem₁ htype' .manager currentUser.id
      obtain ⟨h₃, hmem₃⟩ := h₂.addMembers hmem₂ htype' hmembers
      exact (h₃.ensureDefaultChannels hmem₃ hsave).1

theorem updateWorkspace_schema {params : WorkspaceParams}
    (hsave : m.updateWorkspace currentUser id params = .ok m') : MessagingSchema m' := by
  obtain ⟨-, -, hsave⟩ := bind_eq_ok.mp hsave
  obtain ⟨found, hfound, hsave⟩ := orNotFound_bind_eq_ok.mp hsave
  obtain ⟨-, hsave⟩ := ite_error_eq_ok.mp hsave
  obtain ⟨-, rfl⟩ := saveUnless_eq_ok.mp hsave
  exact h.replaceWorkspace (workspace?_eq_some hfound).1 rfl rfl rfl

theorem createMemberships_schema {workspaceId : ℕ}
    (hsave : m.createMemberships currentUser workspaceId userIds = .ok m') :
    MessagingSchema m' := by
  obtain ⟨-, -, hsave⟩ := bind_eq_ok.mp hsave
  obtain ⟨found, hfound, hsave⟩ := orNotFound_bind_eq_ok.mp hsave
  obtain ⟨htype, hsave⟩ := ite_error_eq_ok.mp hsave
  exact (h.addMembers (workspace?_eq_some hfound).1 (by simpa using htype) hsave).1

theorem destroyMembership_schema {workspaceId userId : ℕ}
    (hsave : m.destroyMembership currentUser workspaceId userId = .ok m') : MessagingSchema m' := by
  obtain ⟨-, -, hsave⟩ := bind_eq_ok.mp hsave
  obtain ⟨found, -, hsave⟩ := orNotFound_bind_eq_ok.mp hsave
  obtain ⟨-, hsave⟩ := ite_error_eq_ok.mp hsave
  split at hsave
  · cases hsave
    exact h.deleteMemberships _
  · cases hsave

theorem createChannel_schema {params : ChannelParams}
    (hsave : m.createChannel currentUser choice params = .ok m') : MessagingSchema m' := by
  obtain ⟨-, -, hsave⟩ := bind_eq_ok.mp hsave
  obtain ⟨⟨m₁, workspace⟩, hresolve, hsave⟩ := bind_eq_ok.mp hsave
  obtain ⟨h₁, hmem⟩ := resolveWorkspace_schema h hresolve
  exact (h₁.insertChannel hmem rfl hsave).1

theorem saveChannel_schema {params : ChannelParams}
    (hsave : m.saveChannel currentUser id params = .ok m') : MessagingSchema m' := by
  obtain ⟨-, -, hsave⟩ := bind_eq_ok.mp hsave
  obtain ⟨found, hfound, hsave⟩ := orNotFound_bind_eq_ok.mp hsave
  obtain ⟨-, rfl⟩ := saveUnless_eq_ok.mp hsave
  exact h.replaceChannel (List.mem_of_find?_eq_some hfound) rfl

theorem createDirectConversation_schema
    (hsave : m.createDirectConversation currentUser choice userIds = .ok m') :
    MessagingSchema m' := by
  obtain ⟨⟨m₁, workspace⟩, hresolve, hsave⟩ := bind_eq_ok.mp hsave
  obtain ⟨h₁, -⟩ := resolveWorkspace_schema h hresolve
  obtain ⟨-, hsave⟩ := ite_error_eq_ok.mp hsave
  obtain ⟨-, hsave⟩ := ite_error_eq_ok.mp hsave
  obtain ⟨-, hsave⟩ := ite_error_eq_ok.mp hsave
  obtain ⟨-, hsave⟩ := ite_error_eq_ok.mp hsave
  obtain ⟨⟨db, conversation⟩, -, hsave⟩ := bind_eq_ok.mp hsave
  cases hsave
  exact h₁.congr rfl rfl rfl rfl

theorem createBlock_schema {blockedUserId : ℕ}
    (hsave : m.createBlock currentUser blockedUserId = .ok m') : MessagingSchema m' := by
  obtain ⟨user, -, hsave⟩ := orNotFound_bind_eq_ok.mp hsave
  obtain ⟨-, hsave⟩ := ite_error_eq_ok.mp hsave
  obtain ⟨-, hsave⟩ := ite_error_eq_ok.mp hsave
  obtain ⟨-, hsave⟩ := ite_error_eq_ok.mp hsave
  split at hsave
  · cases hsave
    exact h
  · cases hsave
    exact h.congr rfl rfl rfl rfl

theorem destroyBlock_schema {blockedUserId : ℕ}
    (hsave : m.destroyBlock currentUser blockedUserId = .ok m') : MessagingSchema m' := by
  unfold MessagingDatabase.destroyBlock at hsave
  split at hsave
  · cases hsave
    exact h.congr rfl rfl rfl rfl
  · cases hsave

theorem createUser_schema {existing : Option ℕ} {role : Option Role}
    (hsave : m.createUser currentUser existing role = .ok m') : MessagingSchema m' := by
  obtain ⟨-, -, hsave⟩ := bind_eq_ok.mp hsave
  split at hsave
  · cases hsave
    exact h.congr rfl rfl rfl rfl
  · cases hsave
    exact h.congr rfl rfl rfl rfl

theorem updateUser_schema {role : Option Role}
    (hsave : m.updateUser currentUser id role = .ok m') : MessagingSchema m' := by
  obtain ⟨-, -, hsave⟩ := bind_eq_ok.mp hsave
  obtain ⟨user, -, hsave⟩ := orNotFound_bind_eq_ok.mp hsave
  cases hsave
  exact h.congr rfl rfl rfl rfl

theorem destroyUser_schema {deletable : Bool} {now : Time}
    (hsave : m.destroyUser currentUser id deletable now = .ok m') : MessagingSchema m' := by
  obtain ⟨-, -, hsave⟩ := bind_eq_ok.mp hsave
  obtain ⟨user, -, hsave⟩ := orNotFound_bind_eq_ok.mp hsave
  obtain ⟨-, hsave⟩ := ite_error_eq_ok.mp hsave
  split at hsave
  · cases hsave
    exact h
  · split at hsave
    · cases hsave
      exact (h.deleteMemberships _).congr rfl rfl rfl rfl
    · obtain ⟨db, -, hsave⟩ := bind_eq_ok.mp hsave
      cases hsave
      exact h.congr rfl rfl rfl rfl

theorem unarchiveUser_schema
    (hsave : m.unarchiveUser currentUser id = .ok m') : MessagingSchema m' := by
  obtain ⟨-, -, hsave⟩ := bind_eq_ok.mp hsave
  obtain ⟨db, -, hsave⟩ := bind_eq_ok.mp hsave
  cases hsave
  exact h.congr rfl rfl rfl rfl

theorem createCohort_schema {params : CohortParams} {label : CohortLabel}
    (hsave : MessagingDatabase.createCohort m currentUser params label = .ok m') :
    MessagingSchema m' := by
  obtain ⟨-, -, hsave⟩ := bind_eq_ok.mp hsave
  obtain ⟨db, -, hsave⟩ := bind_eq_ok.mp hsave
  obtain ⟨⟨m₁, workspace⟩, hcreate, hsave⟩ := bind_eq_ok.mp hsave
  cases hsave
  have hdb : MessagingSchema { m with toDatabase := db } := h.congr rfl rfl rfl rfl
  exact (findOrCreateForCohort_schema hdb hcreate).1

theorem destroyCohort_schema
    (hsave : m.destroyCohort currentUser id = .ok m') : MessagingSchema m' := by
  obtain ⟨-, -, hsave⟩ := bind_eq_ok.mp hsave
  obtain ⟨cohort, -, hsave⟩ := orNotFound_bind_eq_ok.mp hsave
  obtain ⟨-, hsave⟩ := ite_error_eq_ok.mp hsave
  obtain ⟨db, -, hsave⟩ := bind_eq_ok.mp hsave
  cases hsave
  have hkept : ∀ row ∈ m.workspaces,
      ((m.workspaces.filter (·.cohortId == some cohort.id)).map (·.id)).contains row.id = false →
      row ∈ deleteAll (fun row : WorkspaceRow => row.cohortId == some cohort.id) m.workspaces := by
    intro row hrow hnot
    refine mem_deleteAll.mpr ⟨hrow, Bool.eq_false_iff.mpr fun hcohort => ?_⟩
    have hmem : row.id ∈ (m.workspaces.filter (·.cohortId == some cohort.id)).map (·.id) :=
      List.mem_map_of_mem (List.mem_filter.mpr ⟨hrow, hcohort⟩)
    exact Bool.eq_false_iff.mp hnot (List.contains_iff_mem.mpr hmem)
  refine ⟨h.workspaceKeys.deleteAll _,
    fun row hrow => h.types row (mem_deleteAll.mp hrow).1, ?_, ?_⟩
  · intro row hrow
    obtain ⟨hrow, hnot⟩ := mem_deleteAll.mp hrow
    obtain ⟨owner, howner, hid, htype⟩ := h.memberships row hrow
    exact ⟨owner, hkept owner howner (hid ▸ hnot), hid, htype⟩
  · intro channel hchannel
    obtain ⟨hchannel, hnot⟩ := mem_deleteAll.mp hchannel
    obtain ⟨owner, howner, hid⟩ := h.channels channel hchannel
    exact ⟨owner, hkept owner howner (hid ▸ (Bool.or_eq_false_iff.mp hnot).1), hid⟩

theorem execute_schema {request : MessagingRequest}
    (hexecute : request.execute m = .ok m') : MessagingSchema m' := by
  cases request with
  | createWorkspace currentUser params slugs userIds =>
    obtain ⟨-, -, hsave⟩ := bind_eq_ok.mp hexecute
    exact createCommunityWorkspace_schema h _ rfl rfl hsave
  | updateWorkspace => exact updateWorkspace_schema h hexecute
  | createMemberships => exact createMemberships_schema h hexecute
  | destroyMembership => exact destroyMembership_schema h hexecute
  | createChannel => exact createChannel_schema h hexecute
  | updateChannel => exact saveChannel_schema h hexecute
  | destroyChannel => exact saveChannel_schema h hexecute
  | createDirectConversation => exact createDirectConversation_schema h hexecute
  | createBlock => exact createBlock_schema h hexecute
  | destroyBlock => exact destroyBlock_schema h hexecute
  | createUser => exact createUser_schema h hexecute
  | updateUser => exact updateUser_schema h hexecute
  | destroyUser => exact destroyUser_schema h hexecute
  | unarchiveUser => exact unarchiveUser_schema h hexecute
  | createCohort => exact createCohort_schema h hexecute
  | destroyCohort => exact destroyCohort_schema h hexecute
  | platform request =>
    obtain ⟨db, -, rfl⟩ := map_eq_ok.mp hexecute
    exact h.congr rfl rfl rfl rfl

theorem MessagingRequest.perform_schema (request : MessagingRequest) :
    MessagingSchema (request.perform m) := by
  unfold MessagingRequest.perform
  split
  · rename_i hexecute
    exact execute_schema h hexecute
  · exact h

end

/-- No workspace, channel or conversation exists yet. -/
def MessagingDatabase.Fresh (m : MessagingDatabase) : Prop :=
  m.workspaces = [] ∧ m.workspaceMemberships = [] ∧ m.channels = [] ∧
    m.directConversations = [] ∧ m.directConversationMembers = []

/-- The states after any requests on a database without workspaces. -/
def MessagingDatabase.Reachable (m : MessagingDatabase) : Prop :=
  ∃ (start : MessagingDatabase) (requests : List MessagingRequest), start.Fresh ∧
    Run (Performs MessagingRequest.perform) start requests m

theorem MessagingDatabase.Fresh.schema (h : m.Fresh) : MessagingSchema m := by
  obtain ⟨hworkspaces, hmemberships, hchannels, -, -⟩ := h
  refine ⟨?_, ?_, ?_, ?_⟩
  · rw [hworkspaces]
    exact .empty _ _
  · simp [hworkspaces]
  · simp [hmemberships]
  · simp [hchannels]

theorem MessagingDatabase.Reachable.schema (h : m.Reachable) : MessagingSchema m := by
  obtain ⟨start, requests, hstart, hrun⟩ := h
  refine hrun.invariant MessagingSchema ?_ hstart.schema
  rintro s request t hs rfl
  exact request.perform_schema hs

end LearningPlatform
