import LearningPlatform.Model.CohortSettings

/-! # Concurrent edits of the cohort settings

Every edit writes the whole column from its copy. The keys keep the values of their last writers
if the copy still agrees with the row, outside the edited key, when it is written. -/

namespace LearningPlatform

open Shared

namespace CohortSettings

/-! ## Keys of the column -/

theorem value?_put_self (settings : CohortSettings) (value : SettingValue) :
    (settings.put value).value? value.key = some value := by
  cases value with
  | announcements entries => rfl
  | recordings entries => rfl
  | classResources entries => rfl
  | moduleGithubConfig moduleId config =>
    have hgone : (settings.moduleGithubConfig.filter (·.1 != moduleId)).find?
        (·.1 == moduleId) = none := by
      refine List.find?_eq_none.mpr fun entry hentry => ?_
      simpa using (List.mem_filter.mp hentry).2
    simp [value?, put, SettingValue.key, githubConfig?, List.find?_append, hgone]

theorem githubConfig?_put (settings : CohortSettings) {moduleId otherId : ℕ}
    (hne : otherId ≠ moduleId) (config : ModuleGithubConfig) :
    (settings.put (.moduleGithubConfig moduleId config)).githubConfig? otherId =
      settings.githubConfig? otherId := by
  have hkept : (settings.moduleGithubConfig.filter (·.1 != moduleId)).find? (·.1 == otherId) =
      settings.moduleGithubConfig.find? (·.1 == otherId) := by
    rw [List.find?_filter]
    congr 1
    funext entry
    by_cases hentry : entry.1 = otherId
    · simp [hentry, hne]
    · simp [hentry]
  simp [githubConfig?, put, List.find?_append, hkept, hne.symm]

theorem value?_put_of_ne (settings : CohortSettings) {value : SettingValue} {key : SettingKey}
    (hne : key ≠ value.key) : (settings.put value).value? key = settings.value? key := by
  cases value with
  | announcements entries => cases key <;> first | rfl | exact absurd rfl hne
  | recordings entries => cases key <;> first | rfl | exact absurd rfl hne
  | classResources entries => cases key <;> first | rfl | exact absurd rfl hne
  | moduleGithubConfig moduleId config =>
    cases key with
    | announcements => rfl
    | recordings => rfl
    | classResources => rfl
    | moduleGithubConfig otherId =>
      have hid : otherId ≠ moduleId := fun heq => hne (by rw [heq]; rfl)
      simp only [value?, githubConfig?_put settings hid config]

/-- The settings have the same values outside a key. -/
def AgreeOff (key : SettingKey) (first second : CohortSettings) : Prop :=
  ∀ other, other ≠ key → first.value? other = second.value? other

def keys (settings : CohortSettings) : List SettingKey :=
  [.announcements, .recordings, .classResources] ++
    settings.moduleGithubConfig.map fun entry => .moduleGithubConfig entry.1

theorem value?_of_not_mem_keys {settings : CohortSettings} {key : SettingKey}
    (h : key ∉ settings.keys) : settings.value? key = none := by
  cases key with
  | announcements => simp [keys] at h
  | recordings => simp [keys] at h
  | classResources => simp [keys] at h
  | moduleGithubConfig moduleId =>
    have hnone : settings.moduleGithubConfig.find? (·.1 == moduleId) = none := by
      refine List.find?_eq_none.mpr fun entry hentry hid => h ?_
      refine List.mem_append_right _ (List.mem_map.mpr ⟨entry, hentry, ?_⟩)
      rw [beq_iff_eq.mp hid]
    simp [value?, githubConfig?, hnone]

theorem agreeOff_iff {key : SettingKey} {first second : CohortSettings} :
    AgreeOff key first second ↔ ∀ other ∈ first.keys ++ second.keys, other ≠ key →
      first.value? other = second.value? other := by
  refine ⟨fun h other _ => h other, fun h other hne => ?_⟩
  by_cases hmem : other ∈ first.keys ++ second.keys
  · exact h other hmem hne
  · rw [List.mem_append, not_or] at hmem
    rw [value?_of_not_mem_keys hmem.1, value?_of_not_mem_keys hmem.2]

instance (key : SettingKey) (first second : CohortSettings) :
    Decidable (AgreeOff key first second) :=
  decidable_of_iff _ agreeOff_iff.symm

end CohortSettings

/-! ## Writes -/

theorem CohortEdit.key_of_value? {iso8601 : Time → String} {now : Time} {copy : CohortSettings}
    {edit : CohortEdit} {value : SettingValue} (h : edit.value? iso8601 now copy = some value) :
    value.key = edit.key := by
  cases edit with
  | announcements items => rw [← Option.some.inj h]; rfl
  | recordings items => rw [← Option.some.inj h]; rfl
  | classResources items => rw [← Option.some.inj h]; rfl
  | moduleAccess moduleId requiresGithub repositoryName =>
    simp only [CohortEdit.value?] at h
    split at h
    · cases h
    · rw [← Option.some.inj h]
      rfl

namespace SettingsRow

/-- The value that the last writer of a key has written. -/
def lastWritten? (row : SettingsRow) (key : SettingKey) : Option SettingValue :=
  row.written.reverse.find? (·.key == key)

/-- Every key has the value of its last writer, or the one it had at first. -/
def Current (initial : CohortSettings) (row : SettingsRow) : Prop :=
  ∀ key, row.settings.value? key = (row.lastWritten? key).or (initial.value? key)

theorem lastWritten?_append (row : SettingsRow) (settings : CohortSettings) (value : SettingValue)
    (key : SettingKey) :
    ({ settings, written := row.written ++ [value] } : SettingsRow).lastWritten? key =
      if value.key = key then some value else row.lastWritten? key := by
  by_cases hkey : value.key = key
  · simp [lastWritten?, hkey]
  · simp [lastWritten?, hkey]

theorem Current.update {initial : CohortSettings} {row : SettingsRow} (h : row.Current initial)
    {copy : CohortSettings} {value : SettingValue}
    (hagree : unchangedSetting? copy value = false → row.settings.AgreeOff value.key copy) :
    (row.update copy value).Current initial := by
  unfold SettingsRow.update
  split
  · exact h
  · rename_i hchanged
    intro key
    rw [lastWritten?_append]
    by_cases hkey : value.key = key
    · subst hkey
      rw [if_pos rfl]
      exact copy.value?_put_self value
    · rw [if_neg hkey, ← h key, hagree (by simpa using hchanged) key (Ne.symm hkey)]
      exact copy.value?_put_of_ne (Ne.symm hkey)

/-! ## Runs -/

/-- When an edit is written, the row has outside its key the values that the edit loaded. An edit
that is refused or changes nothing is not written. -/
def UnracedIn (iso8601 : Time → String) (row : SettingsRow) (edit : CohortEdit)
    (action : SettingsAction) : SettingsPhase → Prop
  | .loaded copy => action.accepted = true → ∀ value ∈ edit.value? iso8601 action.now copy,
      unchangedSetting? copy value = false → row.settings.AgreeOff edit.key copy
  | .waiting | .finished => True

instance (iso8601 : Time → String) (row : SettingsRow) (edit : CohortEdit)
    (action : SettingsAction) : ∀ phase, Decidable (row.UnracedIn iso8601 edit action phase)
  | .loaded copy => inferInstanceAs (Decidable (_ → ∀ value ∈ edit.value? iso8601 action.now copy,
      _ → CohortSettings.AgreeOff _ _ _))
  | .waiting | .finished => .isTrue trivial

def Unraced {ι : Type*} (iso8601 : Time → String) (edits : ι → CohortEdit)
    (s : Processes ι SettingsRow SettingsPhase) (step : ι × SettingsAction) : Prop :=
  s.store.UnracedIn iso8601 (edits step.1) step.2 (s.phase step.1)

instance {ι : Type*} (iso8601 : Time → String) (edits : ι → CohortEdit)
    (s : Processes ι SettingsRow SettingsPhase) (step : ι × SettingsAction) :
    Decidable (Unraced iso8601 edits s step) :=
  inferInstanceAs (Decidable (UnracedIn _ _ _ _ _))

/-- Every key of the settings has the value of its last writer, in every state of a run whose
edits all find, outside their keys, the settings that they loaded. -/
theorem settings_keep_last_writes {ι : Type*} [DecidableEq ι] (iso8601 : Time → String)
    (edits : ι → CohortEdit) {s t : Processes ι SettingsRow SettingsPhase}
    {actions : List (ι × SettingsAction)} (hwritten : s.store.written = [])
    (hrun : Run (Meeting (Unraced iso8601 edits) (Fires (Processes.step (act iso8601 edits)))) s
      actions t) : t.store.Current s.store.settings := by
  have hinitial : s.store.Current s.store.settings := by
    intro key
    simp [lastWritten?, hwritten]
  refine hrun.invariant (fun u => u.store.Current s.store.settings) ?_ hinitial
  rintro u ⟨i, action⟩ v hu ⟨hunraced, hfires⟩
  obtain ⟨row, phase, hact, rfl⟩ := Processes.step_eq_some.mp hfires
  cases hphase : u.phase i with
  | waiting =>
    cases hphase ▸ hact
    exact hu
  | finished =>
    cases hphase ▸ hact
  | loaded copy =>
    rw [hphase] at hact
    simp only [Unraced, hphase, UnracedIn] at hunraced
    simp only [act] at hact
    split at hact
    · rename_i haccepted
      split at hact
      · rename_i value hvalue
        cases hact
        have hagree := hunraced haccepted value hvalue
        rw [← CohortEdit.key_of_value? hvalue] at hagree
        exact hu.update hagree
      · cases hact
        exact hu
    · cases hact
      exact hu

/-- Call 0 edits the announcements, call 1 the links and call 2 the settings of module 4. -/
def settingsEdits : ℕ → CohortEdit
  | 0 => .announcements [some { title := .str "Demo day", publishedAt := .str "2026-01-05" }]
  | 1 => .recordings [some { title := .str "Week 1", url := .str "https://video.example/1" }]
  | _ => .moduleAccess 4 (some (.bool true)) none

def settingsDesk : Processes ℕ SettingsRow SettingsPhase where
  store := {}
  phase _ := .waiting

/-- The edits load and write one after the other. -/
theorem settings_edited_in_turn :
    ∃ t, Run (Meeting (Unraced (fun _ => "") settingsEdits) (Fires (Processes.step
        (act (fun _ => "") settingsEdits)))) settingsDesk
        ([0, 0, 1, 1, 2, 2].map fun i => (i, {})) t ∧
      (t.store.settings.announcements.isSome ∧ t.store.settings.recordings.isSome ∧
        t.store.written.length = 3) ∧ t.store.Current {} := by
  have hcheck : (([0, 0, 1, 1, 2, 2].map fun i => (i, {})).foldlM (stepMeeting
      (Unraced (fun _ => "") settingsEdits) (Processes.step (act (fun _ => "") settingsEdits)))
      settingsDesk).any (fun t => decide (t.store.settings.announcements.isSome ∧
        t.store.settings.recordings.isSome ∧ t.store.written.length = 3)) = true := by
    decide +kernel
  obtain ⟨t, ht, hgoal⟩ := exists_of_any_decide hcheck
  have hrun := run_meeting_foldlM ht
  exact ⟨t, hrun, hgoal, settings_keep_last_writes _ settingsEdits rfl hrun⟩

/-- The links are written from a copy that was loaded before the announcements were written, so
the announcements are gone. -/
theorem links_undo_announcements :
    ∃ t, Run (Fires (Processes.step (act (fun _ => "") settingsEdits))) settingsDesk
        ([0, 1, 0, 1].map fun i => (i, {})) t ∧
      t.store.settings.announcements = none ∧
      (t.store.lastWritten? .announcements).isSome = true ∧
      t.phase 0 = .finished ∧ t.phase 1 = .finished :=
  exists_run_of_any_decide (by decide +kernel)

end SettingsRow

end LearningPlatform
