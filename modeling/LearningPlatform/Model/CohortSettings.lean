import LearningPlatform.Model.Params
import LearningPlatform.Shared.Process

/-! # Edits of the cohort settings

`CohortsController#announcements`, `#recordings`, `#class_resources` and the GitHub settings of
`#module_access`. Each loads the cohort, copies its `settings`, changes one key and writes the
whole column. -/

namespace LearningPlatform

open Shared

/-! ## Parameters -/

def Param.blank? : Param → Bool
  | .null => true
  | .bool b => !b
  | .int _ => false
  | .str text => LearningPlatform.blank? text

/-- `to_s.strip`. -/
def Param.stripped (param : Param) : String :=
  strip param.toText

/-- `ActiveModel::Type::Boolean#cast`. -/
def Param.castBoolean : Param → Option Bool
  | .null | .str "" => none
  | .bool b => some b
  | .int n => some (n != 0)
  | .str text => some (["0", "f", "F", "false", "FALSE", "off", "OFF"].contains text).not

/-- The keys that the lists of the settings read; an absent key is `null`. -/
structure SettingItem where
  title : Param := .null
  body : Param := .null
  pinned : Param := .null
  publishedAt : Param := .null
  url : Param := .null
  date : Param := .null
  description : Param := .null
  category : Param := .null
  deriving DecidableEq, Repr

/-! ## Settings -/

structure AnnouncementEntry where
  title : String
  body : String
  pinned : Option Bool
  publishedAt : Param
  deriving DecidableEq, Repr

structure RecordingLink where
  title : String
  url : String
  date : Option String
  description : Option String
  deriving DecidableEq, Repr

structure ClassResource where
  title : String
  url : String
  category : String
  description : Option String
  deriving DecidableEq, Repr

/-- An entry of `module_github_config`; `none` is an absent key. -/
structure ModuleGithubConfig where
  requiresGithub : Option (Option Bool) := none
  repositoryName : Option String := none
  deriving DecidableEq, Repr

/-- The column `settings`. -/
structure CohortSettings where
  announcements : Option (List AnnouncementEntry) := none
  recordings : Option (List RecordingLink) := none
  classResources : Option (List ClassResource) := none
  moduleGithubConfig : List (ℕ × ModuleGithubConfig) := []
  deriving DecidableEq, Repr

inductive SettingKey where
  | announcements
  | recordings
  | classResources
  | moduleGithubConfig (moduleId : ℕ)
  deriving DecidableEq, Repr

/-- A key with its value. -/
inductive SettingValue where
  | announcements (entries : List AnnouncementEntry)
  | recordings (entries : List RecordingLink)
  | classResources (entries : List ClassResource)
  | moduleGithubConfig (moduleId : ℕ) (config : ModuleGithubConfig)
  deriving DecidableEq, Repr

def SettingValue.key : SettingValue → SettingKey
  | .announcements _ => .announcements
  | .recordings _ => .recordings
  | .classResources _ => .classResources
  | .moduleGithubConfig moduleId _ => .moduleGithubConfig moduleId

namespace CohortSettings

def githubConfig? (settings : CohortSettings) (moduleId : ℕ) : Option ModuleGithubConfig :=
  (settings.moduleGithubConfig.find? (·.1 == moduleId)).map (·.2)

def value? (settings : CohortSettings) : SettingKey → Option SettingValue
  | .announcements => settings.announcements.map .announcements
  | .recordings => settings.recordings.map .recordings
  | .classResources => settings.classResources.map .classResources
  | .moduleGithubConfig moduleId =>
    (settings.githubConfig? moduleId).map (.moduleGithubConfig moduleId)

def put (settings : CohortSettings) : SettingValue → CohortSettings
  | .announcements entries => { settings with announcements := some entries }
  | .recordings entries => { settings with recordings := some entries }
  | .classResources entries => { settings with classResources := some entries }
  | .moduleGithubConfig moduleId config =>
    { settings with
      moduleGithubConfig :=
        settings.moduleGithubConfig.filter (·.1 != moduleId) ++ [(moduleId, config)] }

end CohortSettings

/-- `normalize_announcements` of the items of the array; `none` is an item that is not a hash. -/
def normalizeAnnouncements (iso8601 : Time → String) (now : Time)
    (items : List (Option SettingItem)) : List AnnouncementEntry :=
  items.filterMap fun item => item.bind fun item =>
    if item.title.blank? && item.body.blank? then none
    else some
      { title := item.title.stripped
        body := item.body.stripped
        pinned := item.pinned.castBoolean
        publishedAt := if item.publishedAt.blank? then .str (iso8601 now) else item.publishedAt }

def normalizeRecordings (items : List (Option SettingItem)) : List RecordingLink :=
  items.filterMap fun item => item.bind fun item =>
    if item.title.blank? && item.url.blank? then none
    else some
      { title := item.title.stripped
        url := item.url.stripped
        date := presence (some item.date.stripped)
        description := presence (some item.description.stripped) }

def normalizeClassResources (items : List (Option SettingItem)) : List ClassResource :=
  items.filterMap fun item => item.bind fun item =>
    if item.title.blank? && item.url.blank? then none
    else some
      { title := item.title.stripped
        url := item.url.stripped
        category := (presence (some item.category.stripped)).getD "general"
        description := presence (some item.description.stripped) }

/-! ## Edits -/

/-- A request; `none` is a key that the parameters do not have. -/
inductive CohortEdit where
  | announcements (items : List (Option SettingItem))
  | recordings (items : List (Option SettingItem))
  | classResources (items : List (Option SettingItem))
  | moduleAccess (moduleId : ℕ) (requiresGithub repositoryName : Option Param)
  deriving DecidableEq, Repr

namespace CohortEdit

def key : CohortEdit → SettingKey
  | .announcements _ => .announcements
  | .recordings _ => .recordings
  | .classResources _ => .classResources
  | .moduleAccess moduleId _ _ => .moduleGithubConfig moduleId

/-- What the request assigns in its copy, if anything. -/
def value? (iso8601 : Time → String) (now : Time) (copy : CohortSettings) :
    CohortEdit → Option SettingValue
  | .announcements items => some (.announcements (normalizeAnnouncements iso8601 now items))
  | .recordings items => some (.recordings (normalizeRecordings items))
  | .classResources items => some (.classResources (normalizeClassResources items))
  | .moduleAccess moduleId requiresGithub repositoryName =>
    if requiresGithub.isNone && repositoryName.isNone then none
    else
      let config := (copy.githubConfig? moduleId).getD {}
      some (.moduleGithubConfig moduleId
        { requiresGithub := (requiresGithub.map Param.castBoolean).or config.requiresGithub
          repositoryName := (repositoryName.map Param.stripped).or config.repositoryName })

end CohortEdit

/-- Dirty tracking finds no change; it compares the serialized columns. -/
def unchangedSetting? (copy : CohortSettings) (value : SettingValue) : Bool :=
  copy.value? value.key == some value

/-- The column of the row, and the values that were written in the order of their commits. -/
structure SettingsRow where
  settings : CohortSettings := {}
  written : List SettingValue := []
  deriving DecidableEq, Repr

inductive SettingsPhase where
  | waiting
  | loaded (copy : CohortSettings)
  | finished
  deriving DecidableEq, Repr

/-- The next statement of a request. `accepted` says that the cohort is valid and that nothing
else in the request fails. -/
structure SettingsAction where
  now : Time := 0
  accepted : Bool := true
  deriving DecidableEq, Repr

namespace SettingsRow

def update (row : SettingsRow) (copy : CohortSettings) (value : SettingValue) : SettingsRow :=
  if unchangedSetting? copy value then row
  else { settings := copy.put value, written := row.written ++ [value] }

def act {ι : Type*} (iso8601 : Time → String) (edits : ι → CohortEdit) :
    Processes.Statement ι SettingsRow SettingsPhase SettingsAction
  | _, _, row, .waiting => some (row, .loaded row.settings)
  | i, action, row, .loaded copy =>
    if action.accepted then
      match (edits i).value? iso8601 action.now copy with
      | some value => some (row.update copy value, .finished)
      | none => some (row, .finished)
    else some (row, .finished)
  | _, _, _, .finished => none

end SettingsRow

end LearningPlatform
