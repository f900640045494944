import LearningPlatform.Model.SubmissionWindows
import LearningPlatform.Shared.Assignment
import LearningPlatform.Shared.Run

/-! # Batches of submission windows

The table of windows is a map from cohort, module and week to a row. A batch whose items are all
valid assigns to this map from left to right; one invalid item leaves the table as it was. -/

namespace LearningPlatform

open Shared

/-! ## What an item asks for -/

/-- The week and the close time of an item that passes every check. -/
def RawWindow.assignment (format : TimeFormat) (weekCount : ℤ) (rawWindow : RawWindow) :
    Except WindowFailure (ℤ × Option Time) := do
  let assignment ← rawWindow.read format weekCount
  if assignment.2.all format.storable then .ok assignment else .error .outOfRange

/-- The row of a week, or none for a blank time. -/
def windowEntry (cohort : Cohort) (m : CurriculumModule) (assignment : ℤ × Option Time) :
    WindowKey × Option CohortModuleSubmissionWindow :=
  (windowKey cohort m assignment.1, assignment.2.map fun closeAt =>
    { cohortId := cohort.id, moduleId := m.id, weekNumber := assignment.1,
      submissionsCloseAt := some closeAt })

/-- What the whole request asks for. -/
def Database.windowAssignments (db : Database) (format : TimeFormat) (request : WindowsRequest) :
    Except WindowFailure (Cohort × CurriculumModule × List (ℤ × Option Time)) :=
  match db.windowTarget request with
  | .error failure => .error failure
  | .ok (cohort, m) =>
    match request.rawWindows with
    | none => .error .notAnArray
    | some rawWindows =>
      match rawWindows.mapM (RawWindow.assignment format (db.weekCount m)) with
      | .error failure => .error failure
      | .ok assignments => .ok (cohort, m, assignments)

def Database.WindowsUnique (db : Database) : Prop :=
  (db.submissionWindows.map (·.key)).Nodup

/-- The table as a map. -/
def Database.windowAt (db : Database) : WindowKey → Option CohortModuleSubmissionWindow :=
  rowAt (·.key) db.submissionWindows

/-- The database after one assignment to the map; the index still holds. -/
structure Database.Assigned (db db' : Database)
    (entry : WindowKey × Option CohortModuleSubmissionWindow) : Prop where
  others : db' = { db with submissionWindows := db'.submissionWindows }
  unique : db'.WindowsUnique
  windowAt : db'.windowAt = Function.update db.windowAt entry.1 entry.2

/-! ## One item -/

section Items

variable {db : Database} {format : TimeFormat} {cohort : Cohort} {m : CurriculumModule}
  {weekNumber : ℤ}

theorem submissionWindowFor_eq (db : Database) (cohort : Cohort) (moduleId : ℕ) (weekNumber : ℤ) :
    db.submissionWindowFor cohort moduleId weekNumber =
      db.windowAt (cohort.id, moduleId, weekNumber) := by
  unfold Database.submissionWindowFor Database.windowAt rowAt
  congr 1
  funext window
  rw [Bool.and_assoc]
  rfl

theorem windowCount_le_one (h : db.WindowsUnique) (key : WindowKey) : db.windowCount key ≤ 1 := by
  have hcount := List.nodup_iff_count_le_one.mp h key
  rwa [List.count, List.countP_map] at hcount

theorem windowCount_eq_zero {key : WindowKey} (h : db.windowAt key = none) :
    db.windowCount key = 0 := by
  rw [Database.windowCount, List.countP_eq_zero]
  exact List.find?_eq_none.mp h

theorem windowErrors_eq_nil (hcurriculum : cohort.curriculumId = m.curriculumId)
    (hweek : 1 ≤ weekNumber ∧ weekNumber ≤ db.weekCount m) :
    db.windowErrors cohort m weekNumber false = [] := by
  have hpositive : 0 < weekNumber := by omega
  simp [Database.windowErrors, hcurriculum, hpositive, hweek.2]

/-- Of two assignments to one key the second counts. -/
theorem Database.Assigned.trans {db' db'' : Database} {key : WindowKey}
    {first second : Option CohortModuleSubmissionWindow} (h : db.Assigned db' (key, first))
    (h' : db'.Assigned db'' (key, second)) : db.Assigned db'' (key, second) := by
  refine ⟨?_, h'.unique, ?_⟩
  · rw [h'.others, h.others]
  · rw [h'.windowAt, h.windowAt, Function.update_idem]

theorem Database.Assigned.weekCount {db' : Database}
    {entry : WindowKey × Option CohortModuleSubmissionWindow} (h : db.Assigned db' entry) :
    db'.weekCount m = db.weekCount m := by
  rw [h.others]
  rfl

theorem deleteWindow_assigned (hunique : db.WindowsUnique) (key : WindowKey) :
    db.Assigned { db with submissionWindows := deleteAll (·.key == key) db.submissionWindows }
      (key, none) :=
  ⟨rfl, nodup_map_deleteAll _ _ hunique, rowAt_deleteAll key⟩

theorem RawWindow.week_of_read {rawWindow : RawWindow} {weekCount : ℤ} {closeAt : Option Time}
    (h : rawWindow.read format weekCount = .ok (weekNumber, closeAt)) :
    1 ≤ weekNumber ∧ weekNumber ≤ weekCount := by
  obtain ⟨number, -, h⟩ := bind_eq_ok.mp h
  split at h
  · rename_i hweek
    obtain ⟨parsed, -, h⟩ := bind_eq_ok.mp h
    cases h
    exact hweek
  · cases h

section Week

variable (hunique : db.WindowsUnique) (hcurriculum : cohort.curriculumId = m.curriculumId)
  (hweek : 1 ≤ weekNumber ∧ weekNumber ≤ db.weekCount m)

include hunique hcurriculum hweek

theorem windowErrors_of_unique :
    db.windowErrors cohort m weekNumber
      (decide (1 < db.windowCount (windowKey cohort m weekNumber))) = [] := by
  have hcount := windowCount_le_one hunique (windowKey cohort m weekNumber)
  rw [decide_eq_false (Nat.not_lt.mpr hcount)]
  exact windowErrors_eq_nil hcurriculum hweek

theorem saveWindow!_outOfRange {closeAt : Time} (hstorable : format.storable closeAt = false) :
    db.saveWindow! format cohort m weekNumber closeAt = .error .outOfRange := by
  simp [Database.saveWindow!, windowErrors_of_unique hunique hcurriculum hweek, hstorable]

theorem saveWindow!_assigned {window : CohortModuleSubmissionWindow}
    (hwindow : db.windowAt (windowKey cohort m weekNumber) = some window) {closeAt : Time}
    (hstorable : format.storable closeAt = true) :
    ∃ db', db.saveWindow! format cohort m weekNumber closeAt = .ok db' ∧
      db.Assigned db' (windowEntry cohort m (weekNumber, some closeAt)) := by
  have hkeep : ∀ window : CohortModuleSubmissionWindow,
      { window with submissionsCloseAt := some closeAt }.key = window.key := fun _ => rfl
  refine ⟨{ db with
    submissionWindows := updateAll (·.key == windowKey cohort m weekNumber)
      (fun window => { window with submissionsCloseAt := some closeAt })
      db.submissionWindows }, ?_, rfl, ?_, ?_⟩
  · simp only [Database.saveWindow!, windowErrors_of_unique hunique hcurriculum hweek, hstorable,
      if_true]
  · rw [Database.WindowsUnique, map_updateAll _ hkeep]
    exact hunique
  · rw [Database.windowAt, rowAt_updateAll hkeep hwindow]
    have hkey := key_of_rowAt hwindow
    simp only [CohortModuleSubmissionWindow.key, windowKey, Prod.mk.injEq] at hkey
    obtain ⟨hcohort, hmodule, hnumber⟩ := hkey
    simp only [windowEntry, Option.map_some, hcohort, hmodule, hnumber]
    rfl

theorem createOrFindWindow!_assigned (hnone : db.windowAt (windowKey cohort m weekNumber) = none) :
    ∃ db', db.createOrFindWindow! cohort m weekNumber = .ok db' ∧
      db.Assigned db' (windowKey cohort m weekNumber, some
        { cohortId := cohort.id, moduleId := m.id, weekNumber, submissionsCloseAt := none }) := by
  let window : CohortModuleSubmissionWindow :=
    { cohortId := cohort.id, moduleId := m.id, weekNumber, submissionsCloseAt := none }
  have hnone' : rowAt (·.key) db.submissionWindows window.key = none := hnone
  refine ⟨{ db with submissionWindows := db.submissionWindows ++ [window] }, ?_, rfl, ?_, ?_⟩
  · simp only [Database.createOrFindWindow!, windowCount_eq_zero hnone, Nat.lt_irrefl,
      decide_false, windowErrors_eq_nil hcurriculum hweek, saveUnique, saveUnless]
    rfl
  · have hnew : window.key ∉ db.submissionWindows.map (·.key) := by
      intro hmem
      obtain ⟨other, hother, hkey⟩ := List.mem_map.mp hmem
      exact List.find?_eq_none.mp hnone' other hother (beq_iff_eq.mpr hkey)
    rw [Database.WindowsUnique, List.map_append, List.map_singleton]
    exact List.nodup_append.mpr ⟨hunique, List.nodup_singleton _, fun k hk k' hk' heq =>
      hnew (List.mem_singleton.mp hk' ▸ heq ▸ hk)⟩
  · exact rowAt_append hnone'

theorem writeWindow_assigned {closeAt : Option Time}
    (hstorable : closeAt.all format.storable = true) :
    ∃ db', db.writeWindow format cohort m weekNumber closeAt = .ok db' ∧
      db.Assigned db' (windowEntry cohort m (weekNumber, closeAt)) := by
  simp only [Database.writeWindow, submissionWindowFor_eq]
  cases closeAt with
  | none =>
    cases hwindow : db.windowAt (cohort.id, m.id, weekNumber) with
    | none => exact ⟨db, rfl, rfl, hunique, (Function.update_eq_self_iff.mpr hwindow.symm).symm⟩
    | some window =>
      have hkey : window.key = windowKey cohort m weekNumber := key_of_rowAt hwindow
      refine ⟨_, rfl, ?_⟩
      rw [hkey]
      exact deleteWindow_assigned hunique _
  | some closeAt =>
    cases hwindow : db.windowAt (cohort.id, m.id, weekNumber) with
    | none =>
      obtain ⟨created, hcreated, hassigned⟩ :=
        createOrFindWindow!_assigned hunique hcurriculum hweek hwindow
      obtain ⟨db', hsaved, hassigned'⟩ := saveWindow!_assigned hassigned.unique hcurriculum
        (hassigned.weekCount (m := m) ▸ hweek)
        (by rw [hassigned.windowAt, Function.update_self]) hstorable
      refine ⟨db', ?_, hassigned.trans hassigned'⟩
      rw [hcreated]
      exact hsaved
    | some window => exact saveWindow!_assigned hunique hcurriculum hweek hwindow hstorable

theorem writeWindow_outOfRange {closeAt : Option Time}
    (hstorable : closeAt.all format.storable = false) :
    db.writeWindow format cohort m weekNumber closeAt = .error .outOfRange := by
  simp only [Database.writeWindow, submissionWindowFor_eq]
  cases closeAt with
  | none => cases hstorable
  | some closeAt =>
    cases hwindow : db.windowAt (cohort.id, m.id, weekNumber) with
    | none =>
      obtain ⟨created, hcreated, hassigned⟩ :=
        createOrFindWindow!_assigned hunique hcurriculum hweek hwindow
      rw [hcreated]
      exact saveWindow!_outOfRange hassigned.unique hcurriculum
        (hassigned.weekCount (m := m) ▸ hweek) hstorable
    | some window => exact saveWindow!_outOfRange hunique hcurriculum hweek hstorable

end Week

theorem updateWindow_error (hunique : db.WindowsUnique)
    (hcurriculum : cohort.curriculumId = m.curriculumId) {rawWindow : RawWindow}
    {failure : WindowFailure} (h : rawWindow.assignment format (db.weekCount m) = .error failure) :
    db.updateWindow format cohort m rawWindow = .error failure := by
  unfold RawWindow.assignment at h
  unfold Database.updateWindow
  cases hread : rawWindow.read format (db.weekCount m) with
  | error error =>
    cases hread ▸ h
    rfl
  | ok assignment =>
    simp only [hread, bind, Except.bind] at h ⊢
    split at h
    · cases h
    · rename_i hstorable
      cases h
      exact writeWindow_outOfRange hunique hcurriculum (RawWindow.week_of_read hread)
        (by simpa using hstorable)

theorem updateWindow_assigned (hunique : db.WindowsUnique)
    (hcurriculum : cohort.curriculumId = m.curriculumId) {rawWindow : RawWindow}
    {assignment : ℤ × Option Time}
    (h : rawWindow.assignment format (db.weekCount m) = .ok assignment) :
    ∃ db', db.updateWindow format cohort m rawWindow = .ok db' ∧
      db.Assigned db' (windowEntry cohort m assignment) := by
  obtain ⟨read, hread, h⟩ := bind_eq_ok.mp h
  split at h
  · rename_i hstorable
    cases h
    obtain ⟨db', hwrite, hassigned⟩ :=
      writeWindow_assigned hunique hcurriculum (RawWindow.week_of_read hread) hstorable
    refine ⟨db', ?_, hassigned⟩
    unfold Database.updateWindow
    rw [hread]
    exact hwrite
  · cases h

end Items

/-! ## Batches -/

/-- The database after a batch of assignments. -/
structure Database.AssignedAll (db db' : Database)
    (entries : List (WindowKey × Option CohortModuleSubmissionWindow)) : Prop where
  others : db' = { db with submissionWindows := db'.submissionWindows }
  unique : db'.WindowsUnique
  windowAt : db'.windowAt = assignAll db.windowAt entries

section Batches

variable {db : Database} {format : TimeFormat} {cohort : Cohort} {m : CurriculumModule}
  {rawWindows : List RawWindow}

theorem updateWindows_error (hunique : db.WindowsUnique)
    (hcurriculum : cohort.curriculumId = m.curriculumId) {failure : WindowFailure}
    (h : rawWindows.mapM (RawWindow.assignment format (db.weekCount m)) = .error failure) :
    rawWindows.foldlM (fun db => Database.updateWindow db format cohort m) db =
      .error failure := by
  induction rawWindows generalizing db with
  | nil => cases h
  | cons rawWindow rest ih =>
    rw [List.mapM_cons] at h
    rw [List.foldlM_cons]
    cases hfirst : rawWindow.assignment format (db.weekCount m) with
    | error error =>
      cases hfirst ▸ h
      rw [updateWindow_error hunique hcurriculum hfirst]
      rfl
    | ok assignment =>
      obtain ⟨db', hupdate, hassigned⟩ := updateWindow_assigned hunique hcurriculum hfirst
      rw [hupdate]
      refine ih hassigned.unique ?_
      rw [hassigned.weekCount]
      cases hrest : rest.mapM (RawWindow.assignment format (db.weekCount m)) with
      | error error =>
        rw [hfirst, hrest] at h
        cases h
        rfl
      | ok assignments =>
        rw [hfirst, hrest] at h
        cases h

theorem updateWindows_assigned (hunique : db.WindowsUnique)
    (hcurriculum : cohort.curriculumId = m.curriculumId) {assignments : List (ℤ × Option Time)}
    (h : rawWindows.mapM (RawWindow.assignment format (db.weekCount m)) = .ok assignments) :
    ∃ db', rawWindows.foldlM (fun db => Database.updateWindow db format cohort m) db = .ok db' ∧
      db.AssignedAll db' (assignments.map (windowEntry cohort m)) := by
  induction rawWindows generalizing db assignments with
  | nil =>
    cases h
    exact ⟨db, rfl, rfl, hunique, rfl⟩
  | cons rawWindow rest ih =>
    rw [List.mapM_cons] at h
    obtain ⟨assignment, hfirst, h⟩ := bind_eq_ok.mp h
    obtain ⟨others, hrest, h⟩ := bind_eq_ok.mp h
    cases h
    obtain ⟨db', hupdate, hassigned⟩ := updateWindow_assigned hunique hcurriculum hfirst
    obtain ⟨db'', hloop, hall⟩ := ih hassigned.unique (by rwa [hassigned.weekCount])
    refine ⟨db'', ?_, ?_, hall.unique, ?_⟩
    · rw [List.foldlM_cons, hupdate]
      exact hloop
    · rw [hall.others, hassigned.others]
    · rw [hall.windowAt, hassigned.windowAt, List.map_cons, assignAll_cons]

theorem curriculumId_of_windowTarget {request : WindowsRequest}
    (h : db.windowTarget request = .ok (cohort, m)) : cohort.curriculumId = m.curriculumId := by
  unfold Database.windowTarget at h
  split at h
  · split at h
    · cases h
    · split at h
      · cases h
      · rename_i hfound
        cases h
        have hmodule := List.find?_some hfound
        simp only [Bool.and_eq_true, beq_iff_eq] at hmodule
        exact hmodule.1.symm
  · cases h

end Batches

/-! ## Lessons -/

/-- The week of the lesson has a window with a close time that has passed. -/
def Database.WeekClosed (db : Database) (cohort : Cohort) (lesson : Lesson) (now : Time) : Prop :=
  ∃ week window closeAt, 7 * (week - 1) ≤ lesson.releaseDay ∧ lesson.releaseDay < 7 * week ∧
    db.windowAt (cohort.id, lesson.moduleId, week) = some window ∧
    window.submissionsCloseAt = some closeAt ∧ closeAt ≤ now

theorem closed_forLesson_iff (db : Database) (cohort : Cohort) (lesson : Lesson) (now : Time) :
    (SubmissionWindowStatus.forLesson db cohort lesson now).submissionsClosed = true ↔
      db.WeekClosed cohort lesson now := by
  have hown : ∀ week : ℤ, 7 * (week - 1) ≤ lesson.releaseDay ∧ lesson.releaseDay < 7 * week ↔
      week = SubmissionWindowStatus.weekNumberForReleaseDay lesson.releaseDay := by
    intro week
    unfold SubmissionWindowStatus.weekNumberForReleaseDay
    omega
  have hclosed : ∀ week : ℤ, ∀ window : Option CohortModuleSubmissionWindow,
      (SubmissionWindowStatus.buildStatus week window now).submissionsClosed = true ↔
        ∃ closeAt, window.bind (·.submissionsCloseAt) = some closeAt ∧ closeAt ≤ now := by
    intro week window
    cases hcloseAt : window.bind (·.submissionsCloseAt) with
    | none => simp [SubmissionWindowStatus.buildStatus, hcloseAt]
    | some closeAt => simp [SubmissionWindowStatus.buildStatus, hcloseAt]
  rw [SubmissionWindowStatus.forLesson, hclosed, submissionWindowFor_eq]
  constructor
  · rintro ⟨closeAt, hcloseAt, hpassed⟩
    obtain ⟨window, hwindow, hcloseAt⟩ := Option.bind_eq_some_iff.mp hcloseAt
    obtain ⟨hfrom, hto⟩ := (hown _).mpr rfl
    exact ⟨_, window, closeAt, hfrom, hto, hwindow, hcloseAt, hpassed⟩
  · rintro ⟨week, window, closeAt, hfrom, hto, hwindow, hcloseAt, hpassed⟩
    rw [(hown week).mp ⟨hfrom, hto⟩] at hwindow
    exact ⟨closeAt, Option.bind_eq_some_iff.mpr ⟨window, hwindow, hcloseAt⟩, hpassed⟩

/-! ## Requests -/

/-- What a successful request leaves behind. -/
structure Database.WindowsUpdated (db db' : Database) (cohort : Cohort) (m : CurriculumModule)
    (assignments : List (ℤ × Option Time)) : Prop extends
    db.AssignedAll db' (assignments.map (windowEntry cohort m)) where
  /-- The last item of a week wins; a blank one removes the window. -/
  lastWins : ∀ week assigned, lastAssigned? assignments week = some assigned →
    db'.windowAt (windowKey cohort m week) = (windowEntry cohort m (week, assigned)).2
  unnamed : ∀ window : CohortModuleSubmissionWindow,
    (window.cohortId = cohort.id → window.moduleId = m.id →
      window.weekNumber ∉ assignments.map Prod.fst) →
    (window ∈ db'.submissionWindows ↔ window ∈ db.submissionWindows)
  closed : ∀ cohort lesson now,
    (SubmissionWindowStatus.forLesson db' cohort lesson now).submissionsClosed = true ↔
      db'.WeekClosed cohort lesson now

theorem mem_submissionWindows_iff {db : Database} (hunique : db.WindowsUnique)
    {window : CohortModuleSubmissionWindow} :
    window ∈ db.submissionWindows ↔ db.windowAt window.key = some window := by
  constructor
  · intro hmem
    refine find?_eq_some_of_unique hmem (beq_self_eq_true _) fun other hother hkey => ?_
    exact List.inj_on_of_nodup_map hunique hother hmem (beq_iff_eq.mp hkey)
  · exact mem_of_rowAt

/-- The last item of a week is the last assignment to its key. -/
theorem lastAssigned?_windowEntry (cohort : Cohort) (m : CurriculumModule)
    (assignments : List (ℤ × Option Time)) (week : ℤ) :
    lastAssigned? (assignments.map (windowEntry cohort m)) (windowKey cohort m week) =
      (lastAssigned? assignments week).map fun assigned =>
        (windowEntry cohort m (week, assigned)).2 := by
  induction assignments with
  | nil => rfl
  | cons assignment rest ih =>
    rw [List.map_cons, lastAssigned?_cons, lastAssigned?_cons, ih]
    cases lastAssigned? rest week with
    | some assigned => rfl
    | none =>
      by_cases hweek : assignment.1 = week
      · subst hweek
        simp [windowEntry]
      · simp [windowEntry, windowKey, hweek]

theorem Database.AssignedAll.windowsUpdated {db db' : Database} {cohort : Cohort}
    {m : CurriculumModule} {assignments : List (ℤ × Option Time)} (hunique : db.WindowsUnique)
    (h : db.AssignedAll db' (assignments.map (windowEntry cohort m))) :
    db.WindowsUpdated db' cohort m assignments where
  toAssignedAll := h
  lastWins week assigned hlast := by
    rw [h.windowAt, assignAll_apply, lastAssigned?_windowEntry, hlast]
    rfl
  unnamed window hwindow := by
    rw [mem_submissionWindows_iff h.unique, mem_submissionWindows_iff hunique, h.windowAt,
      assignAll_apply, lastAssigned?_eq_none]
    · rfl
    · intro hmem
      obtain ⟨entry, hentry, hkey⟩ := List.mem_map.mp hmem
      obtain ⟨assignment, hassignment, rfl⟩ := List.mem_map.mp hentry
      simp only [windowEntry, windowKey, CohortModuleSubmissionWindow.key, Prod.mk.injEq] at hkey
      refine hwindow hkey.1.symm hkey.2.1.symm ?_
      rw [← hkey.2.2]
      exact List.mem_map_of_mem hassignment
  closed := closed_forLesson_iff db'

/-- A request either fails with the first error of its checks and changes nothing, or applies its
items from left to right. -/
theorem submission_windows_applied {db : Database} (hunique : db.WindowsUnique)
    (format : TimeFormat) (request : WindowsRequest) (now : Time) :
    (∃ failure, db.windowAssignments format request = .error failure ∧
      db.updateWindows format request now = (db, .error failure)) ∨
    ∃ cohort m assignments db', db.windowAssignments format request = .ok (cohort, m, assignments) ∧
      db.updateWindows format request now =
        (db', .ok (db'.moduleSubmissionWindowsJson cohort m now)) ∧
      db.WindowsUpdated db' cohort m assignments := by
  unfold Database.windowAssignments Database.updateWindows
  cases htarget : db.windowTarget request with
  | error failure => exact .inl ⟨failure, rfl, rfl⟩
  | ok target =>
    obtain ⟨cohort, m⟩ := target
    have hcurriculum := curriculumId_of_windowTarget htarget
    cases request.rawWindows with
    | none => exact .inl ⟨_, rfl, rfl⟩
    | some rawWindows =>
      dsimp only
      cases hitems : rawWindows.mapM (RawWindow.assignment format (db.weekCount m)) with
      | error failure =>
        rw [updateWindows_error hunique hcurriculum hitems]
        exact .inl ⟨failure, rfl, rfl⟩
      | ok assignments =>
        obtain ⟨db', hloop, hall⟩ := updateWindows_assigned hunique hcurriculum hitems
        rw [hloop]
        exact .inr ⟨cohort, m, assignments, db', rfl, rfl, hall.windowsUpdated hunique⟩

/-! ## A module of two weeks -/

namespace SubmissionWindowsExample

def db : Database where
  modules := [{ id := 3, curriculumId := 1 }]
  lessons := [{ id := 10, moduleId := 3 }, { id := 11, moduleId := 3, releaseDay := 8 }]
  cohorts := [{ id := 5, curriculumId := 1 }]
  submissionWindows := [⟨5, 3, 1, some 100⟩, ⟨6, 3, 2, some 50⟩]

/-- A parser that knows two texts. -/
def format : TimeFormat where
  iso8601 text :=
    if text = "2030-07-10T08:00:00Z" then some 1909900800000000
    else if text = "2030-07-17T18:00:00+10:00" then some 1910505600000000
    else none
  storable _ := true

def item (weekNumber : ℤ) (closeAt : String) : RawWindow :=
  .object
    { weekNumber := .param (.int weekNumber), submissionsCloseAt := .param (.str closeAt) }

/-- Week 2 twice, and a blank time for week 1. -/
def request : WindowsRequest where
  currentUser := { id := 1, role := .instructor }
  cohortId := 5
  moduleId := 3
  submissionWindows := .array
    [item 2 "2030-07-10T08:00:00Z", item 1 " ", item 2 "2030-07-17T18:00:00+10:00"]

theorem last_item_of_week_wins :
    (db.updateWindows format request 250).1.submissionWindows =
        [⟨6, 3, 2, some 50⟩, ⟨5, 3, 2, some 1910505600000000⟩] ∧
      ((∃ failure, db.windowAssignments format request = .error failure ∧
          db.updateWindows format request 250 = (db, .error failure)) ∨
        ∃ cohort m assignments db',
          db.windowAssignments format request = .ok (cohort, m, assignments) ∧
          db.updateWindows format request 250 =
            (db', .ok (db'.moduleSubmissionWindowsJson cohort m 250)) ∧
          db.WindowsUpdated db' cohort m assignments) :=
  ⟨by decide, submission_windows_applied (by unfold Database.WindowsUnique; decide) format request
    250⟩

end SubmissionWindowsExample

end LearningPlatform
