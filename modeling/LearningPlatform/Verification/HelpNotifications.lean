import LearningPlatform.Model.HelpNotifications
import LearningPlatform.Verification.HelpRequest
import LearningPlatform.Verification.Notifications

/-! # Notifications of a closed help request

After a help request is closed no further change of its row starts a delivery, so the last
delivery is that of the closing request if no other was pending when it committed. -/

namespace LearningPlatform

open Shared

/-! ## The delivery of a closing request -/

namespace HelpService

variable {service : HelpService} {row : HelpRequest} {table : NotificationTable} {now : Time}

/-- No staff member has an unread notification. -/
def StaffRead (service : HelpService) (table : NotificationTable) : Prop :=
  ∀ notification ∈ table.rows, service.staff? notification.userId = true →
    notification.readAt.isSome = true

/-- What is left of the delivery after a closed request, with what the table shows by then. -/
inductive Closing (service : HelpService) (row : HelpRequest) (table : NotificationTable) :
    List HelpStatement → Prop where
  | resolved : row.status = .resolved → Closing service row table
      [.closeStaff, .find row.studentId (service.changedNotification row)]
  | staffRead : row.status = .resolved → service.StaffRead table → Closing service row table
      [.find row.studentId (service.changedNotification row)]
  | found : row.status = .resolved → service.StaffRead table → Closing service row table
      [.save row.studentId (service.changedNotification row)
        (table.find? row.notifiable row.studentId)]
  | told {notification : Notification} : row.status = .resolved → service.StaffRead table →
      table.find? row.notifiable row.studentId = some notification →
      notification.Shows (service.changedNotification row) → Closing service row table []
  | canceled : row.status = .canceled → Closing service row table
      [.closeStaff, .close row.studentId]
  | staffClosed : row.status = .canceled → service.StaffRead table → Closing service row table
      [.close row.studentId]
  | closed : row.status = .canceled → service.StaffRead table →
      (∀ notification ∈ table.rows, notification.userId = row.studentId →
        notification.readAt.isSome = true) → Closing service row table []

theorem staffRead_closeStaff (service : HelpService) (table : NotificationTable) (now : Time) :
    service.StaffRead (table.updateWhere (fun row => service.staff? row.userId)
      (Notification.close now)) := by
  intro notification hmem hstaff
  rcases mem_updateAll.mp hmem with ⟨old, -, -, rfl⟩ | ⟨-, hother⟩
  · rfl
  · cases hstaff ▸ hother

theorem StaffRead.close (h : service.StaffRead table) (p : Notification → Bool) (now : Time) :
    service.StaffRead (table.updateWhere p (Notification.close now)) := by
  intro notification hmem hstaff
  rcases mem_updateAll.mp hmem with ⟨old, -, -, rfl⟩ | ⟨hold, -⟩
  · rfl
  · exact h notification hold hstaff

theorem StaffRead.insert (h : service.StaffRead table) {userId : ℕ}
    (huser : service.staff? userId = false) (notifiable : Notifiable)
    (attributes : NotificationAttributes) (now : Time) :
    service.StaffRead (table.insert notifiable userId attributes now) := by
  intro notification hmem hstaff
  rcases List.mem_append.mp hmem with hold | hnew
  · exact h notification hold hstaff
  · obtain rfl := List.mem_singleton.mp hnew
    rw [show service.staff? userId = true from hstaff] at huser
    cases huser

theorem StaffRead.update (h : service.StaffRead table) (hsound : table.Sound)
    {loaded : Notification} (hloaded : loaded ∈ table.rows)
    (huser : service.staff? loaded.userId = false) (attributes : NotificationAttributes)
    (now : Time) :
    service.StaffRead (table.updateWhere (·.id == loaded.id) fun current =>
      loaded.update (loaded.assign attributes) current now) := by
  intro notification hmem hstaff
  rcases mem_updateAll.mp hmem with ⟨old, hold, hid, rfl⟩ | ⟨hold, -⟩
  · obtain rfl := hsound.eq_of_key hold hloaded (beq_iff_eq.mp hid)
    rw [show service.staff? old.userId = true from hstaff] at huser
    cases huser
  · exact h notification hold hstaff

theorem Closing.execute {statement : HelpStatement} {rest : List HelpStatement}
    (h : service.Closing row table (statement :: rest)) (hsound : table.Sound)
    (hstudent : service.staff? row.studentId = false) (now : Time) :
    service.Closing row (service.execute row.notifiable now table statement).1
      ((service.execute row.notifiable now table statement).2 ++ rest) := by
  cases h with
  | resolved hstatus => exact .staffRead hstatus (service.staffRead_closeStaff table now)
  | staffRead hstatus hread => exact .found hstatus hread
  | found hstatus hread =>
    cases hfound : table.find? row.notifiable row.studentId with
    | none =>
      simp only [HelpService.execute, hfound]
      exact .told hstatus (hread.insert hstudent _ _ now)
        (NotificationTable.find?_insert hfound _ now) (NotificationAttributes.toRow_shows ..)
    | some loaded =>
      have huser := (NotificationTable.find?_key hfound).2
      exact .told hstatus (hread.update hsound (List.mem_of_find?_eq_some hfound)
        (huser ▸ hstudent) _ now) (NotificationTable.find?_update hfound _ now)
        (loaded.update_shows _ now)
  | canceled hstatus => exact .staffClosed hstatus (service.staffRead_closeStaff table now)
  | staffClosed hstatus hread =>
    refine .closed hstatus (hread.close _ now) fun notification hmem huser => ?_
    rcases mem_updateAll.mp hmem with ⟨old, -, -, rfl⟩ | ⟨-, hother⟩
    · rfl
    · simp [huser] at hother

theorem execute_sound (hsound : table.Sound) (service : HelpService) (notifiable : Notifiable)
    (now : Time) (statement : HelpStatement) :
    (service.execute notifiable now table statement).1.Sound := by
  cases statement with
  | closeStaff => exact hsound.updateAll fun _ _ => rfl
  | close userId => exact hsound.updateAll fun _ _ => rfl
  | find userId attributes => exact hsound
  | save userId attributes loaded =>
    cases loaded with
    | some loaded => exact hsound.updateAll fun _ _ => rfl
    | none =>
      simp only [execute]
      split
      · exact hsound.append rfl
      · exact hsound

end HelpService

/-! ## Transactions -/

/-- What a call that returns has done to the row. -/
structure HelpCall.Transition (call : HelpCall) (row : HelpRequest) (outcome : HelpOutcome) :
    Prop where
  studentId : outcome.row.studentId = row.studentId
  returned : outcome.returned = true → row.status.terminal? = false ∧
    outcome.row.status = call.target
  kept : outcome.returned = false → outcome.row = row

theorem HelpCall.transition_of_run {call : HelpCall} {desk : HelpDesk} {outcome : HelpOutcome}
    (h : call.run desk = .ok outcome) : call.Transition desk.row outcome := by
  rcases run_eq_ok h with ⟨-, rfl⟩ | ⟨happlies, hreturned, hstatus, hstudent, -⟩
  · exact ⟨rfl, nofun, fun _ => rfl⟩
  · refine ⟨hstudent, fun _ => ⟨terminal?_of_applies? happlies, hstatus⟩, fun hkept => ?_⟩
    cases hreturned ▸ hkept

theorem HelpService.closing_deliveryOf {service : HelpService} {row : HelpRequest}
    {table : NotificationTable} {call : HelpCall} (hcloses : call.closes? = true)
    (hstatus : row.status = call.target) :
    service.Closing row table (service.deliveryOf row call) := by
  cases call with
  | acknowledge staff => cases hcloses
  | resolve staff response =>
    have hresolved : row.status = .resolved := hstatus
    simp only [deliveryOf, helpRequestChanged, if_pos hresolved]
    exact .resolved hresolved
  | cancel => exact .canceled hstatus

/-! ## Runs -/

namespace HelpPhase

def delivering? : HelpPhase → Bool
  | .delivering _ => true
  | _ => false

/-- The next statement of the request is the transaction of `resolve!` or `cancel!`. -/
def closing? : HelpPhase → Bool
  | .loaded call => call.closes?
  | _ => false

end HelpPhase

section Runs

variable {ι : Type*} {service : HelpService} {calls : ι → HelpNoticeCall}
  {s : Processes ι HelpNotices HelpPhase}

/-- An open request is closed only while no other request has notifications to deliver. -/
def ClosesAlone (s : Processes ι HelpNotices HelpPhase) (step : ι × HelpAction) : Prop :=
  step.2 = .next → (s.phase step.1).closing? = true →
    (s.store.row.any (·.status.terminal?)) = false →
    ∀ j, j ≠ step.1 → (s.phase j).delivering? = false

instance [Fintype ι] [DecidableEq ι] (s : Processes ι HelpNotices HelpPhase)
    (step : ι × HelpAction) : Decidable (ClosesAlone s step) :=
  inferInstanceAs (Decidable (_ → _))

/-- One request at most delivers, and these are its statements. -/
def Delivers (s : Processes ι HelpNotices HelpPhase) (statements : List HelpStatement) : Prop :=
  (∃ i, s.phase i = .delivering statements ∧ ∀ j, j ≠ i → (s.phase j).delivering? = false) ∨
    statements = [] ∧ ∀ j, (s.phase j).delivering? = false

/-- A closed request has what the closing delivery has not yet left to do. -/
structure HelpClosed (service : HelpService) (s : Processes ι HelpNotices HelpPhase) : Prop where
  sound : s.store.notifications.Sound
  student : ∀ row ∈ s.store.row, service.staff? row.studentId = false
  closing : ∀ row ∈ s.store.row, row.status.terminal? = true →
    ∃ statements, service.Closing row s.store.notifications statements ∧ Delivers s statements

variable [DecidableEq ι] {i : ι} {desk : HelpNotices} {phase : HelpPhase}
  {statements : List HelpStatement}

namespace Delivers

/-- The statements of a delivering request are those of the one delivery. -/
theorem eq_of_delivering (h : Delivers s statements) {statements' : List HelpStatement}
    (hphase : s.phase i = .delivering statements') :
    statements = statements' ∧ ∀ j, j ≠ i → (s.phase j).delivering? = false := by
  rcases h with ⟨k, hk, halone⟩ | ⟨-, hnone⟩
  · by_cases hki : k = i
    · subst hki
      exact ⟨HelpPhase.delivering.inj (hk.symm.trans hphase), halone⟩
    · have hidle := halone i (Ne.symm hki)
      cases hphase ▸ hidle
  · have hidle := hnone i
    cases hphase ▸ hidle

theorem delivering?_setPhase {j : ι} (hself : j = i → phase.delivering? = false)
    (hother : j ≠ i → (s.phase j).delivering? = false) :
    ((s.setPhase i desk phase).phase j).delivering? = false := by
  by_cases hji : j = i
  · subst hji
    rw [s.phase_setPhase_self]
    exact hself rfl
  · rw [s.phase_setPhase_of_ne hji]
    exact hother hji

theorem setPhase_idle (h : Delivers s statements) (hold : (s.phase i).delivering? = false)
    (hphase : phase.delivering? = false) : Delivers (s.setPhase i desk phase) statements := by
  rcases h with ⟨k, hk, halone⟩ | ⟨hnil, hnone⟩
  · have hki : k ≠ i := by
      rintro rfl
      cases hk ▸ hold
    refine .inl ⟨k, (s.phase_setPhase_of_ne hki ..).trans hk, fun j hjk => ?_⟩
    exact delivering?_setPhase (fun _ => hphase) fun _ => halone j hjk
  · exact .inr ⟨hnil, fun j => delivering?_setPhase (fun _ => hphase) fun _ => hnone j⟩

theorem setPhase_delivering (halone : ∀ j, j ≠ i → (s.phase j).delivering? = false) :
    Delivers (s.setPhase i desk (.delivering statements)) statements := by
  refine .inl ⟨i, s.phase_setPhase_self .., fun j hji => ?_⟩
  exact delivering?_setPhase (fun hself => absurd hself hji) (halone j)

theorem setPhase_finished (halone : ∀ j, j ≠ i → (s.phase j).delivering? = false) :
    Delivers (s.setPhase i desk .finished) [] :=
  .inr ⟨rfl, fun j => delivering?_setPhase (fun _ => rfl) (halone j)⟩

end Delivers

namespace HelpClosed

theorem idle (h : HelpClosed service s) (hrow : desk.row = s.store.row)
    (htable : desk.notifications = s.store.notifications)
    (hold : (s.phase i).delivering? = false) (hphase : phase.delivering? = false) :
    HelpClosed service (s.setPhase i desk phase) := by
  refine ⟨?_, ?_, ?_⟩
  · exact htable ▸ h.sound
  · exact hrow ▸ h.student
  · intro row hmem hterminal
    obtain ⟨statements, hclosing, hdelivers⟩ := h.closing row (hrow ▸ hmem) hterminal
    exact ⟨statements, htable.symm ▸ hclosing, hdelivers.setPhase_idle hold hphase⟩

theorem of_open {row : HelpRequest} (hrow : desk.row = some row)
    (hsound : desk.notifications.Sound) (hstudent : service.staff? row.studentId = false)
    (hopen : row.status.terminal? = false) : HelpClosed service (s.setPhase i desk phase) := by
  refine ⟨hsound, ?_, ?_⟩
  · rintro _ hmem
    obtain rfl := Option.some.inj (hrow.symm.trans hmem)
    exact hstudent
  · rintro _ hmem hterminal
    obtain rfl := Option.some.inj (hrow.symm.trans hmem)
    cases hopen ▸ hterminal

end HelpClosed

/-- The validations of a new request ask for a student. -/
theorem HelpRequest.student_of_errors {row : HelpRequest}
    (h : row.errors service.db none = []) : service.staff? row.studentId = false := by
  simp only [errors, List.append_eq_nil_iff, errorsIf_eq_nil] at h
  obtain ⟨⟨⟨⟨hexists, -⟩, -⟩, -⟩, hroles⟩ := h
  simp only [roleErrors, List.append_eq_nil_iff, errorsIf_eq_nil] at hroles
  obtain ⟨⟨⟨hstudent, -⟩, -⟩, -⟩ := hroles
  unfold HelpService.staff?
  cases huser : service.db.user? row.studentId with
  | none => rfl
  | some student =>
    rw [huser] at hstudent
    cases hrole : student.role with
    | student => simp [User.staff?, hrole]
    | _ => simp [User.student?, hrole] at hstudent

theorem HelpClosed.create (h : HelpClosed service s) (hwaiting : s.phase i = .waiting)
    (request : HelpRequest) (urgent : Bool) :
    HelpClosed service (s.setPhase i (s.store.create service request urgent).1
      (s.store.create service request urgent).2) := by
  have hidle : (s.phase i).delivering? = false := by rw [hwaiting]; rfl
  unfold HelpNotices.create
  split
  · exact h.idle rfl rfl hidle rfl
  · rename_i herrors
    exact .of_open rfl h.sound (HelpRequest.student_of_errors herrors) rfl
  · exact h.idle rfl rfl hidle rfl

theorem HelpClosed.commit (h : HelpClosed service s) {call : HelpCall} {row : HelpRequest}
    (hloaded : s.phase i = .loaded call) (hrow : s.store.row = some row)
    (halone : call.closes? = true → row.status.terminal? = false →
      ∀ j, j ≠ i → (s.phase j).delivering? = false) :
    HelpClosed service (s.setPhase i (s.store.commit service row call).1
      (s.store.commit service row call).2) := by
  have hidle : (s.phase i).delivering? = false := by rw [hloaded]; rfl
  unfold HelpNotices.commit
  split
  · exact h.idle rfl rfl hidle rfl
  · rename_i outcome hrun
    have htransition := HelpCall.transition_of_run hrun
    have hstudent : service.staff? outcome.row.studentId = false := by
      rw [htransition.studentId]
      exact h.student row hrow
    cases hreturned : outcome.returned with
    | false =>
      refine h.idle ?_ rfl hidle rfl
      rw [hrow, htransition.kept hreturned]
    | true =>
      obtain ⟨hopen, hstatus⟩ := htransition.returned hreturned
      cases hcloses : call.closes? with
      | false =>
        refine .of_open rfl h.sound hstudent ?_
        rw [hstatus]
        cases call with
        | acknowledge staff => rfl
        | _ => cases hcloses
      | true =>
        refine ⟨h.sound, fun _ hmem => Option.some.inj hmem ▸ hstudent, fun _ hmem _ => ?_⟩
        cases hmem
        exact ⟨_, HelpService.closing_deliveryOf hcloses hstatus,
          Delivers.setPhase_delivering (halone hcloses hopen)⟩

theorem HelpClosed.deliver (h : HelpClosed service s) {row : HelpRequest}
    {statement : HelpStatement} {rest : List HelpStatement}
    (hphase : s.phase i = .delivering (statement :: rest)) (hrow : s.store.row = some row) :
    let result := service.execute row.notifiable s.store.now s.store.notifications statement
    HelpClosed service (s.setPhase i { s.store with notifications := result.1 }
      (.delivering (result.2 ++ rest))) := by
  refine ⟨HelpService.execute_sound h.sound .., h.student, fun other hmem hterminal => ?_⟩
  obtain rfl := Option.some.inj (hrow.symm.trans hmem)
  obtain ⟨statements, hclosing, hdelivers⟩ := h.closing row hrow hterminal
  obtain ⟨rfl, halone⟩ := hdelivers.eq_of_delivering hphase
  exact ⟨_, hclosing.execute h.sound (h.student row hrow) s.store.now,
    Delivers.setPhase_delivering halone⟩

theorem HelpClosed.finish (h : HelpClosed service s) (hphase : s.phase i = .delivering []) :
    HelpClosed service (s.setPhase i s.store .finished) := by
  refine ⟨h.sound, h.student, fun row hmem hterminal => ?_⟩
  obtain ⟨statements, hclosing, hdelivers⟩ := h.closing row hmem hterminal
  obtain ⟨rfl, halone⟩ := hdelivers.eq_of_delivering hphase
  exact ⟨[], hclosing, Delivers.setPhase_finished halone⟩

theorem HelpNotices.load_idle (desk : HelpNotices) (service : HelpService) (row : HelpRequest)
    (update : HelpUpdate) : (desk.load service row update).delivering? = false := by
  unfold load
  split <;> rfl

theorem HelpClosed.start (h : HelpClosed service s) {call : HelpNoticeCall}
    (hwaiting : s.phase i = .waiting)
    (hnext : s.store.next service call .waiting = some (desk, phase)) :
    HelpClosed service (s.setPhase i desk phase) := by
  have hidle : (s.phase i).delivering? = false := by rw [hwaiting]; rfl
  cases call with
  | create request urgent =>
    obtain ⟨rfl, rfl⟩ := Prod.mk.inj (Option.some.inj hnext)
    exact h.create hwaiting request urgent
  | updateAsStaff user status staffResponse =>
    obtain ⟨row, -, hload⟩ := Option.bind_eq_some_iff.mp hnext
    cases hload
    exact h.idle rfl rfl hidle (s.store.load_idle ..)
  | updateAsStudent status =>
    obtain ⟨row, -, hload⟩ := Option.bind_eq_some_iff.mp hnext
    cases hload
    exact h.idle rfl rfl hidle (s.store.load_idle ..)

theorem HelpClosed.act {a : HelpAction} (h : HelpClosed service s) (halone : ClosesAlone s (i, a))
    (hact : HelpNotices.act service calls i a s.store (s.phase i) = some (desk, phase)) :
    HelpClosed service (s.setPhase i desk phase) := by
  cases a with
  | tick duration =>
    cases hact
    rw [s.setPhase_self]
    exact ⟨h.sound, h.student, h.closing⟩
  | next =>
    simp only [HelpNotices.act] at hact
    cases hphase : s.phase i with
    | finished => simp [hphase, HelpNotices.next] at hact
    | refused failure => simp [hphase, HelpNotices.next] at hact
    | waiting =>
      rw [hphase] at hact
      exact h.start hphase hact
    | loaded call =>
      rw [hphase] at hact
      obtain ⟨row, hrow, hcommit⟩ := Option.bind_eq_some_iff.mp hact
      obtain ⟨rfl, rfl⟩ := Prod.mk.inj (Option.some.inj hcommit)
      refine h.commit hphase hrow fun hcloses hopen => halone rfl ?_ ?_
      · rw [hphase]
        exact hcloses
      · rw [hrow]
        exact hopen
    | delivering statements =>
      rw [hphase] at hact
      cases statements with
      | nil =>
        cases hact
        exact h.finish hphase
      | cons statement rest =>
        obtain ⟨row, hrow, hexecute⟩ := Option.bind_eq_some_iff.mp hact
        cases hexecute
        exact h.deliver hphase hrow

/-- In every run in which an open request is closed only while no other request has notifications
to deliver: when nothing is left to deliver and the help request is resolved or canceled, no staff
member has an unread notification for it; the notification of the student tells of the resolution,
or is read if the request is canceled. -/
theorem closed_request_notifications {s t : Processes ι HelpNotices HelpPhase}
    {actions : List (ι × HelpAction)} (hnew : s.store.row = none)
    (hempty : s.store.notifications.rows = [])
    (hrun : Run (Meeting ClosesAlone (Fires (Processes.step (HelpNotices.act service calls))))
      s actions t)
    (hquiet : ∀ i, (t.phase i).delivering? = false) {row : HelpRequest}
    (hrow : t.store.row = some row) :
    (row.status.terminal? = true → ∀ notification ∈ t.store.notifications.rows,
      service.staff? notification.userId = true → notification.readAt.isSome = true) ∧
    (row.status = .resolved → ∃ notification,
      t.store.notifications.find? row.notifiable row.studentId = some notification ∧
        notification.Shows (service.changedNotification row) ∧
        notification.title = "Help request resolved" ∧
        notification.body = some ("Review the response for " ++ row.contextLabel)) ∧
    (row.status = .canceled → ∀ notification ∈ t.store.notifications.rows,
      notification.userId = row.studentId → notification.readAt.isSome = true) := by
  have hclosed : HelpClosed service t := by
    refine hrun.invariant (HelpClosed service) ?_ ?_
    · rintro u ⟨i, a⟩ v hu ⟨halone, hstep⟩
      obtain ⟨desk, phase, hact, rfl⟩ := Processes.step_eq_some.mp hstep
      exact hu.act halone hact
    · refine ⟨?_, by simp [hnew], by simp [hnew]⟩
      unfold NotificationTable.Sound
      rw [hempty]
      exact .empty _ _
  have hend : row.status.terminal? = true →
      service.Closing row t.store.notifications [] := by
    intro hterminal
    obtain ⟨statements, hclosing, ⟨i, hi, -⟩ | ⟨rfl, -⟩⟩ := hclosed.closing row hrow hterminal
    · have hidle := hquiet i
      cases hi ▸ hidle
    · exact hclosing
  refine ⟨fun hterminal => ?_, fun hresolved => ?_, fun hcanceled => ?_⟩
  · cases hend hterminal with
    | told _ hread _ _ => exact hread
    | closed _ hread _ => exact hread
  · cases hend (by rw [hresolved]; rfl) with
    | told _ _ hfound hshows =>
      refine ⟨_, hfound, hshows, ?_, ?_⟩
      · simp [hshows.title, HelpService.changedNotification, hresolved]
      · simp [hshows.body, HelpService.changedNotification, hresolved]
    | closed hcanceled _ _ => simp [hresolved] at hcanceled
  · cases hend (by rw [hcanceled]; rfl) with
    | told hresolved _ _ _ => simp [hcanceled] at hresolved
    | closed _ _ hstudent => exact hstudent

end Runs

/-! ## A request that is resolved at once -/

def helpDesk : HelpService where
  db :=
    { users := [{ id := 1, role := .instructor }, { id := 2 }]
      cohorts := [{ id := 3, curriculumId := 4 }]
      enrollments := [{ id := 5, userId := 2, cohortId := 3 }] }
  fullName _ := "Name"

inductive HelpParty where
  | student
  | instructor
  deriving DecidableEq

instance : Fintype HelpParty where
  elems := {.student, .instructor}
  complete party := by cases party <;> simp

def askAndResolve : HelpParty → HelpNoticeCall
  | .student => .create
      { id := 6, studentId := 2, cohortId := 3, contextLabel := "Loops", contextPath := "/lessons/7"
        message := "Help" } false
  | .instructor =>
    .updateAsStaff { id := 1, role := .instructor } (some "resolved") (some "See chapter 2")

def nothingAsked : Processes HelpParty HelpNotices HelpPhase where
  store := {}
  phase _ := .waiting

/-- The instructor is told before resolving the request. -/
def askThenResolve : List (HelpParty × HelpAction) :=
  List.replicate 4 (.student, .next) ++ List.replicate 6 (.instructor, .next)

/-- The request is resolved between its creation and the delivery to the instructor. -/
def resolveBeforeDelivery : List (HelpParty × HelpAction) :=
  (.student, .next) ::
    (List.replicate 6 (.instructor, .next) ++ List.replicate 3 (.student, .next))

def ResolvedQuietly (t : Processes HelpParty HelpNotices HelpPhase) : Prop :=
  (∀ i, t.phase i = .finished) ∧ t.store.row.any (·.status == .resolved) = true
  deriving Decidable

/-- When the deliveries do not overlap, the instructor has nothing unread. -/
theorem instructor_has_read : ∃ t row,
    Run (Meeting ClosesAlone (Fires (Processes.step (HelpNotices.act helpDesk askAndResolve))))
      nothingAsked askThenResolve t ∧
    t.store.row = some row ∧ row.status = .resolved ∧
    t.store.notifications.rows.length = 2 ∧
    ∀ notification ∈ t.store.notifications.rows,
      helpDesk.staff? notification.userId = true → notification.readAt.isSome = true := by
  have hcheck : (askThenResolve.foldlM (stepMeeting ClosesAlone
      (Processes.step (HelpNotices.act helpDesk askAndResolve))) nothingAsked).any
      (fun t => decide (ResolvedQuietly t ∧ t.store.notifications.rows.length = 2)) = true := by
    decide +kernel
  obtain ⟨t, ht, ⟨hfinished, hresolved⟩, hlength⟩ := exists_of_any_decide hcheck
  obtain ⟨row, hrow, hstatus⟩ := (Option.any_eq_true _ _).mp hresolved
  have hstatus : row.status = .resolved := beq_iff_eq.mp hstatus
  have hrun := run_meeting_foldlM ht
  obtain ⟨hread, -, -⟩ := closed_request_notifications rfl rfl hrun
    (fun i => by rw [hfinished i]; rfl) hrow
  exact ⟨t, row, hrun, hrow, hstatus, hlength, hread (by rw [hstatus]; rfl)⟩

/-- A late delivery leaves the instructor an unread notification of a resolved request. -/
theorem late_delivery_stays_unread : ∃ t,
    Run (Fires (Processes.step (HelpNotices.act helpDesk askAndResolve)))
      nothingAsked resolveBeforeDelivery t ∧
    ResolvedQuietly t ∧
    ∃ notification ∈ t.store.notifications.rows,
      helpDesk.staff? notification.userId = true ∧ notification.readAt = none :=
  exists_run_of_any_decide (by decide +kernel)

end LearningPlatform
