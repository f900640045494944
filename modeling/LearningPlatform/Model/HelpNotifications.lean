import LearningPlatform.Model.HelpRequest
import LearningPlatform.Model.Notifications
import LearningPlatform.Shared.Process

/-! # Notifications of a help request

The requests that create, acknowledge, resolve or cancel one help request. The change of the row is
one transaction under the row lock; the notifications are delivered after it, statement by
statement. -/

namespace LearningPlatform

open Shared

/-! ## Deliveries -/

/-- What the deliveries read from other tables. -/
structure HelpService where
  db : Database
  fullName : ℕ → String

inductive HelpStatement where
  /-- `close_staff_help_notifications`. -/
  | closeStaff
  /-- `update_all` on the notifications of one user. -/
  | close (userId : ℕ)
  /-- `find_or_initialize_by`, and `find_by!` after a conflict. -/
  | find (userId : ℕ) (attributes : NotificationAttributes)
  /-- `save!` of the record that was found or initialized. -/
  | save (userId : ℕ) (attributes : NotificationAttributes) (loaded : Option Notification)
  deriving DecidableEq, Repr

def HelpRequest.notifiable (row : HelpRequest) : Notifiable :=
  .other "HelpRequest" row.id

namespace HelpService

variable (service : HelpService)

def staff? (userId : ℕ) : Bool :=
  (service.db.user? userId).any User.staff?

/-- What staff are told of a new request. -/
def createdNotification (row : HelpRequest) (urgent : Bool) : NotificationAttributes :=
  { actorId := some row.studentId
    notificationType := "help_request"
    title := if urgent then "Urgent student help request" else "Student asked for help"
    body := some (service.fullName row.studentId ++ " · " ++ row.contextLabel)
    path := "/admin/support" }

/-- What the student is told of a changed request. -/
def changedNotification (row : HelpRequest) : NotificationAttributes :=
  let resolved := row.status == .resolved
  { actorId := row.ownerId
    notificationType := "help_request"
    title := if resolved then "Help request resolved" else "Instructor acknowledged your request"
    body := some (
      if resolved then "Review the response for " ++ row.contextLabel
      else (row.ownerId.map service.fullName).getD "Your instructor" ++ " is taking a look")
    path := row.contextPath }

def helpRequestCreated (row : HelpRequest) (urgent : Bool) : List HelpStatement :=
  (service.db.users.filter fun user => !user.archived? && user.staff?).map fun staff =>
    .find staff.id (service.createdNotification row urgent)

def helpRequestChanged (row : HelpRequest) : List HelpStatement :=
  let tell := [.find row.studentId (service.changedNotification row)]
  if row.status = .resolved then .closeStaff :: tell else tell

def helpRequestCanceled (row : HelpRequest) : List HelpStatement :=
  [.closeStaff, .close row.studentId]

/-- The delivery after a call that changed the row. -/
def deliveryOf (row : HelpRequest) : HelpCall → List HelpStatement
  | .acknowledge _ | .resolve _ _ => service.helpRequestChanged row
  | .cancel => helpRequestCanceled row

/-- The table after a statement, and what the statement leaves to do. -/
def execute (notifiable : Notifiable) (now : Time) (table : NotificationTable) :
    HelpStatement → NotificationTable × List HelpStatement
  | .closeStaff => (table.updateWhere (fun row => service.staff? row.userId)
      (Notification.close now), [])
  | .close userId => (table.updateWhere (·.userId == userId) (Notification.close now), [])
  | .find userId attributes =>
    (table, [.save userId attributes (table.find? notifiable userId)])
  | .save userId attributes none =>
    match table.find? notifiable userId with
    | none => (table.insert notifiable userId attributes now, [])
    | some _ => (table, [.find userId attributes])
  | .save _ attributes (some loaded) =>
    (table.updateWhere (·.id == loaded.id) fun current =>
      loaded.update (loaded.assign attributes) current now, [])

end HelpService

/-! ## Calls -/

/-- A request of the controller. -/
inductive HelpNoticeCall where
  | create (request : HelpRequest) (urgent : Bool)
  | updateAsStaff (user : User) (status staffResponse : Option String)
  | updateAsStudent (status : Option String)
  deriving DecidableEq

def HelpNoticeCall.update? : HelpNoticeCall → Option HelpUpdate
  | .create _ _ => none
  | .updateAsStaff user status staffResponse => some (.updateAsStaff user status staffResponse)
  | .updateAsStudent status => some (.updateAsStudent status)

inductive HelpPhase where
  | waiting
  | loaded (call : HelpCall)
  | delivering (statements : List HelpStatement)
  | finished
  | refused (failure : Failure)
  deriving DecidableEq

inductive HelpAction where
  | tick (duration : ℕ)
  | next
  deriving DecidableEq, Repr

/-- The row, once it is created, its notifications and the clock. -/
structure HelpNotices where
  row : Option HelpRequest := none
  notifications : NotificationTable := {}
  now : Time := 0

def HelpRequest.asNew (request : HelpRequest) : HelpRequest :=
  { request with
    status := .opened
    ownerId := none
    acknowledgedAt := none
    resolvedAt := none
    canceledAt := none
    staffResponse := none }

namespace HelpNotices

/-- The request that creates the row. A second one for the same context finds it. -/
def create (desk : HelpNotices) (service : HelpService) (request : HelpRequest) (urgent : Bool) :
    HelpNotices × HelpPhase :=
  match desk.row, request.asNew.errors service.db none with
  | some _, _ => (desk, .finished)
  | none, [] =>
    ({ desk with row := some request.asNew },
      .delivering (service.helpRequestCreated request.asNew urgent))
  | none, errors => (desk, .refused (.recordInvalid errors))

/-- The check of a request on the row that it loads. -/
def load (desk : HelpNotices) (service : HelpService) (row : HelpRequest) (update : HelpUpdate) :
    HelpPhase :=
  match update.load { row, db := service.db, clock := desk.now } with
  | .ok call => .loaded call
  | .error failure => .refused failure

/-- The transaction of a call. -/
def commit (desk : HelpNotices) (service : HelpService) (row : HelpRequest) (call : HelpCall) :
    HelpNotices × HelpPhase :=
  match call.run { row, db := service.db, clock := desk.now } with
  | .error failure => (desk, .refused failure)
  | .ok outcome =>
    ({ desk with row := some outcome.row },
      if outcome.returned then .delivering (service.deliveryOf outcome.row call) else .finished)

def next (service : HelpService) (request : HelpNoticeCall) (desk : HelpNotices) :
    HelpPhase → Option (HelpNotices × HelpPhase)
  | .waiting =>
    match request with
    | .create draft urgent => some (desk.create service draft urgent)
    | request => do some (desk, desk.load service (← desk.row) (← request.update?))
  | .loaded call => do some (desk.commit service (← desk.row) call)
  | .delivering [] => some (desk, .finished)
  | .delivering (statement :: rest) => do
    let row ← desk.row
    let (table, again) :=
      service.execute row.notifiable desk.now desk.notifications statement
    some ({ desk with notifications := table }, .delivering (again ++ rest))
  | .finished | .refused _ => none

def act {ι : Type*} (service : HelpService) (calls : ι → HelpNoticeCall) :
    Processes.Statement ι HelpNotices HelpPhase HelpAction
  | _, .tick duration, desk, phase => some ({ desk with now := desk.now + duration }, phase)
  | i, .next, desk, phase => desk.next service (calls i) phase

end HelpNotices

end LearningPlatform
