import LearningPlatform.Model.HelpRequest
import LearningPlatform.Model.Notifications
import LearningPlatform.Model.Requests
import LearningPlatform.Shared.Process

/-! # Interventions

Staff updates, the cancellation by a restart and the follow-up job on one intervention, statement
by statement. An update checks and changes a copy that it loaded without a lock and writes the
columns that differ from this copy. -/

namespace LearningPlatform

open Shared

/-! ## Rows -/

inductive Severity where
  | normal
  | urgent
  deriving DecidableEq, Repr

inductive Outcome where
  | reEngaged
  | planCompleted
  | supportResolved
  | referred
  | paused
  | withdrawn
  | noChange
  deriving DecidableEq, Repr

structure InterventionRow extends Intervention where
  severity : Severity := .normal
  outcome : Option Outcome := none
  resolutionSummary : Option String := none
  followUpNotifiedAt : Option Time := none
  deriving DecidableEq, Repr

def TriggerType.humanize : TriggerType → String
  | .manual => "Manual"
  | .helpRequest => "Help request"
  | .redo => "Redo"
  | .ungraded => "Ungraded"
  | .inactivity => "Inactivity"
  | .restart => "Restart"
  | .extendedAbsence => "Extended absence"

/-- What the modelled code reads from other tables: the users and the name of the student. -/
structure SupportContext where
  users : List User
  studentName : String

namespace SupportContext

def user? (context : SupportContext) (id : ℕ) : Option User :=
  context.users.find? (·.id == id)

/-- `StaffRoleValidator` on the user with an id. -/
def staffErrors (context : SupportContext) (label : String) (id : ℕ) : List String :=
  match context.user? id with
  | none => [label ++ " must exist"]
  | some user => LearningPlatform.staffErrors label user

def ownerFor (context : SupportContext) (currentUser : User) : Option ℕ → Except Failure ℕ
  | none => .ok currentUser.id
  | some id => (orNotFound (context.user? id)).map (·.id)

/-- `owner_for(attributes.delete(:owner_id)) if attributes.key?(:owner_id)`. -/
def ownerParam (context : SupportContext) (currentUser : User) (current : ℕ) :
    Option (Option ℕ) → Except Failure ℕ
  | none => .ok current
  | some id => context.ownerFor currentUser id

end SupportContext

/-! ## Saving -/

namespace InterventionRow

def active? (row : InterventionRow) : Bool :=
  row.status.active?

def maintainResolutionState (row : InterventionRow) (now : Time) : InterventionRow :=
  match row.status with
  | .resolved => { row with resolvedAt := row.resolvedAt.or (some now) }
  | .canceled => { row with resolvedAt := row.resolvedAt.or (some now), outcome := none }
  | .open | .contacted | .waitingOnStudent | .monitoring =>
    { row with resolvedAt := none, outcome := none }

/-- The validations of a record whose status and severity are present. The help request and the
evidence of an intervention do not change. -/
def errors (row : InterventionRow) (context : SupportContext) : List String :=
  lengthErrors "Action summary" 2000 (presence row.actionSummary) ++
  lengthErrors "Resolution summary" 2000 (presence row.resolutionSummary) ++
  context.staffErrors "Owner" row.ownerId ++
  context.staffErrors "Created by" row.createdById ++
  errorsIf (row.status == .resolved) (requiredErrors "Outcome" row.outcome.isSome) ++
  errorsIf (row.status == .resolved) (requiredErrors "Resolved at" row.resolvedAt.isSome) ++
  errorsIf row.active? (requiredErrors "Next follow up at" row.nextFollowUpAt.isSome)

/-- `clear_follow_up_notification`, if the due time differs from the loaded one. -/
def clearFollowUpNotification (changed loaded : InterventionRow) : InterventionRow :=
  if changed.nextFollowUpAt = loaded.nextFollowUpAt then changed
  else { changed with followUpNotifiedAt := none }

/-- The record that `update!` is about to write. -/
def prepare (loaded changed : InterventionRow) (context : SupportContext) (now : Time) :
    Except Failure InterventionRow :=
  let changed := changed.maintainResolutionState now
  saveUnless (changed.errors context) (changed.clearFollowUpNotification loaded)

/-- An `UPDATE` of the columns that were changed. -/
def update (loaded changed current : InterventionRow) (now : Time) : InterventionRow :=
  { current with
    status := savedColumn loaded changed current (·.status)
    severity := savedColumn loaded changed current (·.severity)
    ownerId := savedColumn loaded changed current (·.ownerId)
    actionSummary := savedColumn loaded changed current (·.actionSummary)
    nextFollowUpAt := savedColumn loaded changed current (·.nextFollowUpAt)
    outcome := savedColumn loaded changed current (·.outcome)
    resolutionSummary := savedColumn loaded changed current (·.resolutionSummary)
    resolvedAt := savedColumn loaded changed current (·.resolvedAt)
    followUpNotifiedAt := savedColumn loaded changed current (·.followUpNotifiedAt)
    updatedAt := if changed = loaded then current.updatedAt else now }

end InterventionRow

/-! ## `PATCH` -/

/-- `update_params`; a present key holds `some` value, and `some none` is `null`. -/
structure InterventionParams where
  status : Option (Option InterventionStatus) := none
  severity : Option (Option Severity) := none
  ownerId : Option (Option ℕ) := none
  actionSummary : Option (Option String) := none
  nextFollowUpAt : Option (Option Time) := none
  outcome : Option (Option Outcome) := none
  resolutionSummary : Option (Option String) := none
  deriving DecidableEq, Repr

/-- `attributes[...].to_s.strip.presence if attributes.key?(...)`. -/
def strippedParam (param : Option (Option String)) (current : Option String) : Option String :=
  match param with
  | none => current
  | some text => presence (some (strip (text.getD "")))

namespace InterventionRow

/-- `InterventionsController#update` from the attributes to the record that is written. -/
def patch (loaded : InterventionRow) (context : SupportContext) (currentUser : User)
    (params : InterventionParams) (now : Time) : Except Failure InterventionRow := do
  let ownerId ← context.ownerParam currentUser loaded.ownerId params.ownerId
  match params.severity.getD (some loaded.severity), params.status.getD (some loaded.status) with
  | some severity, some status =>
    loaded.prepare
      { loaded with
        status, severity, ownerId
        actionSummary := strippedParam params.actionSummary loaded.actionSummary
        nextFollowUpAt := params.nextFollowUpAt.getD loaded.nextFollowUpAt
        outcome := params.outcome.getD loaded.outcome
        resolutionSummary := strippedParam params.resolutionSummary loaded.resolutionSummary }
      context now
  | severity, status =>
    .error (.recordInvalid
      (requiredErrors "Severity" severity.isSome ++ requiredErrors "Status" status.isSome))

/-! ## Notifications -/

variable (row : InterventionRow)

/-- `intervention_notification_for`. -/
def notification (context : SupportContext) (title : String) (actorId : Option ℕ) :
    NotificationAttributes :=
  { actorId
    notificationType := "intervention"
    title
    body := some (context.studentName ++ " · " ++ row.triggerType.humanize)
    path := "/admin/interventions/" ++ toString row.id }

/-- `intervention_assigned`. -/
def assigned (context : SupportContext) (now : Time) (table : NotificationTable) :
    NotificationTable :=
  table.deliver (.intervention row.id) row.ownerId
    (row.notification context "Student intervention assigned" (some row.createdById)) now

/-- `intervention_follow_up_due`. -/
def followUpDue (context : SupportContext) (now : Time) (table : NotificationTable) :
    NotificationTable :=
  table.deliver (.intervention row.id) row.ownerId
    (row.notification context "Student follow-up due" none) now

/-- The end of `InterventionsController#update`, with the saved record. -/
def afterUpdate (loaded saved : InterventionRow) (context : SupportContext) (now : Time)
    (table : NotificationTable) : NotificationTable :=
  let table :=
    if saved.ownerId = loaded.ownerId then table
    else
      let table := table.updateWhere (·.userId != saved.ownerId) (Notification.close now)
      if saved.active? then saved.assigned context now table else table
  if saved.active? then table else table.updateWhere (fun _ => true) (Notification.close now)

/-! ## The restart and the follow-up job -/

/-- `enrollment.interventions.active.trigger_type_restart`. -/
def previousRestart? : Bool :=
  row.active? && row.triggerType == .restart

/-- `update_all` by id: the status of the row is not looked at. -/
def cancel (now : Time) : InterventionRow :=
  { row with status := .canceled, resolvedAt := some now, updatedAt := now }

/-- The scope `due`. -/
def due? (now : Time) : Bool :=
  row.active? && row.nextFollowUpAt.any (· ≤ now)

/-- `follow_up_notified_at.present? && follow_up_notified_at >= next_follow_up_at`. -/
def notified? : Bool :=
  row.followUpNotifiedAt.any fun notifiedAt => row.nextFollowUpAt.any (· ≤ notifiedAt)

/-- `update!(follow_up_notified_at: now)` on the locked row. -/
def markNotified (context : SupportContext) (jobNow now : Time) :
    Except Failure InterventionRow := do
  let changed ← row.prepare { row with followUpNotifiedAt := some jobNow } context now
  .ok (row.update changed row now)

end InterventionRow

/-! ## Calls -/

inductive InterventionCall where
  | patch (currentUser : User) (params : InterventionParams)
  | restart
  | followUpJob (now : Time)
  deriving DecidableEq, Repr

/-- Where a call is. A run of the job keeps the number of edits before it read the row. -/
inductive InterventionPhase where
  | waiting
  | loaded (copy : InterventionRow)
  | prepared (copy changed : InterventionRow)
  | saved (copy changed : InterventionRow)
  | selected (copy : InterventionRow)
  | listed (copy : InterventionRow) (edits : ℕ)
  | locked (fresh : InterventionRow) (edits : ℕ)
  | ran (edits : ℕ)
  | finished
  | refused (failure : Failure)
  | raised
  deriving DecidableEq

inductive InterventionAction where
  | tick (duration : ℕ)
  | next
  /-- An exception in the transaction of the job rolls it back. -/
  | abort
  deriving DecidableEq, Repr

/-- A commit that matters to the due notifications. -/
inductive FollowUpEvent where
  /-- Staff wrote `next_follow_up_at`. -/
  | staffWrite
  /-- A run of the job committed a due notification while the row was as given. -/
  | notified (row : InterventionRow) (jobNow : Time)
  deriving DecidableEq

/-- The committed row with its notifications, the holder of its row lock and the clock. The code
has no log of commits and no count of edits; they are kept to speak about runs. -/
structure InterventionDesk (ι : Type*) where
  row : InterventionRow
  notifications : NotificationTable := {}
  lock : Option ι := none
  now : Time := 0
  log : List FollowUpEvent := []
  edits : ℕ := 0

namespace InterventionDesk

variable {ι : Type*}

/-- A write of staff, or of a restart. -/
def edit (desk : InterventionDesk ι) (row : InterventionRow) : InterventionDesk ι :=
  { desk with row, edits := if row = desk.row then desk.edits else desk.edits + 1 }

/-- The `UPDATE` of a `PATCH`. -/
def save (desk : InterventionDesk ι) (copy changed : InterventionRow) : InterventionDesk ι :=
  let saved := desk.edit (copy.update changed desk.row desk.now)
  if changed.nextFollowUpAt = copy.nextFollowUpAt then saved
  else { saved with log := .staffWrite :: desk.log }

/-- What a call reads first. -/
def start (desk : InterventionDesk ι) : InterventionCall → InterventionPhase
  | .patch _ _ =>
    if desk.row.active? then .loaded desk.row
    else .refused (.unprocessable "Terminal interventions cannot be reopened")
  | .restart => if desk.row.previousRestart? then .selected desk.row else .finished
  | .followUpJob now =>
    if desk.row.due? now && !desk.row.notified? then .listed desk.row desk.edits
    else .ran desk.edits

/-- The commit of a run of the job that holds the lock. -/
def commitFollowUp (desk : InterventionDesk ι) (context : SupportContext)
    (fresh row : InterventionRow) (jobNow : Time) : InterventionDesk ι :=
  { desk with
    row
    notifications := fresh.followUpDue context desk.now desk.notifications
    lock := none
    log := .notified desk.row jobNow :: desk.log }

/-- The next statement of a call. A statement that writes the row waits for its lock. -/
def next (context : SupportContext) (i : ι) (call : InterventionCall) (desk : InterventionDesk ι) :
    InterventionPhase → Option (InterventionDesk ι × InterventionPhase)
  | .waiting => some (desk, desk.start call)
  | .loaded copy =>
    match call with
    | .patch currentUser params =>
      match copy.patch context currentUser params desk.now with
      | .ok changed => some (desk, .prepared copy changed)
      | .error failure => some (desk, .refused failure)
    | _ => none
  | .prepared copy changed =>
    if desk.lock.isSome then none else some (desk.save copy changed, .saved copy changed)
  | .saved copy changed =>
    some ({ desk with
      notifications := copy.afterUpdate changed context desk.now desk.notifications }, .finished)
  | .selected _ =>
    if desk.lock.isSome then none
    else
      some ({ desk.edit (desk.row.cancel desk.now) with
        notifications := desk.notifications.updateWhere (fun _ => true)
          (Notification.close desk.now) }, .finished)
  | .listed _ edits =>
    match call with
    | .followUpJob jobNow =>
      if desk.lock.isSome then none
      else if desk.row.due? jobNow && !desk.row.notified? then
        some ({ desk with lock := some i }, .locked desk.row edits)
      else some (desk, .ran edits)
    | _ => none
  | .locked fresh edits =>
    match call with
    | .followUpJob jobNow =>
      match fresh.markNotified context jobNow desk.now with
      | .ok row => some (desk.commitFollowUp context fresh row jobNow, .ran edits)
      | .error _ => some ({ desk with lock := none }, .raised)
    | _ => none
  | .ran _ | .finished | .refused _ | .raised => none

def act (context : SupportContext) (calls : ι → InterventionCall) :
    Processes.Statement ι (InterventionDesk ι) InterventionPhase InterventionAction
  | _, .tick duration, desk, phase => some ({ desk with now := desk.now + duration }, phase)
  | i, .next, desk, phase => desk.next context i (calls i) phase
  | _, .abort, desk, .locked _ _ => some ({ desk with lock := none }, .raised)
  | _, .abort, _, _ => none

end InterventionDesk

end LearningPlatform
