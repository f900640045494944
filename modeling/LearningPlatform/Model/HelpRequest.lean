import LearningPlatform.Model.Params
import LearningPlatform.Shared.Locking

/-! # Help requests

The transitions of one help request. Each of `acknowledge!`, `resolve!` and `cancel!` locks the
row, reloads it and decides on the reloaded status; the controller has looked at an older copy
before. -/

namespace LearningPlatform

open Shared

/-! ## Rows and validations -/

inductive HelpContextType where
  | lesson
  | exercise
  | recording
  deriving DecidableEq, Repr

inductive HelpContextSource where
  | primary
  | legacy
  deriving DecidableEq, Repr

inductive HelpStatus where
  | opened
  | acknowledged
  | resolved
  | canceled
  deriving DecidableEq, Repr

/-- `status_resolved? || status_canceled?`. -/
def HelpStatus.terminal? (status : HelpStatus) : Bool :=
  status == .resolved || status == .canceled

structure HelpRequest where
  id : ℕ
  studentId : ℕ
  cohortId : ℕ
  contextType : HelpContextType := .lesson
  contextSource : HelpContextSource := .primary
  contextId : ℤ := 0
  contextLabel : String
  contextPath : String
  message : String
  status : HelpStatus := .opened
  ownerId : Option ℕ := none
  acknowledgedAt : Option Time := none
  resolvedAt : Option Time := none
  canceledAt : Option Time := none
  staffResponse : Option String := none
  updatedAt : Time := 0
  deriving DecidableEq, Repr

/-- `validates presence: true` on a column that is not a text. -/
def requiredErrors (label : String) (present : Bool) : List String :=
  if present then [] else [label ++ " can't be blank"]

/-- The errors under the condition of an `if:`. -/
def errorsIf (condition : Bool) (errors : List String) : List String :=
  if condition then errors else []

variable (row : HelpRequest)

/-- The validations that do not depend on the status, in the order of the model. -/
def HelpRequest.contextErrors : List String :=
  countErrors "Context" (some row.contextId) ++
  presenceErrors "Context label" (some row.contextLabel) ++
  lengthErrors "Context label" 200 (some row.contextLabel) ++
  presenceErrors "Context path" (some row.contextPath) ++
  lengthErrors "Context path" 500 (some row.contextPath) ++
  presenceErrors "Message" (some row.message) ++
  lengthErrors "Message" 2000 (some row.message) ++
  lengthErrors "Staff response" 2000 (presence row.staffResponse)

/-- The columns that the status requires, with the owner that the record has in memory. -/
def HelpRequest.statusErrors (owner : Option User) : List String :=
  let owned := row.status == .acknowledged || row.status == .resolved
  errorsIf owned (requiredErrors "Owner" owner.isSome) ++
  errorsIf owned (requiredErrors "Acknowledged at" row.acknowledgedAt.isSome) ++
  errorsIf (row.status == .resolved) (presenceErrors "Staff response" row.staffResponse) ++
  errorsIf (row.status == .resolved) (requiredErrors "Resolved at" row.resolvedAt.isSome) ++
  errorsIf (row.status == .canceled) (requiredErrors "Canceled at" row.canceledAt.isSome)

/-- `student_role`, `owner_role`, `student_belongs_to_cohort` and `legacy_only_for_recordings`. -/
def HelpRequest.roleErrors (db : Database) (owner : Option User) : List String :=
  let student := db.user? row.studentId
  errorsIf (student.any fun student => !student.student?) ["Student must be a student"] ++
  errorsIf (owner.any fun owner => !owner.staff?) ["Owner must be staff"] ++
  errorsIf (student.isSome && (db.cohort? row.cohortId).isSome &&
    !db.enrollments.any fun enrollment =>
      enrollment.userId == row.studentId && enrollment.cohortId == row.cohortId)
    ["Cohort must include the student"] ++
  errorsIf (row.contextSource == .legacy && row.contextType != .recording)
    ["Context source legacy is only valid for recordings"]

def HelpRequest.errors (db : Database) (owner : Option User) : List String :=
  errorsIf (db.user? row.studentId).isNone ["Student must exist"] ++
  errorsIf (db.cohort? row.cohortId).isNone ["Cohort must exist"] ++
  row.contextErrors ++ row.statusErrors owner ++ row.roleErrors db owner

def HelpRequest.update! (changed : HelpRequest) (db : Database) (owner : Option User)
    (now : Time) : Except Failure HelpRequest := do
  let row ← saveUnless (changed.errors db owner) { changed with updatedAt := now }
  if owner.all fun owner => (db.user? owner.id).isSome then .ok row
  else .error (.invalidForeignKey "help_requests" "owner_id")

/-! ## Transitions on the reloaded row -/

/-- The row after a call and the value that the call returns. -/
structure HelpOutcome where
  row : HelpRequest
  returned : Bool
  deriving DecidableEq, Repr

def HelpRequest.acknowledge! (db : Database) (staff : User) (now : Time) :
    Except Failure HelpOutcome := do
  if row.status != .opened then .ok { row, returned := false }
  else
    let changed :=
      { row with
        status := .acknowledged
        ownerId := some staff.id
        acknowledgedAt := row.acknowledgedAt.or (some now) }
    .ok { row := ← changed.update! db (some staff) now, returned := true }

def HelpRequest.resolve! (db : Database) (staff : User) (response : Option String) (now : Time) :
    Except Failure HelpOutcome := do
  if row.status.terminal? then .ok { row, returned := false }
  else
    let changed :=
      { row with
        status := .resolved
        ownerId := some staff.id
        acknowledgedAt := row.acknowledgedAt.or (some now)
        resolvedAt := some now
        staffResponse := some (strip (response.getD "")) }
    .ok { row := ← changed.update! db (some staff) now, returned := true }

def HelpRequest.cancel! (db : Database) (now : Time) : Except Failure HelpOutcome := do
  if row.status.terminal? then .ok { row, returned := false }
  else
    let changed := { row with status := .canceled, canceledAt := some now }
    .ok { row := ← changed.update! db (row.ownerId.bind db.user?) now, returned := true }

inductive HelpCall where
  | acknowledge (staff : User)
  | resolve (staff : User) (response : Option String)
  | cancel
  deriving DecidableEq

/-- `resolve!` and `cancel!`. -/
def HelpCall.closes? : HelpCall → Bool
  | .acknowledge _ => false
  | .resolve _ _ | .cancel => true

/-! ## Interleaved calls -/

/-- The committed row, the other tables, and the time. -/
structure HelpDesk where
  row : HelpRequest
  db : Database
  clock : Time

inductive HelpEvent where
  | tick
  /-- Other requests change other tables. -/
  | changeTables (db : Database)

def HelpDesk.environment : HelpEvent → HelpDesk → HelpDesk
  | .tick, desk => { desk with clock := desk.clock + 1 }
  | .changeTables db, desk => { desk with db }

def HelpCall.run (call : HelpCall) (desk : HelpDesk) : Except Failure HelpOutcome :=
  match call with
  | .acknowledge staff => desk.row.acknowledge! desk.db staff desk.clock
  | .resolve staff response => desk.row.resolve! desk.db staff response desk.clock
  | .cancel => desk.row.cancel! desk.db desk.clock

/-- A caller: code that calls a method directly, or the controller. -/
inductive HelpUpdate where
  | direct (call : HelpCall)
  | updateAsStaff (user : User) (status : Option String) (staffResponse : Option String)
  | updateAsStudent (status : Option String)
  deriving DecidableEq

/-- The check of the caller on its copy of the row, and the call that it makes. -/
def HelpUpdate.load (update : HelpUpdate) (desk : HelpDesk) : Except Failure HelpCall :=
  match update with
  | .direct call => .ok call
  | .updateAsStaff user status staffResponse =>
    if desk.row.status.terminal? then
      .error (.unprocessable "Resolved or canceled help requests cannot be changed")
    else if status = some "acknowledged" then .ok (.acknowledge user)
    else if status = some "resolved" then
      if blank? (strip (staffResponse.getD "")) then
        .error (.unprocessable "Add a response before resolving this help request")
      else .ok (.resolve user staffResponse)
    else .error (.unprocessable "Staff can acknowledge or resolve a help request")
  | .updateAsStudent status =>
    if status ≠ some "canceled" then
      .error (.unprocessable "Students can only cancel an open help request")
    else if desk.row.status.terminal? then
      .error (.unprocessable "Only active help requests can be canceled")
    else .ok .cancel

/-- `with_lock` on the one row: every call takes the same lock. -/
def helpProtocol {ι : Type*} (callers : ι → HelpUpdate) :
    LockProtocol ι HelpDesk HelpEvent HelpCall HelpOutcome Unit Failure where
  environment := HelpDesk.environment
  load i desk := (callers i).load desk
  key _ := some ()
  write _ call desk := call.run desk
  draw _ desk := desk
  commit outcome desk := { desk with row := outcome.row }

end LearningPlatform
