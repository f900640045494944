import LearningPlatform.Model.Intervention

/-! # Recovery plans

Staff updates of one recovery plan and its cancellation by a restart, statement by statement. -/

namespace LearningPlatform

open Shared

structure RecoveryPlanRow extends RecoveryPlan where
  outcome : Option String := none
  deriving DecidableEq, Repr

/-- `update_params`; a present key holds `some` value, and `some none` is `null`. -/
structure RecoveryPlanParams where
  status : Option (Option PlanStatus) := none
  ownerId : Option (Option ℕ) := none
  targetPace : Option (Option String) := none
  requiredScope : Option (Option String) := none
  optionalScope : Option (Option String) := none
  checkInCadence : Option (Option String) := none
  nextCheckInAt : Option (Option Time) := none
  outcome : Option (Option String) := none
  deriving DecidableEq, Repr

namespace RecoveryPlanRow

def active? (row : RecoveryPlanRow) : Bool :=
  row.status == .active

def maintainCompletionState (row : RecoveryPlanRow) (now : Time) : RecoveryPlanRow :=
  match row.status with
  | .completed | .canceled => { row with completedAt := row.completedAt.or (some now) }
  | .active => { row with completedAt := none }

/-- The validations of a record whose status and next check-in are present. The intervention and
the restart of a plan do not change. -/
def errors (row : RecoveryPlanRow) (context : SupportContext) : List String :=
  row.textErrors ++
  lengthErrors "Outcome" 2000 (presence row.outcome) ++
  context.staffErrors "Owner" row.ownerId ++
  context.staffErrors "Created by" row.createdById ++
  errorsIf (row.status == .completed) (presenceErrors "Outcome" row.outcome) ++
  errorsIf (row.status == .completed) (requiredErrors "Completed at" row.completedAt.isSome)

/-- `RecoveryPlansController#update` from the attributes to the record that is written. -/
def patch (loaded : RecoveryPlanRow) (context : SupportContext) (currentUser : User)
    (params : RecoveryPlanParams) (now : Time) : Except Failure RecoveryPlanRow := do
  let ownerId ← context.ownerParam currentUser loaded.ownerId params.ownerId
  match params.status.getD (some loaded.status),
      params.nextCheckInAt.getD (some loaded.nextCheckInAt) with
  | some status, some nextCheckInAt =>
    let changed := maintainCompletionState
      { loaded with
        status, ownerId, nextCheckInAt
        targetPace := (params.targetPace.getD (some loaded.targetPace)).getD ""
        requiredScope := (params.requiredScope.getD (some loaded.requiredScope)).getD ""
        optionalScope := params.optionalScope.getD loaded.optionalScope
        checkInCadence := (params.checkInCadence.getD (some loaded.checkInCadence)).getD ""
        outcome := params.outcome.getD loaded.outcome } now
    saveUnless (changed.errors context) changed
  | status, nextCheckInAt =>
    .error (.recordInvalid
      (requiredErrors "Status" status.isSome ++
        requiredErrors "Next check in at" nextCheckInAt.isSome))

/-- An `UPDATE` of the columns that were changed. -/
def update (loaded changed current : RecoveryPlanRow) (now : Time) : RecoveryPlanRow :=
  { current with
    status := savedColumn loaded changed current (·.status)
    ownerId := savedColumn loaded changed current (·.ownerId)
    targetPace := savedColumn loaded changed current (·.targetPace)
    requiredScope := savedColumn loaded changed current (·.requiredScope)
    optionalScope := savedColumn loaded changed current (·.optionalScope)
    checkInCadence := savedColumn loaded changed current (·.checkInCadence)
    nextCheckInAt := savedColumn loaded changed current (·.nextCheckInAt)
    outcome := savedColumn loaded changed current (·.outcome)
    completedAt := savedColumn loaded changed current (·.completedAt)
    updatedAt := if changed = loaded then current.updatedAt else now }

/-- `enrollment.recovery_plans.status_active.update_all`, one statement with its condition. -/
def cancelActive (row : RecoveryPlanRow) (now : Time) : RecoveryPlanRow :=
  if row.active? then { row with status := .canceled, completedAt := some now, updatedAt := now }
  else row

end RecoveryPlanRow

/-! ## Calls -/

inductive PlanCall where
  | patch (currentUser : User) (params : RecoveryPlanParams)
  | restart
  deriving DecidableEq, Repr

inductive PlanPhase where
  | waiting
  | loaded (copy : RecoveryPlanRow)
  | prepared (copy changed : RecoveryPlanRow)
  | finished
  | refused (failure : Failure)
  deriving DecidableEq

inductive PlanAction where
  | tick (duration : ℕ)
  | next
  deriving DecidableEq, Repr

structure PlanDesk where
  row : RecoveryPlanRow
  now : Time := 0

namespace PlanDesk

def next (context : SupportContext) (call : PlanCall) (desk : PlanDesk) :
    PlanPhase → Option (PlanDesk × PlanPhase)
  | .waiting =>
    match call with
    | .patch _ _ =>
      if desk.row.active? then some (desk, .loaded desk.row)
      else
        some (desk, .refused (.unprocessable "Terminal recovery plans cannot be reopened"))
    | .restart => some ({ desk with row := desk.row.cancelActive desk.now }, .finished)
  | .loaded copy =>
    match call with
    | .patch currentUser params =>
      match copy.patch context currentUser params desk.now with
      | .ok changed => some (desk, .prepared copy changed)
      | .error failure => some (desk, .refused failure)
    | .restart => none
  | .prepared copy changed =>
    some ({ desk with row := copy.update changed desk.row desk.now }, .finished)
  | .finished | .refused _ => none

def act {ι : Type*} (context : SupportContext) (calls : ι → PlanCall) :
    Processes.Statement ι PlanDesk PlanPhase PlanAction
  | _, .tick duration, desk, phase => some ({ desk with now := desk.now + duration }, phase)
  | i, .next, desk, phase => desk.next context (calls i) phase

end PlanDesk

end LearningPlatform
