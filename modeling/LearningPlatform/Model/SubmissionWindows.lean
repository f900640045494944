import LearningPlatform.Model.Calendar
import LearningPlatform.Model.Params

/-! # Updates of submission windows

`CohortModuleSubmissionWindowsController#update` with the validations of
`CohortModuleSubmissionWindow`. The batch runs in one transaction. -/

namespace LearningPlatform

open Shared

/-! ## Items -/

/-- A value that `permit` lets through; an absent key, an array and an object read as `nil`. -/
inductive WindowValue where
  | param (value : Param)
  /-- A float: what `to_i` makes of it, unless it is infinite, and its text. -/
  | float (whole : Option ℤ) (text : String)
  deriving DecidableEq, Repr

structure WindowItem where
  weekNumber : WindowValue := .param .null
  submissionsCloseAt : WindowValue := .param .null
  deriving DecidableEq, Repr

/-- An entry of the array in the request. -/
inductive RawWindow where
  | object (item : WindowItem)
  | other
  deriving DecidableEq, Repr

/-- `window_param_to_hash`. -/
def RawWindow.toHash : RawWindow → WindowItem
  | .object item => item
  | .other => {}

inductive WindowsParam where
  /-- `nil` or `false`. -/
  | absent
  | array (items : List RawWindow)
  | other
  deriving DecidableEq, Repr

structure WindowsRequest where
  currentUser : User
  cohortId : ℕ
  moduleId : ℕ
  submissionWindows : WindowsParam := .absent
  windows : WindowsParam := .absent
  deriving DecidableEq, Repr

/-- `params[:submission_windows] || params[:windows] || []`, if it is an array. -/
def WindowsRequest.rawWindows (request : WindowsRequest) : Option (List RawWindow) :=
  match request.submissionWindows, request.windows with
  | .array items, _ => some items
  | .other, _ => none
  | .absent, .array items => some items
  | .absent, .other => none
  | .absent, .absent => some []

inductive WindowFailure where
  | refused (failure : Failure)
  | notAnArray
  | invalidSubmissionWindow (message : String)
  /-- `true.to_i`. -/
  | noMethodError
  /-- `Float::INFINITY.to_i`. -/
  | floatDomainError
  /-- A time that the column cannot hold. -/
  | outOfRange
  deriving DecidableEq, Repr

/-! ## Numbers -/

/-- The digits at the start of a text, with single underscores between them. -/
def digitsToI (n : ℕ) : List Char → ℕ
  | [] => n
  | c :: rest =>
    if c.isDigit then digitsToI (10 * n + (c.toNat - '0'.toNat)) rest
    else if c == '_' && rest.head?.any Char.isDigit then digitsToI n rest
    else n

/-- A number at the start of a text; an underscore does not start one. -/
def leadingDigits (chars : List Char) : ℕ :=
  if chars.head?.any Char.isDigit then digitsToI 0 chars else 0

def textToI (text : String) : ℤ :=
  match text.toList.dropWhile fun c => (0x9 ≤ c.toNat && c.toNat ≤ 0xD) || c.toNat == 0x20 with
  | '-' :: rest => -(leadingDigits rest : ℤ)
  | '+' :: rest => leadingDigits rest
  | chars => leadingDigits chars

namespace WindowValue

def toI : WindowValue → Except WindowFailure ℤ
  | .param .null => .ok 0
  | .param (.bool _) => .error .noMethodError
  | .param (.int n) => .ok n
  | .param (.str text) => .ok (textToI text)
  | .float (some whole) _ => .ok whole
  | .float none _ => .error .floatDomainError

def isBlank : WindowValue → Bool
  | .param .null => true
  | .param (.bool b) => !b
  | .param (.int _) => false
  | .param (.str text) => blank? text
  | .float _ _ => false

def toText : WindowValue → String
  | .param value => value.toText
  | .float _ text => text

end WindowValue

/-! ## Times -/

/-- `Iso8601TimeInput.explicit_offset?`: the text ends with `Z` or with an offset. -/
def explicitOffset? (value : String) : Bool :=
  match (strip value).toList.reverse with
  | 'Z' :: _ | 'z' :: _ => true
  | d :: c :: ':' :: b :: a :: sign :: _ =>
    [a, b, c, d].all Char.isDigit && (sign == '+' || sign == '-')
  | d :: c :: b :: a :: sign :: _ =>
    [a, b, c, d].all Char.isDigit && (sign == '+' || sign == '-')
  | _ => false

/-- Ruby's `Time.iso8601`, which raises for other texts, and the range of the column. -/
structure TimeFormat where
  iso8601 : String → Option Time
  storable : Time → Bool

def parseCloseAt (format : TimeFormat) (rawValue : WindowValue) :
    Except WindowFailure (Option Time) :=
  if rawValue.isBlank then .ok none
  else
    let raw := strip rawValue.toText
    if explicitOffset? raw then
      match format.iso8601 raw with
      | some closeAt => .ok (some closeAt)
      | none => .error (.invalidSubmissionWindow "Submission close time is invalid")
    else
      .error (.invalidSubmissionWindow
        "Submission close time must include a UTC offset (for example, Z or +10:00)")

/-- The part of the loop's body that reads an item. -/
def RawWindow.read (format : TimeFormat) (weekCount : ℤ) (rawWindow : RawWindow) :
    Except WindowFailure (ℤ × Option Time) := do
  let item := rawWindow.toHash
  let weekNumber ← item.weekNumber.toI
  if 1 ≤ weekNumber ∧ weekNumber ≤ weekCount then
    let closeAt ← parseCloseAt format item.submissionsCloseAt
    .ok (weekNumber, closeAt)
  else
    .error (.invalidSubmissionWindow
      ("Week number must be between 1 and " ++ toString weekCount))

/-! ## Rows -/

/-- The columns of the unique index. -/
abbrev WindowKey := ℕ × ℕ × ℤ

def CohortModuleSubmissionWindow.key (window : CohortModuleSubmissionWindow) : WindowKey :=
  (window.cohortId, window.moduleId, window.weekNumber)

def windowKey (cohort : Cohort) (m : CurriculumModule) (weekNumber : ℤ) : WindowKey :=
  (cohort.id, m.id, weekNumber)

namespace Database

variable (db : Database)

/-- The validations of a window; `taken` says that another row has its key. -/
def windowErrors (cohort : Cohort) (m : CurriculumModule) (weekNumber : ℤ) (taken : Bool) :
    List String :=
  (if 0 < weekNumber then [] else ["Week number must be greater than 0"]) ++
  (if taken then ["Week number has already been taken"] else []) ++
  (if weekNumber ≤ db.weekCount m then []
    else ["Week number must be within this module's " ++ toString (db.weekCount m) ++
      " week schedule"]) ++
  (if cohort.curriculumId = m.curriculumId then []
    else ["Curriculum module must belong to the cohort curriculum"])

def windowCount (key : WindowKey) : ℕ :=
  db.submissionWindows.countP (·.key == key)

/-- `create_or_find_by!`, which adds the window without a close time. -/
def createOrFindWindow! (cohort : Cohort) (m : CurriculumModule) (weekNumber : ℤ) :
    Except WindowFailure Database :=
  let taken := decide (0 < db.windowCount (windowKey cohort m weekNumber))
  let window : CohortModuleSubmissionWindow :=
    { cohortId := cohort.id, moduleId := m.id, weekNumber, submissionsCloseAt := none }
  match saveUnique (db.windowErrors cohort m weekNumber taken)
      "idx_submission_windows_on_cohort_module_week" taken window with
  | .ok window => .ok { db with submissionWindows := db.submissionWindows ++ [window] }
  | .error (.recordNotUnique _) =>
    if taken then .ok db else .error (.refused .recordNotFound)
  | .error failure => .error (.refused failure)

/-- `save!` of a stored window with its new close time. -/
def saveWindow! (format : TimeFormat) (cohort : Cohort) (m : CurriculumModule) (weekNumber : ℤ)
    (closeAt : Time) : Except WindowFailure Database :=
  let key := windowKey cohort m weekNumber
  match db.windowErrors cohort m weekNumber (decide (1 < db.windowCount key)) with
  | [] =>
    if format.storable closeAt then
      .ok { db with
        submissionWindows := updateAll (·.key == key)
          (fun window => { window with submissionsCloseAt := some closeAt })
          db.submissionWindows }
    else .error .outOfRange
  | errors => .error (.refused (.recordInvalid errors))

/-- The rest of the loop's body: `find_by`, and a `destroy!` or a save. -/
def writeWindow (format : TimeFormat) (cohort : Cohort) (m : CurriculumModule) (weekNumber : ℤ)
    (closeAt : Option Time) : Except WindowFailure Database :=
  match closeAt, db.submissionWindowFor cohort m.id weekNumber with
  | none, none => .ok db
  | none, some window =>
    .ok { db with submissionWindows := deleteAll (·.key == window.key) db.submissionWindows }
  | some closeAt, none => do
    let db ← db.createOrFindWindow! cohort m weekNumber
    db.saveWindow! format cohort m weekNumber closeAt
  | some closeAt, some _ => db.saveWindow! format cohort m weekNumber closeAt

/-- The body of the loop in `update`. -/
def updateWindow (format : TimeFormat) (cohort : Cohort) (m : CurriculumModule)
    (rawWindow : RawWindow) : Except WindowFailure Database := do
  let (weekNumber, closeAt) ← rawWindow.read format (db.weekCount m)
  db.writeWindow format cohort m weekNumber closeAt

def moduleSubmissionWindowsJson (cohort : Cohort) (m : CurriculumModule) (now : Time) :
    List WeekOverview :=
  (List.range (db.weekCount m).toNat).map fun index : ℕ =>
    SubmissionWindowStatus.forWeek db cohort m (index + 1) (some (db.startDateFor m cohort)) now

/-- `set_cohort` and `set_module`, after `require_staff!`. -/
def windowTarget (request : WindowsRequest) : Except WindowFailure (Cohort × CurriculumModule) :=
  if request.currentUser.staff? then
    match db.cohort? request.cohortId with
    | none => .error (.refused .recordNotFound)
    | some cohort =>
      match db.modules.find? fun m =>
          m.curriculumId == cohort.curriculumId && m.id == request.moduleId with
      | none => .error (.refused .recordNotFound)
      | some m => .ok (cohort, m)
  else .error (.refused (.forbidden "Staff access required"))

/-- `update`: the database after the request and the answer. An error in the loop rolls the
transaction back. -/
def updateWindows (format : TimeFormat) (request : WindowsRequest) (now : Time) :
    Database × Except WindowFailure (List WeekOverview) :=
  match db.windowTarget request with
  | .error failure => (db, .error failure)
  | .ok (cohort, m) =>
    match request.rawWindows with
    | none => (db, .error .notAnArray)
    | some rawWindows =>
      match rawWindows.foldlM (fun db => updateWindow db format cohort m) db with
      | .error failure => (db, .error failure)
      | .ok db' => (db', .ok (db'.moduleSubmissionWindowsJson cohort m now))

end Database

end LearningPlatform
