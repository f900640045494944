import LearningPlatform.Model.HelpRequest
import LearningPlatform.Model.Messaging
import LearningPlatform.Model.Notifications

/-! # Announcements

`Announcement`, the writing actions of its controller, and the notifications that
`announcement_published` creates. -/

namespace LearningPlatform

open Shared

/-! ## Rows -/

inductive Audience where
  | cohort
  | global
  | staff
  deriving DecidableEq, Repr

inductive AnnouncementStatus where
  | draft
  | published
  | archived
  deriving DecidableEq, Repr

structure Announcement where
  id : ℕ
  authorId : ℕ
  cohortId : Option ℕ := none
  title : String := ""
  body : String := ""
  audience : Audience := .cohort
  status : AnnouncementStatus := .published
  pinned : Bool := false
  publishedAt : Option Time := none
  archivedAt : Option Time := none
  createdAt : Time := 0
  updatedAt : Time := 0
  deriving DecidableEq, Repr

/-- The database with the table of announcements. -/
structure AnnouncementBoard extends MessagingDatabase where
  announcements : List Announcement := []

namespace AnnouncementBoard

def announcement? (board : AnnouncementBoard) (id : ℕ) : Option Announcement :=
  board.announcements.find? (·.id == id)

/-! ## Visibility and recipients -/

def visibleNow (board : AnnouncementBoard) (now : Time) : List Announcement :=
  board.announcements.filter fun row =>
    row.status == .published && row.publishedAt.all fun publishedAt => decide (publishedAt ≤ now)

def visibleFor (board : AnnouncementBoard) (user : User) (now : Time) : List Announcement :=
  if user.staff? then board.visibleNow now
  else
    let cohortIds := board.activeCohortIds user
    (board.visibleNow now).filter fun row =>
      row.audience == .global || (row.audience == .cohort && row.cohortId.any cohortIds.contains)

def recipients (board : AnnouncementBoard) (row : Announcement) : List User :=
  match row.audience with
  | .cohort =>
    match row.cohortId.bind board.cohort? with
    | none => []
    | some cohort =>
      let userIds := (board.enrollments.filter fun enrollment =>
        enrollment.cohortId == cohort.id && enrollment.status == .active).map (·.userId)
      board.users.filter fun user => !user.archived? && userIds.contains user.id
  | .staff => board.users.filter fun user => !user.archived? && user.staff?
  | .global =>
    let activeStudentIds := (board.enrollments.filter (·.status == .active)).map (·.userId)
    board.users.filter fun user =>
      !user.archived? && (activeStudentIds.contains user.id || user.staff?)

end AnnouncementBoard

/-! ## Delivery -/

def Announcement.notifiable (row : Announcement) : Notifiable :=
  .other "Announcement" row.id

def Announcement.notification (row : Announcement) : NotificationAttributes :=
  { actorId := some row.authorId
    notificationType := "announcement"
    title := row.title
    body := some row.body
    path := "/announcements/" ++ toString row.id }

namespace AnnouncementBoard

/-- `notification_for`, with the created row. -/
def notificationFor (board : AnnouncementBoard) (user : User) (row : Announcement) (now : Time) :
    AnnouncementBoard × Option Notification :=
  let (db, created) :=
    board.toDatabase.findOrCreateNotification row.notifiable user.id row.notification now
  ({ board with toDatabase := db }, created)

/-- The loop of `announcement_published` over the recipients, with the created rows. -/
def notifyAll (row : Announcement) (now : Time) :
    AnnouncementBoard → List User → AnnouncementBoard × List Notification
  | board, [] => (board, [])
  | board, user :: users =>
    let (board, created) := board.notificationFor user row now
    let (board, rest) := notifyAll row now board users
    (board, created.toList ++ rest)

def announcementPublished (board : AnnouncementBoard) (row : Announcement) (now : Time) :
    AnnouncementBoard × List Notification :=
  if row.status = .published then notifyAll row now board (board.recipients row)
  else (board, [])

end AnnouncementBoard

/-! ## Requests -/

/-- The permitted parameters; a present key holds `some` value, and `some none` is `null`. -/
structure AnnouncementParams where
  title : Option (Option String) := none
  body : Option (Option String) := none
  audience : Option (Option Audience) := none
  cohortId : Option (Option ℕ) := none
  status : Option (Option AnnouncementStatus) := none
  pinned : Option (Option Bool) := none
  publishedAt : Option (Option Time) := none
  deriving DecidableEq, Repr

/-- `cohort_id` of `announcement_params`: a given audience other than `cohort` clears it. -/
def AnnouncementParams.permittedCohortId (params : AnnouncementParams) : Option (Option ℕ) :=
  if params.audience.any (· != some .cohort) then some none else params.cohortId

namespace AnnouncementBoard

/-- Assigns the parameters to a record and saves it. -/
def saveAnnouncement (board : AnnouncementBoard) (row : Announcement)
    (params : AnnouncementParams) (now : Time) : Except Failure Announcement := do
  let title := params.title.getD (some row.title)
  let body := params.body.getD (some row.body)
  let audience := params.audience.getD (some row.audience)
  let status := params.status.getD (some row.status)
  let cohortId := params.permittedCohortId.getD row.cohortId
  let publishedAt := params.publishedAt.getD row.publishedAt
  let saved ← saveUnless
    (presenceErrors "Title" title ++ presenceErrors "Body" body ++
      requiredErrors "Audience" audience.isSome ++ requiredErrors "Status" status.isSome ++
      errorsIf (audience == some .cohort)
        (requiredErrors "Cohort" (cohortId.bind board.cohort?).isSome) ++
      errorsIf (audience != some .cohort && cohortId.isSome)
        ["Cohort can only be set for cohort announcements"])
    { row with
      title := title.getD ""
      body := body.getD ""
      audience := audience.getD row.audience
      status := status.getD row.status
      cohortId := cohortId
      pinned := (params.pinned.getD (some row.pinned)).getD row.pinned
      -- `set_published_at`
      publishedAt := if status = some .published then publishedAt.or (some now) else publishedAt
      updatedAt := now }
  if params.pinned = some none then .error (.notNullViolation "pinned") else .ok saved

/-- `AnnouncementsController#create`: the record is saved at `startedAt` and its notifications
are delivered at `now`. -/
def createAnnouncement (board : AnnouncementBoard) (currentUser : User)
    (params : AnnouncementParams) (startedAt now : Time) :
    Except Failure (AnnouncementBoard × List Notification) := do
  MessagingDatabase.requireStaff! currentUser
  let row ← board.saveAnnouncement
    { id := board.nextId, authorId := currentUser.id, createdAt := startedAt } params startedAt
  let board := { board with
    announcements := board.announcements ++ [row], nextId := board.nextId + 1 }
  .ok (board.announcementPublished row now)

def updateAnnouncement (board : AnnouncementBoard) (currentUser : User) (id : ℕ)
    (params : AnnouncementParams) (startedAt now : Time) :
    Except Failure (AnnouncementBoard × List Notification) := do
  MessagingDatabase.requireStaff! currentUser
  let row ← orNotFound (board.announcement? id)
  let saved ← board.saveAnnouncement row params startedAt
  let board := { board with
    announcements := updateAll (·.id == row.id) (fun _ => saved) board.announcements }
  if row.status != .published && saved.status == .published then
    .ok (board.announcementPublished saved now)
  else .ok (board, [])

def destroyAnnouncement (board : AnnouncementBoard) (currentUser : User) (id : ℕ) (now : Time) :
    Except Failure AnnouncementBoard := do
  MessagingDatabase.requireStaff! currentUser
  let row ← orNotFound (board.announcement? id)
  let saved ← board.saveAnnouncement row { status := some (some .archived) } now
  .ok { board with
    announcements := updateAll (·.id == row.id)
      (fun _ => { saved with archivedAt := some now }) board.announcements }

end AnnouncementBoard

/-- A request that writes an announcement or a table that the answers above depend on. -/
inductive AnnouncementRequest where
  | create (currentUser : User) (params : AnnouncementParams) (startedAt now : Time)
  | update (currentUser : User) (id : ℕ) (params : AnnouncementParams) (startedAt now : Time)
  | destroy (currentUser : User) (id : ℕ) (now : Time)
  | messaging (request : MessagingRequest)

/-- The board after a request and the notifications that it created. -/
def AnnouncementRequest.execute (board : AnnouncementBoard) :
    AnnouncementRequest → Except Failure (AnnouncementBoard × List Notification)
  | .create currentUser params startedAt now =>
    board.createAnnouncement currentUser params startedAt now
  | .update currentUser id params startedAt now =>
    board.updateAnnouncement currentUser id params startedAt now
  | .destroy currentUser id now => do
    .ok (← board.destroyAnnouncement currentUser id now, [])
  | .messaging request => do
    .ok ({ board with toMessagingDatabase := ← request.execute board.toMessagingDatabase }, [])

end LearningPlatform
