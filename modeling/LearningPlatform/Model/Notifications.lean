import LearningPlatform.Model.Learning

/-! # Notifications

The `notifications` table as `NotificationDeliveryService` reads and writes it. A unique index
covers the notifiable and the user of a row. -/

namespace LearningPlatform

open Shared

/-- The attributes that a delivery assigns, apart from `read_at`. -/
structure NotificationAttributes where
  actorId : Option ℕ := none
  notificationType : String
  title : String
  body : Option String
  path : String
  deriving DecidableEq, Repr

/-- The row that is inserted for a record of these attributes. -/
def NotificationAttributes.toRow (attributes : NotificationAttributes) (id : ℕ)
    (notifiable : Notifiable) (userId : ℕ) (now : Time) : Notification :=
  { id, userId, notifiable
    actorId := attributes.actorId
    notificationType := attributes.notificationType
    title := attributes.title
    body := attributes.body
    path := attributes.path
    createdAt := now
    updatedAt := now }

/-- The row of the index `index_notifications_unique_source_per_user` for a notifiable and a
user. -/
def Notification.indexed? (notifiable : Notifiable) (userId : ℕ) (row : Notification) : Bool :=
  row.notifiable == notifiable && row.userId == userId

def Database.notification? (db : Database) (notifiable : Notifiable) (userId : ℕ) :
    Option Notification :=
  db.notifications.find? (Notification.indexed? notifiable userId)

/-- `Notification.find_or_create_by!(notifiable:, user:)`, with the created row. -/
def Database.findOrCreateNotification (db : Database) (notifiable : Notifiable) (userId : ℕ)
    (attributes : NotificationAttributes) (now : Time) : Database × Option Notification :=
  match db.notification? notifiable userId with
  | some _ => (db, none)
  | none =>
    let row := attributes.toRow db.nextId notifiable userId now
    ({ db with notifications := db.notifications ++ [row], nextId := db.nextId + 1 }, some row)

/-- `assign_attributes` with `read_at: nil`. -/
def Notification.assign (row : Notification) (attributes : NotificationAttributes) : Notification :=
  { row with
    actorId := attributes.actorId
    notificationType := attributes.notificationType
    title := attributes.title
    body := attributes.body
    path := attributes.path
    readAt := none }

/-- An `UPDATE` of the changed columns of a row. -/
def Notification.update (loaded changed current : Notification) (now : Time) : Notification :=
  { current with
    actorId := savedColumn loaded changed current (·.actorId)
    notificationType := savedColumn loaded changed current (·.notificationType)
    title := savedColumn loaded changed current (·.title)
    body := savedColumn loaded changed current (·.body)
    path := savedColumn loaded changed current (·.path)
    readAt := savedColumn loaded changed current (·.readAt)
    updatedAt := if changed = loaded then current.updatedAt else now }

/-- `update_all(read_at:, updated_at:)`. -/
def Notification.close (now : Time) (row : Notification) : Notification :=
  { row with readAt := some now, updatedAt := now }

/-- The notifications of one record with the next value of their id sequence. -/
structure NotificationTable where
  rows : List Notification := []
  nextId : ℕ := 1

namespace NotificationTable

def find? (table : NotificationTable) (notifiable : Notifiable) (userId : ℕ) :
    Option Notification :=
  table.rows.find? (Notification.indexed? notifiable userId)

def insert (table : NotificationTable) (notifiable : Notifiable) (userId : ℕ)
    (attributes : NotificationAttributes) (now : Time) : NotificationTable where
  rows := table.rows ++ [attributes.toRow table.nextId notifiable userId now]
  nextId := table.nextId + 1

def updateWhere (table : NotificationTable) (p : Notification → Bool)
    (f : Notification → Notification) : NotificationTable :=
  { table with rows := updateAll p f table.rows }

/-- `find_or_initialize_by`, `assign_attributes` and `save!`. -/
def deliver (table : NotificationTable) (notifiable : Notifiable) (userId : ℕ)
    (attributes : NotificationAttributes) (now : Time) : NotificationTable :=
  match table.find? notifiable userId with
  | none => table.insert notifiable userId attributes now
  | some loaded =>
    table.updateWhere (·.id == loaded.id) fun current =>
      loaded.update (loaded.assign attributes) current now

end NotificationTable

end LearningPlatform
