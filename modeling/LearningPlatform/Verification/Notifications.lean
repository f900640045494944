import LearningPlatform.Model.Notifications
import LearningPlatform.Verification.Validations

/-! # Writes to the table of notifications -/

namespace LearningPlatform

open Shared

/-- The row shows the attributes of a delivery. -/
structure Notification.Shows (row : Notification) (attributes : NotificationAttributes) :
    Prop where
  actorId : row.actorId = attributes.actorId
  notificationType : row.notificationType = attributes.notificationType
  title : row.title = attributes.title
  body : row.body = attributes.body
  path : row.path = attributes.path

theorem NotificationAttributes.toRow_shows (attributes : NotificationAttributes) (id : ℕ)
    (notifiable : Notifiable) (userId : ℕ) (now : Time) :
    (attributes.toRow id notifiable userId now).Shows attributes :=
  ⟨rfl, rfl, rfl, rfl, rfl⟩

theorem Notification.update_shows (loaded : Notification) (attributes : NotificationAttributes)
    (now : Time) : (loaded.update (loaded.assign attributes) loaded now).Shows attributes := by
  refine ⟨?_, ?_, ?_, ?_, ?_⟩ <;> simp [Notification.update, Notification.assign]

namespace NotificationTable

/-- The primary keys come from the sequence of the table. -/
abbrev Sound (table : NotificationTable) : Prop :=
  Keyed (·.id) table.rows table.nextId

variable {table : NotificationTable}

variable {notifiable : Notifiable}

theorem find?_key {userId : ℕ} {row : Notification} (h : table.find? notifiable userId = some row) :
    row.notifiable = notifiable ∧ row.userId = userId := by
  simpa [Notification.indexed?] using List.find?_some h

theorem find?_insert {userId : ℕ} (h : table.find? notifiable userId = none)
    (attributes : NotificationAttributes) (now : Time) :
    (table.insert notifiable userId attributes now).find? notifiable userId =
      some (attributes.toRow table.nextId notifiable userId now) := by
  unfold find? at h
  simp [find?, insert, List.find?_append, h, Notification.indexed?,
    NotificationAttributes.toRow]

theorem find?_updateWhere (table : NotificationTable) {p : Notification → Bool}
    {f : Notification → Notification}
    (hf : ∀ row, (f row).notifiable = row.notifiable ∧ (f row).userId = row.userId)
    (notifiable : Notifiable) (userId : ℕ) :
    (table.updateWhere p f).find? notifiable userId =
      (table.find? notifiable userId).map fun row => if p row then f row else row :=
  find?_updateAll fun row _ => by simp [Notification.indexed?, hf row]

theorem find?_update {userId : ℕ} {loaded : Notification}
    (h : table.find? notifiable userId = some loaded) (changed : Notification) (now : Time) :
    (table.updateWhere (·.id == loaded.id) fun current => loaded.update changed current now).find?
      notifiable userId = some (loaded.update changed loaded now) := by
  have hlookup := table.find?_updateWhere (p := (·.id == loaded.id))
    (f := fun current => loaded.update changed current now) (fun _ => ⟨rfl, rfl⟩) notifiable userId
  rw [hlookup, h]
  simp

/-! ## Deliveries -/

variable {notifiable : Notifiable} {userId : ℕ} {attributes : NotificationAttributes} {now : Time}

theorem Sound.deliver (h : table.Sound) :
    (table.deliver notifiable userId attributes now).Sound := by
  unfold NotificationTable.deliver
  split
  · exact h.append rfl
  · exact h.updateAll fun _ _ => rfl

/-- A delivery leaves an unread row that shows its attributes. -/
theorem exists_mem_deliver (table : NotificationTable) (notifiable : Notifiable) (userId : ℕ)
    (attributes : NotificationAttributes) (now : Time) :
    ∃ row ∈ (table.deliver notifiable userId attributes now).rows,
      row.notifiable = notifiable ∧ row.userId = userId ∧ row.Shows attributes ∧
      row.readAt = none := by
  unfold NotificationTable.deliver
  split
  · rename_i hfind
    exact ⟨_, List.mem_of_find?_eq_some (find?_insert hfind attributes now), rfl, rfl,
      attributes.toRow_shows .., rfl⟩
  · rename_i loaded hfind
    obtain ⟨hnotifiable, huser⟩ := find?_key hfind
    exact ⟨_, List.mem_of_find?_eq_some (find?_update hfind _ now), hnotifiable, huser,
      loaded.update_shows attributes now, by simp [Notification.update, Notification.assign]⟩

theorem mem_of_mem_deliver (h : table.Sound) {row : Notification}
    (hrow : row ∈ (table.deliver notifiable userId attributes now).rows) :
    row ∈ table.rows ∨ row.Shows attributes := by
  unfold NotificationTable.deliver at hrow
  split at hrow
  · refine (List.mem_append.mp hrow).imp_right fun hnew => ?_
    obtain rfl := List.mem_singleton.mp hnew
    exact attributes.toRow_shows ..
  · rename_i loaded hfind
    rcases mem_updateAll.mp hrow with ⟨old, hold, hid, rfl⟩ | ⟨hold, -⟩
    · obtain rfl := h.eq_of_key hold (List.mem_of_find?_eq_some hfind) (by simpa using hid)
      exact .inr (old.update_shows attributes now)
    · exact .inl hold

end NotificationTable

end LearningPlatform
