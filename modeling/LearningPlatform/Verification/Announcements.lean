import LearningPlatform.Model.Announcement
import LearningPlatform.Verification.Validations

/-! # Announced to those who may see it

The recipients of an announcement are users whom its audience admits, so a notification is ahead
of the announcement's visibility only through the publication time. -/

namespace LearningPlatform

open Shared

namespace AnnouncementBoard

/-! ## Delivery -/

/-- The tables on which visibility depends are the same. -/
structure Unchanged (board board' : AnnouncementBoard) : Prop where
  announcements : board'.announcements = board.announcements
  users : board'.users = board.users
  enrollments : board'.enrollments = board.enrollments

variable {board board' : AnnouncementBoard} {row : Announcement}

theorem Unchanged.visibleFor (h : Unchanged board board') (user : User) (now : Time) :
    board'.visibleFor user now = board.visibleFor user now := by
  simp only [AnnouncementBoard.visibleFor, visibleNow, MessagingDatabase.activeCohortIds,
    h.announcements, h.enrollments]

theorem notificationFor_unchanged (board : AnnouncementBoard) (user : User) (row : Announcement)
    (now : Time) : Unchanged board (board.notificationFor user row now).1 := by
  unfold notificationFor Database.findOrCreateNotification
  cases board.notification? row.notifiable user.id with
  | some existing => exact ⟨rfl, rfl, rfl⟩
  | none => exact ⟨rfl, rfl, rfl⟩

theorem notificationFor_created (board : AnnouncementBoard) (user : User) (row : Announcement)
    (now : Time) {notification : Notification}
    (h : (board.notificationFor user row now).2 = some notification) :
    notification = row.notification.toRow board.nextId row.notifiable user.id now := by
  unfold notificationFor Database.findOrCreateNotification at h
  cases hexisting : board.notification? row.notifiable user.id with
  | some existing => simp [hexisting] at h
  | none => simpa [hexisting, eq_comm] using h

/-- A delivery leaves the tables as they are that its recipients depend on, and each created
notification carries the announcement to one of the users. -/
theorem notifyAll_spec (row : Announcement) (now : Time) (board : AnnouncementBoard)
    (users : List User) :
    Unchanged board (notifyAll row now board users).1 ∧
    ∀ notification ∈ (notifyAll row now board users).2, ∃ user ∈ users, ∃ id,
      notification = row.notification.toRow id row.notifiable user.id now := by
  induction users generalizing board with
  | nil => exact ⟨⟨rfl, rfl, rfl⟩, by simp [notifyAll]⟩
  | cons user users ih =>
    obtain ⟨hrest, hcreated⟩ := ih (board.notificationFor user row now).1
    have hfirst := board.notificationFor_unchanged user row now
    refine ⟨⟨hrest.announcements.trans hfirst.announcements,
      hrest.users.trans hfirst.users, hrest.enrollments.trans hfirst.enrollments⟩, ?_⟩
    intro notification hnotification
    rcases List.mem_append.mp hnotification with hnew | hlater
    · exact ⟨user, by simp, _,
        board.notificationFor_created user row now (Option.mem_toList.mp hnew)⟩
    · obtain ⟨recipient, hrecipient, hrow⟩ := hcreated notification hlater
      exact ⟨recipient, List.mem_cons_of_mem _ hrecipient, hrow⟩

/-! ## Recipients -/

theorem recipients_subset_users (board : AnnouncementBoard) (row : Announcement) :
    board.recipients row ⊆ board.users := by
  unfold recipients
  split
  · split
    · exact List.nil_subset _
    · exact List.filter_sublist.subset
  · exact List.filter_sublist.subset
  · exact List.filter_sublist.subset

theorem audience_of_recipient {user : User} (huser : user ∈ board.recipients row)
    (hstaff : user.staff? = false) :
    (row.audience == .global ||
      (row.audience == .cohort && row.cohortId.any (board.activeCohortIds user).contains)) =
        true := by
  unfold recipients at huser
  cases haudience : row.audience with
  | global => rfl
  | staff => simp [haudience, hstaff] at huser
  | cohort =>
    cases hcohort : row.cohortId.bind board.cohort? with
    | none => simp [haudience, hcohort] at huser
    | some cohort =>
      obtain ⟨id, hid, hfound⟩ := Option.bind_eq_some_iff.mp hcohort
      have hcohortId : cohort.id = id := by simpa using List.find?_some hfound
      simp only [haudience, hcohort, List.mem_filter, Bool.and_eq_true,
        List.contains_iff_mem, List.mem_map] at huser
      obtain ⟨_, _, enrollment, ⟨henrollment, hkey⟩, huserId⟩ := huser
      simp only [beq_iff_eq] at hkey
      simp only [hid, Option.any_some, List.contains_iff_mem, MessagingDatabase.activeCohortIds,
        List.mem_map, List.mem_filter, Bool.and_eq_true, beq_iff_eq, Bool.or_eq_true]
      exact Or.inr ⟨trivial, enrollment, ⟨henrollment, huserId, hkey.2⟩, hkey.1.trans hcohortId⟩

/-- Of what visibility asks, a recipient can only lack the publication time. -/
theorem visible_to_recipient_iff {user : User} (hrow : row ∈ board.announcements)
    (hstatus : row.status = .published) (huser : user ∈ board.recipients row) (now : Time) :
    row ∈ board.visibleFor user now ↔ ∀ publishedAt ∈ row.publishedAt, publishedAt ≤ now := by
  have hnow : row ∈ board.visibleNow now ↔
      ∀ publishedAt ∈ row.publishedAt, publishedAt ≤ now := by
    simp [visibleNow, hrow, hstatus, Option.all_eq_true]
  unfold visibleFor
  cases hstaff : user.staff? with
  | true => simpa using hnow
  | false =>
    have haudience := audience_of_recipient huser hstaff
    simpa [List.mem_filter, haudience] using hnow

/-! ## Requests -/

/-- The notification carries the title and the body of a row of the table to a user. -/
structure Tells (board : AnnouncementBoard) (notification : Notification) (row : Announcement)
    (user : User) : Prop where
  row_mem : row ∈ board.announcements
  user_mem : user ∈ board.users
  notifiable : notification.notifiable = row.notifiable
  title : notification.title = row.title
  body : notification.body = some row.body
  userId : notification.userId = user.id

/-- At the moment of its delivery the announcement is visible to the user of the notification
exactly if its publication time has come. -/
def VisibleIfDue (board : AnnouncementBoard) (notification : Notification) : Prop :=
  ∃ row user, board.Tells notification row user ∧
    (row ∈ board.visibleFor user notification.createdAt ↔
      ∀ publishedAt ∈ row.publishedAt, publishedAt ≤ notification.createdAt)

theorem announcementPublished_visible (hrow : row ∈ board.announcements) (now : Time) :
    ∀ notification ∈ (board.announcementPublished row now).2,
      VisibleIfDue (board.announcementPublished row now).1 notification := by
  intro notification hnotification
  unfold announcementPublished at hnotification ⊢
  split at hnotification
  · rename_i hstatus
    rw [if_pos hstatus]
    obtain ⟨hsame, hcreated⟩ := notifyAll_spec row now board (board.recipients row)
    obtain ⟨user, huser, id, rfl⟩ := hcreated notification hnotification
    refine ⟨row, user, ⟨?_, ?_, rfl, rfl, rfl, rfl⟩, ?_⟩
    · rwa [hsame.announcements]
    · rw [hsame.users]
      exact board.recipients_subset_users row huser
    · rw [hsame.visibleFor]
      exact visible_to_recipient_iff hrow hstatus huser now
  · cases hnotification

theorem createAnnouncement_visible {currentUser : User} {params : AnnouncementParams}
    {startedAt now : Time} {created : List Notification}
    (h : board.createAnnouncement currentUser params startedAt now = .ok (board', created)) :
    ∀ notification ∈ created, VisibleIfDue board' notification := by
  obtain ⟨_, _, h⟩ := bind_eq_ok.mp h
  obtain ⟨row, _, h⟩ := bind_eq_ok.mp h
  obtain ⟨rfl, rfl⟩ := Prod.mk.inj (Except.ok.inj h)
  exact announcementPublished_visible (by simp) now

theorem updateAnnouncement_visible {currentUser : User} {id : ℕ} {params : AnnouncementParams}
    {startedAt now : Time} {created : List Notification}
    (h : board.updateAnnouncement currentUser id params startedAt now = .ok (board', created)) :
    ∀ notification ∈ created, VisibleIfDue board' notification := by
  obtain ⟨_, _, h⟩ := bind_eq_ok.mp h
  obtain ⟨row, hrow, h⟩ := orNotFound_bind_eq_ok.mp h
  obtain ⟨saved, _, h⟩ := bind_eq_ok.mp h
  split at h
  · obtain ⟨rfl, rfl⟩ := Prod.mk.inj (Except.ok.inj h)
    refine announcementPublished_visible ?_ now
    exact mem_updateAll.mpr (.inl ⟨row, List.mem_of_find?_eq_some hrow, by simp, rfl⟩)
  · cases h
    exact fun _ hnone => absurd hnone List.not_mem_nil

end AnnouncementBoard

open AnnouncementBoard

/-- In every state, each notification that a request creates carries an announcement to one of
its readers: the announcement is visible to the user at that moment exactly if its publication
time is not later than the moment. -/
theorem announced_visible_iff {board board' : AnnouncementBoard} {request : AnnouncementRequest}
    {created : List Notification} (h : request.execute board = .ok (board', created)) :
    ∀ notification ∈ created, ∃ row user, board'.Tells notification row user ∧
      (row ∈ board'.visibleFor user notification.createdAt ↔
        ∀ publishedAt ∈ row.publishedAt, publishedAt ≤ notification.createdAt) := by
  cases request with
  | create currentUser params startedAt now => exact createAnnouncement_visible h
  | update currentUser id params startedAt now => exact updateAnnouncement_visible h
  | destroy currentUser id now =>
    obtain ⟨_, _, h⟩ := bind_eq_ok.mp h
    obtain ⟨-, rfl⟩ := Prod.mk.inj (Except.ok.inj h)
    exact fun _ hnone => absurd hnone List.not_mem_nil
  | messaging request =>
    obtain ⟨_, _, h⟩ := bind_eq_ok.mp h
    obtain ⟨-, rfl⟩ := Prod.mk.inj (Except.ok.inj h)
    exact fun _ hnone => absurd hnone List.not_mem_nil

/-- An administrator and a student of a cohort. -/
def announcedClass : AnnouncementBoard where
  users := [{ id := 1, role := .admin }, { id := 2 }]
  cohorts := [{ id := 4, curriculumId := 3 }]
  enrollments := [{ id := 5, userId := 2, cohortId := 4 }]
  nextId := 6

/-- An announcement to the cohort, saved at 10 and delivered at 11. -/
def announceExam (publishedAt : Option Time) : AnnouncementRequest :=
  .create { id := 1, role := .admin }
    { title := some (some "Exam"), body := some (some "Questions"), cohortId := some (some 4)
      publishedAt := some publishedAt } 10 11

/-- An announcement without a publication time reaches a student who can see it. -/
theorem exam_visible_when_announced : ∃ board' created,
    (announceExam none).execute announcedClass = .ok (board', created) ∧ created.length = 1 ∧
    ∀ notification ∈ created, ∃ row user, board'.Tells notification row user ∧
      row ∈ board'.visibleFor user notification.createdAt := by
  have hsaved : ((announceExam none).execute announcedClass).toOption.any fun result =>
      result.2.length == 1 && result.2.all (·.createdAt == 11) &&
        result.1.announcements.all (·.publishedAt == some 10) := by
    decide +kernel
  cases hexecute : (announceExam none).execute announcedClass with
  | error failure => simp [hexecute, Except.toOption] at hsaved
  | ok result =>
    obtain ⟨board', created⟩ := result
    simp only [hexecute, Except.toOption, Option.any_some, Bool.and_eq_true, beq_iff_eq,
      List.all_eq_true] at hsaved
    obtain ⟨⟨hlength, hcreatedAt⟩, hpublishedAt⟩ := hsaved
    refine ⟨board', created, rfl, hlength, fun notification hnotification => ?_⟩
    obtain ⟨row, user, htells, hvisible⟩ :=
      announced_visible_iff hexecute notification hnotification
    refine ⟨row, user, htells, hvisible.mpr ?_⟩
    rw [hpublishedAt row htells.row_mem, hcreatedAt notification hnotification]
    simp

/-- An announcement that is to appear at 100 is sent to the student at 11. -/
theorem exam_announced_early : ∃ board' created,
    (announceExam (some 100)).execute announcedClass = .ok (board', created) ∧
    ∃ notification ∈ created, ∃ row user, board'.Tells notification row user ∧
      row ∉ board'.visibleFor user notification.createdAt := by
  refine ⟨_, _, rfl, _, List.mem_singleton.mpr rfl, _, { id := 2 },
    ⟨List.mem_singleton.mpr rfl, ?_, rfl, rfl, rfl, rfl⟩, ?_⟩
  all_goals decide +kernel

end LearningPlatform
