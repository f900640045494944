import LearningPlatform.Shared.Neighbours
import LearningPlatform.Verification.Access.Gates

/-! # Links to the previous and the next lesson

The page of a lesson takes its neighbours from the available lessons of the module in the order of
their positions. They are compared with the lessons that the student can read, in the order of the
module. -/

namespace LearningPlatform

open Shared

/-! ## The order of a module -/

theorem Lesson.precedes_total (first second : Lesson) :
    first.precedes second ∨ second.precedes first := by
  unfold Lesson.precedes
  omega

theorem Lesson.precedes_trans {first second third : Lesson} (h : first.precedes second)
    (h' : second.precedes third) : first.precedes third := by
  unfold Lesson.precedes at h h' ⊢
  omega

theorem Lesson.id_eq_of_precedes {first second : Lesson} (h : first.precedes second)
    (h' : second.precedes first) : first.id = second.id := by
  unfold Lesson.precedes at h h'
  omega

/-- A student, the enrollment in the curriculum of a module and its cohort. -/
structure Reader where
  db : Database
  user : User
  enrollment : Enrollment
  cohort : Cohort
  m : CurriculumModule
  schema : CurriculumSchema db
  student : user.staff? = false
  module : m ∈ db.modules
  enrolled : db.activeEnrollmentFor user m.curriculumId = some (enrollment, cohort)

namespace Reader

variable (reader : Reader) (on : Date) {lesson : Lesson}

/-- The lessons of the module as they stand in the table. -/
def rows : List Lesson :=
  reader.db.lessons.filter (·.moduleId == reader.m.id)

def moduleAssignment : Option ModuleAssignment :=
  reader.db.moduleAssignmentFor reader.enrollment reader.m.id

def lessonAssignment (lesson : Lesson) : Option LessonAssignment :=
  reader.db.lessonAssignmentFor reader.enrollment lesson.id

/-- `available?` as the page asks it for the siblings of a lesson. -/
def available (lesson : Lesson) : Bool :=
  reader.db.available? lesson reader.m reader.cohort reader.moduleAssignment
    (reader.lessonAssignment lesson) on

def readable (lesson : Lesson) : Bool :=
  decide (authorizeLessonRead! reader.db reader.user lesson on = .ok ())

/-- The available lessons in the order of their positions. -/
def linked : List Lesson :=
  (orderBy Lesson.position reader.rows).filter (reader.available on)

/-- The lessons that the student can read, in the order of the module. -/
def canonical : List Lesson :=
  (reader.db.allLessonsOf reader.m).filter (reader.readable on)

variable {reader on}

theorem mem_rows : lesson ∈ reader.rows ↔
    lesson ∈ reader.db.lessons ∧ lesson.moduleId = reader.m.id := by
  simp [rows]

theorem nodup_rows : reader.rows.Nodup :=
  (reader.schema.lessons.nodup.of_map _).filter _

theorem allLessonsOf_perm : (reader.db.allLessonsOf reader.m).Perm reader.rows :=
  List.perm_insertionSort _ _

theorem mem_linked : lesson ∈ reader.linked on ↔
    lesson ∈ reader.rows ∧ reader.available on lesson = true := by
  rw [linked, List.mem_filter, mem_orderBy]

theorem mem_canonical : lesson ∈ reader.canonical on ↔
    lesson ∈ reader.rows ∧ reader.readable on lesson = true := by
  rw [canonical, List.mem_filter, allLessonsOf_perm.mem_iff]

theorem nodup_linked : (reader.linked on).Nodup :=
  ((orderBy_perm _ _).nodup_iff.mpr nodup_rows).filter _

theorem nodup_canonical : (reader.canonical on).Nodup :=
  (allLessonsOf_perm.nodup_iff.mpr nodup_rows).filter _

/-! ## Availability and the read gate -/

theorem module? (h : lesson ∈ reader.rows) :
    reader.db.module? lesson.moduleId = some reader.m := by
  rw [(mem_rows.mp h).2]
  exact reader.schema.modules.find? reader.module

theorem active_of_available (h : reader.available on lesson = true) :
    lesson.archived? = false := by
  unfold available Database.available? at h
  cases harchived : lesson.archived? with
  | false => rfl
  | true => simp [harchived] at h

theorem checkLesson_eq_ok_iff {db : Database} {enrollment : Enrollment} {cohort : Cohort}
    {m : CurriculumModule} {inaccessible locked : Failure} :
    db.checkLesson enrollment cohort m lesson on inaccessible locked = .ok () ↔
      (db.moduleOpen? (db.moduleAssignmentFor enrollment lesson.moduleId) m cohort on = true ∨
        (db.lessonAssignmentFor enrollment lesson.id).isSome = true) ∧
      db.available? lesson m cohort (db.moduleAssignmentFor enrollment lesson.moduleId)
        (db.lessonAssignmentFor enrollment lesson.id) on = true := by
  simp only [Database.checkLesson, Bool.or_eq_true]
  split
  · rename_i hopen
    split <;> simp_all
  · rename_i hclosed
    simp [hclosed]

section

variable (h : lesson ∈ reader.rows)

include h

theorem readable_eq (hactive : lesson.archived? = false) :
    reader.readable on lesson = true ↔
      (reader.db.moduleOpen? reader.moduleAssignment reader.m reader.cohort on = true ∨
        (reader.lessonAssignment lesson).isSome = true) ∧ reader.available on lesson = true := by
  have hgate : authorizeLessonRead! reader.db reader.user lesson on =
      reader.db.checkLesson reader.enrollment reader.cohort reader.m lesson on
        (.forbidden "Cannot access this lesson") (.forbidden "Lesson is not unlocked yet") := by
    unfold authorizeLessonRead!
    simp [reader.student, hactive, module? h, reader.enrolled]
  rw [readable, decide_eq_true_eq, hgate, checkLesson_eq_ok_iff, (mem_rows.mp h).2]
  rfl

/-- The read gate asks for an assignment of the module or of the lesson besides. -/
theorem readable_iff :
    reader.readable on lesson = true ↔ reader.available on lesson = true ∧
      (reader.moduleAssignment.isSome = true ∨ (reader.lessonAssignment lesson).isSome = true) := by
  cases hactive : lesson.archived? with
  | true =>
    have hunavailable : reader.available on lesson ≠ true := fun havailable => by
      cases (active_of_available havailable) ▸ hactive
    have hunreadable : reader.readable on lesson ≠ true := by
      simp [readable, authorizeLessonRead!, reader.student, hactive]
    simp [hunavailable, hunreadable]
  | false =>
    rw [readable_eq h hactive, and_comm, and_congr_right_iff]
    intro havailable
    cases hlesson : reader.lessonAssignment lesson with
    | some row => simp
    | none =>
      cases hmodule : reader.moduleAssignment with
      | none => simp [Database.moduleOpen?]
      | some assignment =>
        -- An available lesson of an assigned module shows that the module is accessible.
        have haccessible : reader.db.accessible? assignment reader.m reader.cohort on = true := by
          by_contra hclosed
          simp [available, Database.available?, hactive, hlesson, hmodule, hclosed] at havailable
        simp [Database.moduleOpen?, haccessible]

/-! ## The links of a page -/

theorem siblingLessons_eq :
    reader.db.siblingLessons reader.user lesson reader.m on = reader.linked on := by
  unfold Database.siblingLessons
  simp only [reader.student, Bool.false_eq_true, if_false, reader.enrolled, (mem_rows.mp h).2]
  rfl

theorem links_of_neighbours {previous next : Option Lesson}
    (hneighbours : Neighbours (reader.linked on) lesson previous next) (now : Time) :
    (lessonJson reader.db reader.user lesson reader.m on now).prevLesson =
        previous.map Lesson.link ∧
      (lessonJson reader.db reader.user lesson reader.m on now).nextLesson =
        next.map Lesson.link := by
  obtain ⟨front, back, heq, rfl, rfl⟩ := hneighbours
  have hfirst : ∀ other ∈ front, other.id ≠ lesson.id := by
    intro other hother hid
    have hmem : other ∈ reader.linked on := by simp [heq, hother]
    have hsame := reader.schema.lessons.eq_of_key (mem_rows.mp (mem_linked.mp hmem).1).1
      (mem_rows.mp h).1 hid
    have hnodup : (reader.linked on).Nodup := nodup_linked
    rw [heq] at hnodup
    exact (List.nodup_append.mp hnodup).2.2 other hother lesson (by simp) hsame
  have hindex : (front ++ lesson :: back).findIdx? (·.id == lesson.id) = some front.length := by
    have hfront : front.findIdx? (·.id == lesson.id) = none := by
      simpa [List.findIdx?_eq_none_iff] using hfirst
    simp [List.findIdx?_append, hfront, List.findIdx?_cons]
  have hprevious : (if front.length = 0 then none
      else ((front ++ lesson :: back)[front.length - 1]?).map Lesson.link) =
        front.getLast?.map Lesson.link := by
    rcases List.eq_nil_or_concat front with rfl | ⟨rest, last, rfl⟩
    · rfl
    · simp
  have hnext : (front ++ lesson :: back)[front.length + 1]? = back.head? := by
    rw [List.getElem?_append_right (by omega)]
    simp [List.head?_eq_getElem?]
  unfold lessonJson
  simp only [siblingLessons_eq h, heq, hindex, Option.bind_some, hprevious, hnext, and_self]

theorem lessonsShow_eq_ok_iff {now : Time} {json : LessonJson} :
    lessonsShow reader.db reader.user lesson.id on now = .ok json ↔
      reader.readable on lesson = true ∧
        lessonJson reader.db reader.user lesson reader.m on now = json := by
  have hlookup : reader.db.lesson? lesson.id = some lesson :=
    reader.schema.lessons.find? (mem_rows.mp h).1
  simp [lessonsShow, bind_eq_ok, orNotFound_eq_ok, hlookup, module? h, readable, Unique.exists_iff]

end

/-- The page of a lesson links to its neighbours among the lessons that the student can read. -/
def LinksCanonical (reader : Reader) (on : Date) (now : Time) (lesson : Lesson) : Prop :=
  ∀ json, lessonsShow reader.db reader.user lesson.id on now = .ok json →
    ∃ previous next, Neighbours (reader.canonical on) lesson previous next ∧
      json.prevLesson = previous.map Lesson.link ∧ json.nextLesson = next.map Lesson.link

theorem map_link_inj {first second : Option Lesson}
    (hfirst : ∀ lesson ∈ first, lesson ∈ reader.db.lessons)
    (hsecond : ∀ lesson ∈ second, lesson ∈ reader.db.lessons)
    (h : first.map Lesson.link = second.map Lesson.link) : first = second := by
  cases first with
  | none => simpa [eq_comm] using h
  | some a =>
    cases second with
    | none => simp at h
    | some b =>
      have hid : a.id = b.id := congrArg LessonLink.id (Option.some.inj h)
      rw [reader.schema.lessons.eq_of_key (hfirst a rfl) (hsecond b rfl) hid]

/-- All links are canonical exactly if nothing can be read or the two lists are equal. -/
theorem linksCanonical_iff_eq (now : Time) :
    (∀ lesson ∈ reader.rows, reader.LinksCanonical on now lesson) ↔
      reader.canonical on = [] ∨ reader.linked on = reader.canonical on := by
  rw [← same_neighbours_iff nodup_linked nodup_canonical]
  have hlinked : ∀ {lesson}, lesson ∈ reader.canonical on → lesson ∈ reader.linked on := by
    intro lesson hmem
    obtain ⟨hrow, hreadable⟩ := mem_canonical.mp hmem
    exact mem_linked.mpr ⟨hrow, ((readable_iff hrow).mp hreadable).1⟩
  have hdb : ∀ {lesson}, lesson ∈ reader.linked on → lesson ∈ reader.db.lessons :=
    fun hmem => (mem_rows.mp (mem_linked.mp hmem).1).1
  constructor
  · intro h lesson hmem previous next hneighbours
    obtain ⟨hrow, hreadable⟩ := mem_canonical.mp hmem
    obtain ⟨previous', next', hcanonical, hprevious, hnext⟩ :=
      h lesson hrow _ ((lessonsShow_eq_ok_iff hrow).mpr ⟨hreadable, rfl⟩)
    obtain ⟨rfl, rfl⟩ := hneighbours.unique nodup_canonical hcanonical
    obtain ⟨previous', next', hlinks⟩ := exists_neighbours (hlinked hmem)
    obtain ⟨hprevious', hnext'⟩ := links_of_neighbours hrow hlinks now
    obtain rfl : previous' = previous := map_link_inj (fun _ h => hdb (hlinks.mem.1 _ h))
      (fun _ h => hdb (hlinked (hneighbours.mem.1 _ h))) (hprevious'.symm.trans hprevious)
    obtain rfl : next' = next := map_link_inj (fun _ h => hdb (hlinks.mem.2 _ h))
      (fun _ h => hdb (hlinked (hneighbours.mem.2 _ h))) (hnext'.symm.trans hnext)
    exact hlinks
  · intro h lesson hrow json hjson
    obtain ⟨hreadable, rfl⟩ := (lessonsShow_eq_ok_iff hrow).mp hjson
    obtain ⟨previous, next, hneighbours⟩ :=
      exists_neighbours (mem_canonical.mpr ⟨hrow, hreadable⟩)
    exact ⟨previous, next, hneighbours, links_of_neighbours hrow
      (h lesson (mem_canonical.mpr ⟨hrow, hreadable⟩) previous next hneighbours) now⟩

/-! ## When the lists are equal -/

/-- The module is assigned, or none of its lessons without an assignment has reached its date. -/
def OnlyAssigned (reader : Reader) (on : Date) : Prop :=
  reader.moduleAssignment.isSome = true ∨
    ∀ lesson ∈ reader.rows, lesson.archived? = false → reader.lessonAssignment lesson = none →
      on < reader.db.unlockDate lesson reader.m reader.cohort none

/-- The positions of the readable lessons follow the order of the module; `ORDER BY position`
leaves lessons with one position as they stand in the table. -/
def PositionsFollow (reader : Reader) (on : Date) : Prop :=
  ∀ first ∈ reader.rows, ∀ second ∈ reader.rows, first ≠ second →
    reader.readable on first = true → reader.readable on second = true →
    first.precedes second →
    first.position < second.position ∨
      (first.position = second.position ∧ Precedes reader.rows first second)

theorem available_iff_readable :
    (∀ lesson ∈ reader.rows, reader.available on lesson = true →
        reader.readable on lesson = true) ↔ reader.OnlyAssigned on := by
  constructor
  · intro h
    cases hmodule : reader.moduleAssignment with
    | some assignment => exact .inl (by rw [hmodule, Option.isSome_some])
    | none =>
      right
      intro lesson hrow hactive hlesson
      by_contra hreached
      have havailable : reader.available on lesson = true := by
        simpa [available, Database.available?, hactive, hlesson, hmodule] using hreached
      have hassigned := ((readable_iff hrow).mp (h lesson hrow havailable)).2
      simp [hmodule, hlesson] at hassigned
  · intro h lesson hrow havailable
    refine (readable_iff hrow).mpr ⟨havailable, ?_⟩
    cases hlesson : reader.lessonAssignment lesson with
    | some assignment => exact .inr rfl
    | none =>
      left
      cases hmodule : reader.moduleAssignment with
      | some assignment => rfl
      | none =>
        have hactive := active_of_available havailable
        rcases h with hassigned | hlater
        · cases hmodule ▸ hassigned
        · have hreached : reader.db.unlockDate lesson reader.m reader.cohort none ≤ on := by
            simpa [available, Database.available?, hactive, hlesson, hmodule] using havailable
          exact absurd (hlater lesson hrow hactive hlesson) (not_lt.mpr hreached)

theorem precedes_canonical_iff {first second : Lesson} (hfirst : first ∈ reader.canonical on)
    (hsecond : second ∈ reader.canonical on) (hne : first ≠ second) :
    Precedes (reader.canonical on) first second ↔ first.precedes second := by
  have hsorted : (reader.canonical on).Pairwise Lesson.precedes := by
    have : Std.Total Lesson.precedes := ⟨Lesson.precedes_total⟩
    have : IsTrans Lesson Lesson.precedes := ⟨fun _ _ _ => Lesson.precedes_trans⟩
    exact (List.pairwise_insertionSort _ _).sublist List.filter_sublist
  have hprecedes : ∀ {a b}, Precedes (reader.canonical on) a b → a.precedes b := fun h =>
    List.pairwise_iff_forall_sublist.mp hsorted h
  constructor
  · exact hprecedes
  · intro h
    refine (precedes_or hfirst hsecond hne).resolve_right ?_
    intro hswap
    exact hne (reader.schema.lessons.eq_of_key (mem_rows.mp (mem_canonical.mp hfirst).1).1
      (mem_rows.mp (mem_canonical.mp hsecond).1).1
      (Lesson.id_eq_of_precedes h (hprecedes hswap)))

theorem precedes_linked_iff {first second : Lesson} (hfirst : first ∈ reader.linked on)
    (hsecond : second ∈ reader.linked on) (hne : first ≠ second) :
    Precedes (reader.linked on) first second ↔ first.position < second.position ∨
      (first.position = second.position ∧ Precedes reader.rows first second) := by
  obtain ⟨hrow, havailable⟩ := mem_linked.mp hfirst
  obtain ⟨hrow', havailable'⟩ := mem_linked.mp hsecond
  rw [linked, precedes_filter_iff, precedes_orderBy_iff nodup_rows hrow hrow' hne]
  simp [havailable, havailable']

/-- The links lead to the neighbours in the order of the module, for all lessons that the student
can read, exactly if no other lesson is available and the positions follow that order. -/
theorem lesson_links_canonical_iff (reader : Reader) (on : Date) (now : Time) :
    (∀ lesson ∈ reader.rows, reader.LinksCanonical on now lesson) ↔
      (reader.canonical on = [] ∨ reader.OnlyAssigned on) ∧ reader.PositionsFollow on := by
  rw [linksCanonical_iff_eq]
  constructor
  · rintro (hempty | heq)
    · refine ⟨.inl hempty, ?_⟩
      intro first hfirst _ _ _ hreadable
      have hmem := mem_canonical.mpr ⟨hfirst, hreadable⟩
      cases hempty ▸ hmem
    · refine ⟨.inr (available_iff_readable.mp ?_), ?_⟩
      · intro lesson hrow havailable
        have hmem := mem_linked.mpr ⟨hrow, havailable⟩
        rw [heq] at hmem
        exact (mem_canonical.mp hmem).2
      · intro first hfirst second hsecond hne hreadable hreadable' hprecedes
        have hmem := mem_canonical.mpr ⟨hfirst, hreadable⟩
        have hmem' := mem_canonical.mpr ⟨hsecond, hreadable'⟩
        have hbefore := (precedes_canonical_iff hmem hmem' hne).mpr hprecedes
        rw [← heq] at hmem hmem' hbefore
        exact (precedes_linked_iff hmem hmem' hne).mp hbefore
  · rintro ⟨hempty | hassigned, hfollow⟩
    · exact .inl hempty
    · right
      have hmem : ∀ lesson, lesson ∈ reader.canonical on ↔ lesson ∈ reader.linked on := by
        intro lesson
        rw [mem_canonical, mem_linked]
        refine and_congr_right fun hrow => ⟨fun h => ((readable_iff hrow).mp h).1, ?_⟩
        exact available_iff_readable.mpr hassigned lesson hrow
      refine (eq_of_precedes nodup_canonical nodup_linked hmem ?_).symm
      intro first second hbefore
      have hne := hbefore.ne nodup_canonical
      have hfirst := hbefore.subset (by simp : first ∈ [first, second])
      have hsecond := hbefore.subset (by simp : second ∈ [first, second])
      obtain ⟨hrow, hreadable⟩ := mem_canonical.mp hfirst
      obtain ⟨hrow', hreadable'⟩ := mem_canonical.mp hsecond
      refine (precedes_linked_iff ((hmem _).mp hfirst) ((hmem _).mp hsecond) hne).mpr ?_
      exact hfollow first hrow second hrow' hne hreadable hreadable'
        ((precedes_canonical_iff hfirst hsecond hne).mp hbefore)

namespace LessonLinksExample

/-- Two lessons on the first day and one on the second, numbered on each day or through. -/
def db (byDay : Bool) : Database where
  modules := [{ id := 2, curriculumId := 1 }]
  lessons := [{ id := 3, moduleId := 2, title := "Setup", position := 1 },
    { id := 4, moduleId := 2, title := "Variables", position := 2 },
    { id := 5, moduleId := 2, title := "Loops", position := if byDay then 1 else 3,
      releaseDay := 1 }]
  cohorts := [{ id := 6, curriculumId := 1 }]
  enrollments := [{ id := 8, userId := 7, cohortId := 6 }]
  moduleAssignments := [{ id := 9, enrollmentId := 8, moduleId := 2 }]
  nextId := 20

theorem schema_db (byDay : Bool) : CurriculumSchema (db byDay) where
  modules := ⟨by decide +revert, by decide +revert⟩
  lessons := ⟨by decide +revert, by decide +revert⟩
  cohorts := ⟨by decide +revert, by decide +revert⟩
  schedules := ⟨by decide +revert, by decide +revert⟩
  enrollments := ⟨by decide +revert, by decide +revert⟩
  moduleAssignments := ⟨⟨by decide +revert, by decide +revert⟩, by decide +revert,
    by decide +revert⟩
  lessonAssignments := ⟨⟨by decide +revert, by decide +revert⟩, by decide +revert,
    by decide +revert⟩
  contentBlocks := ⟨by decide +revert, by decide +revert⟩
  lessonModule := by decide +revert
  releaseDays lesson hlesson m hm _ := by
    have hvalid : ∀ lesson ∈ (db byDay).lessons, ∀ m ∈ (db byDay).modules,
        0 ≤ lesson.releaseDay ∧ m.validReleaseDay? lesson.releaseDay = true := by
      decide +revert
    exact ⟨(hvalid lesson hlesson m hm).1, fun _ => (hvalid lesson hlesson m hm).2⟩

def student (byDay : Bool) : Reader where
  db := db byDay
  user := { id := 7 }
  enrollment := { id := 8, userId := 7, cohortId := 6 }
  cohort := { id := 6, curriculumId := 1 }
  m := { id := 2, curriculumId := 1 }
  schema := schema_db byDay
  student := rfl
  module := List.mem_singleton.mpr rfl
  enrolled := rfl

def links (byDay : Bool) (id : ℕ) : Option (Option ℕ × Option ℕ) :=
  match lessonsShow (db byDay) { id := 7 } id 10 0 with
  | .ok json => some (json.prevLesson.map (·.id), json.nextLesson.map (·.id))
  | .error _ => none

theorem numbered_through :
    (∀ lesson ∈ (student false).rows, (student false).LinksCanonical 10 0 lesson) ∧
      links false 3 = some (none, some 4) ∧ links false 4 = some (some 3, some 5) := by
  have hpositions : ∀ first ∈ (student false).rows, ∀ second ∈ (student false).rows,
      first ≠ second → first.precedes second → first.position < second.position := by
    decide +kernel
  refine ⟨(lesson_links_canonical_iff (student false) 10 0).mpr ⟨.inr (.inl rfl), ?_⟩,
    by decide +kernel, by decide +kernel⟩
  intro first hfirst second hsecond hne _ _ hprecedes
  exact .inl (hpositions first hfirst second hsecond hne hprecedes)

/-- Positions count from one on each day, so the second day's lesson comes between the lessons of
the first day. -/
theorem numbered_by_day :
    links true 3 = some (none, some 5) ∧ links true 5 = some (some 3, some 4) ∧
      ((student true).canonical 10).map (·.id) = [3, 4, 5] := by
  decide +kernel

end LessonLinksExample

end Reader

end LearningPlatform
