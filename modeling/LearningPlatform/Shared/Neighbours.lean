import LearningPlatform.Shared.Window

/-! # Neighbours in a list

The order of the entries of a list without duplicates, and the entries next to each of them. -/

namespace LearningPlatform.Shared

variable {α κ : Type*} [LinearOrder κ]

/-! ## The order of two entries -/

/-- The first entry comes before the second. -/
def Precedes (entries : List α) (first second : α) : Prop :=
  [first, second].Sublist entries

variable {entries front : List α} {first second entry : α} {previous next : Option α}

theorem precedes_or (hfirst : first ∈ entries) (hsecond : second ∈ entries) (hne : first ≠ second) :
    Precedes entries first second ∨ Precedes entries second first := by
  obtain ⟨front, back, rfl⟩ := List.append_of_mem hfirst
  rcases List.mem_append.mp hsecond with hfront | hback
  · right
    exact (List.singleton_sublist.mpr hfront).append (List.singleton_sublist.mpr (by simp))
  · left
    have hmem : second ∈ back := by simpa [hne.symm] using hback
    exact ((List.singleton_sublist.mpr hmem).cons_cons first).trans
      (List.sublist_append_right _ _)

theorem Precedes.asymm (hnodup : entries.Nodup) (h : Precedes entries first second) :
    ¬ Precedes entries second first := by
  induction entries with
  | nil => cases h
  | cons head rest ih =>
    obtain ⟨hhead, hrest⟩ := List.nodup_cons.mp hnodup
    intro h'
    cases h with
    | cons _ h =>
      cases h' with
      | cons _ h' => exact ih hrest h h'
      | cons_cons _ h' => exact hhead (h.subset (by simp))
    | cons_cons _ h =>
      cases h' with
      | cons _ h' => exact hhead (h'.subset (by simp))
      | cons_cons _ h' => exact hhead (h.subset (by simp))

theorem Precedes.ne (hnodup : entries.Nodup) (h : Precedes entries first second) :
    first ≠ second := by
  rintro rfl
  exact h.asymm hnodup h

theorem precedes_filter_iff {p : α → Bool} :
    Precedes (entries.filter p) first second ↔
      Precedes entries first second ∧ p first = true ∧ p second = true := by
  constructor
  · intro h
    have hfirst := h.subset (by simp : first ∈ [first, second])
    have hsecond := h.subset (by simp : second ∈ [first, second])
    exact ⟨h.trans List.filter_sublist, (List.mem_filter.mp hfirst).2,
      (List.mem_filter.mp hsecond).2⟩
  · rintro ⟨h, hfirst, hsecond⟩
    simpa [Precedes, hfirst, hsecond] using h.filter p

/-- Lists with the same entries in the same order are equal. -/
theorem eq_of_precedes {first second : List α} (hfirst : first.Nodup) (hsecond : second.Nodup)
    (hmem : ∀ entry, entry ∈ first ↔ entry ∈ second)
    (h : ∀ a b, Precedes first a b → Precedes second a b) : first = second := by
  refine ((List.perm_ext_iff_of_nodup hfirst hsecond).mpr hmem).eq_of_pairwise ?_
    (List.pairwise_iff_forall_sublist.mpr (h _ _)) (List.pairwise_iff_forall_sublist.mpr id)
  intro a b _ _ hab hba
  exact absurd hba (hab.asymm hsecond)

/-- A stable sort by a key keeps the order of rows with the same key. -/
theorem precedes_orderBy_iff {key : α → κ} {rows : List α} (hnodup : rows.Nodup)
    (hfirst : first ∈ rows) (hsecond : second ∈ rows) (hne : first ≠ second) :
    Precedes (orderBy key rows) first second ↔
      key first < key second ∨ (key first = key second ∧ Precedes rows first second) := by
  have hsorted : (orderBy key rows).Nodup := (orderBy_perm key rows).nodup_iff.mpr hnodup
  have hle : ∀ {a b}, Precedes (orderBy key rows) a b → key a ≤ key b := fun h =>
    List.pairwise_iff_forall_sublist.mp (pairwise_orderBy key rows) h
  have hkeep : ∀ {a b}, Precedes rows a b → key a ≤ key b → Precedes (orderBy key rows) a b :=
    fun h hab => List.pair_sublist_insertionSort hab h
  constructor
  · intro h
    rcases (hle h).lt_or_eq with hlt | heq
    · exact .inl hlt
    · right
      refine ⟨heq, (precedes_or hfirst hsecond hne).resolve_right ?_⟩
      intro hswap
      exact h.asymm hsorted (hkeep hswap heq.ge)
  · rintro (hlt | ⟨heq, h⟩)
    · refine (precedes_or (mem_orderBy.mpr hfirst) (mem_orderBy.mpr hsecond) hne).resolve_right ?_
      intro hswap
      exact not_lt.mpr (hle hswap) hlt
    · exact hkeep h heq.le

/-! ## Neighbours -/

/-- The entries next to an entry. -/
def Neighbours (entries : List α) (entry : α) (previous next : Option α) : Prop :=
  ∃ front back, entries = front ++ entry :: back ∧ previous = front.getLast? ∧ next = back.head?

theorem exists_neighbours (h : entry ∈ entries) :
    ∃ previous next, Neighbours entries entry previous next := by
  obtain ⟨front, back, heq⟩ := List.append_of_mem h
  exact ⟨_, _, front, back, heq, rfl, rfl⟩

theorem append_cons_inj {front' back back' : List α} (hnodup : (front ++ entry :: back).Nodup)
    (h : front ++ entry :: back = front' ++ entry :: back') : front = front' ∧ back = back' := by
  induction front generalizing front' with
  | nil =>
    cases front' with
    | nil => exact ⟨rfl, (List.cons.inj h).2⟩
    | cons head rest =>
      obtain ⟨rfl, rfl⟩ := List.cons.inj h
      simp at hnodup
  | cons head rest ih =>
    cases front' with
    | nil =>
      obtain ⟨rfl, -⟩ := List.cons.inj h
      simp at hnodup
    | cons head' rest' =>
      obtain ⟨rfl, htail⟩ := List.cons.inj h
      obtain ⟨rfl, rfl⟩ := ih (List.nodup_cons.mp hnodup).2 htail
      exact ⟨rfl, rfl⟩

theorem neighbours_iff {back : List α} (hnodup : (front ++ entry :: back).Nodup) :
    Neighbours (front ++ entry :: back) entry previous next ↔
      previous = front.getLast? ∧ next = back.head? := by
  constructor
  · rintro ⟨front', back', heq, hprevious, hnext⟩
    obtain ⟨rfl, rfl⟩ := append_cons_inj hnodup heq
    exact ⟨hprevious, hnext⟩
  · rintro ⟨hprevious, hnext⟩
    exact ⟨front, back, rfl, hprevious, hnext⟩

theorem Neighbours.unique (hnodup : entries.Nodup) {previous' next' : Option α}
    (h : Neighbours entries entry previous next) (h' : Neighbours entries entry previous' next') :
    previous = previous' ∧ next = next' := by
  obtain ⟨front, back, rfl, rfl, rfl⟩ := h
  obtain ⟨rfl, rfl⟩ := (neighbours_iff hnodup).mp h'
  exact ⟨rfl, rfl⟩

theorem Neighbours.mem (h : Neighbours entries entry previous next) :
    (∀ other ∈ previous, other ∈ entries) ∧ ∀ other ∈ next, other ∈ entries := by
  obtain ⟨front, back, rfl, rfl, rfl⟩ := h
  constructor
  · intro other hother
    exact List.mem_append_left _ (List.mem_of_getLast? hother)
  · intro other hother
    exact List.mem_append_right _ (List.mem_cons_of_mem _ (List.mem_of_head? hother))

/-- Lists that agree up to an entry agree after it if the next entries always do. -/
theorem eq_of_next {first second : List α} (hfirst : (front ++ entry :: first).Nodup)
    (hsecond : (front ++ entry :: second).Nodup)
    (h : ∀ a ∈ entry :: second, ∀ previous next, Neighbours (front ++ entry :: second) a previous
      next → Neighbours (front ++ entry :: first) a previous next) : first = second := by
  induction second generalizing front first entry with
  | nil =>
    have hnext := h entry (by simp) _ _ ((neighbours_iff hsecond).mpr ⟨rfl, rfl⟩)
    exact List.head?_eq_none_iff.mp ((neighbours_iff hfirst).mp hnext).2.symm
  | cons head rest ih =>
    have hnext := h entry (by simp) _ _ ((neighbours_iff hsecond).mpr ⟨rfl, rfl⟩)
    obtain ⟨rest', rfl⟩ := List.head?_eq_some_iff.mp ((neighbours_iff hfirst).mp hnext).2.symm
    have hsplit : ∀ back, front ++ entry :: head :: back = (front ++ [entry]) ++ head :: back := by
      simp
    simp only [hsplit] at hfirst hsecond h
    rw [ih hfirst hsecond fun a ha => h a (List.mem_cons_of_mem entry ha)]

/-- Entries have the same neighbours in a list as in another only if the lists are equal. -/
theorem same_neighbours_iff {first second : List α} (hfirst : first.Nodup)
    (hsecond : second.Nodup) :
    (∀ entry ∈ second, ∀ previous next, Neighbours second entry previous next →
        Neighbours first entry previous next) ↔ second = [] ∨ first = second := by
  constructor
  · intro h
    cases second with
    | nil => exact .inl rfl
    | cons head rest =>
      right
      obtain ⟨front, back, rfl, hprevious, -⟩ :=
        h head (by simp) none rest.head? ⟨[], rest, rfl, rfl, rfl⟩
      obtain rfl : front = [] := List.getLast?_eq_none_iff.mp hprevious.symm
      have hback : back = rest := eq_of_next (show ([] ++ head :: back).Nodup from hfirst) hsecond h
      rw [hback, List.nil_append]
  · rintro (rfl | rfl) entry hentry previous next hneighbours
    · simp at hentry
    · exact hneighbours

end LearningPlatform.Shared
