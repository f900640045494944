import LearningPlatform.Shared.Newest
import LearningPlatform.Shared.Run

/-! # Deletion of an object that rows refer to

Associations say what is done to the rows that refer to an object before it is deleted: they are
destroyed, their column is set to null, or the deletion is refused. What refers to the object after
that is left to the foreign keys. -/

namespace LearningPlatform.Shared

inductive Dependent where
  | destroy
  | nullify
  | restrict
  deriving DecidableEq, Repr

/-- A row of a table with the objects that its columns refer to. -/
structure LinkedRow {γ τ : Type*} (table : γ → τ) where
  home : τ
  id : ℕ
  links : List (γ × ℕ)
  owned : ∀ link ∈ links, table link.1 = home

/-- The column that a deletion fails on. -/
inductive DeletionError (γ : Type*) where
  | restricted (column : γ)
  | notNull (column : γ)
  | referenced (column : γ)
  deriving DecidableEq, Repr

/-- The columns that refer to objects: the associations in the order of their callbacks, the columns
that may not be null, and the foreign keys with `ON DELETE SET NULL`. -/
structure DeletionPolicy (γ : Type*) where
  associations : List (γ × Dependent)
  notNull : γ → Bool
  nullifies : γ → Bool

variable {γ τ : Type*} [DecidableEq γ] {table : γ → τ}

namespace LinkedRow

def refers? (row : LinkedRow table) (column : γ) (key : ℕ) : Bool :=
  row.links.contains (column, key)

/-- The row without some of its links. -/
def keepLinks (row : LinkedRow table) (p : γ × ℕ → Bool) : LinkedRow table where
  home := row.home
  id := row.id
  links := row.links.filter p
  owned link hlink := row.owned link (List.mem_of_mem_filter hlink)

theorem refers?_iff {row : LinkedRow table} {column : γ} {key : ℕ} :
    row.refers? column key = true ↔ (column, key) ∈ row.links :=
  List.contains_iff_mem

theorem refers?_eq_false {row : LinkedRow table} {column : γ} {key : ℕ} :
    row.refers? column key = false ↔ (column, key) ∉ row.links := by
  rw [← refers?_iff, Bool.not_eq_true]

end LinkedRow

namespace DeletionPolicy

variable (policy : DeletionPolicy γ)

/-- The callback of an association. -/
def release (key : ℕ) (rows : List (LinkedRow table)) :
    γ × Dependent → Except (DeletionError γ) (List (LinkedRow table))
  | (column, .destroy) => .ok (rows.filter fun row => !row.refers? column key)
  | (column, .nullify) =>
    if policy.notNull column && rows.any (·.refers? column key) then .error (.notNull column)
    else .ok (rows.map fun row => row.keepLinks (· != (column, key)))
  | (column, .restrict) =>
    if rows.any (·.refers? column key) then .error (.restricted column) else .ok rows

/-- A foreign key that refers to the object and refuses its deletion. -/
def dangling? (key : ℕ) (row : LinkedRow table) : Option γ :=
  (row.links.find? fun link => link.2 == key && !policy.nullifies link.1).map Prod.fst

/-- The `DELETE` statement. -/
def deleteReleased (key : ℕ) (rows : List (LinkedRow table)) :
    Except (DeletionError γ) (List (LinkedRow table)) :=
  match rows.findSome? (policy.dangling? key) with
  | some column => .error (.referenced column)
  | none => .ok (rows.map fun row => row.keepLinks (·.2 != key))

/-- The deletion of an object, in one transaction. -/
def delete (key : ℕ) (rows : List (LinkedRow table)) :
    Except (DeletionError γ) (List (LinkedRow table)) :=
  (policy.associations.foldlM (policy.release key) rows).bind (policy.deleteReleased key)

/-- Whether a callback refuses rows that refer to the object. -/
def refuses? : γ × Dependent → Bool
  | (_, .destroy) => false
  | (column, .nullify) => policy.notNull column
  | (_, .restrict) => true

/-- A reference in the column stands in the way of a deletion. -/
def blocks? (column : γ) : Bool :=
  match policy.associations.lookup column with
  | some dependent => policy.refuses? (column, dependent)
  | none => !policy.nullifies column

/-! ## One callback -/

section Callbacks

variable {policy : DeletionPolicy γ} {key : ℕ} {rows rows' : List (LinkedRow table)}
  {association : γ × Dependent} {associations : List (γ × Dependent)}

theorem release_isOk (h : policy.refuses? association = true →
      ∀ row ∈ rows, row.refers? association.1 key = false) :
    ∃ rows', policy.release key rows association = .ok rows' := by
  obtain ⟨column, dependent⟩ := association
  cases dependent with
  | destroy => exact ⟨_, rfl⟩
  | nullify =>
    refine ⟨_, if_neg ?_⟩
    intro hrefused
    obtain ⟨hnotNull, hany⟩ := Bool.and_eq_true_iff.mp hrefused
    obtain ⟨row, hrow, hrefers⟩ := List.any_eq_true.mp hany
    cases (h hnotNull row hrow) ▸ hrefers
  | restrict =>
    refine ⟨_, if_neg ?_⟩
    intro hany
    obtain ⟨row, hrow, hrefers⟩ := List.any_eq_true.mp hany
    cases (h rfl row hrow) ▸ hrefers

theorem release_rows (h : policy.release key rows association = .ok rows') {row' : LinkedRow table}
    (hrow' : row' ∈ rows') :
    row'.refers? association.1 key = false ∧ ∃ row ∈ rows, row'.links ⊆ row.links := by
  obtain ⟨column, dependent⟩ := association
  cases dependent with
  | destroy =>
    cases h
    obtain ⟨hrow, hkept⟩ := List.mem_filter.mp hrow'
    exact ⟨by simpa using hkept, row', hrow, List.Subset.refl _⟩
  | nullify =>
    simp only [release] at h
    split at h
    · cases h
    · cases h
      obtain ⟨row, hrow, rfl⟩ := List.mem_map.mp hrow'
      refine ⟨LinkedRow.refers?_eq_false.mpr ?_, row, hrow, List.filter_subset_self _⟩
      intro hlink
      simpa using (List.mem_filter.mp hlink).2
  | restrict =>
    simp only [release] at h
    split at h
    · cases h
    · rename_i hnone
      cases h
      refine ⟨?_, row', hrow', List.Subset.refl _⟩
      by_contra hrefers
      exact hnone (List.any_eq_true.mpr ⟨row', hrow', by simpa using hrefers⟩)

/-- A row that is not destroyed keeps its other links, and does not refer where that is refused. -/
theorem release_survivor (h : policy.release key rows association = .ok rows')
    {row : LinkedRow table} (hrow : row ∈ rows)
    (hkept : association.2 = .destroy → row.refers? association.1 key = false) :
    (policy.refuses? association = true → row.refers? association.1 key = false) ∧
      ∃ row' ∈ rows', row'.links ⊆ row.links ∧
        ∀ link ∈ row.links, link.1 ≠ association.1 → link ∈ row'.links := by
  obtain ⟨column, dependent⟩ := association
  cases dependent with
  | destroy =>
    cases h
    refine ⟨fun hrefuses => absurd hrefuses Bool.false_ne_true, row, ?_, List.Subset.refl _,
      fun _ hlink _ => hlink⟩
    exact List.mem_filter.mpr ⟨hrow, by simpa using hkept rfl⟩
  | nullify =>
    simp only [release] at h
    split at h
    · cases h
    · rename_i hnone
      cases h
      refine ⟨fun hnotNull => ?_, _, List.mem_map_of_mem hrow, List.filter_subset_self _, ?_⟩
      · by_contra hrefers
        refine hnone (Bool.and_eq_true_iff.mpr ⟨hnotNull, ?_⟩)
        exact List.any_eq_true.mpr ⟨row, hrow, by simpa using hrefers⟩
      · intro link hlink hcolumn
        refine List.mem_filter.mpr ⟨hlink, ?_⟩
        simpa using fun hsame => hcolumn (congrArg Prod.fst hsame)
  | restrict =>
    simp only [release] at h
    split at h
    · cases h
    · rename_i hnone
      cases h
      refine ⟨fun _ => ?_, row, hrow, List.Subset.refl _, fun _ hlink _ => hlink⟩
      by_contra hrefers
      exact hnone (List.any_eq_true.mpr ⟨row, hrow, by simpa using hrefers⟩)

/-! ## All callbacks -/

theorem releaseAll_isOk (h : ∀ association ∈ associations, policy.refuses? association = true →
      ∀ row ∈ rows, row.refers? association.1 key = false) :
    ∃ rows', associations.foldlM (policy.release key) rows = .ok rows' := by
  induction associations generalizing rows with
  | nil => exact ⟨rows, rfl⟩
  | cons association associations ih =>
    obtain ⟨released, hreleased⟩ := release_isOk (h association List.mem_cons_self)
    have hrest : ∀ other ∈ associations, policy.refuses? other = true →
        ∀ row' ∈ released, row'.refers? other.1 key = false := by
      intro other hother hrefuses row' hrow'
      obtain ⟨-, row, hrow, hsubset⟩ := release_rows hreleased hrow'
      have hnone := h other (List.mem_cons_of_mem _ hother) hrefuses row hrow
      rw [LinkedRow.refers?_eq_false] at hnone ⊢
      exact fun hlink => hnone (hsubset hlink)
    obtain ⟨rows', hrows'⟩ := ih hrest
    exact ⟨rows', by rw [List.foldlM_cons, hreleased]; exact hrows'⟩

theorem releaseAll_rows (h : associations.foldlM (policy.release key) rows = .ok rows')
    {row' : LinkedRow table} (hrow' : row' ∈ rows') :
    (∀ association ∈ associations, row'.refers? association.1 key = false) ∧
      ∃ row ∈ rows, row'.links ⊆ row.links := by
  induction associations generalizing rows with
  | nil =>
    cases h
    exact ⟨fun _ hmem => absurd hmem List.not_mem_nil, row', hrow', List.Subset.refl _⟩
  | cons association associations ih =>
    rw [List.foldlM_cons] at h
    obtain ⟨released, hreleased, hrest⟩ := bind_eq_ok.mp h
    obtain ⟨hnone, middle, hmiddle, hsubset⟩ := ih hrest
    obtain ⟨hgone, row, hrow, hsubset'⟩ := release_rows hreleased hmiddle
    refine ⟨?_, row, hrow, List.Subset.trans hsubset hsubset'⟩
    intro other hother
    rcases List.mem_cons.mp hother with rfl | hother
    · rw [LinkedRow.refers?_eq_false] at hgone ⊢
      exact fun hlink => hgone (hsubset hlink)
    · exact hnone other hother

theorem releaseAll_survivor (hnodup : (associations.map Prod.fst).Nodup)
    (h : associations.foldlM (policy.release key) rows = .ok rows') {row : LinkedRow table}
    (hrow : row ∈ rows) (hkept : ∀ association ∈ associations, association.2 = .destroy →
      row.refers? association.1 key = false) :
    (∀ association ∈ associations, policy.refuses? association = true →
      row.refers? association.1 key = false) ∧
      ∃ row' ∈ rows', ∀ link ∈ row.links, link.1 ∉ associations.map Prod.fst →
        link ∈ row'.links := by
  induction associations generalizing rows row with
  | nil =>
    cases h
    exact ⟨fun _ hmem => absurd hmem List.not_mem_nil, row, hrow, fun _ hlink _ => hlink⟩
  | cons association associations ih =>
    rw [List.map_cons, List.nodup_cons] at hnodup
    rw [List.foldlM_cons] at h
    obtain ⟨released, hreleased, hrest⟩ := bind_eq_ok.mp h
    obtain ⟨hrefused, middle, hmiddle, hsubset, hlinks⟩ :=
      release_survivor hreleased hrow (hkept association List.mem_cons_self)
    -- The links of the other columns are as before.
    have hother : ∀ other ∈ associations,
        row.refers? other.1 key = middle.refers? other.1 key := by
      intro other hmem
      have hne : other.1 ≠ association.1 := fun hsame =>
        hnodup.1 (hsame ▸ List.mem_map_of_mem hmem)
      rw [Bool.eq_iff_iff, LinkedRow.refers?_iff, LinkedRow.refers?_iff]
      exact ⟨fun hlink => hlinks _ hlink hne, fun hlink => hsubset hlink⟩
    obtain ⟨hrest', row', hrow', hlinks'⟩ := ih hnodup.2 hrest hmiddle
      fun other hmem hdestroy => by
        rw [← hother other hmem]
        exact hkept other (List.mem_cons_of_mem _ hmem) hdestroy
    refine ⟨?_, row', hrow', ?_⟩
    · intro other hmem hrefuses
      rcases List.mem_cons.mp hmem with rfl | hmem
      · exact hrefused hrefuses
      · rw [hother other hmem]
        exact hrest' other hmem hrefuses
    · intro link hlink hcolumn
      rw [List.map_cons, List.mem_cons, not_or] at hcolumn
      exact hlinks' link (hlinks link hlink hcolumn.1) hcolumn.2

end Callbacks

/-! ## Deletions -/

section Deletions

variable {policy : DeletionPolicy γ} {key : ℕ} {rows rows' : List (LinkedRow table)}

omit [DecidableEq γ] in
theorem dangling?_eq_none {row : LinkedRow table} :
    policy.dangling? key row = none ↔
      ∀ column, (column, key) ∈ row.links → policy.nullifies column = true := by
  unfold dangling?
  rw [Option.map_eq_none_iff, List.find?_eq_none]
  constructor
  · intro h column hlink
    simpa using h _ hlink
  · rintro h ⟨column, other⟩ hlink
    by_cases hkey : other = key
    · subst hkey
      simp [h column hlink]
    · simp [hkey]

/-- After a deletion nothing refers to the object. -/
theorem delete_rows (h : policy.delete key rows = .ok rows') {row' : LinkedRow table}
    (hrow' : row' ∈ rows') (column : γ) : row'.refers? column key = false := by
  obtain ⟨released, -, hchecked⟩ := bind_eq_ok.mp h
  unfold deleteReleased at hchecked
  split at hchecked
  · cases hchecked
  · cases hchecked
    obtain ⟨row, -, rfl⟩ := List.mem_map.mp hrow'
    rw [LinkedRow.refers?_eq_false]
    intro hlink
    simpa using (List.mem_filter.mp hlink).2

/-- No table has rows that may be destroyed and columns that stand in the way. -/
def Separate (policy : DeletionPolicy γ) (table : γ → τ) : Prop :=
  ∀ column other, table column = table other → (column, Dependent.destroy) ∈ policy.associations →
    policy.blocks? other = false

theorem delete_isOk_iff (hnodup : (policy.associations.map Prod.fst).Nodup)
    (hseparate : policy.Separate table) :
    (∃ rows', policy.delete key rows = .ok rows') ↔
      ∀ row ∈ rows, ∀ column, policy.blocks? column = true → row.refers? column key = false := by
  have hlookup {column : γ} {dependent : Dependent} :
      (column, dependent) ∈ policy.associations ↔
        policy.associations.lookup column = some dependent := mem_iff_lookup hnodup
  constructor
  · rintro ⟨rows', hdelete⟩ row hrow column hblocks
    obtain ⟨released, hreleased, hchecked⟩ := bind_eq_ok.mp hdelete
    by_contra hrefers
    have hlink : (column, key) ∈ row.links := LinkedRow.refers?_iff.mp (by simpa using hrefers)
    have hkept : ∀ association ∈ policy.associations, association.2 = .destroy →
        row.refers? association.1 key = false := by
      rintro ⟨other, dependent⟩ hmem rfl
      rw [LinkedRow.refers?_eq_false]
      intro hother
      have hhome := (row.owned _ hother).trans (row.owned _ hlink).symm
      cases (hseparate other column hhome hmem) ▸ hblocks
    obtain ⟨hrefused, row', hrow', hlinks⟩ := releaseAll_survivor hnodup hreleased hrow hkept
    unfold blocks? at hblocks
    split at hblocks
    · rename_i dependent hfound
      exact hrefers (hrefused _ (hlookup.mpr hfound) hblocks)
    · rename_i hunknown
      have hdangling : (column, key) ∈ row'.links := by
        refine hlinks _ hlink fun hmem => ?_
        obtain ⟨⟨other, dependent⟩, hassociation, hcolumn⟩ := List.mem_map.mp hmem
        rw [← show other = column from hcolumn, hlookup.mp hassociation] at hunknown
        cases hunknown
      unfold deleteReleased at hchecked
      split at hchecked
      · cases hchecked
      · rename_i hnone
        have hnullifies := dangling?_eq_none.mp (List.findSome?_eq_none_iff.mp hnone row' hrow')
          column hdangling
        simp [hnullifies] at hblocks
  · intro h
    obtain ⟨released, hreleased⟩ : ∃ released,
        policy.associations.foldlM (policy.release key) rows = .ok released := by
      refine releaseAll_isOk fun association hmem hrefuses row hrow => h row hrow _ ?_
      obtain ⟨column, dependent⟩ := association
      unfold blocks?
      rw [hlookup.mp hmem]
      exact hrefuses
    have hnone : released.findSome? (policy.dangling? key) = none := by
      refine List.findSome?_eq_none_iff.mpr fun row' hrow' => dangling?_eq_none.mpr ?_
      intro column hlink
      obtain ⟨hgone, row, hrow, hsubset⟩ := releaseAll_rows hreleased hrow'
      by_contra hnullifies
      have hunknown : policy.associations.lookup column = none := by
        cases hfound : policy.associations.lookup column with
        | none => rfl
        | some dependent =>
          have hfree := hgone _ (hlookup.mpr hfound)
          rw [LinkedRow.refers?_eq_false] at hfree
          exact absurd hlink hfree
      have hblocks : policy.blocks? column = true := by
        unfold blocks?
        rw [hunknown]
        simpa using hnullifies
      have hfree := h row hrow column hblocks
      rw [LinkedRow.refers?_eq_false] at hfree
      exact hfree (hsubset hlink)
    unfold delete
    rw [hreleased]
    change ∃ rows', policy.deleteReleased key released = .ok rows'
    unfold deleteReleased
    rw [hnone]
    exact ⟨_, rfl⟩

end Deletions

end DeletionPolicy

end LearningPlatform.Shared
