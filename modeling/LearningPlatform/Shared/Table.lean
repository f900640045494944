import Mathlib.Data.List.Nodup
import Mathlib.Data.List.Perm.Basic

/-! # List-backed tables

A table is the list of its rows in storage order. Lookups are `List.find?`, selections
are `List.filter`; this file adds the bulk writes. -/

namespace LearningPlatform.Shared

/-- Applies `f` to every row selected by `p`. -/
def updateAll {ρ : Type*} (p : ρ → Bool) (f : ρ → ρ) (rows : List ρ) : List ρ :=
  rows.map fun row => if p row then f row else row

/-- Removes every row selected by `p`. -/
def deleteAll {ρ : Type*} (p : ρ → Bool) (rows : List ρ) : List ρ :=
  rows.filter fun row => !p row

/-! ## Membership -/

variable {ρ : Type*} {p q : ρ → Bool} {f : ρ → ρ} {rows : List ρ} {row : ρ}

theorem mem_updateAll :
    row ∈ updateAll p f rows ↔
      (∃ old ∈ rows, p old = true ∧ row = f old) ∨ (row ∈ rows ∧ p row = false) := by
  simp only [updateAll, List.mem_map]
  constructor
  · rintro ⟨old, hold, rfl⟩
    cases hp : p old with
    | true => exact .inl ⟨old, hold, hp, by simp⟩
    | false => exact .inr (by simpa [hp] using hold)
  · rintro (⟨old, hold, hp, rfl⟩ | ⟨hrow, hp⟩)
    · exact ⟨old, hold, by simp [hp]⟩
    · exact ⟨row, hrow, by simp [hp]⟩

theorem mem_deleteAll : row ∈ deleteAll p rows ↔ row ∈ rows ∧ p row = false := by
  simp [deleteAll]

theorem mem_deleteAll_of_not (hrow : ¬ p row = true) : row ∈ deleteAll p rows ↔ row ∈ rows := by
  rw [mem_deleteAll]
  exact and_iff_left (Bool.eq_false_iff.mpr hrow)

theorem mem_filter_of_not_mem_deleteAll (hrow : row ∈ rows) (hgone : row ∉ deleteAll p rows) :
    row ∈ rows.filter p := by
  cases hp : p row with
  | true => exact List.mem_filter.mpr ⟨hrow, hp⟩
  | false => exact absurd (mem_deleteAll.mpr ⟨hrow, hp⟩) hgone

theorem mem_filter_of_not_mem_updateAll (hrow : row ∈ rows) (hgone : row ∉ updateAll p f rows) :
    row ∈ rows.filter p := by
  cases hp : p row with
  | true => exact List.mem_filter.mpr ⟨hrow, hp⟩
  | false => exact absurd (mem_updateAll.mpr (.inr ⟨hrow, hp⟩)) hgone

/-- What some row has, and the changed rows keep, some row has after a bulk update. -/
theorem exists_mem_updateAll {P : ρ → Prop} (hf : ∀ row ∈ rows, p row = true → P row → P (f row))
    (h : ∃ row ∈ rows, P row) : ∃ row ∈ updateAll p f rows, P row := by
  obtain ⟨row, hrow, hP⟩ := h
  cases hp : p row with
  | true => exact ⟨f row, mem_updateAll.mpr (.inl ⟨row, hrow, hp, rfl⟩), hf row hrow hp hP⟩
  | false => exact ⟨row, mem_updateAll.mpr (.inr ⟨hrow, hp⟩), hP⟩

section Forall

variable {P : ρ → Prop} (hrows : ∀ row ∈ rows, P row)

include hrows

theorem forall_append_singleton_iff : (∀ other ∈ rows ++ [row], P other) ↔ P row := by
  rw [List.forall_mem_append, List.forall_mem_singleton, and_iff_right hrows]

theorem forall_replace_iff {new : ρ} (hrow : row ∈ rows) (hp : p row = true) :
    (∀ other ∈ updateAll p (fun _ => new) rows, P other) ↔ P new := by
  constructor
  · exact fun h => h new (mem_updateAll.mpr (.inl ⟨row, hrow, hp, rfl⟩))
  · intro hnew other hother
    rcases mem_updateAll.mp hother with ⟨-, -, -, rfl⟩ | ⟨hother, -⟩
    · exact hnew
    · exact hrows other hother

end Forall

theorem mem_updateAll_of_eq_false (hf : ∀ old, p old = true → p (f old) = true)
    (hrow : p row = false) : row ∈ updateAll p f rows ↔ row ∈ rows := by
  rw [mem_updateAll]
  constructor
  · rintro (⟨old, -, hp, rfl⟩ | ⟨hmem, -⟩)
    · cases (hf old hp) ▸ hrow
    · exact hmem
  · exact fun hmem => .inr ⟨hmem, hrow⟩

theorem length_deleteAll_add (p : ρ → Bool) (rows : List ρ) :
    (deleteAll p rows).length + (rows.filter p).length = rows.length :=
  (Nat.add_comm _ _).trans (List.length_eq_length_filter_add p).symm

theorem length_filter_updateAll (hf : ∀ row, p (f row) = p row) (rows : List ρ) :
    ((updateAll q f rows).filter p).length = (rows.filter p).length := by
  rw [← List.countP_eq_length_filter, ← List.countP_eq_length_filter, updateAll, List.countP_map]
  apply List.countP_congr
  intro row _
  cases hq : q row <;> simp [hq, hf]

theorem mem_of_lookup_eq_some {κ ν : Type*} [BEq κ] [LawfulBEq κ] {entries : List (κ × ν)} {key : κ}
    {value : ν} (h : entries.lookup key = some value) : (key, value) ∈ entries := by
  obtain ⟨front, back, rfl, -⟩ := List.lookup_eq_some_iff.mp h
  simp

/-! ## Columns a bulk write leaves alone -/

theorem map_updateAll {κ : Type*} (column : ρ → κ) (hf : ∀ row, column (f row) = column row)
    (rows : List ρ) : (updateAll p f rows).map column = rows.map column := by
  simp only [updateAll, List.map_map]
  apply List.map_congr_left
  intro row _
  cases hp : p row <;> simp [hp, hf]

/-- A search for columns that an update leaves alone finds the updated row. -/
theorem find?_updateAll_of_mem (h : ∀ row ∈ rows, p row = true → q (f row) = q row) :
    (updateAll p f rows).find? q = (rows.find? q).map fun row => if p row then f row else row := by
  have hsame : ∀ row ∈ rows, q (if p row then f row else row) = q row := by
    intro row hrow
    by_cases hp : p row = true
    · simp [hp, h row hrow]
    · simp [hp]
  unfold updateAll
  induction rows with
  | nil => rfl
  | cons row rows ih =>
    have hfirst := hsame row (by simp)
    have hrest := ih (fun other hother => h other (List.mem_cons_of_mem _ hother))
      fun other hother => hsame other (List.mem_cons_of_mem _ hother)
    rw [List.map_cons, List.find?_cons, List.find?_cons, hfirst]
    cases q row with
    | true => rfl
    | false => exact hrest

theorem find?_updateAll (h : ∀ row, p row = true → q (f row) = q row) :
    (updateAll p f rows).find? q = (rows.find? q).map fun row => if p row then f row else row :=
  find?_updateAll_of_mem fun row _ => h row

theorem nodup_map_deleteAll {κ : Type*} (column : ρ → κ) (p : ρ → Bool)
    (h : (rows.map column).Nodup) : ((deleteAll p rows).map column).Nodup :=
  h.sublist (List.filter_sublist.map column)

theorem find?_eq_some_of_unique {ρ : Type*} {p : ρ → Bool} {rows : List ρ} {row : ρ}
    (hrow : row ∈ rows) (hp : p row = true)
    (h : ∀ other ∈ rows, p other = true → other = row) : rows.find? p = some row := by
  cases hfind : rows.find? p with
  | none =>
    have := List.find?_eq_none.mp hfind row hrow
    simp [hp] at this
  | some other => rw [h other (List.mem_of_find?_eq_some hfind) (List.find?_some hfind)]

/-! ## Keyed tables -/

/-- The keys of the rows are distinct and were all drawn below `bound`. -/
structure Keyed {ρ : Type*} (key : ρ → ℕ) (rows : List ρ) (bound : ℕ) : Prop where
  nodup : (rows.map key).Nodup
  lt : ∀ row ∈ rows, key row < bound

namespace Keyed

variable {ρ : Type*} {key : ρ → ℕ} {rows : List ρ} {bound : ℕ}

theorem empty (key : ρ → ℕ) (bound : ℕ) : Keyed key [] bound :=
  ⟨by simp, by simp⟩

variable (h : Keyed key rows bound)

include h

theorem mono {bound' : ℕ} (hle : bound ≤ bound') : Keyed key rows bound' :=
  ⟨h.nodup, fun row hrow => Nat.lt_of_lt_of_le (h.lt row hrow) hle⟩

theorem append {row : ρ} (hkey : key row = bound) :
    Keyed key (rows ++ [row]) (bound + 1) := by
  constructor
  · rw [List.map_append, List.nodup_append]
    refine ⟨h.nodup, by simp, ?_⟩
    intro k hk k' hk' heq
    obtain ⟨old, hold, rfl⟩ := List.mem_map.mp hk
    have hlt := h.lt old hold
    simp only [List.map_cons, List.map_nil, List.mem_singleton] at hk'
    omega
  · intro old hold
    rcases List.mem_append.mp hold with hold | hold
    · exact Nat.lt_succ_of_lt (h.lt old hold)
    · rw [List.mem_singleton.mp hold, hkey]
      exact Nat.lt_succ_self bound

theorem updateAll {p : ρ → Bool} {f : ρ → ρ} (hf : ∀ row, p row = true → key (f row) = key row) :
    Keyed key (updateAll p f rows) bound := by
  have hkeys : (Shared.updateAll p f rows).map key = rows.map key := by
    simp only [Shared.updateAll, List.map_map]
    apply List.map_congr_left
    intro row _
    cases hp : p row <;> simp [hp, hf]
  constructor
  · rw [hkeys]
    exact h.nodup
  · intro row hrow
    rcases mem_updateAll.mp hrow with ⟨old, hold, hp, rfl⟩ | ⟨hrow, -⟩
    · rw [hf old hp]
      exact h.lt old hold
    · exact h.lt row hrow

theorem deleteAll (p : ρ → Bool) : Keyed key (deleteAll p rows) bound :=
  ⟨nodup_map_deleteAll key p h.nodup, fun row hrow => h.lt row (mem_deleteAll.mp hrow).1⟩

theorem eq_of_key {row other : ρ} (hrow : row ∈ rows) (hother : other ∈ rows)
    (hkey : key row = key other) : row = other :=
  List.inj_on_of_nodup_map h.nodup hrow hother hkey

theorem find? {row : ρ} (hrow : row ∈ rows) :
    rows.find? (fun other => key other == key row) = some row :=
  find?_eq_some_of_unique hrow (by simp) fun _ hother hkey =>
    h.eq_of_key hother hrow (beq_iff_eq.mp hkey)

end Keyed

/-! ## References -/

/-- Every row refers to a parent and is related to the parents it refers to. -/
structure Refers {π ρ : Type*} (key : π → ℕ) (ref : ρ → ℕ) (R : π → ρ → Prop)
    (parents : List π) (rows : List ρ) : Prop where
  parent : ∀ row ∈ rows, ∃ p ∈ parents, key p = ref row
  related : ∀ row ∈ rows, ∀ p ∈ parents, key p = ref row → R p row

namespace Refers

variable {π ρ : Type*} {key : π → ℕ} {ref : ρ → ℕ} {R : π → ρ → Prop} {parents : List π}
  {rows : List ρ} {bound : ℕ} (h : Refers key ref R parents rows)

include h

theorem insertParent (hkeyed : Keyed key parents bound) {new : π} (hid : key new = bound) :
    Refers key ref R (parents ++ [new]) rows := by
  constructor
  · intro row hrow
    obtain ⟨p, hp, hkey⟩ := h.parent row hrow
    exact ⟨p, List.mem_append_left _ hp, hkey⟩
  · intro row hrow p hp hkey
    rcases List.mem_append.mp hp with hp | hp
    · exact h.related row hrow p hp hkey
    · -- A row of the new parent would need a parent below the bound with the same key.
      obtain ⟨p₀, hp₀, hkey₀⟩ := h.parent row hrow
      have hlt := hkeyed.lt p₀ hp₀
      rw [List.mem_singleton.mp hp] at hkey
      omega

theorem updateParent {old new : π} (hid : key new = key old)
    (hnew : ∀ row ∈ rows, key old = ref row → R new row) :
    Refers key ref R (updateAll (key · == key old) (fun _ => new) parents) rows := by
  constructor
  · intro row hrow
    refine exists_mem_updateAll (fun p _ hp hkey => ?_) (h.parent row hrow)
    rw [hid, ← hkey, beq_iff_eq.mp hp]
  · intro row hrow p hp hkey
    rcases mem_updateAll.mp hp with ⟨_, _, _, rfl⟩ | ⟨hp, _⟩
    · exact hnew row hrow (hid.symm.trans hkey)
    · exact h.related row hrow p hp hkey

/-- Rows may go, and new ones come that are related to a parent. -/
theorem of_rows (hkeyed : Keyed key parents bound) {rows' : List ρ}
    (hrows : ∀ row ∈ rows', row ∈ rows ∨ ∃ p ∈ parents, key p = ref row ∧ R p row) :
    Refers key ref R parents rows' := by
  constructor
  · intro row hrow
    rcases hrows row hrow with hrow | ⟨p, hp, hkey, -⟩
    · exact h.parent row hrow
    · exact ⟨p, hp, hkey⟩
  · intro row hrow p hp hkey
    rcases hrows row hrow with hrow | ⟨p', hp', hkey', hR⟩
    · exact h.related row hrow p hp hkey
    · rwa [hkeyed.eq_of_key hp hp' (hkey.trans hkey'.symm)]

theorem append (hkeyed : Keyed key parents bound) {p : π} {row : ρ} (hp : p ∈ parents)
    (hkey : key p = ref row) (hR : R p row) : Refers key ref R parents (rows ++ [row]) := by
  refine h.of_rows hkeyed fun row' hrow' => ?_
  rcases List.mem_append.mp hrow' with hrow' | hrow'
  · exact .inl hrow'
  · rw [List.mem_singleton.mp hrow']
    exact .inr ⟨p, hp, hkey, hR⟩

end Refers

/-! ## Unique pairs -/

section Pairs

variable {ρ : Type*} {owner target : ρ → ℕ} {rows : List ρ}
  (h : ∀ row ∈ rows, ∀ other ∈ rows, owner row = owner other → target row = target other →
    row = other)

include h

/-- A lookup by the indexed columns finds the row that has them. -/
theorem find?_of_unique {row : ρ} (hrow : row ∈ rows) :
    rows.find? (fun other => owner other == owner row && target other == target row) =
      some row := by
  refine find?_eq_some_of_unique hrow (by simp) fun other hother hpair => ?_
  simp only [Bool.and_eq_true, beq_iff_eq] at hpair
  exact h other hother row hrow hpair.1 hpair.2

/-- Indexing the rows of one owner by target, last row first, finds the same row. -/
theorem find?_reverse_filter_of_unique (o t : ℕ) :
    (rows.filter (owner · == o)).reverse.find? (target · == t) =
      rows.find? (fun row => owner row == o && target row == t) := by
  cases hfind : (rows.filter (owner · == o)).reverse.find? (target · == t) with
  | none =>
    refine (List.find?_eq_none.mpr fun row hrow hpair => ?_).symm
    simp only [Bool.and_eq_true, beq_iff_eq] at hpair
    have := List.find?_eq_none.mp hfind row (by simp [hrow, hpair.1])
    simp [hpair.2] at this
  | some row =>
    have hmem := List.mem_of_find?_eq_some hfind
    have htarget := List.find?_some hfind
    simp only [List.mem_reverse, List.mem_filter, beq_iff_eq] at hmem htarget
    obtain ⟨hrow, rfl⟩ := hmem
    subst htarget
    exact (find?_of_unique h hrow).symm

end Pairs

/-- A unique index on owner and target. -/
abbrev PairUnique {ρ κ : Type*} (id owner : ρ → ℕ) (target : ρ → κ) (rows : List ρ) : Prop :=
  ∀ row ∈ rows, ∀ other ∈ rows, owner row = owner other → target row = target other →
    id row = id other

/-- A keyed table whose rows belong to an owner, with a unique index on owner and target. -/
structure PairKeyed {ρ : Type*} (id owner target : ρ → ℕ) (rows : List ρ)
    (bound : ℕ) : Prop where
  keyed : Keyed id rows bound
  ownerLt : ∀ row ∈ rows, owner row < bound
  unique : PairUnique id owner target rows

section PairUnique

variable {ρ κ : Type*} {id owner : ρ → ℕ} {target : ρ → κ} {rows : List ρ}

theorem PairUnique.append (h : PairUnique id owner target rows) {row : ρ}
    (hnew : ∀ other ∈ rows, owner other = owner row → target other ≠ target row) :
    PairUnique id owner target (rows ++ [row]) := by
  intro first hfirst second hsecond howner htarget
  rcases List.mem_append.mp hfirst with hfirst | hfirst <;>
    rcases List.mem_append.mp hsecond with hsecond | hsecond
  · exact h first hfirst second hsecond howner htarget
  · rw [List.mem_singleton.mp hsecond] at howner htarget
    exact absurd htarget (hnew first hfirst howner)
  · rw [List.mem_singleton.mp hfirst] at howner htarget
    exact absurd htarget.symm (hnew second hsecond howner.symm)
  · rw [List.mem_singleton.mp hfirst, List.mem_singleton.mp hsecond]

theorem PairUnique.deleteAll (h : PairUnique id owner target rows) (p : ρ → Bool) :
    PairUnique id owner target (deleteAll p rows) :=
  fun row hrow other hother => h row (mem_deleteAll.mp hrow).1 other (mem_deleteAll.mp hother).1

theorem PairUnique.touch (h : PairUnique id owner target rows) {p : ρ → Bool} {f : ρ → ρ}
    (hf : ∀ row, p row = true → id (f row) = id row ∧ owner (f row) = owner row ∧
      target (f row) = target row) : PairUnique id owner target (updateAll p f rows) := by
  have hsource : ∀ row ∈ updateAll p f rows, ∃ old ∈ rows, id row = id old ∧
      owner row = owner old ∧ target row = target old := by
    intro row hrow
    rcases mem_updateAll.mp hrow with ⟨old, hold, hp, rfl⟩ | ⟨hrow, -⟩
    · exact ⟨old, hold, hf old hp⟩
    · exact ⟨row, hrow, rfl, rfl, rfl⟩
  intro first hfirst second hsecond howner htarget
  obtain ⟨old, hold, hid, howner₁, htarget₁⟩ := hsource first hfirst
  obtain ⟨old', hold', hid', howner₂, htarget₂⟩ := hsource second hsecond
  rw [hid, hid']
  exact h old hold old' hold' (howner₁.symm.trans (howner.trans howner₂))
    (htarget₁.symm.trans (htarget.trans htarget₂))

end PairUnique

namespace PairKeyed

variable {ρ : Type*} {id owner target : ρ → ℕ} {rows : List ρ} {bound : ℕ}

theorem empty (id owner target : ρ → ℕ) (bound : ℕ) : PairKeyed id owner target [] bound :=
  ⟨Keyed.empty id bound, by simp, by simp [PairUnique]⟩

variable (h : PairKeyed id owner target rows bound)

include h

theorem mono {bound' : ℕ} (hle : bound ≤ bound') : PairKeyed id owner target rows bound' :=
  ⟨h.keyed.mono hle, fun row hrow => Nat.lt_of_lt_of_le (h.ownerLt row hrow) hle, h.unique⟩

theorem append {row : ρ} (hid : id row = bound) (howner : owner row < bound)
    (hnew : ∀ other ∈ rows, owner other = owner row → target other ≠ target row) :
    PairKeyed id owner target (rows ++ [row]) (bound + 1) := by
  refine ⟨h.keyed.append hid, fun other hother => ?_, h.unique.append hnew⟩
  rcases List.mem_append.mp hother with hother | hother
  · exact Nat.lt_succ_of_lt (h.ownerLt other hother)
  · rw [List.mem_singleton.mp hother]
    exact Nat.lt_succ_of_lt howner

theorem deleteAll (p : ρ → Bool) : PairKeyed id owner target (deleteAll p rows) bound :=
  ⟨h.keyed.deleteAll p, fun row hrow => h.ownerLt row (mem_deleteAll.mp hrow).1,
    h.unique.deleteAll p⟩

theorem touch {p : ρ → Bool} {f : ρ → ρ}
    (hf : ∀ row, p row = true → id (f row) = id row ∧ owner (f row) = owner row ∧
      target (f row) = target row) :
    PairKeyed id owner target (updateAll p f rows) bound := by
  refine ⟨h.keyed.updateAll fun row hp => (hf row hp).1, fun row hrow => ?_, h.unique.touch hf⟩
  rcases mem_updateAll.mp hrow with ⟨old, hold, hp, rfl⟩ | ⟨hrow, -⟩
  · rw [(hf old hp).2.1]
    exact h.ownerLt old hold
  · exact h.ownerLt row hrow

/-- One row gets a new target that no other row of its owner has. -/
theorem retarget {found row : ρ} (hfound : found ∈ rows) (hid : id row = id found)
    (hkeep : owner row = owner found)
    (hnew : ∀ other ∈ rows, id other ≠ id row → owner other = owner row →
      target other ≠ target row) :
    PairKeyed id owner target
      (updateAll (fun old => id old == id found) (fun _ => row) rows) bound := by
  have hsource : ∀ new ∈ updateAll (fun old => id old == id found) (fun _ => row) rows,
      new = row ∨ (new ∈ rows ∧ id new ≠ id found) := by
    intro new hrow
    rcases mem_updateAll.mp hrow with ⟨old, hold, hp, rfl⟩ | ⟨hrow, hp⟩
    · exact .inl rfl
    · exact .inr ⟨hrow, by simpa using hp⟩
  refine ⟨h.keyed.updateAll ?_, ?_, ?_⟩
  · intro old hp
    rw [hid]
    exact (beq_iff_eq.mp hp).symm
  · intro new hrow
    rcases hsource new hrow with rfl | ⟨hrow, -⟩
    · rw [hkeep]
      exact h.ownerLt found hfound
    · exact h.ownerLt new hrow
  · intro first hfirst second hsecond howner htarget
    rcases hsource first hfirst with heq | ⟨hold, hne⟩ <;>
      rcases hsource second hsecond with heq' | ⟨hold', hne'⟩
    · rw [heq, heq']
    · rw [heq] at howner htarget
      exact absurd htarget.symm (hnew second hold' (by omega) howner.symm)
    · rw [heq'] at howner htarget
      exact absurd htarget (hnew first hold (by omega) howner)
    · exact h.unique first hold second hold' howner htarget

theorem eq_of_pair {row other : ρ} (hrow : row ∈ rows) (hother : other ∈ rows)
    (howner : owner row = owner other) (htarget : target row = target other) : row = other :=
  h.keyed.eq_of_key hrow hother (h.unique row hrow other hother howner htarget)

theorem find? {row : ρ} (hrow : row ∈ rows) :
    rows.find? (fun other => owner other == owner row && target other == target row) =
      some row :=
  find?_of_unique (fun _ hrow _ hother => h.eq_of_pair hrow hother) hrow

theorem find?_reverse_filter (o t : ℕ) :
    (rows.filter (owner · == o)).reverse.find? (target · == t) =
      rows.find? (fun row => owner row == o && target row == t) :=
  find?_reverse_filter_of_unique (fun _ hrow _ hother => h.eq_of_pair hrow hother) o t

end PairKeyed

end LearningPlatform.Shared
