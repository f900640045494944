import LearningPlatform.Shared.Table
import Mathlib.Data.List.MinMax
import Mathlib.Data.List.Sort

/-! # The newest row by a key

A row is the newest of a list if no other row has a larger key. With distinct keys the last row of
a sorted list, a reduction and an index by group all lead to it, in whatever order the rows are
listed. -/

namespace LearningPlatform.Shared

variable {ρ κ : Type*} [LinearOrder κ]

structure IsNewest (key : ρ → κ) (rows : List ρ) (row : ρ) : Prop where
  mem : row ∈ rows
  le : ∀ other ∈ rows, key other ≤ key row

/-- Rows are known by their keys. -/
def KeysDistinct (key : ρ → κ) (rows : List ρ) : Prop :=
  ∀ row ∈ rows, ∀ other ∈ rows, key row = key other → row = other

section Newest

variable {key : ρ → κ} {rows rows' : List ρ} {row row' : ρ}

theorem isNewest_congr (hsame : ∀ row, row ∈ rows ↔ row ∈ rows') :
    IsNewest key rows row ↔ IsNewest key rows' row := by
  constructor
  · intro h
    exact ⟨(hsame row).mp h.mem, fun other hother => h.le other ((hsame other).mpr hother)⟩
  · intro h
    exact ⟨(hsame row).mpr h.mem, fun other hother => h.le other ((hsame other).mp hother)⟩

theorem argmax_eq_some_iff (hkeys : KeysDistinct key rows) :
    rows.argmax key = some row ↔ IsNewest key rows row := by
  classical
  constructor
  · intro h
    obtain ⟨hmem, hle, -⟩ := List.argmax_eq_some_iff.mp h
    exact ⟨hmem, hle⟩
  · intro h
    refine List.argmax_eq_some_iff.mpr ⟨h.mem, h.le, fun other hother hle => ?_⟩
    rw [hkeys row h.mem other hother (le_antisymm hle (h.le other hother))]

end Newest

/-! ## An index by group -/

section Index

variable {γ : Type*} [DecidableEq γ]

variable {β : Type*}

/-- The entry of a key is replaced or appended. -/
def setEntry : List (γ × β) → γ → β → List (γ × β)
  | [], key, value => [(key, value)]
  | entry :: entries, key, value =>
    if entry.1 = key then (key, value) :: entries else entry :: setEntry entries key value

theorem lookup_cons_eq (entry : γ × β) (entries : List (γ × β)) (k : γ) :
    (entry :: entries).lookup k = if k = entry.1 then some entry.2 else entries.lookup k := by
  rw [List.lookup_cons]
  by_cases hk : k = entry.1
  · rw [if_pos hk, beq_iff_eq.mpr hk]
  · rw [if_neg hk, beq_eq_false_iff_ne.mpr hk]

theorem lookup_setEntry (entries : List (γ × β)) (key : γ) (value : β) (k : γ) :
    (setEntry entries key value).lookup k = if k = key then some value else entries.lookup k := by
  induction entries with
  | nil => rw [setEntry, lookup_cons_eq]
  | cons entry entries ih =>
    rw [setEntry, lookup_cons_eq]
    by_cases hentry : entry.1 = key
    · rw [if_pos hentry, lookup_cons_eq, hentry]
      by_cases hk : k = key <;> simp [hk]
    · rw [if_neg hentry, lookup_cons_eq, ih]
      by_cases hk : k = key
      · simp [hk, Ne.symm hentry]
      · simp [hk]

theorem keys_setEntry (entries : List (γ × β)) (key : γ) (value : β) :
    (setEntry entries key value).map Prod.fst =
      if key ∈ entries.map Prod.fst then entries.map Prod.fst
      else entries.map Prod.fst ++ [key] := by
  induction entries with
  | nil => simp [setEntry]
  | cons entry entries ih =>
    rw [setEntry]
    by_cases hentry : entry.1 = key
    · simp [hentry]
    · rw [if_neg hentry, List.map_cons, ih]
      by_cases hkey : key ∈ entries.map Prod.fst
      · rw [if_pos hkey, if_pos (by simpa using .inr (by simpa using hkey))]
        rfl
      · rw [if_neg hkey, if_neg (by simpa [Ne.symm hentry] using hkey)]
        rfl

theorem nodup_keys_setEntry {entries : List (γ × β)} (h : (entries.map Prod.fst).Nodup) (key : γ)
    (value : β) : ((setEntry entries key value).map Prod.fst).Nodup := by
  rw [keys_setEntry]
  split
  · exact h
  · rename_i hkey
    exact List.nodup_append.mpr ⟨h, by simp, fun k hk other hother heq => by
      rw [List.mem_singleton.mp hother] at heq
      exact hkey (heq ▸ hk)⟩

theorem mem_iff_lookup {entries : List (γ × β)} (h : (entries.map Prod.fst).Nodup) {key : γ}
    {value : β} : (key, value) ∈ entries ↔ entries.lookup key = some value := by
  constructor
  · intro hmem
    induction entries with
    | nil => cases hmem
    | cons entry entries ih =>
      obtain ⟨hfirst, hrest⟩ := List.nodup_cons.mp h
      rw [lookup_cons_eq]
      rcases List.mem_cons.mp hmem with rfl | hmem
      · simp
      · have hne : key ≠ entry.1 := by
          rintro rfl
          exact hfirst (List.mem_map.mpr ⟨_, hmem, rfl⟩)
        simpa [hne] using ih hrest hmem
  · exact mem_of_lookup_eq_some

/-- The better one of each group is kept. -/
def keepBetter (group : ρ → γ) (better : ρ → ρ → Bool) (entries : List (γ × ρ)) (row : ρ) :
    List (γ × ρ) :=
  match entries.lookup (group row) with
  | none => setEntry entries (group row) row
  | some current => if better row current then setEntry entries (group row) row else entries

variable {group : ρ → γ} {better : ρ → ρ → Bool} {key : ρ → κ} {rows : List ρ}

theorem nodup_keys_foldl_keepBetter {entries : List (γ × ρ)} (h : (entries.map Prod.fst).Nodup) :
    ((rows.foldl (keepBetter group better) entries).map Prod.fst).Nodup := by
  induction rows generalizing entries with
  | nil => exact h
  | cons row rows ih =>
    apply ih
    unfold keepBetter
    split
    · exact nodup_keys_setEntry h _ _
    · split
      · exact nodup_keys_setEntry h _ _
      · exact h

/-- An entry is what a reduction of its group keeps. -/
theorem lookup_foldl_keepBetter {entries : List (γ × ρ)} {k : γ}
    (hbetter : ∀ row ∈ rows, ∀ other, (other ∈ rows ∨ ∃ k, entries.lookup k = some other) →
      better row other = decide (key other < key row)) :
    (rows.foldl (keepBetter group better) entries).lookup k =
      (rows.filter (group · = k)).foldl (List.argAux fun row other => key other < key row)
        (entries.lookup k) := by
  induction rows generalizing entries with
  | nil => rfl
  | cons row rows ih =>
    have hstep : ∀ k, (keepBetter group better entries row).lookup k =
        if group row = k then
          List.argAux (fun row other => key other < key row) (entries.lookup k) row
        else entries.lookup k := by
      intro k
      unfold keepBetter
      by_cases hgroup : group row = k
      · subst hgroup
        rw [if_pos rfl]
        cases hcurrent : entries.lookup (group row) with
        | none => simp [lookup_setEntry, List.argAux]
        | some current =>
          have hlt := hbetter row (by simp) current (.inr ⟨_, hcurrent⟩)
          by_cases hkey : key current < key row
          · simp [hlt, hkey, lookup_setEntry, List.argAux]
          · simp [hlt, hkey, hcurrent, List.argAux]
      · have hk : ¬ k = group row := fun h => hgroup h.symm
        rw [if_neg hgroup]
        split
        · rw [lookup_setEntry, if_neg hk]
        · split
          · rw [lookup_setEntry, if_neg hk]
          · rfl
    rw [List.foldl_cons, ih, hstep, List.filter_cons]
    · by_cases hgroup : group row = k <;> simp [hgroup]
    · intro other hother third hthird
      refine hbetter other (by simp [hother]) third ?_
      rcases hthird with hthird | ⟨k, hthird⟩
      · exact .inl (by simp [hthird])
      · rw [hstep] at hthird
        split at hthird
        · cases hcurrent : entries.lookup k with
          | none =>
            rw [hcurrent] at hthird
            exact .inl (by simp [← Option.some.inj hthird])
          | some current =>
            rw [hcurrent, List.argAux] at hthird
            dsimp only at hthird
            split at hthird
            · exact .inl (by simp [← Option.some.inj hthird])
            · exact .inr ⟨k, by rw [hcurrent, hthird]⟩
        · exact .inr ⟨k, hthird⟩

/-- The index holds the newest row of each group. -/
theorem mem_foldl_keepBetter_iff (hkeys : KeysDistinct key rows)
    (hbetter : ∀ row ∈ rows, ∀ other ∈ rows, better row other = decide (key other < key row))
    {k : γ} {row : ρ} :
    (k, row) ∈ rows.foldl (keepBetter group better) [] ↔
      IsNewest key (rows.filter (group · = k)) row := by
  have hnodup : ((rows.foldl (keepBetter group better) []).map Prod.fst).Nodup := by
    apply nodup_keys_foldl_keepBetter
    exact List.nodup_nil
  have hlookup : (rows.foldl (keepBetter group better) []).lookup k =
      (rows.filter (group · = k)).argmax key := by
    refine lookup_foldl_keepBetter fun row hrow other hother => ?_
    rcases hother with hother | ⟨k, hother⟩
    · exact hbetter row hrow other hother
    · cases hother
  rw [mem_iff_lookup hnodup, hlookup]
  refine argmax_eq_some_iff fun first hfirst second hsecond => ?_
  exact hkeys first (List.mem_filter.mp hfirst).1 second (List.mem_filter.mp hsecond).1

/-- A row behind those of its key. -/
def addToEntry (entries : List (γ × List ρ)) (key : γ) (row : ρ) : List (γ × List ρ) :=
  setEntry entries key ((entries.lookup key).getD [] ++ [row])

/-- The rows of each group in their order. -/
def groupInto (group : ρ → γ) (entries : List (γ × List ρ)) (row : ρ) : List (γ × List ρ) :=
  addToEntry entries (group row) row

theorem nodup_keys_foldl_groupInto {entries : List (γ × List ρ)}
    (h : (entries.map Prod.fst).Nodup) :
    ((rows.foldl (groupInto group) entries).map Prod.fst).Nodup := by
  induction rows generalizing entries with
  | nil => exact h
  | cons row rows ih => exact ih (nodup_keys_setEntry h _ _)

theorem getD_lookup_foldl_groupInto {entries : List (γ × List ρ)} (k : γ) :
    ((rows.foldl (groupInto group) entries).lookup k).getD [] =
      (entries.lookup k).getD [] ++ rows.filter (group · = k) := by
  induction rows generalizing entries with
  | nil => simp
  | cons row rows ih =>
    rw [List.foldl_cons, ih, groupInto, addToEntry, lookup_setEntry]
    by_cases hk : k = group row
    · simp [hk]
    · simp [hk, Ne.symm hk]

/-- A row stands in the entry of its group and in no other. -/
theorem mem_foldl_groupInto_iff {k : γ} {row : ρ} :
    (∃ items, (k, items) ∈ rows.foldl (groupInto group) [] ∧ row ∈ items) ↔
      row ∈ rows ∧ group row = k := by
  have hnodup : ((rows.foldl (groupInto group) []).map Prod.fst).Nodup :=
    nodup_keys_foldl_groupInto List.nodup_nil
  have hitems : ((rows.foldl (groupInto group) []).lookup k).getD [] =
      rows.filter (group · = k) := by
    have hlookup := @getD_lookup_foldl_groupInto _ _ _ group rows [] k
    simpa using hlookup
  have hmem : row ∈ rows ∧ group row = k ↔
      row ∈ ((rows.foldl (groupInto group) []).lookup k).getD [] := by
    rw [hitems]
    simp
  rw [hmem]
  simp only [mem_iff_lookup hnodup]
  cases (rows.foldl (groupInto group) []).lookup k <;> simp

end Index

/-! ## The last row by a column -/

section Latest

variable {time : ρ → ℕ}

/-- The last row in the order of a column; among rows with one value the one that is stored last. -/
def latest? (time : ρ → ℕ) (rows : List ρ) : Option ρ :=
  (rows.insertionSort fun first second => time first ≤ time second).getLast?

theorem mem_of_latest? {rows : List ρ} {row : ρ} (h : latest? time rows = some row) :
    row ∈ rows :=
  (List.mem_insertionSort _).mp (List.mem_of_getLast? h)

theorem latest?_eq_none {rows : List ρ} : latest? time rows = none ↔ rows = [] := by
  unfold latest?
  rw [List.getLast?_eq_none_iff, ← List.length_eq_zero_iff, List.length_insertionSort,
    List.length_eq_zero_iff]

/-- Rows that are stored in the order of the column end with the latest. -/
theorem latest?_of_pairwise {rows : List ρ}
    (h : rows.Pairwise fun first second => time first ≤ time second) :
    latest? time rows = rows.getLast? := by
  rw [latest?, h.insertionSort_eq]

end Latest

end LearningPlatform.Shared
