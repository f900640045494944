import LearningPlatform.Shared.Table
import Mathlib.Logic.Function.Basic

/-! # Assignments by key

A table whose rows have distinct keys is a map from keys to rows. Statements are compared with
assignments to this map; of several assignments to one key the last one counts. -/

namespace LearningPlatform.Shared

/-! ## Assignments in order -/

section Assignments

variable {κ ν : Type*} [DecidableEq κ]

/-- The map after the assignments, from left to right. -/
def assignAll (f : κ → ν) (assignments : List (κ × ν)) : κ → ν :=
  assignments.foldl (fun f assignment => Function.update f assignment.1 assignment.2) f

def lastAssigned? (assignments : List (κ × ν)) (key : κ) : Option ν :=
  (assignments.reverse.find? (·.1 == key)).map Prod.snd

theorem assignAll_cons (f : κ → ν) (assignment : κ × ν) (rest : List (κ × ν)) :
    assignAll f (assignment :: rest) =
      assignAll (Function.update f assignment.1 assignment.2) rest :=
  rfl

theorem lastAssigned?_cons (assignment : κ × ν) (rest : List (κ × ν)) (key : κ) :
    lastAssigned? (assignment :: rest) key =
      (lastAssigned? rest key).or (if assignment.1 = key then some assignment.2 else none) := by
  unfold lastAssigned?
  rw [List.reverse_cons, List.find?_append]
  cases rest.reverse.find? (·.1 == key) with
  | some found => simp
  | none =>
    by_cases hkey : assignment.1 = key
    · simp [hkey]
    · simp [hkey]

/-- The last assignment to a key wins; without one the key keeps its value. -/
theorem assignAll_apply (f : κ → ν) (assignments : List (κ × ν)) (key : κ) :
    assignAll f assignments key = (lastAssigned? assignments key).getD (f key) := by
  induction assignments generalizing f with
  | nil => rfl
  | cons assignment rest ih =>
    rw [assignAll_cons, ih, lastAssigned?_cons]
    cases lastAssigned? rest key with
    | some value => rfl
    | none =>
      by_cases hkey : assignment.1 = key
      · subst hkey
        simp
      · simp [hkey, Function.update_of_ne (Ne.symm hkey)]

theorem lastAssigned?_eq_none {assignments : List (κ × ν)} {key : κ}
    (h : key ∉ assignments.map Prod.fst) : lastAssigned? assignments key = none := by
  rw [lastAssigned?, Option.map_eq_none_iff, List.find?_eq_none]
  intro assignment hmem hkey
  refine h (List.mem_map.mpr ⟨assignment, List.mem_reverse.mp hmem, ?_⟩)
  simpa using hkey

end Assignments

/-! ## Tables as maps -/

section Maps

variable {ρ κ : Type*} [BEq κ] {key : ρ → κ} {rows : List ρ}

def rowAt (key : ρ → κ) (rows : List ρ) (k : κ) : Option ρ :=
  rows.find? (key · == k)

theorem mem_of_rowAt {k : κ} {row : ρ} (h : rowAt key rows k = some row) : row ∈ rows :=
  List.mem_of_find?_eq_some h

variable [LawfulBEq κ]

theorem key_of_rowAt {k : κ} {row : ρ} (h : rowAt key rows k = some row) : key row = k := by
  simpa using List.find?_some h

variable [DecidableEq κ]

theorem rowAt_append {row : ρ} (h : rowAt key rows (key row) = none) :
    rowAt key (rows ++ [row]) = Function.update (rowAt key rows) (key row) (some row) := by
  funext k
  rw [rowAt, List.find?_append]
  by_cases hk : k = key row
  · subst hk
    rw [Function.update_self]
    rw [rowAt] at h
    simp [h]
  · rw [Function.update_of_ne hk]
    simp [rowAt, Ne.symm hk]

theorem rowAt_deleteAll (k : κ) :
    rowAt key (deleteAll (key · == k) rows) = Function.update (rowAt key rows) k none := by
  funext k'
  rw [rowAt, deleteAll, List.find?_filter]
  by_cases hk : k' = k
  · subst hk
    simp
  · rw [Function.update_of_ne hk, rowAt]
    congr 1
    funext row
    by_cases hrow : key row = k'
    · simp [hrow, hk]
    · simp [hrow]

theorem rowAt_updateAll {f : ρ → ρ} (hf : ∀ row, key (f row) = key row) {k : κ} {row : ρ}
    (h : rowAt key rows k = some row) :
    rowAt key (updateAll (key · == k) f rows) =
      Function.update (rowAt key rows) k (some (f row)) := by
  funext k'
  rw [rowAt, find?_updateAll fun other _ => by rw [hf], ← rowAt]
  by_cases hk : k' = k
  · subst hk
    simp [h, key_of_rowAt h]
  · rw [Function.update_of_ne hk]
    cases hfound : rowAt key rows k' with
    | none => rfl
    | some other => simp [key_of_rowAt hfound, hk]

end Maps

end LearningPlatform.Shared
