import LearningPlatform.Shared.Table

/-! # Rows saved by key

A save puts a row in the place of the row that has its key, or adds it. Tables are compared up to
the order of their rows. -/

namespace LearningPlatform.Shared

variable {ρ κ : Type*} [DecidableEq κ] {key : ρ → κ} {rows rows' : List ρ} {row : ρ}

/-- The table after one save. -/
def Saved (key : ρ → κ) (rows : List ρ) (row : ρ) (rows' : List ρ) : Prop :=
  rows'.Perm (row :: rows.filter fun old => key old != key row)

/-- The table after the saves of rows with distinct keys. -/
def SavedAll (key : ρ → κ) (rows saved rows' : List ρ) : Prop :=
  rows'.Perm (saved ++ rows.filter fun old => decide (key old ∉ saved.map key))

/-! ## Statements that save a row -/

theorem filter_ne_of_forall (h : ∀ old ∈ rows, key old ≠ key row) :
    rows.filter (fun old => key old != key row) = rows :=
  List.filter_eq_self.mpr fun old hold => by simpa using h old hold

theorem Saved.of_append (h : ∀ old ∈ rows, key old ≠ key row) :
    Saved key rows row (rows ++ [row]) := by
  rw [Saved, filter_ne_of_forall h]
  exact List.perm_append_singleton row rows

theorem Saved.of_updateAll (hnodup : (rows.map key).Nodup) {old : ρ} (hold : old ∈ rows)
    (hkey : key row = key old) :
    Saved key rows row (updateAll (fun other => key other == key old) (fun _ => row) rows) := by
  rw [Saved, hkey]
  induction rows with
  | nil => simp at hold
  | cons first rest ih =>
    rw [List.map_cons, List.nodup_cons] at hnodup
    obtain ⟨hfirst, hrest⟩ := hnodup
    by_cases hsame : key first = key old
    · have hothers : ∀ other ∈ rest, key other ≠ key old := by
        intro other hother heq
        exact hfirst (List.mem_map.mpr ⟨other, hother, heq.trans hsame.symm⟩)
      have hupdate : updateAll (fun other => key other == key old) (fun _ => row)
          (first :: rest) = row :: rest := by
        have hsimp :
            rest.map (fun other => if key other = key old then row else other) = rest := by
          refine (List.map_congr_left fun other hother => ?_).trans (List.map_id rest)
          simp [hothers other hother]
        simp [updateAll, hsame, hsimp]
      rw [hupdate, List.filter_cons_of_neg (by simp [hsame]), filter_ne_of_forall hothers]
    · have hmem : old ∈ rest := by
        rcases List.mem_cons.mp hold with rfl | hmem
        · exact absurd rfl hsame
        · exact hmem
      have hcons : updateAll (fun other => key other == key old) (fun _ => row) (first :: rest) =
          first :: updateAll (fun other => key other == key old) (fun _ => row) rest := by
        simp [updateAll, hsame]
      rw [hcons, List.filter_cons_of_pos (by simpa using hsame)]
      exact ((ih hrest hmem).cons first).trans (List.Perm.swap _ _ _)

/-! ## What a save keeps -/

namespace Saved

theorem nodup (h : Saved key rows row rows') (hnodup : (rows.map key).Nodup) :
    (rows'.map key).Nodup := by
  rw [(h.map key).nodup_iff, List.map_cons, List.nodup_cons]
  constructor
  · intro hmem
    obtain ⟨other, hother, heq⟩ := List.mem_map.mp hmem
    exact absurd heq (by simpa using (List.mem_filter.mp hother).2)
  · exact hnodup.sublist (List.filter_sublist.map key)

theorem filter_perm (h : Saved key rows row rows') {q : ρ → Bool}
    (hq : ∀ other, key other = key row → q other = false) :
    (rows'.filter q).Perm (rows.filter q) := by
  refine (List.Perm.filter q h).trans (.of_eq ?_)
  rw [List.filter_cons_of_neg (by simp [hq row rfl]), List.filter_filter]
  refine List.filter_congr fun other _ => ?_
  by_cases hkey : key other = key row
  · simp [hkey, hq other hkey]
  · simp [hkey]

end Saved

/-! ## Several saves -/

namespace SavedAll

theorem nil (key : ρ → κ) (rows : List ρ) : SavedAll key rows [] rows := by
  simp [SavedAll]

theorem cons {middle saved : List ρ} (h : Saved key rows row middle)
    (hrest : SavedAll key middle saved rows') (hnew : key row ∉ saved.map key) :
    SavedAll key rows (row :: saved) rows' := by
  refine hrest.trans ?_
  have hfilter : (middle.filter fun old => decide (key old ∉ saved.map key)).Perm
      (row :: rows.filter fun old => decide (key old ∉ (row :: saved).map key)) := by
    refine (List.Perm.filter _ h).trans (List.Perm.of_eq ?_)
    rw [List.filter_cons_of_pos (by simpa using hnew), List.filter_filter]
    congr 1
    apply List.filter_congr
    intro old _
    simp only [List.map_cons, List.mem_cons, not_or]
    by_cases hkey : key old = key row <;> simp [hkey]
  exact (hfilter.append_left saved).trans List.perm_middle

theorem filter_perm {saved : List ρ} (h : SavedAll key rows saved rows') {q : ρ → Bool}
    (hsaved : ∀ other ∈ saved, q other = true)
    (hothers : ∀ other ∈ rows, key other ∉ saved.map key → q other = false) :
    (rows'.filter q).Perm saved := by
  refine (List.Perm.filter q h).trans ?_
  rw [List.filter_append, List.filter_eq_self.mpr hsaved, List.filter_filter]
  have hnone : (rows.filter fun old => q old && decide (key old ∉ saved.map key)) = [] := by
    refine List.filter_eq_nil_iff.mpr fun other hother => ?_
    by_cases hmem : key other ∈ saved.map key
    · simp [hmem]
    · simp [hothers other hother hmem]
  rw [hnone, List.append_nil]

end SavedAll

end LearningPlatform.Shared
