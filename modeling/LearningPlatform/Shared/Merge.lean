import LearningPlatform.Shared.Window
import Mathlib.Data.List.Perm.Basic
import Mathlib.Data.Seq.Basic

/-! # The first entries of a merge

Finitely many sequences, each possibly infinite and in the order of a key. The first entries of
their merge are found among the first entries of each. -/

namespace LearningPlatform.Shared

open Stream'

variable {α κ : Type*} [LinearOrder κ] {key : α → κ}

/-- The list holds the first `limit` entries of a merge of the sequences: however far they are
expanded, it is the beginning of an arrangement of all the entries in the order of their keys. -/
def FirstOfMerge (key : α → κ) (limit : ℕ) (sequences : List (Seq α)) (first : List α) : Prop :=
  ∀ depth, limit ≤ depth → ∃ merged : List α,
    merged.Perm (sequences.flatMap (·.take depth)) ∧
      merged.Pairwise (fun a b => key a ≤ key b) ∧ first = merged.take limit

/-! ## One sequence -/

theorem take_take_seq (s : Seq α) {limit depth : ℕ} (h : limit ≤ depth) :
    (s.take depth).take limit = s.take limit := by
  apply List.ext_getElem?
  intro n
  rw [List.getElem?_take, Seq.getElem?_take, Seq.getElem?_take]
  by_cases hn : n < limit
  · simp [hn, hn.trans_le h]
  · simp [hn]

theorem take_ofList (entries : List α) (limit : ℕ) :
    (Seq.ofList entries).take limit = entries.take limit := by
  apply List.ext_getElem?
  intro n
  rw [Seq.getElem?_take, List.getElem?_take, Seq.ofList_get?]

theorem take_ofStream (entries : ℕ → α) (limit : ℕ) :
    (Seq.ofStream entries).take limit = (List.range limit).map entries := by
  apply List.ext_getElem?
  intro n
  have hget : (Seq.ofStream entries).get? n = some (entries n) := rfl
  rw [Seq.getElem?_take, hget, List.getElem?_map]
  by_cases hn : n < limit
  · simp [hn]
  · simp [hn]

theorem take_map_seq {β : Type*} (f : α → β) (s : Seq α) (limit : ℕ) :
    (s.map f).take limit = (s.take limit).map f := by
  apply List.ext_getElem?
  intro n
  rw [Seq.getElem?_take, List.getElem?_map, Seq.getElem?_take, Seq.map_get?]
  split <;> rfl

/-- An entry past the limit comes after `limit` entries, none of which has a greater key. -/
theorem past_limit {s : Seq α} (hordered : s.Pairwise fun a b => key a ≤ key b)
    {limit depth : ℕ} {entry : α} (h : entry ∈ (s.take depth).drop limit) :
    (s.take limit).length = limit ∧ ∀ a ∈ s.take limit, key a ≤ key entry := by
  obtain ⟨n, hn⟩ := List.mem_iff_getElem?.mp h
  rw [List.getElem?_drop, Seq.getElem?_take] at hn
  have hdepth : limit + n < depth := by
    by_contra hge
    simp [hge] at hn
  rw [if_pos hdepth] at hn
  constructor
  · have hlength : limit + n < (s.take depth).length := by
      apply (List.getElem?_eq_some_iff.mp (_ : (s.take depth)[limit + n]? = some entry)).1
      rw [Seq.getElem?_take, if_pos hdepth, hn]
    rw [← take_take_seq s (by omega : limit ≤ depth), List.length_take]
    omega
  · intro a ha
    obtain ⟨i, hi⟩ := List.mem_iff_getElem?.mp ha
    rw [Seq.getElem?_take] at hi
    have hlt : i < limit := by
      by_contra hge
      simp [hge] at hi
    rw [if_pos hlt] at hi
    exact hordered i (limit + n) (by omega) a hi entry hn

/-! ## Ordered lists -/

/-- In an ordered list with `limit` keys up to `bound`, the first `limit` keys are. -/
theorem key_le_of_countP {sorted : List α} (hsorted : sorted.Pairwise fun a b => key a ≤ key b)
    {limit : ℕ} {bound : κ} (hcount : limit ≤ sorted.countP fun a => key a ≤ bound) :
    ∀ a ∈ sorted.take limit, key a ≤ bound := by
  induction sorted generalizing limit with
  | nil => simp
  | cons first rest ih =>
    rw [List.pairwise_cons] at hsorted
    cases limit with
    | zero => simp
    | succ limit =>
      by_cases hfirst : key first ≤ bound
      · have hrest : limit ≤ rest.countP fun a => key a ≤ bound := by
          rw [List.countP_cons_of_pos (by simpa using hfirst)] at hcount
          omega
        intro a ha
        rcases List.mem_cons.mp ha with rfl | ha
        · exact hfirst
        · exact ih hsorted.2 hrest a ha
      · have hnone : rest.countP (fun a => key a ≤ bound) = 0 := by
          rw [List.countP_eq_zero]
          intro a ha hle
          exact hfirst ((hsorted.1 a ha).trans (by simpa using hle))
        rw [List.countP_cons_of_neg (by simpa using hfirst)] at hcount
        omega

/-! ## The merge -/

/-- To merge the first `limit` entries, it suffices to expand each sequence to `limit`. -/
theorem firstOfMerge_of_perm {sequences : List (Seq α)} {limit : ℕ} {sorted : List α}
    (hordered : ∀ s ∈ sequences, s.Pairwise fun a b => key a ≤ key b)
    (hperm : sorted.Perm (sequences.flatMap (·.take limit)))
    (hsorted : sorted.Pairwise fun a b => key a ≤ key b) :
    FirstOfMerge key limit sequences (sorted.take limit) := by
  intro depth hdepth
  let extra := sequences.flatMap fun s => (s.take depth).drop limit
  have hfull : ∀ entry ∈ extra, limit ≤ sorted.countP fun a => key a ≤ key entry := by
    intro entry hentry
    obtain ⟨s, hs, hmem⟩ := List.mem_flatMap.mp hentry
    obtain ⟨hlength, hle⟩ := past_limit (hordered s hs) hmem
    have hall : (s.take limit).countP (fun a => key a ≤ key entry) = limit := by
      rw [List.countP_eq_length.mpr (by simpa using hle), hlength]
    have hsub : (s.take limit).Sublist (sequences.flatMap (·.take limit)) :=
      List.sublist_flatten_of_mem (List.mem_map.mpr ⟨s, hs, rfl⟩)
    rw [hperm.countP_eq]
    exact hall.ge.trans hsub.countP_le
  refine ⟨sorted.take limit ++ orderBy key (sorted.drop limit ++ extra), ?_, ?_, ?_⟩
  · have hsplit : (sequences.flatMap (·.take limit) ++ extra).Perm
        (sequences.flatMap (·.take depth)) := by
      refine (List.flatMap_append_perm sequences _ _).trans (List.Perm.of_eq ?_)
      congr 1
      funext s
      rw [← take_take_seq s hdepth, List.take_append_drop]
    refine ((orderBy_perm key _).append_left _).trans ?_
    rw [← List.append_assoc, List.take_append_drop]
    exact (hperm.append_right _).trans hsplit
  · refine List.pairwise_append.mpr ⟨hsorted.sublist (List.take_sublist _ _),
      pairwise_orderBy key _, ?_⟩
    intro a ha b hb
    rcases List.mem_append.mp (mem_orderBy.mp hb) with hb | hb
    · rw [← List.take_append_drop limit sorted, List.pairwise_append] at hsorted
      exact hsorted.2.2 a ha b hb
    · exact key_le_of_countP hsorted (hfull b hb) a ha
  · by_cases hlong : limit ≤ sorted.length
    · rw [List.take_append_of_le_length (by rw [List.length_take]; omega), List.take_take,
        Nat.min_self]
    · -- Fewer entries than the limit leave nothing to expand.
      have hextra : extra = [] := by
        apply List.eq_nil_iff_forall_not_mem.mpr
        intro entry hentry
        exact hlong ((hfull entry hentry).trans (List.countP_le_length))
      have hdrop : sorted.drop limit = [] := List.drop_eq_nil_of_le (by omega)
      simp [hextra, hdrop, orderBy, List.take_take]

end LearningPlatform.Shared
