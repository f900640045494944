import Mathlib.Data.List.Dedup
import Mathlib.Data.List.Sort

/-! # Keys that join decimal numbers with a separator

A finite set of numbers is written as its members in increasing order, joined by a
separator that is no digit. The text determines the set. -/

namespace LearningPlatform.Shared

/-- The decimal texts of `ns`, in order, with the character `c` between neighbours. -/
def joinDecimals (c : Char) (ns : List ℕ) : String :=
  (String.singleton c).intercalate (ns.map Nat.repr)

/-! ## Decimal texts -/

theorem not_mem_repr {c : Char} (hc : c.isDigit = false) (n : ℕ) :
    c ∉ (Nat.repr n).toList := by
  intro h
  rw [Nat.toList_repr] at h
  have hdigit := Nat.isDigit_of_mem_toDigits (by decide) (by decide) h
  simp [hc] at hdigit

theorem toList_repr_injective : Function.Injective fun n => (Nat.repr n).toList := by
  intro m n h
  have hdigits : Nat.toDigits 10 m = Nat.toDigits 10 n := by
    simpa only [Nat.toList_repr] using h
  calc
    m = Nat.ofDigitChars 10 (Nat.toDigits 10 m) 0 := Nat.ofDigitChars_ten_toDigits.symm
    _ = Nat.ofDigitChars 10 (Nat.toDigits 10 n) 0 := by rw [hdigits]
    _ = n := Nat.ofDigitChars_ten_toDigits

/-! ## Joined texts -/

theorem toList_joinDecimals (c : Char) (ns : List ℕ) :
    (joinDecimals c ns).toList = [c].intercalate (ns.map fun n => (Nat.repr n).toList) := by
  simp [joinDecimals, String.toList_intercalate, List.map_map, Function.comp_def]

/-- Splitting a joined text at its separator recovers the decimal texts. -/
theorem splitOn_joinDecimals {c : Char} (hc : c.isDigit = false) {ns : List ℕ} (hns : ns ≠ []) :
    (joinDecimals c ns).toList.splitOn c = ns.map fun n => (Nat.repr n).toList := by
  rw [toList_joinDecimals]
  apply List.splitOn_intercalate
  · intro text htext
    obtain ⟨n, _, rfl⟩ := List.mem_map.mp htext
    exact not_mem_repr hc n
  · simpa using hns

theorem joinDecimals_eq_empty_iff (c : Char) (ns : List ℕ) :
    joinDecimals c ns = "" ↔ ns = [] := by
  rw [← String.toList_inj, toList_joinDecimals]
  cases ns with
  | nil => simp
  | cons n ns =>
    have hdigits : (Nat.repr n).toList ≠ [] := by
      rw [Nat.toList_repr]
      exact List.ne_nil_of_length_pos Nat.length_toDigits_pos
    cases ns <;> simp_all

theorem joinDecimals_injective {c : Char} (hc : c.isDigit = false) :
    Function.Injective (joinDecimals c) := by
  intro ms ns h
  by_cases hms : ms = []
  · subst hms
    exact ((joinDecimals_eq_empty_iff c ns).mp
      (h.symm.trans ((joinDecimals_eq_empty_iff c []).mpr rfl))).symm
  · have hns : ns ≠ [] := by
      intro hnil
      subst hnil
      exact hms ((joinDecimals_eq_empty_iff c ms).mp
        (h.trans ((joinDecimals_eq_empty_iff c []).mpr rfl)))
    have hsplit := splitOn_joinDecimals hc hms
    rw [h, splitOn_joinDecimals hc hns] at hsplit
    exact (toList_repr_injective.list_map hsplit).symm

/-! ## Canonical keys of sets -/

/-- The members of `ns` in increasing order, each once. -/
def canonical (ns : List ℕ) : List ℕ :=
  ns.dedup.insertionSort (· ≤ ·)

@[simp] theorem mem_canonical {n : ℕ} {ns : List ℕ} : n ∈ canonical ns ↔ n ∈ ns := by
  simp [canonical]

theorem nodup_canonical (ns : List ℕ) : (canonical ns).Nodup :=
  ((List.perm_insertionSort (· ≤ ·) ns.dedup).nodup_iff).mpr ns.nodup_dedup

theorem canonical_eq_iff {ms ns : List ℕ} :
    canonical ms = canonical ns ↔ ∀ n, n ∈ ms ↔ n ∈ ns := by
  constructor
  · intro h n
    rw [← mem_canonical, h, mem_canonical]
  · intro h
    apply List.Perm.eq_of_sortedLE
    · exact List.sortedLE_insertionSort
    · exact List.sortedLE_insertionSort
    · apply (List.perm_ext_iff_of_nodup (nodup_canonical ms) (nodup_canonical ns)).mpr
      intro n
      simpa using h n

@[simp] theorem canonical_canonical (ns : List ℕ) : canonical (canonical ns) = canonical ns :=
  canonical_eq_iff.mpr fun _ => mem_canonical

@[simp] theorem canonical_eq_nil_iff {ns : List ℕ} : canonical ns = [] ↔ ns = [] := by
  simp only [List.eq_nil_iff_forall_not_mem, mem_canonical]

end LearningPlatform.Shared
