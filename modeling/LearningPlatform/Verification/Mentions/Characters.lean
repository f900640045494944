import LearningPlatform.Model.Mentions

/-! # Characters of a text

The characters of a text give the text, and the characters of their texts are they again. -/

namespace LearningPlatform.Mentions.Mobile

open Shared JsText

theorem flatten_characters (text : JsString) : (characters text).flatten = text := by
  fun_induction characters text with
  | case1 => rfl
  | case2 c => rfl
  | case3 c d rest _ ih => simp [ih]
  | case4 c d rest _ ih => simp [ih]

theorem characters_cons (c : UInt16) (rest : JsString) :
    ∃ first others, characters (c :: rest) = (c :: first) :: others := by
  cases rest with
  | nil => exact ⟨[], [], rfl⟩
  | cons d rest =>
    rw [characters]
    split_ifs
    · exact ⟨[d], characters rest, rfl⟩
    · exact ⟨[], characters (d :: rest), rfl⟩

theorem characters_cons_of_not_high {c : UInt16} (h : isHighSurrogate c = false) (rest : JsString) :
    characters (c :: rest) = [c] :: characters rest := by
  cases rest with
  | nil => rfl
  | cons d rest => simp [characters, h]

/-- A code unit that ends no pair separates the characters. -/
theorem characters_append_cons {c : UInt16} (h : isLowSurrogate c = false) (front rest : JsString) :
    characters (front ++ c :: rest) = characters front ++ characters (c :: rest) := by
  fun_induction characters front with
  | case1 => rfl
  | case2 d => simp [characters, h]
  | case3 d e front hpair ih =>
    rw [List.cons_append, List.cons_append, characters, if_pos hpair, ih, List.cons_append]
  | case4 d e front hpair ih =>
    rw [List.cons_append, List.cons_append, characters, if_neg hpair, List.cons_append, ← ih,
      List.cons_append]

theorem eq_singleton_of_mem_characters {text character rest : JsString} {c : UInt16}
    (h : character ∈ characters text) (hhead : (character ++ rest).head? = some c)
    (hc : isHighSurrogate c = false) : character = [c] := by
  fun_induction characters text with
  | case1 => cases h
  | case2 d =>
    obtain rfl := List.mem_singleton.mp h
    cases hhead
    rfl
  | case3 d e rest hpair ih =>
    rcases List.mem_cons.mp h with rfl | h
    · cases hhead
      simp [hc] at hpair
    · exact ih h
  | case4 d e rest _ ih =>
    rcases List.mem_cons.mp h with rfl | h
    · cases hhead
      rfl
    · exact ih h

theorem characters_flatten_take (text : JsString) (n : ℕ) :
    characters ((characters text).take n).flatten = (characters text).take n := by
  fun_induction characters text generalizing n with
  | case1 => simp [characters]
  | case2 c => cases n <;> simp [characters]
  | case3 c d rest hpair ih =>
    cases n with
    | zero => rfl
    | succ n =>
      rw [List.take_succ_cons, List.flatten_cons]
      change characters (c :: d :: ((characters rest).take n).flatten) = _
      rw [characters, if_pos hpair, ih]
  | case4 c d rest hpair ih =>
    cases n with
    | zero => rfl
    | succ n =>
      rw [List.take_succ_cons, List.flatten_cons]
      change characters (c :: ((characters (d :: rest)).take n).flatten) = _
      cases n with
      | zero => rfl
      | succ n =>
        have hrest := ih (n + 1)
        obtain ⟨first, others, hfirst⟩ := characters_cons d rest
        rw [hfirst, List.take_succ_cons, List.flatten_cons, List.cons_append] at hrest ⊢
        rw [characters, if_neg hpair, hrest]

theorem exists_characters_eq_drop (text : JsString) (n : ℕ) :
    ∃ rest, characters rest = (characters text).drop n := by
  fun_induction characters text generalizing n with
  | case1 => exact ⟨[], by simp [characters]⟩
  | case2 c =>
    cases n with
    | zero => exact ⟨[c], rfl⟩
    | succ n => exact ⟨[], by simp [characters]⟩
  | case3 c d rest hpair ih =>
    cases n with
    | zero => exact ⟨c :: d :: rest, by rw [characters, if_pos hpair, List.drop_zero]⟩
    | succ n => exact ih n
  | case4 c d rest hpair ih =>
    cases n with
    | zero => exact ⟨c :: d :: rest, by rw [characters, if_neg hpair, List.drop_zero]⟩
    | succ n => exact ih n

theorem characters_flatten_between (text : JsString) (start stop : ℕ) :
    characters (between (characters text) start stop).flatten =
      between (characters text) start stop := by
  obtain ⟨rest, hrest⟩ := exists_characters_eq_drop text start
  rw [between, ← hrest, characters_flatten_take]

theorem characters_flatten_drop (text : JsString) (n : ℕ) :
    characters ((characters text).drop n).flatten = (characters text).drop n := by
  obtain ⟨rest, hrest⟩ := exists_characters_eq_drop text n
  rw [← hrest, flatten_characters]

end LearningPlatform.Mentions.Mobile
