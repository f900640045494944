import LearningPlatform.Shared.Nesting
import LearningPlatform.Verification.InlineFormat.Formats
import Mathlib.Data.List.Induction

/-! # Punctuation behind an address

`splitTrailingUrlPunctuation` takes sentence punctuation off the end of an address and then at most
one parenthesis, which it does not compare with the parentheses before it. -/

namespace LearningPlatform.InlineFormat

open Shared JsText

def parentheses : Brackets UInt16 where
  opening := 40
  closing := 41
  ne := by decide

/-- `/[.,!?;:]/`. -/
def isSentencePunctuation (c : UInt16) : Bool :=
  (ascii ".,!?;:").contains c

/-- A text ends in a parenthesis that has no partner in the text. -/
def EndsUnmatched (text : JsString) : Prop :=
  text.getLast? = some 41 ∧ ¬ parentheses.Matched text

/-- An address and what stands behind it in a sentence. -/
structure DetachedPunctuation (value href trailing : JsString) : Prop where
  text_eq : href ++ trailing = value
  punctuation : ∀ c ∈ href.getLast?, ¬ isSentencePunctuation c
  parenthesis : ¬ EndsUnmatched href

/-- The last character before the sentence punctuation is a parenthesis without a partner, and
before it there is some other opening parenthesis, or it stands behind sentence punctuation or
another closing parenthesis. -/
def StrandsParenthesis (value : JsString) : Prop :=
  ∃ before punctuation, value = before ++ 41 :: punctuation ∧
    (∀ c ∈ punctuation, isSentencePunctuation c) ∧ ¬ parentheses.Matched (before ++ [41]) ∧
    (40 ∈ before ∨ ∃ c ∈ before.getLast?, isSentencePunctuation c ∨ c = 41)

/-! ## The two parts -/

section Parts

variable {body before punctuation : JsString}

theorem exists_body_punctuation (value : JsString) :
    ∃ body punctuation, value = body ++ punctuation ∧
      (∀ c ∈ punctuation, isSentencePunctuation c) ∧
      ∀ c ∈ body.getLast?, ¬ isSentencePunctuation c := by
  induction value using List.reverseRecOn with
  | nil => exact ⟨[], [], by simp⟩
  | append_singleton value c ih =>
    by_cases hc : isSentencePunctuation c
    · obtain ⟨body, punctuation, rfl, hpunctuation, hbody⟩ := ih
      refine ⟨body, punctuation ++ [c], by simp, ?_, hbody⟩
      intro d hd
      rcases List.mem_append.mp hd with hd | hd
      · exact hpunctuation d hd
      · rwa [List.mem_singleton.mp hd]
    · exact ⟨value ++ [c], [], by simp, by simp, by simpa using hc⟩

section

variable (hpunctuation : ∀ c ∈ punctuation, isSentencePunctuation c)

include hpunctuation

theorem stripPunctuation_reverse
    (hbody : ∀ c ∈ body.getLast?, ¬ isSentencePunctuation c) (trailing : JsString) :
    stripPunctuation (body ++ punctuation).reverse trailing = (body, punctuation ++ trailing) := by
  induction punctuation using List.reverseRecOn generalizing trailing with
  | nil =>
    cases body using List.reverseRecOn with
    | nil => rfl
    | append_singleton body c =>
      have hc : ¬ (ascii ".,!?;:").contains c := hbody c (by simp)
      rw [List.append_nil, List.reverse_append, List.reverse_singleton, List.singleton_append,
        stripPunctuation, if_neg hc]
      simp
  | append_singleton punctuation c ih =>
    have hc : (ascii ".,!?;:").contains c := hpunctuation c (by simp)
    rw [← List.append_assoc, List.reverse_append, List.reverse_singleton, List.singleton_append,
      stripPunctuation, if_pos hc, ih fun d hd => hpunctuation d (List.mem_append_left _ hd)]
    simp

theorem stripPunctuation_closing :
    stripPunctuation (before ++ 41 :: punctuation).reverse [] = (before ++ [41], punctuation) := by
  have hbody : ∀ c ∈ (before ++ [41]).getLast?, ¬ isSentencePunctuation c := by
    simp only [List.getLast?_concat, Option.mem_some_iff, forall_eq']
    decide
  simpa only [List.append_assoc, List.singleton_append, List.append_nil] using
    stripPunctuation_reverse hpunctuation hbody []

theorem append_closing_inj {before' punctuation' : JsString}
    (hpunctuation' : ∀ c ∈ punctuation', isSentencePunctuation c)
    (h : before ++ 41 :: punctuation = before' ++ 41 :: punctuation') : before = before' := by
  have hparts : stripPunctuation (before ++ 41 :: punctuation).reverse [] =
      (before ++ [41], punctuation) := stripPunctuation_closing hpunctuation
  rw [h, stripPunctuation_closing hpunctuation'] at hparts
  exact (List.append_left_inj [41]).mp (Prod.mk.inj hparts).1.symm

theorem splitTrailingUrlPunctuation_of_ne
    (hbody : ∀ c ∈ body.getLast?, ¬ isSentencePunctuation c) (hlast : body.getLast? ≠ some 41) :
    splitTrailingUrlPunctuation (body ++ punctuation) = (body, punctuation) := by
  simp only [splitTrailingUrlPunctuation, stripPunctuation_reverse hpunctuation hbody, hlast,
    false_and, if_false, List.append_nil]

theorem splitTrailingUrlPunctuation_of_closing :
    splitTrailingUrlPunctuation (before ++ 41 :: punctuation) =
      if 40 ∈ before then (before ++ [41], punctuation) else (before, 41 :: punctuation) := by
  simp only [splitTrailingUrlPunctuation, stripPunctuation_closing hpunctuation]
  by_cases hopening : (40 : UInt16) ∈ before
  · simp [hopening]
  · simp [hopening]

end

end Parts

/-! ## Stranded parentheses -/

variable {before punctuation : JsString}

/-- Where the parenthesis has no partner, it stays behind another one or uncovers what is before
it. -/
theorem strandsParenthesis_iff (hpunctuation : ∀ c ∈ punctuation, isSentencePunctuation c) :
    StrandsParenthesis (before ++ 41 :: punctuation) ↔
      ¬ parentheses.Matched (before ++ [41]) ∧
        (40 ∈ before ∨ ∃ c ∈ before.getLast?, isSentencePunctuation c ∨ c = 41) := by
  constructor
  · rintro ⟨before', punctuation', htext, hpunctuation', hstranded⟩
    rwa [append_closing_inj hpunctuation hpunctuation' htext]
  · exact fun h => ⟨before, punctuation, rfl, hpunctuation, h⟩

theorem detachedPunctuation_kept_iff (hopening : 40 ∈ before)
    (hpunctuation : ∀ c ∈ punctuation, isSentencePunctuation c) :
    DetachedPunctuation (before ++ 41 :: punctuation) (before ++ [41]) punctuation ↔
      ¬ StrandsParenthesis (before ++ 41 :: punctuation) := by
  rw [strandsParenthesis_iff hpunctuation]
  constructor
  · rintro hdetached ⟨hunmatched, -⟩
    exact hdetached.parenthesis ⟨by simp, hunmatched⟩
  · intro h
    refine ⟨by simp, ?_, fun hends => h ⟨hends.2, .inl hopening⟩⟩
    simp only [List.getLast?_concat, Option.mem_some_iff, forall_eq']
    decide

theorem detachedPunctuation_removed_iff (hopening : 40 ∉ before)
    (hpunctuation : ∀ c ∈ punctuation, isSentencePunctuation c) :
    DetachedPunctuation (before ++ 41 :: punctuation) before (41 :: punctuation) ↔
      ¬ StrandsParenthesis (before ++ 41 :: punctuation) := by
  have hunmatched : ¬ parentheses.Matched (before ++ [41]) := fun hmatched =>
    hopening (by simpa [parentheses] using hmatched.opening_mem)
  rw [strandsParenthesis_iff hpunctuation]
  constructor
  · rintro hdetached ⟨-, hbefore | ⟨c, hlast, hc | rfl⟩⟩
    · exact hopening hbefore
    · exact hdetached.punctuation c hlast hc
    · exact hdetached.parenthesis ⟨hlast, fun hmatched => hopening hmatched.opening_mem⟩
  · intro h
    refine ⟨rfl, fun c hlast hc => h ⟨hunmatched, .inr ⟨c, hlast, .inl hc⟩⟩, fun hends => ?_⟩
    exact h ⟨hunmatched, .inr ⟨41, hends.1, .inr rfl⟩⟩

/-- An address is detached from the sentence unless it strands a parenthesis. -/
theorem splitTrailingUrlPunctuation_detached_iff (value : JsString) :
    (splitTrailingUrlPunctuation value).1 ++ (splitTrailingUrlPunctuation value).2 = value ∧
      (DetachedPunctuation value (splitTrailingUrlPunctuation value).1
          (splitTrailingUrlPunctuation value).2 ↔
        ¬ StrandsParenthesis value) := by
  refine ⟨splitTrailingUrlPunctuation_append value, ?_⟩
  obtain ⟨body, punctuation, rfl, hpunctuation, hbody⟩ := exists_body_punctuation value
  by_cases hlast : body.getLast? = some 41
  · obtain ⟨before, rfl⟩ := List.getLast?_eq_some_iff.mp hlast
    rw [List.append_assoc, List.singleton_append,
      splitTrailingUrlPunctuation_of_closing hpunctuation]
    by_cases hopening : (40 : UInt16) ∈ before
    · rw [if_pos hopening]
      exact detachedPunctuation_kept_iff hopening hpunctuation
    · rw [if_neg hopening]
      exact detachedPunctuation_removed_iff hopening hpunctuation
  · rw [splitTrailingUrlPunctuation_of_ne hpunctuation hbody hlast]
    have hdetached : DetachedPunctuation (body ++ punctuation) body punctuation :=
      ⟨rfl, hbody, fun hends => hlast hends.1⟩
    refine iff_of_true hdetached ?_
    rintro ⟨before, punctuation', htext, hpunctuation', -⟩
    have hparts := stripPunctuation_reverse hpunctuation hbody []
    rw [htext, stripPunctuation_closing hpunctuation'] at hparts
    rw [← (Prod.mk.inj hparts).1] at hlast
    exact hlast (by simp)

/-- A sentence in parentheses that ends in an address leaves the full stop in the address. -/
theorem splitTrailingUrlPunctuation_full_stop_in_parentheses :
    ¬ DetachedPunctuation (ascii "https://example.com/a.)")
      (splitTrailingUrlPunctuation (ascii "https://example.com/a.)")).1
      (splitTrailingUrlPunctuation (ascii "https://example.com/a.)")).2 := by
  intro h
  have hparts : splitTrailingUrlPunctuation (ascii "https://example.com/a.)") =
      (ascii "https://example.com/a.", ascii ")") := by decide
  rw [hparts] at h
  exact h.punctuation 46 (by decide) (by decide)

end LearningPlatform.InlineFormat
