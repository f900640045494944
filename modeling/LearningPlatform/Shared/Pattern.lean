import Mathlib.Data.List.Basic
import Mathlib.Data.List.TakeWhile

/-! # Patterns that backtrack

The parts of regular expressions, each with the rest of the expression as a continuation. A
continuation gets the rest of the input, and what was matched where the part can be a group. -/

namespace LearningPlatform.Shared.Pattern

variable {σ : Type*} {α : Type*}

/-- One symbol of a class. -/
def one (p : σ → Bool) (next : List σ → Option α) : List σ → Option α
  | [] => none
  | c :: rest => if p c then next rest else none

/-- A symbol of a class or nothing, the symbol first. -/
def optional (p : σ → Bool) (next : List σ → Option α) : List σ → Option α
  | [] => next []
  | c :: rest =>
    if p c then (next rest).orElse fun _ => next (c :: rest)
    else next (c :: rest)

/-- As many symbols of a class as possible, behind those that are matched already. -/
def manyFrom (p : σ → Bool) (next : List σ → List σ → Option α) : List σ → List σ → Option α
  | matched, [] => next matched []
  | matched, c :: rest =>
    if p c then (manyFrom p next (matched ++ [c]) rest).orElse fun _ => next matched (c :: rest)
    else next matched (c :: rest)

/-- Any number of symbols of a class, `p*`. -/
def many (p : σ → Bool) (next : List σ → List σ → Option α) (input : List σ) : Option α :=
  manyFrom p next [] input

/-- At least one symbol of a class, `p+`. -/
def several (p : σ → Bool) (next : List σ → List σ → Option α) : List σ → Option α
  | [] => none
  | c :: rest => if p c then manyFrom p next [c] rest else none

/-- As few symbols as possible, behind those that are matched already. -/
def fewestFrom (next : List σ → List σ → Option α) : List σ → List σ → Option α
  | matched, [] => next matched []
  | matched, c :: rest =>
    (next matched (c :: rest)).orElse fun _ => fewestFrom next (matched ++ [c]) rest

/-- As few symbols as possible, `[\s\S]*?`. -/
def fewest (next : List σ → List σ → Option α) (input : List σ) : Option α :=
  fewestFrom next [] input

def literal [BEq σ] (text : List σ) (next : List σ → Option α) (input : List σ) : Option α :=
  if text.isPrefixOf input then next (input.drop text.length) else none

/-- The first of two alternatives that matches. -/
def either (first second : List σ → Option α) (input : List σ) : Option α :=
  (first input).orElse fun _ => second input

/-- The end of the input, `$`. -/
def atEnd (result : α) : List σ → Option α
  | [] => some result
  | _ :: _ => none

/-- The first match at or behind the start of the input, with what stands before it. -/
def exec (pattern : List σ → Option α) : List σ → Option (List σ × α)
  | [] => (pattern []).map fun result => ([], result)
  | c :: rest =>
    match pattern (c :: rest) with
    | some result => some ([], result)
    | none => (exec pattern rest).map fun (before, result) => (c :: before, result)

theorem isSome_either (first second : List σ → Option α) (input : List σ) :
    (either first second input).isSome = ((first input).isSome || (second input).isSome) := by
  cases h : first input <;> simp [either, h]

/-! ## Repetition -/

section Repetition

variable {p : σ → Bool} {next : List σ → List σ → Option α} {matched input : List σ} {result : α}

/-- The longest repetition is taken if the rest matches behind it. -/
theorem manyFrom_eq_some
    (h : next (matched ++ input.takeWhile p) (input.dropWhile p) = some result) :
    manyFrom p next matched input = some result := by
  induction input generalizing matched with
  | nil => simpa [manyFrom] using h
  | cons c rest ih =>
    by_cases hc : p c
    · have hrest : manyFrom p next (matched ++ [c]) rest = some result :=
        ih (by simpa [hc] using h)
      simp [manyFrom, hc, hrest]
    · simpa [manyFrom, hc] using h

/-- Nothing is given back if the rest cannot start with a symbol of the class. -/
theorem manyFrom_eq_of_fails (hfails : ∀ matched c rest, p c → next matched (c :: rest) = none) :
    manyFrom p next matched input =
      next (matched ++ input.takeWhile p) (input.dropWhile p) := by
  induction input generalizing matched with
  | nil => simp [manyFrom]
  | cons c rest ih =>
    by_cases hc : p c
    · rw [manyFrom, if_pos hc, ih, hfails matched c rest hc]
      simp [hc]
    · simp [manyFrom, hc]

theorem many_eq_some (h : next (input.takeWhile p) (input.dropWhile p) = some result) :
    many p next input = some result :=
  manyFrom_eq_some h

theorem many_eq_of_fails (hfails : ∀ matched c rest, p c → next matched (c :: rest) = none) :
    many p next input = next (input.takeWhile p) (input.dropWhile p) :=
  manyFrom_eq_of_fails hfails

theorem several_cons_of_fails (hfails : ∀ matched c rest, p c → next matched (c :: rest) = none)
    {c : σ} {rest : List σ} (hc : p c) :
    several p next (c :: rest) = next (c :: rest.takeWhile p) (rest.dropWhile p) := by
  rw [several, if_pos hc, manyFrom_eq_of_fails hfails]
  rfl

/-- The shortest repetition behind which the rest matches. -/
theorem fewestFrom_append {front rest : List σ}
    (hfails : ∀ before c tail, front = before ++ c :: tail →
      next (matched ++ before) (c :: tail ++ rest) = none)
    (hrest : next (matched ++ front) rest = some result) :
    fewestFrom next matched (front ++ rest) = some result := by
  induction front generalizing matched with
  | nil =>
    rw [List.append_nil] at hrest
    cases rest with
    | nil => exact hrest
    | cons c rest => simp [fewestFrom, hrest]
  | cons c front ih =>
    have hhere : next matched (c :: (front ++ rest)) = none := by
      simpa using hfails [] c front rfl
    rw [List.cons_append, fewestFrom, hhere]
    refine ih ?_ (by simpa using hrest)
    intro before d tail hfront
    simpa using hfails (c :: before) d tail (by rw [hfront]; rfl)

end Repetition

/-! ## Search -/

section Search

variable {pattern : List σ → Option α} {result : α}

/-- The first position at which a pattern matches. -/
theorem exec_append {front rest : List σ}
    (hfails : ∀ before c tail, front = before ++ c :: tail → pattern (c :: tail ++ rest) = none)
    (hrest : pattern rest = some result) :
    exec pattern (front ++ rest) = some (front, result) := by
  induction front with
  | nil =>
    rw [List.nil_append]
    cases rest <;> simp [exec, hrest]
  | cons c front ih =>
    have hhere : pattern (c :: (front ++ rest)) = none := hfails [] c front rfl
    have hlater : exec pattern (front ++ rest) = some (front, result) := by
      refine ih ?_
      intro before d tail hfront
      exact hfails (c :: before) d tail (by rw [hfront]; rfl)
    simp [exec, hhere, hlater]

theorem exec_eq_none {input : List σ} (hfails : ∀ rest, rest <:+ input → pattern rest = none) :
    exec pattern input = none := by
  induction input with
  | nil => simp [exec, hfails [] (List.suffix_refl _)]
  | cons c rest ih =>
    have hlater : exec pattern rest = none := by
      refine ih ?_
      intro suffix hsuffix
      exact hfails suffix (hsuffix.trans (List.suffix_cons c rest))
    simp [exec, hfails (c :: rest) (List.suffix_refl _), hlater]

end Search

end LearningPlatform.Shared.Pattern
