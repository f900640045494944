import Mathlib.Data.List.Basic
import Mathlib.Data.List.Count

/-! # Nested brackets

A text that closes a number of brackets which were opened before it, read one character after
another. Balanced texts close none, and a bracket at the end of a text has a partner if what lies
between the two is balanced. -/

namespace LearningPlatform.Shared

structure Brackets (α : Type*) where
  opening : α
  closing : α
  ne : opening ≠ closing

namespace Brackets

variable {α : Type*} [DecidableEq α] {b : Brackets α} {depth : ℕ} {c : α} {text : List α}

/-- A text closes as many brackets as are open before it, and no part from its start on closes
more than are open. -/
structure Closes (b : Brackets α) (depth : ℕ) (text : List α) : Prop where
  count_closing : text.count b.closing = text.count b.opening + depth
  le_open : ∀ n, (text.take n).count b.closing ≤ (text.take n).count b.opening + depth

/-- As many brackets are opened as are closed, and no part from the start on closes more than it
opens. -/
abbrev Balanced (b : Brackets α) (text : List α) : Prop :=
  b.Closes 0 text

/-- The text ends in a bracket whose partner is in the text. -/
def Matched (b : Brackets α) (text : List α) : Prop :=
  ∃ before inside, text = before ++ b.opening :: inside ++ [b.closing] ∧ b.Balanced inside

theorem closes_nil : b.Closes depth [] ↔ depth = 0 := by
  refine ⟨fun h => ?_, fun h => ⟨by simp [h], by simp⟩⟩
  simpa using h.count_closing.symm

/-- The first character changes the number of brackets that the rest has to close. -/
theorem closes_cons_iff {depth' : ℕ} (opened closed : ℕ) (hdepth : depth' + closed = depth + opened)
    (hopened : ∀ text, (c :: text).count b.opening = text.count b.opening + opened)
    (hclosed : ∀ text, (c :: text).count b.closing = text.count b.closing + closed) :
    b.Closes depth (c :: text) ↔ b.Closes depth' text := by
  refine ⟨fun h => ⟨?_, fun n => ?_⟩, fun h => ⟨?_, fun n => ?_⟩⟩
  · have hcount := h.count_closing
    rw [hopened, hclosed] at hcount
    omega
  · have hle := h.le_open (n + 1)
    rw [List.take_succ_cons, hopened, hclosed] at hle
    omega
  · have hcount := h.count_closing
    rw [hopened, hclosed]
    omega
  · cases n with
    | zero => simp
    | succ n =>
      have hle := h.le_open n
      rw [List.take_succ_cons, hopened, hclosed]
      omega

theorem closes_opening_cons : b.Closes depth (b.opening :: text) ↔ b.Closes (depth + 1) text :=
  closes_cons_iff 1 0 rfl (fun _ => List.count_cons_self) fun _ => List.count_cons_of_ne b.ne

theorem closes_closing_cons : b.Closes (depth + 1) (b.closing :: text) ↔ b.Closes depth text :=
  closes_cons_iff 0 1 rfl (fun _ => List.count_cons_of_ne b.ne.symm) fun _ => List.count_cons_self

theorem closes_cons_of_ne (hopening : c ≠ b.opening) (hclosing : c ≠ b.closing) :
    b.Closes depth (c :: text) ↔ b.Closes depth text :=
  closes_cons_iff 0 0 rfl (fun _ => List.count_cons_of_ne hopening)
    fun _ => List.count_cons_of_ne hclosing

/-- A closing bracket needs one that is open. -/
theorem not_balanced_closing_cons : ¬ b.Balanced (b.closing :: text) := by
  intro h
  have hle := h.le_open 1
  simp [b.ne.symm] at hle

theorem Matched.opening_mem (h : b.Matched text) : b.opening ∈ text := by
  obtain ⟨before, inside, rfl, -⟩ := h
  simp

end Brackets

end LearningPlatform.Shared
