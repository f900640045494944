import Mathlib.Algebra.Group.Nat.Defs
import Mathlib.Data.List.Basic
import Mathlib.Data.Nat.Notation

/-! # Byte strings

Slices of a byte string and numbers in the order of the network. -/

namespace LearningPlatform.Shared

/-- `byteslice(offset, length)`, as far as the string reaches. -/
def slice {β : Type*} (entries : List β) (offset length : ℕ) : List β :=
  (entries.drop offset).take length

/-- The number that bytes stand for, the most significant byte first. -/
def ofBigEndian (bytes : List UInt8) : ℕ :=
  bytes.foldl (fun value byte => 256 * value + byte.toNat) 0

/-- The bytes of a number. -/
def bigEndian : ℕ → ℕ → List UInt8
  | 0, _ => []
  | width + 1, value => bigEndian width (value / 256) ++ [UInt8.ofNat (value % 256)]

@[simp] theorem length_bigEndian (width value : ℕ) : (bigEndian width value).length = width := by
  induction width generalizing value with
  | zero => rfl
  | succ width ih => simp [bigEndian, ih]

theorem ofBigEndian_bigEndian {width value : ℕ} (h : value < 256 ^ width) :
    ofBigEndian (bigEndian width value) = value := by
  induction width generalizing value with
  | zero =>
    have hzero : value = 0 := by omega
    rw [hzero]
    rfl
  | succ width ih =>
    have hhigh : value / 256 < 256 ^ width := Nat.div_lt_of_lt_mul (by rwa [← Nat.pow_succ'])
    have hlow : (UInt8.ofNat (value % 256)).toNat = value % 256 :=
      UInt8.toNat_ofNat_of_lt (Nat.mod_lt _ (by decide))
    have hread := ih hhigh
    unfold ofBigEndian at hread ⊢
    rw [bigEndian, List.foldl_append, hread, List.foldl_cons, List.foldl_nil, hlow]
    omega

section Slices

variable {β : Type*} {entries front tail : List β} {offset length : ℕ}

theorem slice_add (entries : List β) (offset index length : ℕ) :
    slice entries (offset + index) length = slice (entries.drop offset) index length := by
  rw [slice, slice, List.drop_drop]

theorem slice_of_drop (h : entries.drop offset = front ++ tail) (hlength : front.length = length) :
    slice entries offset length = front := by
  rw [slice, h, ← hlength, List.take_left]

theorem slice_inside (h : entries.drop offset = front ++ tail) {index : ℕ}
    (hinside : index + length ≤ front.length) :
    slice entries (offset + index) length = slice front index length := by
  rw [slice_add, h, slice, slice, List.drop_append_of_le_length (by omega),
    List.take_append_of_le_length (by rw [List.length_drop]; omega)]

theorem drop_of_drop (h : entries.drop offset = front ++ tail) :
    entries.drop (offset + front.length) = tail := by
  rw [← List.drop_drop, h, List.drop_left]

end Slices

end LearningPlatform.Shared
