import Mathlib.Data.List.Basic
import Mathlib.Tactic.Common

/-! Ranges of a list, as a copy takes them one behind the other. -/

namespace LuaNet.Lib

variable {α : Type*}

/-- The elements from `offset` on, `n` of them as far as there are any. -/
def slice (l : List α) (offset n : Nat) : List α := (l.drop offset).take n

theorem slice_zero (l : List α) (offset : Nat) : slice l offset 0 = [] := List.take_zero

theorem slice_length (l : List α) (offset n : Nat) :
    (slice l offset n).length = min n (l.length - offset) := by
  rw [slice, List.length_take, List.length_drop]

theorem slice_length_of_le {l : List α} {offset n : Nat} (h : n ≤ l.length - offset) :
    (slice l offset n).length = n := by
  rw [slice_length, Nat.min_eq_left h]

theorem slice_add (l : List α) (offset m n : Nat) :
    slice l offset (m + n) = slice l offset m ++ slice l (offset + m) n := by
  rw [slice, slice, slice, List.take_add, List.drop_drop]

theorem slice_min (l : List α) (offset n : Nat) :
    slice l offset (min n (l.length - offset)) = slice l offset n := by
  rw [slice, slice, ← List.length_drop, ← List.take_eq_take_min]

theorem take_slice (l : List α) (offset n k : Nat) :
    (slice l offset n).take k = slice l offset (min k n) := by
  rw [slice, slice, List.take_take]

theorem drop_slice (l : List α) (offset n k : Nat) :
    (slice l offset n).drop k = slice l (offset + k) (n - k) := by
  rw [slice, slice, List.drop_take, List.drop_drop]

end LuaNet.Lib
