import Mathlib.Algebra.Group.Int.Defs
import Mathlib.Algebra.Group.Nat.Defs
import Mathlib.Tactic.Common

/-! `size_t` values and their wrapping arithmetic. -/

namespace LuaNet.Lib

structure SizeT where
  val : Nat
  fits : val < 2 ^ 64

theorem SizeT.zero_fits : 0 < 2 ^ 64 := Nat.two_pow_pos 64

theorem SizeT.one_fits : 1 < 2 ^ 64 := Nat.one_lt_two_pow (Nat.succ_ne_zero 63)

def sizeAdd (a b : Nat) : Nat := (a + b) % 2 ^ 64

def sizeSub (a b : Nat) : Nat := (2 ^ 64 + a - b) % 2 ^ 64

theorem sizeAdd_lt (a b : Nat) : sizeAdd a b < 2 ^ 64 := Nat.mod_lt _ (Nat.two_pow_pos 64)

theorem sizeAdd_eq {a b : Nat} (h : a + b < 2 ^ 64) : sizeAdd a b = a + b :=
  Nat.mod_eq_of_lt h

theorem sizeSub_eq {a b : Nat} (ha : a < 2 ^ 64) (h : b ≤ a) : sizeSub a b = a - b := by
  unfold sizeSub
  omega

/-- `size_t` operations with a wrap as a failure. -/
def sizeAddChecked (a b : Nat) : Option Nat := if a + b < 2 ^ 64 then some (a + b) else none

def sizeSubChecked (a b : Nat) : Option Nat := if b ≤ a then some (a - b) else none

theorem sizeAddChecked_eq {a b : Nat} (h : a + b < 2 ^ 64) :
    sizeAddChecked a b = some (sizeAdd a b) := by
  rw [sizeAddChecked, if_pos h, sizeAdd_eq h]

theorem sizeSubChecked_eq {a b : Nat} (ha : a < 2 ^ 64) (h : b ≤ a) :
    sizeSubChecked a b = some (sizeSub a b) := by
  rw [sizeSubChecked, if_pos h, sizeSub_eq ha h]

end LuaNet.Lib
