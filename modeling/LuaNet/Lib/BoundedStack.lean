import LuaNet.Lib.Raising
import Mathlib.Data.List.Basic

/-! A stack of values with indices from the bottom. Slots have to be asked for before they are
pushed to, and there is a limit to how many there are; a push without a slot, or an index
without a value, stops the computation. -/

namespace LuaNet.Lib

variable {α ε β : Type}

/-- `ensured` is the height up to which slots have been asked for. -/
structure BoundedStack (α : Type) where
  slots : List α
  ensured : Nat
  limit : Nat

inductive StackHalt (ε : Type)
  | overflow
  | misuse
  | raised (e : ε)
deriving DecidableEq

abbrev StackM (α ε β : Type) := Raising (BoundedStack α) (StackHalt ε) β

namespace BoundedStack

def withSlots (s : BoundedStack α) (slots : List α) : BoundedStack α := { s with slots := slots }

def ensure (s : BoundedStack α) (n : Nat) : BoundedStack α :=
  { s with ensured := max s.ensured (s.slots.length + n) }

@[simp] theorem ensure_slots (s : BoundedStack α) (n : Nat) : (s.ensure n).slots = s.slots := rfl

theorem le_ensure (s : BoundedStack α) (n : Nat) : s.slots.length + n ≤ (s.ensure n).ensured :=
  Nat.le_max_right _ _

@[simp] theorem withSlots_slots (s : BoundedStack α) (slots : List α) :
    (s.withSlots slots).slots = slots := rfl

@[simp] theorem withSlots_ensured (s : BoundedStack α) (slots : List α) :
    (s.withSlots slots).ensured = s.ensured := rfl

@[simp] theorem withSlots_withSlots (s : BoundedStack α) (slots slots' : List α) :
    (s.withSlots slots).withSlots slots' = s.withSlots slots' := rfl

end BoundedStack

namespace StackM

def push (v : α) : StackM α ε Unit := fun s =>
  if s.slots.length < s.ensured then (.ok (), s.withSlots (s.slots ++ [v]))
  else (.error .overflow, s)

def pop (n : Nat) : StackM α ε Unit := fun s =>
  if n ≤ s.slots.length then (.ok (), s.withSlots (s.slots.take (s.slots.length - n)))
  else (.error .misuse, s)

def get (idx : Nat) : StackM α ε α := fun s =>
  match s.slots[idx - 1]? with
  | some v => (.ok v, s)
  | none => (.error .misuse, s)

def peek (idx : Nat) : StackM α ε (Option α) := fun s => (.ok s.slots[idx - 1]?, s)

def top : StackM α ε α := fun s =>
  match s.slots.getLast? with
  | some v => (.ok v, s)
  | none => (.error .misuse, s)

def fromTop (n : Nat) : StackM α ε α := fun s =>
  match s.slots[s.slots.length - n]? with
  | some v => (.ok v, s)
  | none => (.error .misuse, s)

def reserve (n : Nat) : StackM α ε Bool := fun s =>
  if s.slots.length + n ≤ s.limit then (.ok true, s.ensure n) else (.ok false, s)

def replace (idx : Nat) : StackM α ε Unit := do
  let v ← top
  pop 1
  Raising.update fun s => s.withSlots (s.slots.set (idx - 1) v)

def insert (idx : Nat) : StackM α ε Unit := do
  let v ← top
  pop 1
  Raising.update fun s => s.withSlots (s.slots.take (idx - 1) ++ v :: s.slots.drop (idx - 1))

variable {s : BoundedStack α}

theorem push_run {slots : List α} (h : slots.length < s.ensured) (v : α) :
    (push v : StackM α ε Unit) (s.withSlots slots) = (.ok (), s.withSlots (slots ++ [v])) :=
  if_pos h

theorem pop_snoc (slots : List α) (v : α) :
    (pop 1 : StackM α ε Unit) (s.withSlots (slots ++ [v])) = (.ok (), s.withSlots slots) := by
  have hle : 1 ≤ (s.withSlots (slots ++ [v])).slots.length := by simp
  rw [pop, if_pos hle]
  simp

theorem get_run {slots : List α} {idx : Nat} {v : α} (h : slots[idx - 1]? = some v) :
    (get idx : StackM α ε α) (s.withSlots slots) = (.ok v, s.withSlots slots) := by
  simp only [get, BoundedStack.withSlots_slots, h]

theorem peek_run (idx : Nat) :
    (peek idx : StackM α ε (Option α)) s = (.ok s.slots[idx - 1]?, s) := rfl

theorem reserve_run {n : Nat} (h : s.slots.length + n ≤ s.limit) :
    (reserve n : StackM α ε Bool) s = (.ok true, s.ensure n) := if_pos h

theorem top_snoc (slots : List α) (v : α) :
    (top : StackM α ε α) (s.withSlots (slots ++ [v])) = (.ok v, s.withSlots (slots ++ [v])) := by
  simp only [top, BoundedStack.withSlots_slots, List.getLast?_append, List.getLast?_singleton,
    Option.some_or]

theorem fromTop_two (slots : List α) (u v : α) :
    (fromTop 2 : StackM α ε α) (s.withSlots (slots ++ [u, v])) =
      (.ok u, s.withSlots (slots ++ [u, v])) := by
  simp [fromTop]

theorem insert_snoc (slots : List α) (v : α) (idx : Nat) :
    (insert idx : StackM α ε Unit) (s.withSlots (slots ++ [v])) =
      (.ok (), s.withSlots (slots.take (idx - 1) ++ v :: slots.drop (idx - 1))) := by
  rw [insert, Raising.bind_of_ok (top_snoc slots v), Raising.bind_of_ok (pop_snoc slots v)]
  rfl

theorem replace_snoc (slots : List α) (v : α) (idx : Nat) :
    (replace idx : StackM α ε Unit) (s.withSlots (slots ++ [v])) =
      (.ok (), s.withSlots (slots.set (idx - 1) v)) := by
  rw [replace, Raising.bind_of_ok (top_snoc slots v), Raising.bind_of_ok (pop_snoc slots v)]
  rfl

end StackM

end LuaNet.Lib
