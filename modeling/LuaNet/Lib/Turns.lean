import Mathlib.Data.List.Basic
import Mathlib.Data.List.Infix

/-! Loops driven by the list of answers that they get, fed with the first answers of an endless
sequence. -/

namespace LuaNet.Lib

variable {τ σ ρ : Type*}

def firstTurns (turns : ℕ → τ) (n : ℕ) : List τ := (List.range n).map turns

theorem firstTurns_succ (turns : ℕ → τ) (n : ℕ) :
    firstTurns turns (n + 1) = turns 0 :: firstTurns (fun i => turns (i + 1)) n := by
  unfold firstTurns
  rw [List.range_succ_eq_map, List.map_cons, List.map_map]
  rfl

theorem firstTurns_add (turns : ℕ → τ) (n k : ℕ) :
    ∃ us, firstTurns turns (n + k) = firstTurns turns n ++ us := by
  unfold firstTurns
  rw [List.range_add, List.map_append]
  exact ⟨_, rfl⟩

/-- A loop that has returned takes no further turns. -/
def Returning (run : List τ → σ × Option ρ) : Prop :=
  ∀ ts us, (run ts).2.isSome = true → run (ts ++ us) = run ts

theorem Returning.unique {run : List τ → σ × Option ρ} (h : Returning run) {turns : ℕ → τ}
    {m n : ℕ} (hm : (run (firstTurns turns m)).2.isSome = true)
    (hn : (run (firstTurns turns n)).2.isSome = true) :
    run (firstTurns turns m) = run (firstTurns turns n) := by
  wlog hle : m ≤ n generalizing m n
  · exact (this hn hm (Nat.le_of_not_le hle)).symm
  obtain ⟨k, rfl⟩ := Nat.exists_eq_add_of_le hle
  obtain ⟨us, hus⟩ := firstTurns_add turns m k
  rw [hus, h _ us hm]

end LuaNet.Lib
