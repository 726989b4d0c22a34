import LuaNet.Lib.Run
import LuaNet.Lib.Traced

/-! Triples that look at all observations so far: each new one has to be allowed by what came before
it. -/

namespace LuaNet.Lib

variable {σ ε δ α β : Type}

theorem Each.append_iff {P : List ε → ε → Prop} {es fs : List ε} :
    Each P (es ++ fs) ↔ Each P es ∧ Each (fun before => P (es ++ before)) fs := by
  induction es generalizing P with
  | nil => exact ⟨fun h => ⟨.nil P, h⟩, fun h => h.2⟩
  | cons e es ih =>
    rw [List.cons_append, Each.cons_iff, Each.cons_iff, ih, and_assoc]
    rfl

namespace Traced

def quiet (m : Traced σ ε α) : Traced σ δ α := fun s => ((m s).1, [], (m s).2.2)

@[simp] theorem erase_quiet (m : Traced σ ε α) (s : σ) :
    erase (quiet m : Traced σ δ α) s = erase m s := rfl

/-- From a state and a past in `P`: every observation is `ok` after what came before it, an answer
comes with a state and a past in `Q`, and a past in `W` is left where none comes. -/
def Historic (ok : List ε → ε → Prop) (W : List ε → Prop) (P : σ → List ε → Prop)
    (m : Traced σ ε α) (Q : α → σ → List ε → Prop) : Prop :=
  ∀ s es, P s es → Each (fun before => ok (es ++ before)) (m s).2.1 ∧
    ((m s).2.2 = none → W (es ++ (m s).2.1)) ∧
    ∀ a, (m s).2.2 = some a → Q a (m s).1 (es ++ (m s).2.1)

section Rules

variable {ok : List ε → ε → Prop} {W : List ε → Prop} {P P' : σ → List ε → Prop}
  {Q Q' : α → σ → List ε → Prop} {R : β → σ → List ε → Prop}

theorem Historic.pure {a : α} (h : ∀ s es, P s es → Q a s es) :
    Historic ok W P (Pure.pure a) Q := by
  intro s es hP
  refine ⟨.nil _, nofun, fun b hb => ?_⟩
  cases hb
  show Q a s (es ++ [])
  rw [List.append_nil]
  exact h s es hP

theorem Historic.emit {e : ε} {Q : Unit → σ → List ε → Prop}
    (h : ∀ s es, P s es → ok es e ∧ Q () s (es ++ [e])) : Historic ok W P (emit e) Q := by
  intro s es hP
  obtain ⟨hok, hQ⟩ := h s es hP
  refine ⟨Each.snoc (.nil _) ?_, nofun, fun _ _ => hQ⟩
  rw [List.append_nil]
  exact hok

theorem Historic.waiting (h : ∀ s es, P s es → W es) :
    Historic ok W P (waiting : Traced σ ε α) Q := by
  intro s es hP
  refine ⟨.nil _, fun _ => ?_, nofun⟩
  show W (es ++ [])
  rw [List.append_nil]
  exact h s es hP

theorem Historic.state :
    Historic ok W P (state : Traced σ ε σ) (fun a s es => a = s ∧ P s es) := by
  intro s es hP
  refine ⟨.nil _, nofun, fun a ha => ?_⟩
  cases ha
  refine ⟨rfl, ?_⟩
  show P s (es ++ [])
  rw [List.append_nil]
  exact hP

theorem Historic.update {g : σ → σ} {Q : Unit → σ → List ε → Prop}
    (h : ∀ s es, P s es → Q () (g s) es) : Historic ok W P (update g) Q := by
  intro s es hP
  refine ⟨.nil _, nofun, fun _ _ => ?_⟩
  show Q () (g s) (es ++ [])
  rw [List.append_nil]
  exact h s es hP

theorem Historic.quiet {m : Traced σ δ α}
    (hwait : ∀ s es, P s es → (m s).2.2 = none → W es)
    (h : ∀ s es, P s es → ∀ a, (m s).2.2 = some a → Q a (m s).1 es) :
    Historic ok W P (quiet m) Q := by
  intro s es hP
  refine ⟨.nil _, fun hnone => ?_, fun a ha => ?_⟩
  · show W (es ++ [])
    rw [List.append_nil]
    exact hwait s es hP hnone
  · show Q a (m s).1 (es ++ [])
    rw [List.append_nil]
    exact h s es hP a ha

theorem Historic.bind {m : Traced σ ε α} {f : α → Traced σ ε β} (hm : Historic ok W P m Q)
    (hf : ∀ a, Historic ok W (Q a) (f a) R) : Historic ok W P (m >>= f) R := by
  intro s es hP
  obtain ⟨hok, hnone, hsome⟩ := hm s es hP
  rcases h : m s with ⟨t, fs, _ | a⟩
  · rw [bind_of_none h]
    rw [h] at hok hnone
    exact ⟨hok, fun _ => hnone rfl, nofun⟩
  · rw [bind_of_some h]
    rw [h] at hok hsome
    obtain ⟨hok', hnone', hsome'⟩ := hf a t (es ++ fs) (hsome a rfl)
    rw [List.append_assoc] at hnone' hsome'
    refine ⟨Each.append_iff.mpr ⟨hok, ?_⟩, hnone', hsome'⟩
    simp only [List.append_assoc] at hok'
    exact hok'

theorem Historic.mono {m : Traced σ ε α} (h : Historic ok W P m Q)
    (hP : ∀ s es, P' s es → P s es) (hQ : ∀ a s es, Q a s es → Q' a s es) :
    Historic ok W P' m Q' := by
  intro s es hs
  obtain ⟨hok, hnone, hsome⟩ := h s es (hP s es hs)
  exact ⟨hok, hnone, fun a ha => hQ a _ _ (hsome a ha)⟩

theorem Historic.pre {m : Traced σ ε α} (h : Historic ok W P m Q)
    (hP : ∀ s es, P' s es → P s es) : Historic ok W P' m Q := h.mono hP fun _ _ _ hQ => hQ

theorem Historic.ite {c : Prop} [Decidable c] {m n : Traced σ ε α}
    (hm : c → Historic ok W P m Q) (hn : ¬c → Historic ok W P n Q) :
    Historic ok W P (if c then m else n) Q := by
  split
  next h => exact hm h
  next h => exact hn h

theorem Historic.of_forall {m : Traced σ ε α} {C : Prop} (h : C → Historic ok W P m Q) :
    Historic ok W (fun s es => C ∧ P s es) m Q :=
  fun s es hP => h hP.1 s es hP.2

end Rules

end Traced

end LuaNet.Lib
