import Mathlib.Tactic.Common

/-! Computations on a state that report observations and may be left waiting for an answer that
has not come. Their triples assume something of every observation and guarantee something
else. -/

namespace LuaNet.Lib

variable {σ ε α β : Type}

def Traced (σ ε α : Type) : Type := σ → σ × List ε × Option α

namespace Traced

instance : Monad (Traced σ ε) where
  pure a := fun s => (s, [], some a)
  bind m f := fun s =>
    match m s with
    | (t, es, none) => (t, es, none)
    | (t, es, some a) => ((f a t).1, es ++ (f a t).2.1, (f a t).2.2)

def emit (e : ε) : Traced σ ε Unit := fun s => (s, [e], some ())

def waiting : Traced σ ε α := fun s => (s, [], none)

def state : Traced σ ε σ := fun s => (s, [], some s)

def update (f : σ → σ) : Traced σ ε Unit := fun s => (f s, [], some ())

def erase (m : Traced σ ε α) (s : σ) : σ × Option α := ((m s).1, (m s).2.2)

section Laws

variable {m : Traced σ ε α} {f : α → Traced σ ε β} {s t : σ} {a : α} {es : List ε}

@[simp] theorem erase_pure (a : α) (s : σ) : erase (pure a : Traced σ ε α) s = (s, some a) := rfl

@[simp] theorem erase_emit (e : ε) (s : σ) :
    erase (emit e : Traced σ ε Unit) s = (s, some ()) := rfl

@[simp] theorem erase_waiting (s : σ) : erase (waiting : Traced σ ε α) s = (s, none) := rfl

@[simp] theorem erase_state (s : σ) : erase (state : Traced σ ε σ) s = (s, some s) := rfl

@[simp] theorem erase_update (g : σ → σ) (s : σ) :
    erase (update g : Traced σ ε Unit) s = (g s, some ()) := rfl

theorem erase_ite (c : Prop) [Decidable c] (m n : Traced σ ε α) (s : σ) :
    erase (if c then m else n) s = if c then erase m s else erase n s := by
  split <;> rfl

theorem bind_of_none (h : m s = (t, es, none)) : (m >>= f) s = (t, es, none) := by
  show (match m s with
    | (t, es, none) => (t, es, none)
    | (t, es, some a) => ((f a t).1, es ++ (f a t).2.1, (f a t).2.2)) = _
  rw [h]

theorem bind_of_some (h : m s = (t, es, some a)) :
    (m >>= f) s = ((f a t).1, es ++ (f a t).2.1, (f a t).2.2) := by
  show (match m s with
    | (t, es, none) => (t, es, none)
    | (t, es, some a) => ((f a t).1, es ++ (f a t).2.1, (f a t).2.2)) = _
  rw [h]

theorem erase_bind (m : Traced σ ε α) (f : α → Traced σ ε β) (s : σ) :
    erase (m >>= f) s =
      match (erase m s).2 with
      | none => ((erase m s).1, none)
      | some a => erase (f a) (erase m s).1 := by
  unfold erase
  match h : m s with
  | (t, es, none) => rw [bind_of_none h]
  | (t, es, some a) => rw [bind_of_some h]

end Laws

/-- From a state in `P`, when every observation meets `H`: every observation meets `G`, and an
answer comes with a state in `Q`. -/
def Triple (H G : ε → Prop) (P : σ → Prop) (m : Traced σ ε α) (Q : α → σ → Prop) : Prop :=
  ∀ s, P s → (∀ e ∈ (m s).2.1, H e) →
    (∀ e ∈ (m s).2.1, G e) ∧ ∀ a, (m s).2.2 = some a → Q a (m s).1

section Triples

variable {H G : ε → Prop} {P P' : σ → Prop} {Q Q' : α → σ → Prop} {R : β → σ → Prop}

theorem Triple.pure {a : α} (h : ∀ s, P s → Q a s) : Triple H G P (Pure.pure a) Q := by
  intro s hs _
  refine ⟨fun e he => absurd he List.not_mem_nil, fun b hb => ?_⟩
  cases hb
  exact h s hs

theorem Triple.emit {e : ε} {Q : Unit → σ → Prop} (h : ∀ s, P s → H e → G e ∧ Q () s) :
    Triple H G P (emit e) Q := by
  intro s hs hH
  obtain ⟨hG, hQ⟩ := h s hs (hH e (List.mem_singleton_self e))
  refine ⟨fun e' he => ?_, fun _ _ => hQ⟩
  rw [List.mem_singleton.mp he]
  exact hG

theorem Triple.waiting : Triple H G P (waiting : Traced σ ε α) Q :=
  fun _ _ _ => ⟨fun _ he => absurd he List.not_mem_nil, nofun⟩

theorem Triple.state : Triple H G P (state : Traced σ ε σ) (fun a s => a = s ∧ P s) := by
  intro s hs _
  refine ⟨fun e he => absurd he List.not_mem_nil, fun a ha => ?_⟩
  cases ha
  exact ⟨rfl, hs⟩

theorem Triple.update {g : σ → σ} {Q : Unit → σ → Prop} (h : ∀ s, P s → Q () (g s)) :
    Triple H G P (update g : Traced σ ε Unit) Q :=
  fun s hs _ => ⟨fun _ he => absurd he List.not_mem_nil, fun _ _ => h s hs⟩

theorem Triple.bind {m : Traced σ ε α} {f : α → Traced σ ε β} (hm : Triple H G P m Q)
    (hf : ∀ a, Triple H G (Q a) (f a) R) : Triple H G P (m >>= f) R := by
  intro s hs hH
  have hm' := hm s hs
  match h : m s with
  | (t, es, none) =>
    rw [bind_of_none h] at hH ⊢
    rw [h] at hm'
    exact ⟨(hm' hH).1, nofun⟩
  | (t, es, some a) =>
    rw [bind_of_some h] at hH ⊢
    rw [h] at hm'
    have hleft : ∀ e ∈ es, H e := fun e he => hH e (List.mem_append_left _ he)
    have hright : ∀ e ∈ (f a t).2.1, H e := fun e he => hH e (List.mem_append_right _ he)
    obtain ⟨hG, hQ⟩ := hm' hleft
    obtain ⟨hG', hR⟩ := hf a t (hQ a rfl) hright
    exact ⟨List.forall_mem_append.mpr ⟨hG, hG'⟩, hR⟩

theorem Triple.mono {m : Traced σ ε α} (h : Triple H G P m Q) (hP : ∀ s, P' s → P s)
    (hQ : ∀ a s, Q a s → Q' a s) : Triple H G P' m Q' := by
  intro s hs hH
  obtain ⟨hG, hpost⟩ := h s (hP s hs) hH
  exact ⟨hG, fun a ha => hQ a _ (hpost a ha)⟩

theorem Triple.pre {m : Traced σ ε α} (h : Triple H G P m Q) (hP : ∀ s, P' s → P s) :
    Triple H G P' m Q := h.mono hP fun _ _ hQ => hQ

theorem Triple.of_forall {m : Traced σ ε α} (h : ∀ s₀, P s₀ → Triple H G (· = s₀) m Q) :
    Triple H G P m Q :=
  fun s hs => h s hs s rfl

end Triples

end Traced

end LuaNet.Lib
