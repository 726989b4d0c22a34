import Mathlib.Tactic.Common

/-! Computations on a state that may raise an error, and then leave the state as far as they got
with it. Their triples have two postconditions, one for each way out. -/

namespace LuaNet.Lib

variable {σ ε α β : Type}

theorem except_bind_eq_ok {x : Except ε α} {f : α → Except ε β} {b : β}
    (h : x.bind f = .ok b) : ∃ a, x = .ok a ∧ f a = .ok b := by
  cases x with
  | error e => cases h
  | ok a => exact ⟨a, rfl, h⟩

theorem except_map_eq_ok {x : Except ε α} {f : α → β} {b : β}
    (h : x.map f = .ok b) : ∃ a, x = .ok a ∧ f a = b := by
  cases x with
  | error e => cases h
  | ok a => exact ⟨a, rfl, Except.ok.inj h⟩

theorem except_map_eq_error {x : Except ε α} {f : α → β} {e : ε} (h : x.map f = .error e) :
    x = .error e := by
  cases x with
  | error e' => exact congrArg Except.error (Except.error.inj h)
  | ok a => cases h

def Raising (σ ε α : Type) : Type := σ → Except ε α × σ

namespace Raising

instance : Monad (Raising σ ε) where
  pure a := fun s => (.ok a, s)
  bind m f := fun s =>
    match m s with
    | (.ok a, t) => f a t
    | (.error e, t) => (.error e, t)

def raise (e : ε) : Raising σ ε α := fun s => (.error e, s)

def state : Raising σ ε σ := fun s => (.ok s, s)

def update (f : σ → σ) : Raising σ ε Unit := fun s => (.ok (), f s)

@[simp] theorem pure_run (a : α) (s : σ) : (pure a : Raising σ ε α) s = (.ok a, s) := rfl

@[simp] theorem raise_run (e : ε) (s : σ) : (raise e : Raising σ ε α) s = (.error e, s) := rfl

@[simp] theorem state_run (s : σ) : (state : Raising σ ε σ) s = (.ok s, s) := rfl

@[simp] theorem update_run (f : σ → σ) (s : σ) :
    (update f : Raising σ ε Unit) s = (.ok (), f s) := rfl

@[simp] theorem bind_run (m : Raising σ ε α) (f : α → Raising σ ε β) (s : σ) :
    (m >>= f) s =
      match m s with
      | (.ok a, t) => f a t
      | (.error e, t) => (.error e, t) := rfl

theorem bind_of_ok {m : Raising σ ε α} {f : α → Raising σ ε β} {s t : σ} {a : α}
    (h : m s = (.ok a, t)) : (m >>= f) s = f a t := by
  show (match m s with | (.ok a, t) => f a t | (.error e, t) => (.error e, t)) = _
  rw [h]

theorem bind_of_error {m : Raising σ ε α} {f : α → Raising σ ε β} {s t : σ} {e : ε}
    (h : m s = (.error e, t)) : (m >>= f) s = (.error e, t) := by
  show (match m s with | (.ok a, t) => f a t | (.error e, t) => (.error e, t)) = _
  rw [h]

theorem bind_bind {γ : Type} (m : Raising σ ε α) (f : α → Raising σ ε β)
    (g : β → Raising σ ε γ) : m >>= f >>= g = m >>= fun a => f a >>= g := by
  funext s
  match h : m s with
  | (.ok a, t) =>
    rw [bind_of_ok h]
    match h' : f a t with
    | (.ok b, u) => rw [bind_of_ok h', bind_of_ok ((bind_of_ok h).trans h')]
    | (.error e, u) => rw [bind_of_error h', bind_of_error ((bind_of_ok h).trans h')]
  | (.error e, t) => rw [bind_of_error h, bind_of_error (bind_of_error h)]

/-- From a state in `P` the computation returns into `Q` or raises into `E`. -/
def Triple (P : σ → Prop) (m : Raising σ ε α) (Q : α → σ → Prop) (E : ε → σ → Prop) : Prop :=
  ∀ s, P s →
    match m s with
    | (.ok a, t) => Q a t
    | (.error e, t) => E e t

variable {P : σ → Prop} {Q : α → σ → Prop} {R : β → σ → Prop} {E : ε → σ → Prop}

theorem Triple.pure {a : α} (h : ∀ s, P s → Q a s) :
    Triple P (Pure.pure a : Raising σ ε α) Q E := h

theorem Triple.raise {e : ε} (h : ∀ s, P s → E e s) : Triple P (raise e : Raising σ ε α) Q E := h

theorem Triple.state : Triple P (state : Raising σ ε σ) (fun a s => a = s ∧ P s) E :=
  fun _ hs => ⟨rfl, hs⟩

theorem Triple.read {f : σ → Raising σ ε β} (h : ∀ s₀, P s₀ → Triple P (f s₀) R E) :
    Triple P (Raising.state >>= f) R E := fun s hs => h s hs s hs

theorem Triple.update {f : σ → σ} {Q : Unit → σ → Prop} (h : ∀ s, P s → Q () (f s)) :
    Triple P (update f : Raising σ ε Unit) Q E := h

theorem Triple.bind {m : Raising σ ε α} {f : α → Raising σ ε β} (hm : Triple P m Q E)
    (hf : ∀ a, Triple (Q a) (f a) R E) : Triple P (m >>= f) R E := by
  intro s hs
  have hm' := hm s hs
  match h : m s with
  | (.ok a, t) =>
    rw [h] at hm'
    rw [bind_of_ok h]
    exact hf a t hm'
  | (.error e, t) =>
    rw [h] at hm'
    rw [bind_of_error h]
    exact hm'

theorem Triple.of_fact {C : Prop} {m : Raising σ ε α} (h : C → Triple P m Q E) :
    Triple (fun s => C ∧ P s) m Q E :=
  fun s hs => h hs.1 s hs.2

theorem Triple.returns {m : Raising σ ε α} (h : Triple P m Q fun _ _ => False) {s : σ}
    (hs : P s) : ∃ a t, m s = (.ok a, t) ∧ Q a t := by
  have hm := h s hs
  rcases hrun : m s with ⟨e | a, t⟩
  · rw [hrun] at hm
    exact hm.elim
  · rw [hrun] at hm
    exact ⟨a, t, rfl, hm⟩

theorem Triple.of_exists {ι : Type} {P : ι → σ → Prop} {m : Raising σ ε α}
    (h : ∀ i, Triple (P i) m Q E) : Triple (fun s => ∃ i, P i s) m Q E := by
  intro s hs
  obtain ⟨i, hi⟩ := hs
  exact h i s hi

theorem Triple.or {P' : σ → Prop} {m : Raising σ ε α} (h : Triple P m Q E)
    (h' : Triple P' m Q E) : Triple (fun s => P s ∨ P' s) m Q E := by
  intro s hs
  rcases hs with hs | hs
  · exact h s hs
  · exact h' s hs

theorem Triple.mono {P' : σ → Prop} {Q' : α → σ → Prop} {E' : ε → σ → Prop}
    {m : Raising σ ε α} (h : Triple P m Q E) (hP : ∀ s, P' s → P s) (hQ : ∀ a s, Q a s → Q' a s)
    (hE : ∀ e s, E e s → E' e s) : Triple P' m Q' E' := by
  intro s hs
  have hm := h s (hP s hs)
  match hs' : m s with
  | (.ok a, t) =>
    rw [hs'] at hm
    exact hQ a t hm
  | (.error e, t) =>
    rw [hs'] at hm
    exact hE e t hm

theorem Triple.pre {P' : σ → Prop} {m : Raising σ ε α} (h : Triple P m Q E)
    (hP : ∀ s, P' s → P s) : Triple P' m Q E := h.mono hP (fun _ _ hQ => hQ) fun _ _ hE => hE

theorem Triple.post {Q' : α → σ → Prop} {m : Raising σ ε α} (h : Triple P m Q E)
    (hQ : ∀ a s, Q a s → Q' a s) : Triple P m Q' E := h.mono (fun _ hP => hP) hQ fun _ _ hE => hE

end Raising

end LuaNet.Lib
