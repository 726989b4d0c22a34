import LuaNet.Lib.Run
import LuaNet.Lib.Traced

/-! Coroutines that share a state. Each runs alone up to its next suspension, and a scheduler
resumes the coroutines of a pool in any order. What every act guarantees, and an invariant of the
state at the suspensions, give what holds of every run of the pool. -/

namespace LuaNet.Lib

variable {σ ε α β : Type}

/-- `idle` is suspended for good: nothing is known of how it goes on. -/
inductive Coroutine (σ ε α : Type) : Type
  | done (a : α)
  | idle
  | act (f : σ → σ) (es : σ → List ε) (next : σ → Coroutine σ ε α)
  | suspend (next : Coroutine σ ε α)

namespace Coroutine

def andThen (f : α → Coroutine σ ε β) : Coroutine σ ε α → Coroutine σ ε β
  | .done a => f a
  | .idle => .idle
  | .act g es next => .act g es fun s => andThen f (next s)
  | .suspend next => .suspend (andThen f next)

instance : Monad (Coroutine σ ε) where
  pure := .done
  bind c f := andThen f c

def atomic (m : σ → σ × List ε × α) : Coroutine σ ε α :=
  .act (fun s => (m s).1) (fun s => (m s).2.1) fun s => .done (m s).2.2

def look : Coroutine σ ε σ := .act id (fun _ => []) .done

def emit (e : ε) : Coroutine σ ε Unit := .act id (fun _ => [e]) fun _ => .done ()

def yield : Coroutine σ ε Unit := .suspend (.done ())

def segment : Coroutine σ ε α → σ → σ × List ε × Coroutine σ ε α
  | .done a, s => (s, [], .done a)
  | .idle, s => (s, [], .idle)
  | .act f es next, s =>
    let r := segment (next s) (f s)
    (r.1, es s ++ r.2.1, r.2.2)
  | .suspend next, s => (s, [], .suspend next)

def resume : Coroutine σ ε α → Coroutine σ ε α
  | .suspend next => next
  | c => c

def poolStep (p : σ × List (Coroutine σ ε α)) (i : Nat) :
    (σ × List (Coroutine σ ε α)) × List ε :=
  match p.2[i]? with
  | none => (p, [])
  | some c =>
    let r := segment c.resume p.1
    ((r.1, p.2.set i r.2.2), r.2.1)

/-- The coroutine on its own, with nothing happening while it is suspended. -/
def solo : Coroutine σ ε α → Traced σ ε α
  | .done a => pure a
  | .idle => Traced.waiting
  | .act f es next => fun s =>
    let r := solo (next s) (f s)
    (r.1, es s ++ r.2.1, r.2.2)
  | .suspend next => solo next

/-- From a state in `P`: every act meets the guarantee `G`, the invariant `I` holds whenever the
coroutine is suspended, and may be all that is left when it is resumed; an answer comes with a
state in `Q`. -/
def Obeys (I : σ → Prop) (G : σ → List ε → σ → Prop) :
    (P : σ → Prop) → Coroutine σ ε α → (Q : α → σ → Prop) → Prop
  | P, .done a, Q => ∀ s, P s → Q a s
  | P, .idle, _ => ∀ s, P s → I s
  | P, .act f es next, Q => ∀ s, P s → G s (es s) (f s) ∧ Obeys I G (· = f s) (next s) Q
  | P, .suspend next, Q => ∀ s, P s → I s ∧ Obeys I G I next Q

section Rules

variable {I : σ → Prop} {G : σ → List ε → σ → Prop} {P P' : σ → Prop} {Q Q' : α → σ → Prop}
  {R : β → σ → Prop}

theorem Obeys.pure {a : α} (h : ∀ s, P s → Q a s) :
    Obeys I G P (Pure.pure a : Coroutine σ ε α) Q := h

theorem Obeys.idle (h : ∀ s, P s → I s) : Obeys I G P (Coroutine.idle : Coroutine σ ε α) Q := h

theorem Obeys.atomic {m : σ → σ × List ε × α}
    (h : ∀ s, P s → G s (m s).2.1 (m s).1 ∧ Q (m s).2.2 (m s).1) :
    Obeys I G P (atomic m) Q := by
  intro s hs
  obtain ⟨hG, hQ⟩ := h s hs
  refine ⟨hG, ?_⟩
  rintro t rfl
  exact hQ

theorem Obeys.emit {e : ε} {Q : Unit → σ → Prop} (h : ∀ s, P s → G s [e] s ∧ Q () s) :
    Obeys I G P (emit e) Q := by
  intro s hs
  obtain ⟨hG, hQ⟩ := h s hs
  refine ⟨hG, ?_⟩
  rintro t rfl
  exact hQ

theorem Obeys.yield {Q : Unit → σ → Prop} (h : ∀ s, P s → I s) (hQ : ∀ s, I s → Q () s) :
    Obeys I G P (yield : Coroutine σ ε Unit) Q := fun s hs => ⟨h s hs, hQ⟩

theorem Obeys.mono {c : Coroutine σ ε α} (h : Obeys I G P c Q) (hP : ∀ s, P' s → P s)
    (hQ : ∀ a s, Q a s → Q' a s) : Obeys I G P' c Q' := by
  induction c generalizing P P' with
  | done a => exact fun s hs => hQ a s (h s (hP s hs))
  | idle => exact fun s hs => h s (hP s hs)
  | act f es next ih =>
    intro s hs
    obtain ⟨hG, hnext⟩ := h s (hP s hs)
    exact ⟨hG, ih s hnext fun _ ht => ht⟩
  | suspend next ih =>
    intro s hs
    obtain ⟨hI, hnext⟩ := h s (hP s hs)
    exact ⟨hI, ih hnext fun _ ht => ht⟩

theorem Obeys.pre {c : Coroutine σ ε α} (h : Obeys I G P c Q) (hP : ∀ s, P' s → P s) :
    Obeys I G P' c Q := h.mono hP fun _ _ hQ => hQ

theorem Obeys.bind {c : Coroutine σ ε α} {f : α → Coroutine σ ε β} (hc : Obeys I G P c Q)
    (hf : ∀ a, Obeys I G (Q a) (f a) R) : Obeys I G P (c >>= f) R := by
  show Obeys I G P (andThen f c) R
  induction c generalizing P with
  | done a => exact (hf a).pre hc
  | idle => exact hc
  | act g es next ih =>
    intro s hs
    obtain ⟨hG, hnext⟩ := hc s hs
    exact ⟨hG, ih s hnext⟩
  | suspend next ih =>
    intro s hs
    obtain ⟨hI, hnext⟩ := hc s hs
    exact ⟨hI, ih hnext⟩

theorem Obeys.look_bind {f : σ → Coroutine σ ε β} (hnil : ∀ s, G s [] s)
    (hf : ∀ s, P s → Obeys I G (· = s) (f s) R) : Obeys I G P (look >>= f) R :=
  fun s hs => ⟨hnil s, hf s hs⟩

theorem Obeys.ite {b : Prop} [Decidable b] {c d : Coroutine σ ε α} (hc : b → Obeys I G P c Q)
    (hd : ¬b → Obeys I G P d Q) : Obeys I G P (if b then c else d) Q := by
  split
  next h => exact hc h
  next h => exact hd h

theorem Obeys.of_forall {c : Coroutine σ ε α} (h : ∀ s₀, P s₀ → Obeys I G (· = s₀) c Q) :
    Obeys I G P c Q := by
  cases c <;> exact fun s hs => h s hs s rfl

def Started (I : σ → Prop) (G : σ → List ε → σ → Prop) (c : Coroutine σ ε α) : Prop :=
  Obeys I G I c fun _ => I

section Pools

variable (hnil : ∀ s, G s [] s)
  (htrans : ∀ {s t u es fs}, G s es t → G t fs u → G s (es ++ fs) u)
include hnil htrans

theorem segment_obeys {c : Coroutine σ ε α} (hc : Obeys I G P c fun _ => I) {s : σ} (hs : P s) :
    G s (segment c s).2.1 (segment c s).1 ∧ I (segment c s).1 ∧
      Started I G (segment c s).2.2.resume := by
  induction c generalizing P s with
  | done a => exact ⟨hnil s, hc s hs, fun _ ht => ht⟩
  | idle => exact ⟨hnil s, hc s hs, fun _ ht => ht⟩
  | act f es next ih =>
    obtain ⟨hG, hnext⟩ := hc s hs
    obtain ⟨hG', hI, hrest⟩ := ih s hnext rfl
    exact ⟨htrans hG hG', hI, hrest⟩
  | suspend next ih =>
    obtain ⟨hI, hnext⟩ := hc s hs
    exact ⟨hnil s, hI, hnext⟩

/-- A pool whose state is in order, and all of whose coroutines can be resumed. -/
def PoolOk (I : σ → Prop) (G : σ → List ε → σ → Prop) (p : σ × List (Coroutine σ ε α)) : Prop :=
  I p.1 ∧ ∀ c ∈ p.2, Started I G c.resume

theorem poolStep_obeys {p : σ × List (Coroutine σ ε α)} (i : Nat) (hp : PoolOk I G p) :
    PoolOk I G (poolStep p i).1 ∧ G p.1 (poolStep p i).2 (poolStep p i).1.1 := by
  obtain ⟨hI, hcs⟩ := hp
  unfold poolStep
  split
  · exact ⟨⟨hI, hcs⟩, hnil p.1⟩
  · next c hc =>
    obtain ⟨hG, hI', hrest⟩ :=
      segment_obeys hnil htrans (hcs c (List.mem_of_getElem? hc)) hI
    refine ⟨⟨hI', fun d hd => ?_⟩, hG⟩
    rcases List.mem_or_eq_of_mem_set hd with hd | rfl
    · exact hcs d hd
    · exact hrest

/-- The pool rule: coroutines that obey the guarantee on their own obey it in every
interleaving. -/
theorem pool_runs {s : σ} {cs : List (Coroutine σ ε α)} (hs : I s)
    (hcs : ∀ c ∈ cs, Started I G c) (sched : List Nat) :
    I (runs poolStep (s, cs) sched).1.1 ∧
      G s (runs poolStep (s, cs) sched).2 (runs poolStep (s, cs) sched).1.1 := by
  have hresume (c : Coroutine σ ε α) (hc : Started I G c) : Started I G c.resume := by
    cases c with
    | suspend next => exact (hc s hs).2
    | _ => exact hc
  have hstart : PoolOk I G (s, cs) := ⟨hs, fun c hc => hresume c (hcs c hc)⟩
  have hstep (p : σ × List (Coroutine σ ε α)) (i : Nat) (hp : PoolOk I G p) :
      PoolOk I G (poolStep p i).1 ∧ G p.1 (poolStep p i).2 (poolStep p i).1.1 :=
    poolStep_obeys hnil htrans i hp
  refine ⟨(runs_invariant (fun p i hp => (hstep p i hp).1) hstart sched).1, ?_⟩
  apply runs_trace (R := fun p es q => G p.1 es q.1) hstep (fun p => hnil p.1) _ hstart sched
  exact htrans

end Pools

end Rules

section Solo

@[simp] theorem solo_pure (a : α) : solo (pure a : Coroutine σ ε α) = pure a := rfl

theorem erase_solo_atomic (m : σ → σ × List ε × α) (s : σ) :
    Traced.erase (solo (atomic m)) s = ((m s).1, some (m s).2.2) := rfl

theorem solo_bind (c : Coroutine σ ε α) (f : α → Coroutine σ ε β) :
    solo (c >>= f) = solo c >>= fun a => solo (f a) := by
  show solo (andThen f c) = _
  induction c with
  | done a => rfl
  | idle => rfl
  | act g es next ih =>
    funext s
    have hnext := congrFun (ih s) (g s)
    simp only [andThen, solo, hnext]
    show _ = (solo (.act g es next) >>= fun a => solo (f a)) s
    cases h : solo (next s) (g s) with
    | mk t rest =>
      obtain ⟨fs, ended⟩ := rest
      have hact : solo (.act g es next) s = (t, es s ++ fs, ended) := by
        simp only [solo, h]
      cases ended with
      | none => rw [Traced.bind_of_none h, Traced.bind_of_none hact]
      | some a =>
        rw [Traced.bind_of_some h, Traced.bind_of_some hact]
        simp only [List.append_assoc]
  | suspend next ih => exact ih

end Solo

end Coroutine
end LuaNet.Lib
