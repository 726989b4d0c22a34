import LuaNet.Lib.Run

/-! Loops that attempt, wait and attempt again. A loop hears the answers to its attempts and the
ends of its waits; what is not addressed to the phase it is in leaves it as it is. -/

namespace LuaNet.Lib

variable {σ ρ α ω ε : Type*}

inductive LoopPhase (σ ρ : Type*)
  | ready (s : σ)
  | waiting (s : σ)
  | returned (r : ρ)
deriving DecidableEq

def LoopPhase.map {τ : Type*} (f : σ → τ) : LoopPhase σ ρ → LoopPhase τ ρ
  | .ready s => .ready (f s)
  | .waiting s => .waiting (f s)
  | .returned r => .returned r

inductive LoopTurn (α ω : Type*)
  | answer (a : α)
  | wake (w : ω)

structure RetryLoop (σ ρ α ω ε : Type*) where
  attempt : σ → α → LoopPhase σ ρ × List ε
  resume : σ → ω → LoopPhase σ ρ

namespace RetryLoop

variable (l : RetryLoop σ ρ α ω ε)

def step : LoopPhase σ ρ → LoopTurn α ω → LoopPhase σ ρ × List ε
  | .ready s, .answer a => l.attempt s a
  | .waiting s, .wake w => (l.resume s w, [])
  | p, _ => (p, [])

def run (p : LoopPhase σ ρ) (ts : List (LoopTurn α ω)) : LoopPhase σ ρ × List ε :=
  runs l.step p ts

theorem run_returned (r : ρ) (ts : List (LoopTurn α ω)) :
    l.run (.returned r) ts = (.returned r, []) := by
  induction ts with
  | nil => rfl
  | cons t ts ih =>
    show ((runs l.step (.returned r) ts).1, [] ++ (runs l.step (.returned r) ts).2) = _
    rw [← run, ih]
    rfl

theorem run_snoc (p : LoopPhase σ ρ) (ts : List (LoopTurn α ω)) (t : LoopTurn α ω) :
    l.run p (ts ++ [t]) =
      ((l.step (l.run p ts).1 t).1, (l.run p ts).2 ++ (l.step (l.run p ts).1 t).2) := by
  rw [run, runs_append, ← run]
  exact congrArg (Prod.mk _) (congrArg _ (List.append_nil _))

theorem run_of_returned {s : σ} {a : α} {r : ρ} (h : (l.attempt s a).1 = .returned r)
    (ts : List (LoopTurn α ω)) :
    l.run (.ready s) (.answer a :: ts) = (.returned r, (l.attempt s a).2) := by
  show ((l.run (l.attempt s a).1 ts).1, (l.attempt s a).2 ++ (l.run (l.attempt s a).1 ts).2) = _
  rw [h, run_returned, List.append_nil]

theorem run_of_waiting {s t : σ} {a : α} (h : (l.attempt s a).1 = .waiting t) (w : ω)
    (ts : List (LoopTurn α ω)) :
    l.run (.ready s) (.answer a :: .wake w :: ts) =
      ((l.run (l.resume t w) ts).1, (l.attempt s a).2 ++ (l.run (l.resume t w) ts).2) := by
  show ((l.run (l.attempt s a).1 (.wake w :: ts)).1,
    (l.attempt s a).2 ++ (l.run (l.attempt s a).1 (.wake w :: ts)).2) = _
  rw [h]
  rfl

theorem run_map {τ δ : Type*} {l' : RetryLoop τ ρ α ω δ} {f : σ → τ} {g : ε → δ}
    (hattempt : ∀ s a, l'.attempt (f s) a = ((l.attempt s a).1.map f, (l.attempt s a).2.map g))
    (hresume : ∀ s w, l'.resume (f s) w = (l.resume s w).map f) (p : LoopPhase σ ρ)
    (ts : List (LoopTurn α ω)) :
    l'.run (p.map f) ts = ((l.run p ts).1.map f, (l.run p ts).2.map g) := by
  have hstep (p : LoopPhase σ ρ) (t : LoopTurn α ω) :
      l'.step (p.map f) t = ((l.step p t).1.map f, (l.step p t).2.map g) := by
    match p, t with
    | .ready s, .answer a => exact hattempt s a
    | .waiting s, .wake w => exact congrArg (Prod.mk · []) (hresume s w)
    | .ready _, .wake _ => rfl
    | .waiting _, .answer _ => rfl
    | .returned _, _ => rfl
  induction ts generalizing p with
  | nil => rfl
  | cons t ts ih =>
    show ((l'.run (l'.step (p.map f) t).1 ts).1,
      (l'.step (p.map f) t).2 ++ (l'.run (l'.step (p.map f) t).1 ts).2) = _
    rw [hstep, ih, ← List.map_append]
    rfl

variable {l}

theorem step_history {I : LoopPhase σ ρ → List ε → Prop}
    (hattempt : ∀ s a es, I (.ready s) es → I (l.attempt s a).1 (es ++ (l.attempt s a).2))
    (hresume : ∀ s w es, I (.waiting s) es → I (l.resume s w) es)
    (p : LoopPhase σ ρ) (es : List ε) (t : LoopTurn α ω) (h : I p es) :
    I (l.step p t).1 (es ++ (l.step p t).2) := by
  have hkeep : I p (es ++ []) := by rwa [List.append_nil]
  match p, t with
  | .ready s, .answer a => exact hattempt s a es h
  | .waiting s, .wake w =>
    show I (l.resume s w) (es ++ [])
    rw [List.append_nil]
    exact hresume s w es h
  | .ready _, .wake _ => exact hkeep
  | .waiting _, .answer _ => exact hkeep
  | .returned _, _ => exact hkeep

/-- The loop rule. -/
theorem run_history {I : LoopPhase σ ρ → List ε → Prop}
    (hattempt : ∀ s a es, I (.ready s) es → I (l.attempt s a).1 (es ++ (l.attempt s a).2))
    (hresume : ∀ s w es, I (.waiting s) es → I (l.resume s w) es)
    {p : LoopPhase σ ρ} (h : I p []) (ts : List (LoopTurn α ω)) :
    I (l.run p ts).1 (l.run p ts).2 :=
  runs_history (step_history hattempt hresume) h ts

end RetryLoop

end LuaNet.Lib
