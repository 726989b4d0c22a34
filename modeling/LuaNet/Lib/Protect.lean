import LuaNet.Lib.Lifetime
import LuaNet.Lib.Raising

/-! Protected calls, and what must be given back on every way out of one. A computation notes what
it acquires, uses and frees; a resource that lives when it is left has been lost. -/

namespace LuaNet.Lib

variable {σ ε α β ρ : Type}

namespace Raising

def protect (m : Raising σ ε α) : Raising σ ε (Except ε α) := fun s => (.ok (m s).1, (m s).2)

def ofExcept : Except ε α → Raising σ ε α
  | .ok a => pure a
  | .error e => raise e

/-- Calls `m` and then `release`, whether `m` has returned or raised. -/
def finallyDo (m : Raising σ ε α) (release : Raising σ ε Unit) : Raising σ ε α := do
  let r ← protect m
  release
  ofExcept r

variable {P : σ → Prop} {Q R : α → σ → Prop} {E F : ε → σ → Prop}

theorem Triple.finallyDo {m : Raising σ ε α} {release : Raising σ ε Unit}
    (hm : Triple P m Q E) (hret : ∀ a, Triple (Q a) release (fun _ => R a) fun _ _ => False)
    (herr : ∀ e, Triple (E e) release (fun _ => F e) fun _ _ => False) :
    Triple P (finallyDo m release) R F := by
  intro s hs
  have hbody := hm s hs
  rcases h : m s with ⟨e | a, t⟩
  · rw [h] at hbody
    obtain ⟨u, v, hrun, hpost⟩ := (herr e).returns hbody
    have hprotect : protect m s = (.ok (.error e), t) := by rw [protect, h]
    rw [Raising.finallyDo, bind_of_ok hprotect, bind_of_ok hrun]
    exact hpost
  · rw [h] at hbody
    obtain ⟨u, v, hrun, hpost⟩ := (hret a).returns hbody
    have hprotect : protect m s = (.ok (.ok a), t) := by rw [protect, h]
    rw [Raising.finallyDo, bind_of_ok hprotect, bind_of_ok hrun]
    exact hpost

end Raising

structure Logged (ρ σ : Type) where
  events : List (LifeEvent ρ)
  rest : σ

namespace Logged

def note (e : LifeEvent ρ) : Raising (Logged ρ σ) ε Unit :=
  Raising.update fun s => { s with events := s.events ++ [e] }

def acquire (r : ρ) : Raising (Logged ρ σ) ε Unit := note (.acquired r)

def use (r : ρ) : Raising (Logged ρ σ) ε Unit := note (.used r)

def free (r : ρ) : Raising (Logged ρ σ) ε Unit := note (.freed r)

def inner (m : Raising σ ε α) : Raising (Logged ρ σ) ε α := fun s =>
  ((m s.rest).1, { s with rest := (m s.rest).2 })

/-- The resources in `live` live and no others, and nothing has gone wrong so far. -/
structure Owns [DecidableEq ρ] (live : ρ → Bool) (P : σ → Prop) (s : Logged ρ σ) : Prop where
  tracks : Tracks live s.events
  rest : P s.rest

section Rules

variable [DecidableEq ρ] {live : ρ → Bool} {r : ρ} {P : σ → Prop} {Q : α → σ → Prop}
  {E : ε → Logged ρ σ → Prop} {F : ε → σ → Prop}

theorem acquire_rule (hr : live r = false) :
    Raising.Triple (Owns live P) (acquire r) (fun _ => Owns (Function.update live r true) P) E :=
  fun _ hs => ⟨hs.tracks.acquire hr, hs.rest⟩

theorem use_rule (hr : live r = true) :
    Raising.Triple (Owns live P) (use r) (fun _ => Owns live P) E :=
  fun _ hs => ⟨hs.tracks.use hr, hs.rest⟩

theorem free_rule (hr : live r = true) :
    Raising.Triple (Owns live P) (free r) (fun _ => Owns (Function.update live r false) P) E :=
  fun _ hs => ⟨hs.tracks.free hr, hs.rest⟩

theorem inner_rule {m : Raising σ ε α} (h : Raising.Triple P m Q F) :
    Raising.Triple (Owns live P) (inner m) (fun a => Owns live (Q a)) fun e => Owns live (F e) := by
  intro s hs
  have hm := h s.rest hs.rest
  rcases hrun : m s.rest with ⟨e | a, t⟩
  · rw [hrun] at hm
    rw [inner, hrun]
    exact ⟨hs.tracks, hm⟩
  · rw [hrun] at hm
    rw [inner, hrun]
    exact ⟨hs.tracks, hm⟩

theorem Owns.mono {P' : σ → Prop} {s : Logged ρ σ} (h : Owns live P s) (hP : P s.rest → P' s.rest) :
    Owns live P' s := ⟨h.tracks, hP h.rest⟩

end Rules

end Logged

end LuaNet.Lib
