import LuaNet.Lib.Holders

/-! Lifetimes of resources that are acquired, used as long as they live, and freed. -/

namespace LuaNet.Lib

variable {ρ : Type*}

inductive LifeEvent (ρ : Type*)
  | acquired (r : ρ)
  | used (r : ρ)
  | freed (r : ρ)
deriving DecidableEq

def LifeEvent.move : LifeEvent ρ → Option (Move ρ Unit)
  | .acquired r => some ⟨r, none, some ()⟩
  | .used r => some ⟨r, some (), some ()⟩
  | .freed r => some ⟨r, some (), none⟩

variable [DecidableEq ρ]

/-- Nothing is acquired that lives, and nothing used or freed that does not. -/
abbrev SafeLives (es : List (LifeEvent ρ)) : Prop := Lawful LifeEvent.move es

def aliveAfter (r : ρ) (es : List (LifeEvent ρ)) : Bool :=
  (ownerOf LifeEvent.move r es).isSome

structure Tracks (live : ρ → Bool) (es : List (LifeEvent ρ)) : Prop where
  safe : SafeLives es
  alive : ∀ r, aliveAfter r es = live r

theorem ownerOf_unit (r : ρ) (es : List (LifeEvent ρ)) :
    ownerOf LifeEvent.move r es = if aliveAfter r es then some () else none := by
  unfold aliveAfter
  cases ownerOf LifeEvent.move r es <;> rfl

theorem tracks_nil : Tracks (fun _ : ρ => false) [] := ⟨Each.nil _, fun _ => rfl⟩

section Tracks

variable {live : ρ → Bool} {es : List (LifeEvent ρ)} {r : ρ}

theorem Tracks.owner (h : Tracks live es) (r : ρ) :
    ownerOf LifeEvent.move r es = if live r then some () else none := by
  rw [ownerOf_unit, h.alive]

theorem Tracks.snoc (h : Tracks live es) {e : LifeEvent ρ} {m : Move ρ Unit}
    (he : e.move = some m) (hsrc : (if live m.what then some () else none) = m.src) :
    Tracks (Function.update live m.what m.dst.isSome) (es ++ [e]) where
  safe := h.safe.snoc_move he ((h.owner m.what).trans hsrc)
  alive := by
    intro r
    unfold aliveAfter
    rw [ownerOf_snoc]
    by_cases hr : r = m.what
    · rw [hr, ownerNext_of_eq he, Function.update_self]
    · rw [ownerNext_of_ne he (Ne.symm hr), Function.update_of_ne hr]
      exact h.alive r

theorem Tracks.acquire (h : Tracks live es) (hr : live r = false) :
    Tracks (Function.update live r true) (es ++ [.acquired r]) :=
  h.snoc (m := ⟨r, none, some ()⟩) rfl (by simp only [hr]; rfl)

theorem Tracks.use (h : Tracks live es) (hr : live r = true) :
    Tracks live (es ++ [.used r]) := by
  have huse : Tracks (Function.update live r true) (es ++ [.used r]) :=
    h.snoc (m := ⟨r, some (), some ()⟩) rfl (by simp only [hr]; rfl)
  rwa [← hr, Function.update_eq_self] at huse

theorem Tracks.free (h : Tracks live es) (hr : live r = true) :
    Tracks (Function.update live r false) (es ++ [.freed r]) :=
  h.snoc (m := ⟨r, some (), none⟩) rfl (by simp only [hr]; rfl)

end Tracks

theorem count_acquired (r : ρ) (es : List (LifeEvent ρ)) :
    es.count (.acquired r) = es.countP (enters LifeEvent.move r) := by
  apply List.countP_congr
  intro e _
  cases e <;> simp [enters, LifeEvent.move]

theorem count_freed (r : ρ) (es : List (LifeEvent ρ)) :
    es.count (.freed r) = es.countP (leaves LifeEvent.move r) := by
  apply List.countP_congr
  intro e _
  cases e <;> simp [leaves, LifeEvent.move]

/-- A resource has been freed as often as it has been acquired, but for its life now. -/
theorem safeLives_count {es : List (LifeEvent ρ)} (h : SafeLives es) (r : ρ) :
    es.count (.acquired r) = es.count (.freed r) + (aliveAfter r es).toNat := by
  rw [count_acquired, count_freed]
  exact h.count r

end LuaNet.Lib
