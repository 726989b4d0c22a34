import LuaNet.Lib.Raising
import Mathlib.Data.List.Nodup
import Mathlib.Data.List.Perm.Basic

/-! A pass over the entries of an unordered collection. Each entry is rejected or makes a change
to a state; where the changes commute, whether the pass succeeds and what it leaves do not depend
on the order. -/

namespace LuaNet.Lib

variable {α β ε σ : Type}

def sweep (check : α → Except ε (σ → σ)) : List α → σ → Except ε σ
  | [], s => .ok s
  | a :: as, s => (check a).bind fun change => sweep check as (change s)

/-- What two checks make of the state does not depend on which comes first. -/
def Commute₂ (x y : Except ε (σ → σ)) : Prop :=
  ∀ f g, x = .ok f → y = .ok g → ∀ s, f (g s) = g (f s)

theorem Commute₂.symm {x y : Except ε (σ → σ)} (h : Commute₂ x y) : Commute₂ y x :=
  fun f g hf hg s => (h g f hg hf s).symm

theorem Commute₂.refl (x : Except ε (σ → σ)) : Commute₂ x x := by
  intro f g hf hg s
  rw [hf] at hg
  cases hg
  rfl

theorem Commute₂.pure_id (x : Except ε (σ → σ)) : Commute₂ x (.ok id) := by
  intro f g _ hg s
  cases hg
  rfl

theorem Commute₂.map {x : Except ε α} {y : Except ε β} {f : α → σ → σ} {g : β → σ → σ}
    (h : ∀ a b s, f a (g b s) = g b (f a s)) : Commute₂ (x.map f) (y.map g) := by
  intro f' g' hf hg s
  obtain ⟨a, -, rfl⟩ := except_map_eq_ok hf
  obtain ⟨b, -, rfl⟩ := except_map_eq_ok hg
  exact h a b s

section Pass

variable {check : α → Except ε (σ → σ)}

def afterEntry (check : α → Except ε (σ → σ)) (o : Option σ) (a : α) : Option σ :=
  o.bind fun s => (check a).toOption.map fun change => change s

theorem foldl_none (as : List α) : as.foldl (afterEntry check) none = none := by
  induction as with
  | nil => rfl
  | cons a as ih => exact ih

theorem sweep_toOption (as : List α) (s : σ) :
    (sweep check as s).toOption = as.foldl (afterEntry check) (some s) := by
  induction as generalizing s with
  | nil => rfl
  | cons a as ih =>
    rw [sweep, List.foldl_cons]
    cases h : check a with
    | error e =>
      have hnone : afterEntry check (some s) a = none := by simp [afterEntry, h, Except.toOption]
      rw [hnone, foldl_none]
      rfl
    | ok change =>
      have hsome : afterEntry check (some s) a = some (change s) := by
        simp [afterEntry, h, Except.toOption]
      rw [hsome]
      exact ih (change s)

theorem afterEntry_comm {a b : α} (h : Commute₂ (check a) (check b)) (o : Option σ) :
    afterEntry check (afterEntry check o a) b = afterEntry check (afterEntry check o b) a := by
  rcases o with _ | s
  · rfl
  cases ha : check a with
  | error e => cases hb : check b <;> simp [afterEntry, ha, hb, Except.toOption]
  | ok f =>
    cases hb : check b with
    | error e => simp [afterEntry, ha, hb, Except.toOption]
    | ok g => simpa [afterEntry, ha, hb, Except.toOption] using (h f g ha hb s).symm

/-- The order of the entries does not matter where their changes commute. -/
theorem sweep_perm {as bs : List α} (h : as.Perm bs)
    (hcomm : ∀ a ∈ as, ∀ b ∈ as, Commute₂ (check a) (check b)) (s : σ) :
    (sweep check as s).toOption = (sweep check bs s).toOption := by
  rw [sweep_toOption, sweep_toOption]
  exact h.foldl_eq' (fun a ha b hb o => afterEntry_comm (hcomm a ha b hb) o) (some s)

theorem sweep_filter {p : α → Bool} (h : ∀ a, p a = false → check a = .ok id) (as : List α)
    (s : σ) : sweep check (as.filter p) s = sweep check as s := by
  induction as generalizing s with
  | nil => rfl
  | cons a as ih =>
    cases hp : p a with
    | true =>
      rw [List.filter_cons_of_pos hp, sweep, sweep]
      cases check a with
      | error e => rfl
      | ok change => exact ih (change s)
    | false =>
      rw [List.filter_cons_of_neg (by rw [hp]; exact Bool.false_ne_true), sweep, h a hp]
      exact ih s

end Pass

end LuaNet.Lib
