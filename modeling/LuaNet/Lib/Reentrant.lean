import LuaNet.Lib.Run

/-! Methods that foreign code may call again while they wait. Their activations form a stack: only
the innermost one acts, and while it waits the foreign code may change the state or start
another one. -/

namespace LuaNet.Lib

variable {σ φ κ χ α ε : Type*}

/-- `act` takes the state, the activations outside, the innermost one and an answer; it leaves a
new state and, unless the method returns, the activation that goes on. -/
structure Reentrant (σ φ κ χ α ε : Type*) where
  start : κ → φ
  waits : φ → Bool
  foreign : σ → List φ → χ → σ
  act : σ → List φ → φ → α → σ × Option φ × List ε

inductive ReentrantLabel (κ χ α : Type*)
  | call (m : κ)
  | foreign (x : χ)
  | act (a : α)

namespace Reentrant

def yields (m : Reentrant σ φ κ χ α ε) : List φ → Bool
  | [] => true
  | f :: _ => m.waits f

def step (m : Reentrant σ φ κ χ α ε) (w : σ × List φ) :
    ReentrantLabel κ χ α → (σ × List φ) × List ε
  | .call c => if m.yields w.2 then ((w.1, m.start c :: w.2), []) else (w, [])
  | .foreign x => if m.yields w.2 then ((m.foreign w.1 w.2 x, w.2), []) else (w, [])
  | .act a =>
    match w.2 with
    | [] => (w, [])
    | f :: fs =>
      let r := m.act w.1 fs f a
      ((r.1, r.2.1.toList ++ fs), r.2.2)

def OuterWait (m : Reentrant σ φ κ χ α ε) (fs : List φ) : Prop := ∀ g ∈ fs.tail, m.waits g = true

theorem OuterWait.all {m : Reentrant σ φ κ χ α ε} {fs : List φ} (h : m.OuterWait fs)
    (hyields : m.yields fs = true) : ∀ g ∈ fs, m.waits g = true := by
  cases fs with
  | nil => exact fun g hg => absurd hg List.not_mem_nil
  | cons f fs =>
    intro g hg
    rcases List.mem_cons.mp hg with rfl | hg
    · exact hyields
    · exact h g hg

theorem OuterWait.act {m : Reentrant σ φ κ χ α ε} {f : φ} {fs : List φ}
    (h : m.OuterWait (f :: fs)) (o : Option φ) : m.OuterWait (o.toList ++ fs) := by
  cases o with
  | none => exact fun g hg => h g (List.mem_of_mem_tail hg)
  | some f' => exact h

/-- What a proof about nested activations has to show: the invariant survives a call and foreign
code where all activations wait, and an act that meets `P` keeps it and is good. -/
structure Guarded (m : Reentrant σ φ κ χ α ε) (P : σ → List φ → φ → α → Prop)
    (Inv : σ → List φ → Prop) (Good : ε → Prop) : Prop where
  call : ∀ s fs c, Inv s fs → (∀ g ∈ fs, m.waits g = true) → Inv s (m.start c :: fs)
  foreign : ∀ s fs x, Inv s fs → (∀ g ∈ fs, m.waits g = true) → Inv (m.foreign s fs x) fs
  act : ∀ s fs f a, Inv s (f :: fs) → (∀ g ∈ fs, m.waits g = true) → P s fs f a →
    Inv (m.act s fs f a).1 ((m.act s fs f a).2.1.toList ++ fs) ∧
      ∀ e ∈ (m.act s fs f a).2.2, Good e

def Acts (P : σ → List φ → φ → α → Prop) (w : σ × List φ) : ReentrantLabel κ χ α → Prop
  | .act a =>
    match w.2 with
    | [] => True
    | f :: fs => P w.1 fs f a
  | _ => True

instance {P : σ → List φ → φ → α → Prop} [∀ s fs f a, Decidable (P s fs f a)] :
    ∀ (w : σ × List φ) (l : ReentrantLabel κ χ α), Decidable (Acts P w l)
  | _, .call _ => isTrue trivial
  | _, .foreign _ => isTrue trivial
  | (_, []), .act _ => isTrue trivial
  | (s, f :: fs), .act a => inferInstanceAs (Decidable (P s fs f a))

/-- The same for an invariant that also speaks of everything observed so far. -/
structure Kept (m : Reentrant σ φ κ χ α ε) (P : σ → List φ → φ → α → Prop)
    (Inv : σ → List φ → List ε → Prop) : Prop where
  call : ∀ s fs es c, Inv s fs es → (∀ g ∈ fs, m.waits g = true) → Inv s (m.start c :: fs) es
  foreign : ∀ s fs es x, Inv s fs es → (∀ g ∈ fs, m.waits g = true) →
    Inv (m.foreign s fs x) fs es
  act : ∀ s fs es f a, Inv s (f :: fs) es → (∀ g ∈ fs, m.waits g = true) → P s fs f a →
    Inv (m.act s fs f a).1 ((m.act s fs f a).2.1.toList ++ fs) (es ++ (m.act s fs f a).2.2)

theorem Guarded.kept {m : Reentrant σ φ κ χ α ε} {P : σ → List φ → φ → α → Prop}
    {Inv : σ → List φ → Prop} {Good : ε → Prop} (hm : m.Guarded P Inv Good) :
    m.Kept P fun s fs es => Inv s fs ∧ ∀ e ∈ es, Good e where
  call s fs _ c h hwait := ⟨hm.call s fs c h.1 hwait, h.2⟩
  foreign s fs _ x h hwait := ⟨hm.foreign s fs x h.1 hwait, h.2⟩
  act s fs es f a h hwait hP := by
    obtain ⟨hinv, hgood⟩ := hm.act s fs f a h.1 hwait hP
    refine ⟨hinv, fun e he => ?_⟩
    rcases List.mem_append.mp he with hold | hnew
    · exact h.2 e hold
    · exact hgood e hnew

theorem step_kept {m : Reentrant σ φ κ χ α ε} {P : σ → List φ → φ → α → Prop}
    {Inv : σ → List φ → List ε → Prop} (hm : m.Kept P Inv) {w : σ × List φ} {es : List ε}
    (hinv : Inv w.1 w.2 es) (hwait : m.OuterWait w.2) {l : ReentrantLabel κ χ α}
    (hP : Acts P w l) :
    Inv (m.step w l).1.1 (m.step w l).1.2 (es ++ (m.step w l).2) ∧
      m.OuterWait (m.step w l).1.2 := by
  obtain ⟨s, fs⟩ := w
  cases l with
  | call c =>
    rw [step]
    split
    · next hyields =>
      have hall := hwait.all hyields
      rw [List.append_nil]
      exact ⟨hm.call s fs es c hinv hall, hall⟩
    · rw [List.append_nil]
      exact ⟨hinv, hwait⟩
  | foreign x =>
    rw [step]
    split
    · next hyields =>
      rw [List.append_nil]
      exact ⟨hm.foreign s fs es x hinv (hwait.all hyields), hwait⟩
    · rw [List.append_nil]
      exact ⟨hinv, hwait⟩
  | act a =>
    cases fs with
    | nil =>
      rw [step, List.append_nil]
      exact ⟨hinv, hwait⟩
    | cons f fs => exact ⟨hm.act s fs es f a hinv hwait hP, hwait.act _⟩

theorem runs_kept {m : Reentrant σ φ κ χ α ε} {P : σ → List φ → φ → α → Prop}
    {Inv : σ → List φ → List ε → Prop} (hm : m.Kept P Inv) {s : σ} (hs : Inv s [] [])
    {ls : List (ReentrantLabel κ χ α)} (hP : Along m.step (Acts P) (s, []) ls) :
    Inv (runs m.step (s, []) ls).1.1 (runs m.step (s, []) ls).1.2
      (runs m.step (s, []) ls).2 := by
  have hhistory : Inv (runs m.step (s, []) ls).1.1 (runs m.step (s, []) ls).1.2
      ([] ++ (runs m.step (s, []) ls).2) ∧ m.OuterWait (runs m.step (s, []) ls).1.2 :=
    runs_history_along (P := Acts P) (I := fun w es => Inv w.1 w.2 es ∧ m.OuterWait w.2)
      (fun _ _ _ hl hinv => step_kept hm hinv.1 hinv.2 hl)
      ⟨hs, fun _ hg => absurd hg List.not_mem_nil⟩ hP
  exact hhistory.1

/-- The rule for runs: from a state without activations, every observation of a run of guarded
acts is good. -/
theorem runs_good {m : Reentrant σ φ κ χ α ε} {P : σ → List φ → φ → α → Prop}
    {Inv : σ → List φ → Prop} {Good : ε → Prop} (hm : m.Guarded P Inv Good) {s : σ}
    (hs : Inv s []) {ls : List (ReentrantLabel κ χ α)} (hP : Along m.step (Acts P) (s, []) ls) :
    ∀ e ∈ (runs m.step (s, []) ls).2, Good e :=
  (runs_kept hm.kept ⟨hs, fun _ he => absurd he List.not_mem_nil⟩ hP).2

theorem acts_congr {m : Reentrant σ φ κ χ α ε} {P Q : σ → List φ → φ → α → Prop}
    {Inv : σ → List φ → Prop}
    (hm : m.Kept (fun _ _ _ _ => True) fun s fs _ => Inv s fs)
    (hPQ : ∀ s fs f a, Inv s (f :: fs) → (P s fs f a ↔ Q s fs f a)) {s : σ} (hs : Inv s [])
    (ls : List (ReentrantLabel κ χ α)) :
    Along m.step (Acts P) (s, []) ls ↔ Along m.step (Acts Q) (s, []) ls := by
  refine along_congr (I := fun w => Inv w.1 w.2 ∧ m.OuterWait w.2) ?_ ?_
    ⟨hs, fun _ hg => absurd hg List.not_mem_nil⟩ ls
  · intro w l hinv
    refine @step_kept _ _ _ _ _ _ m _ _ hm w [] hinv.1 hinv.2 l ?_
    obtain ⟨_, _ | _⟩ := w <;> cases l <;> trivial
  · rintro ⟨s, _ | ⟨f, fs⟩⟩ l hinv <;> cases l
    case cons.act a => exact hPQ s fs f a hinv.1
    all_goals exact Iff.rfl

end Reentrant

end LuaNet.Lib
