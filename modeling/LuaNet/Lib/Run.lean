import Mathlib.Data.List.Basic

/-! Runs of a stepping system that reports a list of observations with every step. -/

namespace LuaNet.Lib

variable {σ ι ε : Type*}

def runs (step : σ → ι → σ × List ε) : σ → List ι → σ × List ε
  | s, [] => (s, [])
  | s, i :: is =>
    ((runs step (step s i).1 is).1, (step s i).2 ++ (runs step (step s i).1 is).2)

def andThen (r : σ × List ε) (f : σ → σ × List ε) : σ × List ε := ((f r.1).1, r.2 ++ (f r.1).2)

/-- Every step of the run meets a condition on the state it is taken in. -/
def Along (step : σ → ι → σ × List ε) (P : σ → ι → Prop) : σ → List ι → Prop
  | _, [] => True
  | s, i :: is => P s i ∧ Along step P (step s i).1 is

instance Along.decidable {step : σ → ι → σ × List ε} {P : σ → ι → Prop}
    [∀ s i, Decidable (P s i)] : ∀ s is, Decidable (Along step P s is)
  | _, [] => isTrue trivial
  | s, i :: is =>
    have : Decidable (Along step P (step s i).1 is) := Along.decidable (step s i).1 is
    inferInstanceAs (Decidable (P s i ∧ Along step P (step s i).1 is))

@[simp] theorem runs_nil (step : σ → ι → σ × List ε) (s : σ) : runs step s [] = (s, []) := rfl

theorem runs_append (step : σ → ι → σ × List ε) (s : σ) (is js : List ι) :
    runs step s (is ++ js) =
      ((runs step (runs step s is).1 js).1,
        (runs step s is).2 ++ (runs step (runs step s is).1 js).2) := by
  induction is generalizing s with
  | nil => simp only [List.nil_append, runs]
  | cons i is ih => simp only [List.cons_append, runs, ih, List.append_assoc]

/-- The invariant rule: what every step keeps, every run keeps. -/
theorem runs_invariant {step : σ → ι → σ × List ε} {I : σ → Prop}
    (hstep : ∀ s i, I s → I (step s i).1) {s : σ} (hs : I s) (is : List ι) :
    I (runs step s is).1 := by
  induction is generalizing s with
  | nil => exact hs
  | cons i is ih => exact ih (hstep s i hs)

/-- The trace rule: a relation between two states and the observations made on the way holds
of every run once it holds of the empty run, of every single step, and composes. -/
theorem runs_trace {step : σ → ι → σ × List ε} {I : σ → Prop} {R : σ → List ε → σ → Prop}
    (hstep : ∀ s i, I s → I (step s i).1 ∧ R s (step s i).2 (step s i).1)
    (hnil : ∀ s, R s [] s)
    (htrans : ∀ {s t u es fs}, R s es t → R t fs u → R s (es ++ fs) u)
    {s : σ} (hs : I s) (is : List ι) : R s (runs step s is).2 (runs step s is).1 := by
  induction is generalizing s with
  | nil => exact hnil s
  | cons i is ih =>
    obtain ⟨hI, hR⟩ := hstep s i hs
    exact htrans hR (ih hI)

theorem along_of_forall {step : σ → ι → σ × List ε} {P : σ → ι → Prop} (h : ∀ s i, P s i)
    (s : σ) (is : List ι) : Along step P s is := by
  induction is generalizing s with
  | nil => trivial
  | cons i is ih => exact ⟨h s i, ih _⟩

theorem along_of_forall_mem {step : σ → ι → σ × List ε} {P : ι → Prop} {is : List ι}
    (h : ∀ i ∈ is, P i) (s : σ) : Along step (fun _ => P) s is := by
  induction is generalizing s with
  | nil => trivial
  | cons i is ih =>
    exact ⟨h i List.mem_cons_self, ih (fun j hj => h j (List.mem_cons_of_mem i hj)) _⟩

theorem along_congr {step : σ → ι → σ × List ε} {P Q : σ → ι → Prop} {I : σ → Prop}
    (hstep : ∀ s i, I s → I (step s i).1) (hPQ : ∀ s i, I s → (P s i ↔ Q s i)) {s : σ} (hs : I s)
    (is : List ι) : Along step P s is ↔ Along step Q s is := by
  induction is generalizing s with
  | nil => exact Iff.rfl
  | cons i is ih => exact and_congr (hPQ s i hs) (ih (hstep s i hs))

/-- The history rule: an invariant of the state and of all observations so far, kept by the
steps that meet `P`, holds after every run of such steps. -/
theorem runs_history_along {step : σ → ι → σ × List ε} {P : σ → ι → Prop}
    {I : σ → List ε → Prop}
    (hstep : ∀ s es i, P s i → I s es → I (step s i).1 (es ++ (step s i).2)) {s : σ}
    {es : List ε} (hs : I s es) {is : List ι} (hP : Along step P s is) :
    I (runs step s is).1 (es ++ (runs step s is).2) := by
  induction is generalizing s es with
  | nil =>
    rw [runs_nil, List.append_nil]
    exact hs
  | cons i is ih =>
    rw [runs, ← List.append_assoc]
    exact ih (hstep s es i hP.1 hs) hP.2

theorem runs_history {step : σ → ι → σ × List ε} {I : σ → List ε → Prop}
    (hstep : ∀ s es i, I s es → I (step s i).1 (es ++ (step s i).2)) {s : σ} {es : List ε}
    (hs : I s es) (is : List ι) : I (runs step s is).1 (es ++ (runs step s is).2) :=
  runs_history_along (P := fun _ _ => True) (fun s es i _ => hstep s es i) hs
    (along_of_forall (fun _ _ => trivial) s is)

/-- A condition that the history needs of every step: when `Q` of the history so far entails that
the last step met `P`, a run with `Q` is one of such steps. -/
theorem along_of_history {step : σ → ι → σ × List ε} {P : σ → ι → Prop} {I : σ → List ε → Prop}
    {Q : List ε → Prop}
    (hstep : ∀ s es i, P s i → I s es → I (step s i).1 (es ++ (step s i).2))
    (hneed : ∀ s es i, I s es → Q (es ++ (step s i).2) → P s i)
    (hleft : ∀ es fs, Q (es ++ fs) → Q es) {s : σ} {es : List ε} (hs : I s es) {is : List ι}
    (hQ : Q (es ++ (runs step s is).2)) : Along step P s is := by
  induction is generalizing s es with
  | nil => trivial
  | cons i is ih =>
    rw [runs, ← List.append_assoc] at hQ
    have hP : P s i := hneed s es i hs (hleft _ _ hQ)
    exact ⟨hP, ih (hstep s es i hP hs) hQ⟩

theorem andThen_history {I : σ → List ε → Prop} {r : σ × List ε} {f : σ → σ × List ε}
    {es : List ε} (hr : I r.1 (es ++ r.2))
    (hf : I r.1 (es ++ r.2) → I (f r.1).1 (es ++ r.2 ++ (f r.1).2)) :
    I (andThen r f).1 (es ++ (andThen r f).2) := by
  rw [andThen, ← List.append_assoc]
  exact hf hr

def Each (P : List ε → ε → Prop) (es : List ε) : Prop :=
  ∀ before e after, es = before ++ e :: after → P before e

theorem Each.nil (P : List ε → ε → Prop) : Each P [] :=
  fun before _ _ h => absurd h.symm (List.append_ne_nil_of_right_ne_nil before (List.cons_ne_nil _ _))

theorem Each.snoc {P : List ε → ε → Prop} {es : List ε} {e : ε} (h : Each P es) (he : P es e) :
    Each P (es ++ [e]) := by
  intro before f after heq
  rcases List.eq_nil_or_concat after with rfl | ⟨after', g, rfl⟩
  · obtain ⟨rfl, hf⟩ := List.append_inj' heq rfl
    cases hf
    exact he
  · rw [List.concat_eq_append, ← List.cons_append, ← List.append_assoc] at heq
    exact h before f after' (List.append_inj' heq rfl).1

theorem Each.cons_iff {P : List ε → ε → Prop} {e : ε} {es : List ε} :
    Each P (e :: es) ↔ P [] e ∧ Each (fun before => P (e :: before)) es := by
  constructor
  · intro h
    exact ⟨h [] e es rfl, fun before f after heq =>
      h (e :: before) f after (by rw [heq, List.cons_append])⟩
  · rintro ⟨he, hes⟩ before f after heq
    cases before with
    | nil =>
      cases heq
      exact he
    | cons g before =>
      rw [List.cons_append, List.cons.injEq] at heq
      obtain ⟨rfl, heq⟩ := heq
      exact hes before f after heq

theorem Each.append_of_forall {P : List ε → ε → Prop} {es fs : List ε} (h : Each P es)
    (hfs : ∀ before, ∀ f ∈ fs, P before f) : Each P (es ++ fs) := by
  induction fs generalizing es with
  | nil => rwa [List.append_nil]
  | cons f fs ih =>
    rw [List.append_cons]
    exact ih (h.snoc (hfs es f List.mem_cons_self)) fun before g hg =>
      hfs before g (List.mem_cons_of_mem f hg)

theorem Each.left {P : List ε → ε → Prop} {es fs : List ε} (h : Each P (es ++ fs)) :
    Each P es :=
  fun before e after heq =>
    h before e (after ++ fs) (by rw [heq, List.append_assoc, List.cons_append])

theorem Each.mono {P Q : List ε → ε → Prop} {es : List ε} (h : Each P es)
    (hPQ : ∀ before e, P before e → Q before e) : Each Q es :=
  fun before e after heq => hPQ before e (h before e after heq)

end LuaNet.Lib
