import Mathlib.Data.List.Basic

/-! A search through a list of candidates, in order, until one of them ends it. A candidate that
does not end the search may leave an error; a search that nothing ends reports the last one
left. -/

namespace LuaNet.Lib

variable {σ ι τ ε α : Type*}

inductive Tried (ε α : Type*)
  | failed (e : Option ε)
  | ended (a : α)

def Tried.error? : Tried ε α → Option ε
  | .failed e => e
  | .ended _ => none

def Tried.isEnded : Tried ε α → Bool
  | .failed _ => false
  | .ended _ => true

/-- The search from state `s` with the error `err` left so far, and what it observes. -/
def failover (attempt : σ → ι → σ × List τ × Tried ε α) :
    List ι → σ → Option ε → σ × List τ × Except (Option ε) α
  | [], s, err => (s, [], .error err)
  | i :: is, s, err =>
    match attempt s i with
    | (t, es, .failed e) =>
      ((failover attempt is t (e.or err)).1, es ++ (failover attempt is t (e.or err)).2.1,
        (failover attempt is t (e.or err)).2.2)
    | (t, es, .ended a) => (t, es, .ok a)

variable {attempt : σ → ι → σ × List τ × Tried ε α}

inductive Exhausts (attempt : σ → ι → σ × List τ × Tried ε α) :
    σ → List ι → σ → List τ → List ε → Prop
  | nil (s : σ) : Exhausts attempt s [] s [] []
  | cons {s t u : σ} {i : ι} {is : List ι} {es fs : List τ} {e : Option ε} {errs : List ε}
      (now : attempt s i = (t, es, .failed e)) (later : Exhausts attempt t is u fs errs) :
      Exhausts attempt s (i :: is) u (es ++ fs) (e.toList ++ errs)

theorem failover_failed {s t : σ} {i : ι} {es : List τ} {e : Option ε}
    (h : attempt s i = (t, es, .failed e)) (is : List ι) (err : Option ε) :
    failover attempt (i :: is) s err =
      ((failover attempt is t (e.or err)).1, es ++ (failover attempt is t (e.or err)).2.1,
        (failover attempt is t (e.or err)).2.2) := by
  rw [failover, h]

theorem failover_ended {s t : σ} {i : ι} {es : List τ} {a : α}
    (h : attempt s i = (t, es, .ended a)) (is : List ι) (err : Option ε) :
    failover attempt (i :: is) s err = (t, es, .ok a) := by
  rw [failover, h]

theorem lastError_cons (e err : Option ε) (errs : List ε) :
    (e.toList ++ errs).getLast?.or err = errs.getLast?.or (e.or err) := by
  rw [List.getLast?_append]
  cases errs.getLast? <;> cases e <;> rfl

/-- A search either goes through all candidates and reports the last error left, or it is ended by
the first candidate that can end it. -/
theorem failover_cases (attempt : σ → ι → σ × List τ × Tried ε α) (is : List ι) (s : σ)
    (err : Option ε) :
    (∃ t es errs, Exhausts attempt s is t es errs ∧
      failover attempt is s err = (t, es, .error (errs.getLast?.or err))) ∨
    ∃ before i after t es errs u fs a, is = before ++ i :: after ∧
      Exhausts attempt s before t es errs ∧ attempt t i = (u, fs, .ended a) ∧
      failover attempt is s err = (u, es ++ fs, .ok a) := by
  induction is generalizing s err with
  | nil => exact Or.inl ⟨s, [], [], .nil s, rfl⟩
  | cons i is ih =>
    rcases hattempt : attempt s i with ⟨t, es, e | a⟩
    · rw [failover_failed hattempt]
      rcases ih t (e.or err) with ⟨u, fs, errs, hall, hsearch⟩ |
        ⟨before, j, after, u, fs, errs, v, gs, a, his, hall, hlast, hsearch⟩
      · refine Or.inl ⟨u, es ++ fs, e.toList ++ errs, .cons hattempt hall, ?_⟩
        rw [hsearch, lastError_cons]
      · refine Or.inr ⟨i :: before, j, after, u, es ++ fs, e.toList ++ errs, v, gs, a, ?_,
          .cons hattempt hall, hlast, ?_⟩
        · rw [his, List.cons_append]
        · rw [hsearch, List.append_assoc]
    · refine Or.inr ⟨[], i, is, s, [], [], t, es, a, rfl, .nil s, hattempt, ?_⟩
      rw [failover_ended hattempt, List.nil_append]

theorem Exhausts.of_each {f : ι → List τ × Tried ε α} {s t : σ} {is : List ι} {es : List τ}
    {errs : List ε} (h : Exhausts (fun s i => (s, f i)) s is t es errs) :
    t = s ∧ (∀ i ∈ is, (f i).2.isEnded = false) ∧ es = is.flatMap (fun i => (f i).1) ∧
      errs = is.filterMap (fun i => (f i).2.error?) := by
  induction h with
  | nil s => exact ⟨rfl, nofun, rfl, rfl⟩
  | @cons s t u i is es fs e errs now later ih =>
    obtain ⟨rfl, hall, rfl, rfl⟩ := ih
    obtain ⟨rfl, hi⟩ := Prod.mk.inj now
    have hended : (f i).2.isEnded = false := by rw [hi]; rfl
    have herror : (f i).2.error? = e := by rw [hi]; rfl
    refine ⟨rfl, List.forall_mem_cons.2 ⟨hended, hall⟩, ?_, ?_⟩
    · rw [List.flatMap_cons, hi]
    · simp only [List.filterMap_cons, herror]
      cases e <;> rfl

end LuaNet.Lib
