import Mathlib.Data.List.Nodup
import LuaNet.Lib.Exclusive

/-! The order of service of a lock: what all calls have shown is what each of them has shown, in
the order in which they were granted the lock. -/

namespace LuaNet.Lib

variable {ι σ ρ α ω ε φ : Type*}

def LockEvent.grantedTo : LockEvent ι ε → Option ι
  | .granted i => some i
  | _ => none

def LockEvent.shows : LockEvent ι ε → Option ε
  | .did _ e => some e
  | _ => none

def grants (es : List (LockEvent ι ε)) : List ι := es.filterMap LockEvent.grantedTo

def shown (es : List (LockEvent ι ε)) : List ε := es.filterMap LockEvent.shows

theorem grants_append (es fs : List (LockEvent ι ε)) : grants (es ++ fs) = grants es ++ grants fs :=
  List.filterMap_append

theorem shown_append (es fs : List (LockEvent ι ε)) : shown (es ++ fs) = shown es ++ shown fs :=
  List.filterMap_append

@[simp] theorem grants_did (i : ι) (xs : List ε) : grants (xs.map (LockEvent.did i)) = [] := by
  rw [grants, List.filterMap_map]
  exact List.filterMap_eq_nil_iff.mpr fun _ _ => rfl

@[simp] theorem shown_did (i : ι) (xs : List ε) : shown (xs.map (LockEvent.did i)) = xs := by
  rw [shown, List.filterMap_map]
  exact List.filterMap_some

variable [DecidableEq ι]

def LockEvent.of (i : ι) (e : LockEvent ι ε) : Bool := e.call = i

def shownBy (i : ι) (es : List (LockEvent ι ε)) : List ε := shown (es.filter (LockEvent.of i))

theorem shownBy_append (i : ι) (es fs : List (LockEvent ι ε)) :
    shownBy i (es ++ fs) = shownBy i es ++ shownBy i fs := by
  rw [shownBy, List.filter_append, shown_append]
  rfl

theorem shownBy_absent {i : ι} {es : List (LockEvent ι ε)} (h : Absent i es) :
    shownBy i es = [] := by
  have hnone : es.filter (LockEvent.of i) = [] := by
    apply List.filter_eq_nil_iff.mpr
    intro e he hof
    exact h e he (of_decide_eq_true hof)
  rw [shownBy, hnone]
  rfl

theorem shownBy_all {i : ι} {es : List (LockEvent ι ε)} (h : ∀ e ∈ es, e.call = i) :
    shownBy i es = shown es := by
  have hall : es.filter (LockEvent.of i) = es := by
    apply List.filter_eq_self.mpr
    intro e he
    exact decide_eq_true (h e he)
  rw [shownBy, hall]

variable {l : RetryLoop σ ρ α ω ε} {start : ι → σ} {s : LockState ι σ ρ φ}
  {es : List (LockEvent ι ε)}

def LockPhase.Ran (l : RetryLoop σ ρ α ω ε) (x : σ) (shown : List ε) : LockPhase σ ρ φ → Prop
  | .inside p => ∃ ts, l.run (.ready x) ts = (p, shown)
  | .left r => ∃ ts, l.run (.ready x) ts = (.returned r, shown)
  | _ => shown = []

theorem shownBy_between {i : ι} {before mid after : List (LockEvent ι ε)} (hbefore : Absent i before)
    (hmid : ∀ e ∈ mid, e.call = i) (hafter : Absent i after) :
    shownBy i (before ++ (mid ++ after)) = shown mid := by
  rw [shownBy_append, shownBy_append, shownBy_absent hbefore, shownBy_all hmid,
    shownBy_absent hafter, List.append_nil, List.nil_append]

theorem CallTrace.ran {i : ι} {p : LockPhase σ ρ φ} (h : CallTrace l start i p es) :
    p.Ran l (start i) (shownBy i es) := by
  have hdid (xs : List ε) : ∀ e ∈ xs.map (LockEvent.did i), e.call = i :=
    List.forall_mem_map.mpr fun _ _ => rfl
  have hgranted (xs : List ε) : ∀ e ∈ .granted i :: xs.map (LockEvent.did i), e.call = i :=
    List.forall_mem_cons.mpr ⟨rfl, hdid xs⟩
  have hshown (xs : List ε) : shown (.granted i :: xs.map (LockEvent.did i)) = xs := shown_did i xs
  match p with
  | .inside p =>
    obtain ⟨before, ts, hbefore, hrun, rfl⟩ := h
    have hown := @shownBy_between _ _ _ _ _ _ [] hbefore (hgranted (l.run (.ready (start i)) ts).2)
      (fun _ he => absurd he List.not_mem_nil)
    rw [List.append_nil] at hown
    refine ⟨ts, ?_⟩
    rw [hown, hshown]
    exact Prod.ext hrun rfl
  | .left r =>
    obtain ⟨before, ts, after, hbefore, hafter, hrun, rfl⟩ := h
    have hmid := List.forall_mem_append.mpr ⟨hgranted (l.run (.ready (start i)) ts).2,
      List.forall_mem_singleton.mpr (show (LockEvent.released i : LockEvent ι ε).call = i from rfl)⟩
    have hown := shownBy_between hbefore hmid hafter
    rw [shown_append, hshown] at hown
    refine ⟨ts, ?_⟩
    have hevents : (.granted i :: ((l.run (.ready (start i)) ts).2.map (.did i) ++
        .released i :: after) : List (LockEvent ι ε)) =
        (.granted i :: (l.run (.ready (start i)) ts).2.map (.did i)) ++ [.released i] ++ after := by
      simp only [List.cons_append, List.append_assoc, List.nil_append]
    rw [hevents, hown]
    exact Prod.ext hrun (List.append_nil _).symm
  | .idle => exact shownBy_absent h
  | .queued => exact shownBy_absent h
  | .refused f => exact shownBy_absent h

/-- The calls get the lock once each, the last one that got it is the holder, and what they have
shown stands in their order. -/
structure Served (s : LockState ι σ ρ φ) (es : List (LockEvent ι ε)) : Prop where
  nodup : (grants es).Nodup
  granted : ∀ i, i ∈ grants es ↔ (s.phase i).hasLocked = true
  last : ∀ i, s.holder = some i → (grants es).getLast? = some i
  order : shown es = (grants es).flatMap fun i => shownBy i es

theorem Served.new : Served (LockState.new : LockState ι σ ρ φ) ([] : List (LockEvent ι ε)) where
  nodup := List.nodup_nil
  granted _ := iff_of_false List.not_mem_nil Bool.false_ne_true
  last _ h := nomatch h
  order := rfl

theorem Served.quiet (h : Served s es) {i : ι} {p : LockPhase σ ρ φ}
    (hp : p.hasLocked = (s.phase i).hasLocked) : Served (s.setPhase i p) (es ++ []) := by
  rw [List.append_nil]
  refine ⟨h.nodup, fun j => (h.granted j).trans ?_, h.last, h.order⟩
  show _ ↔ (Function.update s.phase i p j).hasLocked = true
  by_cases hji : j = i
  · subst hji
    rw [Function.update_self, hp]
  · rw [Function.update_of_ne hji]

theorem Served.stay (h : Served s es) : Served s (es ++ []) := by rwa [List.append_nil]

theorem Served.turn (h : Served s es) {i : ι} (hheld : s.holder = some i)
    {p : LockPhase σ ρ φ} (hp : p.hasLocked = true) {holder : Option ι}
    (hholder : holder = none ∨ holder = some i) {fs : List (LockEvent ι ε)}
    (hfs : ∀ e ∈ fs, e.call = i) (hgrants : grants fs = []) :
    Served { s.setPhase i p with holder := holder } (es ++ fs) := by
  have hsame : grants (es ++ fs) = grants es := by rw [grants_append, hgrants, List.append_nil]
  obtain ⟨before, hlast⟩ : ∃ before, grants es = before ++ [i] :=
    List.getLast?_eq_some_iff.mp (h.last i hheld)
  have hnodup := h.nodup
  rw [hlast] at hnodup
  have hnot : i ∉ before := fun hi =>
    (List.nodup_append.mp hnodup).2.2 i hi i (List.mem_singleton_self i) rfl
  refine ⟨hsame ▸ h.nodup, fun j => ?_, fun j hj => ?_, ?_⟩
  · rw [hsame, h.granted j]
    show _ ↔ (Function.update s.phase i p j).hasLocked = true
    by_cases hji : j = i
    · subst hji
      have hmem : j ∈ grants es := hlast ▸ List.mem_append_right _ (List.mem_singleton_self j)
      rw [Function.update_self, hp]
      exact iff_of_true ((h.granted j).mp hmem) rfl
    · rw [Function.update_of_ne hji]
  · rcases hholder with hnone | hsome
    · exact absurd (hnone.symm.trans hj) nofun
    · rw [hsame, h.last i hheld]
      exact hsome.symm.trans hj
  · have hothers : ∀ j ∈ before, shownBy j (es ++ fs) = shownBy j es := by
      intro j hj
      have hne : j ≠ i := fun heq => hnot (heq ▸ hj)
      rw [shownBy_append, shownBy_absent fun e he heq => hne (heq.symm.trans (hfs e he)),
        List.append_nil]
    rw [hsame, shown_append, h.order, hlast, List.flatMap_append, List.flatMap_append,
      List.flatMap_congr hothers, List.flatMap_singleton, List.flatMap_singleton, shownBy_append,
      shownBy_all hfs, List.append_assoc]

theorem Served.grant (h : Served s es) (hinv : LockInv l start s es) {i : ι}
    (hi : s.phase i = .queued) (x : LoopPhase σ ρ) :
    Served { s.setPhase i (.inside x) with holder := some i } (es ++ [.granted i]) := by
  have habsent : Absent i es := by
    have hcall := hinv.calls i
    rw [hi] at hcall
    exact hcall
  have hgrants : grants (es ++ [.granted i]) = grants es ++ [i] := grants_append es [.granted i]
  have hfresh : i ∉ grants es := by
    rw [h.granted i, hi]
    exact Bool.false_ne_true
  refine ⟨?_, fun j => ?_, fun j hj => ?_, ?_⟩
  · rw [hgrants]
    exact List.Nodup.append h.nodup (List.nodup_singleton i) (List.disjoint_singleton.mpr hfresh)
  · rw [hgrants, List.mem_append, List.mem_singleton, h.granted j]
    show _ ↔ (Function.update s.phase i _ j).hasLocked = true
    by_cases hji : j = i
    · subst hji
      rw [Function.update_self]
      exact iff_of_true (.inr rfl) rfl
    · rw [Function.update_of_ne hji]
      exact or_iff_left hji
  · rw [hgrants, List.getLast?_concat]
    exact hj
  · have hsame (j : ι) : shownBy j (es ++ [.granted i]) = shownBy j es := by
      rw [shownBy_append]
      have hnone : shownBy j [(.granted i : LockEvent ι ε)] = [] := by
        rw [shownBy, List.filter_singleton]
        cases LockEvent.of j (.granted i : LockEvent ι ε) <;> rfl
      rw [hnone, List.append_nil]
    have hshown : shown [(.granted i : LockEvent ι ε)] = [] := rfl
    rw [hgrants, shown_append, hshown, List.append_nil, List.flatMap_append,
      List.flatMap_singleton, hsame, shownBy_absent habsent, List.append_nil, h.order]
    exact List.flatMap_congr fun j _ => (hsame j).symm

theorem Served.step (h : Served s es) (hinv : LockInv l start s es) (lab : LockLabel ι α ω φ) :
    Served (s.step l start lab).1 (es ++ (s.step l start lab).2) := by
  cases lab with
  | enter i =>
    rw [LockState.step]
    cases hi : s.phase i with
    | idle => exact h.quiet (by rw [hi]; rfl)
    | queued => exact h.stay
    | inside q => exact h.stay
    | refused f => exact h.stay
    | left r => exact h.stay
  | grant i =>
    rw [LockState.step]
    cases hi : s.phase i with
    | queued =>
      cases s.holder with
      | none => exact h.grant hinv hi _
      | some j => exact h.stay
    | idle => exact h.stay
    | inside q => exact h.stay
    | refused f => exact h.stay
    | left r => exact h.stay
  | refuse i f =>
    rw [LockState.step]
    cases hi : s.phase i with
    | queued => exact h.quiet (by rw [hi]; rfl)
    | idle => exact h.stay
    | inside q => exact h.stay
    | refused f => exact h.stay
    | left r => exact h.stay
  | turn i t =>
    cases hi : s.phase i with
    | idle => rw [LockState.step, hi]; exact h.stay
    | queued => rw [LockState.step, hi]; exact h.stay
    | refused f => rw [LockState.step, hi]; exact h.stay
    | left r => rw [LockState.step, hi]; exact h.stay
    | inside p =>
      have hheld := (hinv.inside i p hi).1
      have hdid (xs : List ε) : ∀ e ∈ xs.map (LockEvent.did i), e.call = i :=
        List.forall_mem_map.mpr fun _ _ => rfl
      have hgo (q : LoopPhase σ ρ) :
          Served (s.setPhase i (.inside q)) (es ++ (l.step p t).2.map (.did i)) :=
        @Served.turn _ _ _ _ _ _ _ _ h i hheld (.inside q) rfl s.holder (.inr hheld) _ (hdid _)
          (grants_did i _)
      rw [LockState.step, hi]
      cases hstep : (l.step p t).1 with
      | returned v =>
        simp only [hstep]
        apply h.turn hheld rfl (.inl rfl)
        · exact List.forall_mem_append.mpr ⟨hdid _, List.forall_mem_singleton.mpr rfl⟩
        · rw [grants_append, grants_did]
          rfl
      | ready q =>
        simp only [hstep]
        exact hgo _
      | waiting q =>
        simp only [hstep]
        exact hgo _

theorem lockRuns_served (l : RetryLoop σ ρ α ω ε) (start : ι → σ) (ls : List (LockLabel ι α ω φ)) :
    LockInv l start ((LockState.new : LockState ι σ ρ φ).run l start ls).1
        ((LockState.new : LockState ι σ ρ φ).run l start ls).2 ∧
      Served ((LockState.new : LockState ι σ ρ φ).run l start ls).1
        ((LockState.new : LockState ι σ ρ φ).run l start ls).2 :=
  runs_history (I := fun s es => LockInv l start s es ∧ Served s es)
    (fun _ _ lab h => ⟨h.1.step lab, h.2.step h.1 lab⟩) ⟨LockInv.new l start, Served.new⟩ ls

end LuaNet.Lib
