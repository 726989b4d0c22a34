import Mathlib.Logic.Function.Basic
import LuaNet.Lib.Retry

/-! Loops that run inside a lock. Any number of calls queue for the lock; the one that is granted
it runs its loop, which may be left in every wait, and releases the lock when the loop returns.
A queued call can also be refused. -/

namespace LuaNet.Lib

variable {ι σ ρ α ω ε φ : Type*}

inductive LockPhase (σ ρ φ : Type*)
  | idle
  | queued
  | inside (p : LoopPhase σ ρ)
  | refused (f : φ)
  | left (r : ρ)

inductive LockLabel (ι α ω φ : Type*)
  | enter (i : ι)
  | grant (i : ι)
  | refuse (i : ι) (f : φ)
  | turn (i : ι) (t : LoopTurn α ω)

def LockLabel.call : LockLabel ι α ω φ → ι
  | .enter i => i
  | .grant i => i
  | .refuse i _ => i
  | .turn i _ => i

inductive LockEvent (ι ε : Type*)
  | granted (i : ι)
  | did (i : ι) (e : ε)
  | released (i : ι)

def LockEvent.call : LockEvent ι ε → ι
  | .granted i => i
  | .did i _ => i
  | .released i => i

structure LockState (ι σ ρ φ : Type*) where
  phase : ι → LockPhase σ ρ φ
  holder : Option ι

namespace LockState

def new : LockState ι σ ρ φ := { phase := fun _ => .idle, holder := none }

variable [DecidableEq ι] (l : RetryLoop σ ρ α ω ε) (start : ι → σ)

def setPhase (s : LockState ι σ ρ φ) (i : ι) (p : LockPhase σ ρ φ) : LockState ι σ ρ φ :=
  { s with phase := Function.update s.phase i p }

def step (s : LockState ι σ ρ φ) : LockLabel ι α ω φ → LockState ι σ ρ φ × List (LockEvent ι ε)
  | .enter i =>
    match s.phase i with
    | .idle => (s.setPhase i .queued, [])
    | _ => (s, [])
  | .grant i =>
    match s.phase i, s.holder with
    | .queued, none =>
      ({ s.setPhase i (.inside (.ready (start i))) with holder := some i }, [.granted i])
    | _, _ => (s, [])
  | .refuse i f =>
    match s.phase i with
    | .queued => (s.setPhase i (.refused f), [])
    | _ => (s, [])
  | .turn i t =>
    match s.phase i with
    | .inside p =>
      let r := l.step p t
      match r.1 with
      | .returned v =>
        ({ s.setPhase i (.left v) with holder := none },
          r.2.map (LockEvent.did i) ++ [.released i])
      | q => (s.setPhase i (.inside q), r.2.map (LockEvent.did i))
    | _ => (s, [])

def run (s : LockState ι σ ρ φ) (ls : List (LockLabel ι α ω φ)) :
    LockState ι σ ρ φ × List (LockEvent ι ε) :=
  runs (step l start) s ls

end LockState

def Absent (i : ι) (es : List (LockEvent ι ε)) : Prop := ∀ e ∈ es, e.call ≠ i

/-- What has happened of the call `i`, for the phase that it is in: its loop has run from the
grant on, with nothing of another call between its events, and the lock is released once. -/
def CallTrace (l : RetryLoop σ ρ α ω ε) (start : ι → σ) (i : ι) (p : LockPhase σ ρ φ)
    (es : List (LockEvent ι ε)) : Prop :=
  match p with
  | .inside p => ∃ before ts, Absent i before ∧ (l.run (.ready (start i)) ts).1 = p ∧
      es = before ++ .granted i :: (l.run (.ready (start i)) ts).2.map (.did i)
  | .left r => ∃ before ts after, Absent i before ∧ Absent i after ∧
      (l.run (.ready (start i)) ts).1 = .returned r ∧
      es = before ++ .granted i ::
        ((l.run (.ready (start i)) ts).2.map (.did i) ++ .released i :: after)
  | _ => Absent i es

/-- The holder of the lock is the one call that is inside its loop. -/
structure LockInv (l : RetryLoop σ ρ α ω ε) (start : ι → σ) (s : LockState ι σ ρ φ)
    (es : List (LockEvent ι ε)) : Prop where
  calls : ∀ i, CallTrace l start i (s.phase i) es
  inside : ∀ i p, s.phase i = .inside p → s.holder = some i ∧ ∀ r, p ≠ .returned r
  holder : ∀ i, s.holder = some i → ∃ p, s.phase i = .inside p

theorem Absent.append {i : ι} {es fs : List (LockEvent ι ε)} (he : Absent i es)
    (hf : Absent i fs) : Absent i (es ++ fs) :=
  List.forall_mem_append.2 ⟨he, hf⟩

theorem CallTrace.append {l : RetryLoop σ ρ α ω ε} {start : ι → σ} {i : ι} {p : LockPhase σ ρ φ}
    {es fs : List (LockEvent ι ε)} (h : CallTrace l start i p es) (hf : Absent i fs)
    (hp : ∀ q, p ≠ .inside q) : CallTrace l start i p (es ++ fs) := by
  match p with
  | .inside q => exact absurd rfl (hp q)
  | .idle => exact Absent.append h hf
  | .queued => exact Absent.append h hf
  | .refused f => exact Absent.append h hf
  | .left r =>
    obtain ⟨before, ts, after, hbefore, hafter, hrun, rfl⟩ := h
    refine ⟨before, ts, after ++ fs, hbefore, hafter.append hf, hrun, ?_⟩
    simp only [List.append_assoc, List.cons_append]

theorem LockInv.new (l : RetryLoop σ ρ α ω ε) (start : ι → σ) :
    LockInv l start (LockState.new : LockState ι σ ρ φ) [] where
  calls _ := fun _ he => absurd he List.not_mem_nil
  inside _ _ h := nomatch h
  holder _ h := nomatch h

variable [DecidableEq ι] {l : RetryLoop σ ρ α ω ε} {start : ι → σ} {s : LockState ι σ ρ φ}
  {es : List (LockEvent ι ε)}

theorem LockInv.update (h : LockInv l start s es) {i : ι} {p : LockPhase σ ρ φ}
    {holder : Option ι} {fs : List (LockEvent ι ε)} (hfs : ∀ e ∈ fs, e.call = i)
    (halone : fs = [] ∨ ∀ j ≠ i, ∀ q, s.phase j ≠ .inside q)
    (hcall : CallTrace l start i p (es ++ fs))
    (hinside : ∀ q, p = .inside q → holder = some i ∧ ∀ r, q ≠ .returned r)
    (hholder : holder = some i → ∃ q, p = .inside q)
    (hothers : ∀ j ≠ i, holder = some j ↔ s.holder = some j) :
    LockInv l start { s.setPhase i p with holder := holder } (es ++ fs) := by
  have hself : (s.setPhase i p).phase i = p := Function.update_self ..
  have hother (j : ι) (hj : j ≠ i) : (s.setPhase i p).phase j = s.phase j :=
    Function.update_of_ne hj ..
  have habsent (j : ι) (hj : j ≠ i) : Absent j fs := fun e he heq => hj (heq.symm.trans (hfs e he))
  refine ⟨fun j => ?_, fun j q hq => ?_, fun j hj => ?_⟩
  · show CallTrace l start j ((s.setPhase i p).phase j) _
    by_cases hji : j = i
    · rw [hji, hself]
      exact hcall
    rw [hother j hji]
    obtain rfl | halone := halone
    · rw [List.append_nil]
      exact h.calls j
    · exact (h.calls j).append (habsent j hji) (halone j hji)
  · have hq' : (s.setPhase i p).phase j = .inside q := hq
    by_cases hji : j = i
    · rw [hji, hself] at hq'
      rw [hji]
      exact hinside q hq'
    · rw [hother j hji] at hq'
      exact ⟨(hothers j hji).2 (h.inside j q hq').1, (h.inside j q hq').2⟩
  · show ∃ q, (s.setPhase i p).phase j = .inside q
    by_cases hji : j = i
    · rw [hji, hself]
      exact hholder (hji ▸ hj)
    · rw [hother j hji]
      exact h.holder j ((hothers j hji).1 hj)

theorem LockInv.outside (h : LockInv l start s es) {i : ι} {p : LockPhase σ ρ φ}
    (hold : ∀ q, s.phase i ≠ .inside q) (hnew : ∀ q, p ≠ .inside q)
    (hcall : CallTrace l start i p es) : LockInv l start (s.setPhase i p) (es ++ []) := by
  have hupdate : LockInv l start { s.setPhase i p with holder := s.holder } (es ++ []) :=
    h.update (fun _ he => absurd he List.not_mem_nil) (Or.inl rfl)
      (by rwa [List.append_nil]) (fun q hq => absurd hq (hnew q))
      (fun hi => absurd (h.holder i hi) fun ⟨q, hq⟩ => hold q hq) fun _ _ => Iff.rfl
  exact hupdate

omit [DecidableEq ι] in
theorem LockInv.stay (h : LockInv l start s es) : LockInv l start s (es ++ []) := by
  rwa [List.append_nil]

theorem LockInv.turn (h : LockInv l start s es) {i : ι} {p : LoopPhase σ ρ}
    (hp : s.phase i = .inside p) (t : LoopTurn α ω) :
    LockInv l start (s.step l start (.turn i t)).1 (es ++ (s.step l start (.turn i t)).2) := by
  have hcall := h.calls i
  rw [hp] at hcall
  obtain ⟨before, ts, hbefore, hrun, rfl⟩ := hcall
  obtain ⟨hheld, -⟩ := h.inside i p hp
  -- nobody else is inside, so no other call has a trace that new events could come into
  have halone : ∀ j ≠ i, ∀ q, s.phase j ≠ .inside q := fun j hj q hq =>
    hj (Option.some.inj ((h.inside j q hq).1.symm.trans hheld))
  have hnext := l.run_snoc (.ready (start i)) ts t
  rw [hrun] at hnext
  have hevents : (l.run (.ready (start i)) (ts ++ [t])).2.map (LockEvent.did i) =
      (l.run (.ready (start i)) ts).2.map (LockEvent.did i) ++
        (l.step p t).2.map (LockEvent.did i) := by rw [hnext, List.map_append]
  have hmine : ∀ e ∈ (l.step p t).2.map (LockEvent.did i), e.call = i := by
    intro e he
    obtain ⟨x, -, rfl⟩ := List.mem_map.1 he
    rfl
  have hgo (q : LoopPhase σ ρ) (hstep : (l.step p t).1 = q) (hq : ∀ r, q ≠ .returned r) :
      LockInv l start (s.setPhase i (.inside q))
        (before ++ .granted i :: (l.run (.ready (start i)) ts).2.map (.did i) ++
          (l.step p t).2.map (.did i)) := by
    have hupdate : LockInv l start { s.setPhase i (.inside q) with holder := s.holder } _ :=
      h.update hmine (Or.inr halone) ⟨before, ts ++ [t], hbefore, by rw [hnext]; exact hstep, by
        rw [hevents, List.append_assoc, List.cons_append]⟩
        (fun q' hq' => ⟨hheld, by cases hq'; exact hq⟩) (fun _ => ⟨_, rfl⟩) fun _ _ => Iff.rfl
    exact hupdate
  rw [LockState.step, hp]
  match hstep : (l.step p t).1 with
  | .returned v =>
    simp only [hstep]
    refine h.update ?_ (Or.inr halone) ?_ (fun q hq => nomatch hq) (fun hi => nomatch hi)
      fun j hj => ?_
    · exact List.forall_mem_append.2 ⟨hmine, List.forall_mem_singleton.2 rfl⟩
    · refine ⟨before, ts ++ [t], [], hbefore, fun e he => absurd he List.not_mem_nil, ?_, ?_⟩
      · rw [hnext]
        exact hstep
      · rw [hevents]
        simp only [List.append_assoc, List.cons_append]
    · rw [hheld]
      exact iff_of_false nofun fun heq => hj (Option.some.inj heq).symm
  | .ready q =>
    simp only [hstep]
    exact hgo _ hstep nofun
  | .waiting q =>
    simp only [hstep]
    exact hgo _ hstep nofun

theorem LockInv.step (h : LockInv l start s es) (lab : LockLabel ι α ω φ) :
    LockInv l start (s.step l start lab).1 (es ++ (s.step l start lab).2) := by
  cases lab with
  | enter i =>
    rw [LockState.step]
    have hcall := h.calls i
    match hi : s.phase i with
    | .idle =>
      rw [hi] at hcall
      exact h.outside (fun q hq => nomatch hi.symm.trans hq) (fun q hq => nomatch hq) hcall
    | .queued => exact h.stay
    | .inside q => exact h.stay
    | .refused f => exact h.stay
    | .left r => exact h.stay
  | grant i =>
    rw [LockState.step]
    have hcall := h.calls i
    match hi : s.phase i, hheld : s.holder with
    | .queued, none =>
      rw [hi] at hcall
      have halone : ∀ j ≠ i, ∀ q, s.phase j ≠ .inside q := fun j _ q hq =>
        nomatch hheld.symm.trans (h.inside j q hq).1
      refine h.update (List.forall_mem_singleton.2 rfl) (Or.inr halone) ⟨es, [], hcall, rfl, rfl⟩
        (fun q hq => ⟨rfl, fun r hr => ?_⟩) (fun _ => ⟨_, rfl⟩) fun j hj => ?_
      · cases hq
        cases hr
      · rw [hheld]
        exact iff_of_false (fun heq => hj (Option.some.inj heq).symm) nofun
    | .queued, some _ => exact h.stay
    | .idle, _ => exact h.stay
    | .inside q, _ => exact h.stay
    | .refused f, _ => exact h.stay
    | .left r, _ => exact h.stay
  | refuse i f =>
    rw [LockState.step]
    have hcall := h.calls i
    match hi : s.phase i with
    | .queued =>
      rw [hi] at hcall
      exact h.outside (fun q hq => nomatch hi.symm.trans hq) (fun q hq => nomatch hq) hcall
    | .idle => exact h.stay
    | .inside q => exact h.stay
    | .refused f => exact h.stay
    | .left r => exact h.stay
  | turn i t =>
    match hi : s.phase i with
    | .inside p => exact h.turn hi t
    | .idle => rw [LockState.step, hi]; exact h.stay
    | .queued => rw [LockState.step, hi]; exact h.stay
    | .refused f => rw [LockState.step, hi]; exact h.stay
    | .left r => rw [LockState.step, hi]; exact h.stay

theorem lockRuns_inv (l : RetryLoop σ ρ α ω ε) (start : ι → σ) (ls : List (LockLabel ι α ω φ)) :
    LockInv l start ((LockState.new : LockState ι σ ρ φ).run l start ls).1
      ((LockState.new : LockState ι σ ρ φ).run l start ls).2 :=
  runs_history (fun _ _ lab h => h.step lab) (LockInv.new l start) ls

/-! What can be read off the trace of a call. -/

def LockEvent.isGranted (i : ι) : LockEvent ι ε → Bool
  | .granted j => j = i
  | _ => false

def LockEvent.isReleased (i : ι) : LockEvent ι ε → Bool
  | .released j => j = i
  | _ => false

def Contiguous (i : ι) (es : List (LockEvent ι ε)) : Prop :=
  ∃ before mid after, es = before ++ (mid ++ after) ∧ Absent i before ∧ (∀ e ∈ mid, e.call = i) ∧
    Absent i after

def LockPhase.hasLocked : LockPhase σ ρ φ → Bool
  | .inside _ => true
  | .left _ => true
  | _ => false

def LockPhase.hasLeft : LockPhase σ ρ φ → Bool
  | .left _ => true
  | _ => false

/-- What has come of a call: it was refused the lock, or its loop has returned inside of it. -/
def LockPhase.answer : LockPhase σ ρ φ → Option (Except φ ρ)
  | .refused f => some (.error f)
  | .left r => some (.ok r)
  | _ => none

theorem countP_absent {i : ι} {es : List (LockEvent ι ε)} (h : Absent i es) :
    es.countP (LockEvent.isGranted i) = 0 ∧ es.countP (LockEvent.isReleased i) = 0 := by
  rw [List.countP_eq_zero, List.countP_eq_zero]
  refine ⟨fun e he hgranted => ?_, fun e he hreleased => ?_⟩
  · cases e with
    | granted j => exact h _ he (of_decide_eq_true hgranted)
    | did j x => cases hgranted
    | released j => cases hgranted
  · cases e with
    | granted j => cases hreleased
    | did j x => cases hreleased
    | released j => exact h _ he (of_decide_eq_true hreleased)

theorem countP_did (i j : ι) (xs : List ε) :
    (xs.map (LockEvent.did j)).countP (LockEvent.isGranted i) = 0 ∧
      (xs.map (LockEvent.did j)).countP (LockEvent.isReleased i) = 0 := by
  rw [List.countP_eq_zero, List.countP_eq_zero, List.forall_mem_map, List.forall_mem_map]
  exact ⟨fun _ _ => nofun, fun _ _ => nofun⟩

theorem CallTrace.counts {i : ι} {p : LockPhase σ ρ φ} (h : CallTrace l start i p es) :
    es.countP (LockEvent.isGranted i) = p.hasLocked.toNat ∧
      es.countP (LockEvent.isReleased i) = p.hasLeft.toNat := by
  match p with
  | .inside p =>
    obtain ⟨before, ts, hbefore, -, rfl⟩ := h
    have hgranted : LockEvent.isGranted i (.granted i : LockEvent ι ε) = true := decide_eq_true rfl
    rw [List.countP_append, List.countP_append, (countP_absent hbefore).1,
      (countP_absent hbefore).2, List.countP_cons_of_pos hgranted,
      List.countP_cons_of_neg Bool.false_ne_true, (countP_did i i _).1, (countP_did i i _).2]
    exact ⟨rfl, rfl⟩
  | .left r =>
    obtain ⟨before, ts, after, hbefore, hafter, -, rfl⟩ := h
    have hgranted : LockEvent.isGranted i (.granted i : LockEvent ι ε) = true := decide_eq_true rfl
    have hreleased : LockEvent.isReleased i (.released i : LockEvent ι ε) = true :=
      decide_eq_true rfl
    rw [List.countP_append, List.countP_append, (countP_absent hbefore).1,
      (countP_absent hbefore).2, List.countP_cons_of_pos hgranted,
      List.countP_cons_of_neg Bool.false_ne_true, List.countP_append, List.countP_append,
      (countP_did i i _).1, (countP_did i i _).2, List.countP_cons_of_neg Bool.false_ne_true,
      List.countP_cons_of_pos hreleased, (countP_absent hafter).1, (countP_absent hafter).2]
    exact ⟨rfl, rfl⟩
  | .idle => exact countP_absent h
  | .queued => exact countP_absent h
  | .refused f => exact countP_absent h

theorem CallTrace.answered {i : ι} {p : LockPhase σ ρ φ} {a : Except φ ρ}
    (h : CallTrace l start i p es) (ha : p.answer = some a) :
    es.countP (LockEvent.isGranted i) = a.isOk.toNat ∧
      es.countP (LockEvent.isReleased i) = a.isOk.toNat := by
  have hcounts := h.counts
  cases p with
  | refused f =>
    cases ha
    exact hcounts
  | left r =>
    cases ha
    exact hcounts
  | _ => cases ha

omit [DecidableEq ι] in
theorem CallTrace.contiguous {i : ι} {p : LockPhase σ ρ φ} (h : CallTrace l start i p es) :
    Contiguous i es := by
  have hnone : Absent i ([] : List (LockEvent ι ε)) := fun _ he => absurd he List.not_mem_nil
  have hdid (xs : List ε) : ∀ e ∈ xs.map (LockEvent.did i), e.call = i :=
    List.forall_mem_map.2 fun _ _ => rfl
  match p with
  | .inside p =>
    obtain ⟨before, ts, hbefore, -, rfl⟩ := h
    refine ⟨before, _, [], by rw [List.append_nil], hbefore, ?_, hnone⟩
    exact List.forall_mem_cons.2 ⟨rfl, hdid _⟩
  | .left r =>
    obtain ⟨before, ts, after, hbefore, hafter, -, rfl⟩ := h
    refine ⟨before, .granted i :: ((l.run (.ready (start i)) ts).2.map (.did i) ++ [.released i]),
      after, ?_, hbefore, ?_, hafter⟩
    · simp only [List.append_assoc, List.cons_append, List.nil_append]
    · exact List.forall_mem_cons.2 ⟨rfl, List.forall_mem_append.2 ⟨hdid _,
        List.forall_mem_singleton.2 rfl⟩⟩
  | .idle => exact ⟨es, [], [], by rw [List.append_nil, List.append_nil], h, nofun, hnone⟩
  | .queued => exact ⟨es, [], [], by rw [List.append_nil, List.append_nil], h, nofun, hnone⟩
  | .refused f => exact ⟨es, [], [], by rw [List.append_nil, List.append_nil], h, nofun, hnone⟩

/-! Waiting for the lock. -/

theorem LockState.step_phase_of_ne (l : RetryLoop σ ρ α ω ε) (start : ι → σ)
    {lab : LockLabel ι α ω φ} {i : ι} (h : i ≠ lab.call) :
    (s.step l start lab).1.phase i = s.phase i := by
  have hother (p : LockPhase σ ρ φ) : (s.setPhase lab.call p).phase i = s.phase i :=
    Function.update_of_ne h ..
  cases lab with
  | enter j =>
    rw [LockState.step]
    split
    · exact hother .queued
    · rfl
  | grant j =>
    rw [LockState.step]
    split
    · exact hother _
    · rfl
  | refuse j f =>
    rw [LockState.step]
    split
    · exact hother (.refused f)
    · rfl
  | turn j t =>
    rw [LockState.step]
    split
    · dsimp only
      split
      · exact hother _
      · exact hother _
    · rfl

theorem LockState.queued_step (l : RetryLoop σ ρ α ω ε) (start : ι → σ) {i : ι}
    (hi : s.phase i = .queued) (lab : LockLabel ι α ω φ) :
    (s.step l start lab).1.phase i = .queued ∨ lab = .grant i ∨ ∃ f, lab = .refuse i f := by
  by_cases hcall : i = lab.call
  · subst hcall
    cases lab with
    | enter i =>
      have hi' : s.phase i = .queued := hi
      left
      show (s.step l start (.enter i)).1.phase i = _
      rw [LockState.step, hi']
      exact hi'
    | grant i => exact Or.inr (Or.inl rfl)
    | refuse i f => exact Or.inr (Or.inr ⟨f, rfl⟩)
    | turn i t =>
      have hi' : s.phase i = .queued := hi
      left
      show (s.step l start (.turn i t)).1.phase i = _
      rw [LockState.step, hi']
      exact hi'
  · exact Or.inl ((LockState.step_phase_of_ne l start hcall).trans hi)

/-- Whoever waits can get the lock: at once when it is free, and else after a turn in which the
loop of its holder returns. -/
theorem LockInv.served (h : LockInv l start s es)
    (hattempt : ∀ x, ∃ a r, (l.attempt x a).1 = .returned r)
    (hresume : ∀ x, ∃ w r, l.resume x w = .returned r) {i : ι} (hi : s.phase i = .queued) :
    ∃ ls, (s.run l start ls).1.holder = some i := by
  have hgrant (t : LockState ι σ ρ φ) (ht : t.phase i = .queued) (hfree : t.holder = none) :
      (t.step l start (.grant i)).1.holder = some i := by
    rw [LockState.step, ht, hfree]
  match hheld : s.holder with
  | none => exact ⟨[.grant i], hgrant s hi hheld⟩
  | some j =>
    obtain ⟨p, hp⟩ := h.holder j hheld
    have hreturn : ∃ t r, (l.step p t).1 = .returned r := by
      match p, (h.inside j p hp).2 with
      | .ready x, _ =>
        obtain ⟨a, r, hr⟩ := hattempt x
        exact ⟨.answer a, r, hr⟩
      | .waiting x, _ =>
        obtain ⟨w, r, hr⟩ := hresume x
        exact ⟨.wake w, r, hr⟩
      | .returned r, hne => exact absurd rfl (hne r)
    obtain ⟨t, r, hr⟩ := hreturn
    have hij : i ≠ j := by
      rintro rfl
      cases hi.symm.trans hp
    have hfree : (s.step l start (.turn j t)).1.holder = none := by
      rw [LockState.step, hp]
      simp only [hr]
    refine ⟨[.turn j t, .grant i], hgrant (s.step l start (.turn j t)).1 ?_ hfree⟩
    exact (LockState.step_phase_of_ne l start hij).trans hi

end LuaNet.Lib
