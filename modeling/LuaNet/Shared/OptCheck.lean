import LuaNet.Lib.BoundedStack
import LuaNet.Lib.Codec
import LuaNet.Lib.Sweep
import Mathlib.Data.List.Pairwise

/-! `optspec_check` of `optcheck.h` on the Lua stack. The table is traversed with `lua_next`, whose
place in the table is the key on the top of the stack; callbacks run while it is there. -/

namespace LuaNet.Shared

open LuaNet.Lib

inductive OptKey
  | string (k : Bytes)
  | other (n : Nat)
deriving DecidableEq

/-- A value on the stack; the pairs of an options table are in the order of `lua_next`. -/
inductive OptSlot (ν : Type)
  | nil
  | key (k : OptKey)
  | value (v : ν)
  | opts (pairs : List (OptKey × ν))
  | other (typename : String)

inductive OptEvent
  | visited (k : OptKey)
  | called (name : Bytes)
deriving DecidableEq

structure OptState (ν σ : Type) where
  stack : BoundedStack (OptSlot ν)
  ctx : σ
  trace : List OptEvent

abbrev OptM (ν σ β : Type) := Raising (OptState ν σ) (StackHalt String) β

variable {ν σ β : Type}

def onStack (m : StackM (OptSlot ν) String β) : OptM ν σ β := fun s =>
  ((m s.stack).1, { s with stack := (m s.stack).2 })

def note (e : OptEvent) : OptM ν σ Unit := Raising.update fun s => { s with trace := s.trace ++ [e] }

theorem onStack_run {m : StackM (OptSlot ν) String β} {b t : BoundedStack (OptSlot ν)} {x : β}
    (h : m b = (.ok x, t)) (ctx : σ) (trace : List OptEvent) :
    onStack m ⟨b, ctx, trace⟩ = (.ok x, ⟨t, ctx, trace⟩) := by
  rw [onStack, h]

def nextPair (pairs : List (OptKey × ν)) : OptSlot ν → Option (Option (OptKey × ν))
  | .nil => some pairs.head?
  | .key k =>
    match pairs.dropWhile fun p => p.1 ≠ k with
    | [] => none
    | _ :: rest => some rest.head?
  | _ => none

def luaNext (idx : Nat) : OptM ν σ Bool := do
  let key ← onStack StackM.top
  onStack (StackM.pop 1)
  match ← onStack (StackM.get idx) with
  | .opts pairs =>
    match nextPair pairs key with
    | none => Raising.raise (.raised "invalid key to 'next'")
    | some none => return false
    | some (some (k, v)) => do
      note (.visited k)
      onStack (StackM.push (.key k))
      onStack (StackM.push (.value v))
      return true
  | _ => Raising.raise .misuse

/-- Slots that a callback needs: the key, the value, and two of its own. -/
def calleeSlots : Nat := 4

/-- What a callback does with the key and the value on the top of the stack: it checks the value,
changes `ctx` accordingly, and may leave one value below the key, above the table. -/
structure CallbackRuns (idx : Nat) (callback : OptM ν σ Unit)
    (check : ν → Except String (σ → σ)) : Prop where
  accepts : ∀ (b : BoundedStack (OptSlot ν)) (ctx : σ) trace below key v change,
    1 ≤ idx → idx ≤ below.length → below.length + calleeSlots ≤ b.ensured →
    check v = .ok change →
    ∃ below' w, callback ⟨b.withSlots (below ++ [key, .value v]), ctx, trace⟩ =
        (.ok (), ⟨b.withSlots (below' ++ [key, w]), change ctx, trace⟩) ∧
      below'[idx - 1]? = below[idx - 1]? ∧ below.length ≤ below'.length ∧
      below'.length ≤ below.length + 1
  rejects : ∀ (b : BoundedStack (OptSlot ν)) (ctx : σ) trace below key v msg,
    1 ≤ idx → idx ≤ below.length → below.length + calleeSlots ≤ b.ensured →
    check v = .error msg →
    ∃ t ctx', callback ⟨b.withSlots (below ++ [key, .value v]), ctx, trace⟩ =
      (.error (.raised msg), ⟨t, ctx', trace⟩)

structure OptSpec (ν σ : Type) (idx : Nat) where
  name : Bytes
  callback : OptM ν σ Unit
  check : ν → Except String (σ → σ)
  runs : CallbackRuns idx callback check

def readValue (check : ν → Except String (σ → σ)) : OptM ν σ Unit := do
  match ← onStack StackM.top with
  | .value v =>
    match check v with
    | .ok change => Raising.update fun s => { s with ctx := change s.ctx }
    | .error msg => Raising.raise (.raised msg)
  | _ => Raising.raise .misuse

def retainValue : OptM ν σ Unit := do
  let v ← onStack StackM.top
  onStack (StackM.push v)
  onStack (StackM.insert 2)

section Callbacks

variable {idx : Nat} {check : ν → Except String (σ → σ)} {b : BoundedStack (OptSlot ν)}
  {trace : List OptEvent} {below : List (OptSlot ν)} {key : OptSlot ν} {v : ν}

theorem readValue_ok {change : σ → σ} (h : check v = .ok change) (ctx : σ) :
    readValue check ⟨b.withSlots (below ++ [key, .value v]), ctx, trace⟩ =
      (.ok (), ⟨b.withSlots (below ++ [key, .value v]), change ctx, trace⟩) := by
  rw [List.append_cons below, readValue,
    Raising.bind_of_ok (onStack_run (StackM.top_snoc _ _) ctx trace)]
  simp only [h]
  rfl

theorem readValue_error {msg : String} (h : check v = .error msg) (ctx : σ) :
    readValue check ⟨b.withSlots (below ++ [key, .value v]), ctx, trace⟩ =
      (.error (.raised msg), ⟨b.withSlots (below ++ [key, .value v]), ctx, trace⟩) := by
  rw [List.append_cons below, readValue,
    Raising.bind_of_ok (onStack_run (StackM.top_snoc _ _) ctx trace)]
  simp only [h]
  rfl

theorem readValue_runs (idx : Nat) (check : ν → Except String (σ → σ)) :
    CallbackRuns idx (readValue check) check where
  accepts _ ctx _ below _ v _ _ _ _ h :=
    ⟨below, .value v, readValue_ok h ctx, rfl, Nat.le_refl _, Nat.le_succ _⟩
  rejects _ ctx _ _ _ _ _ _ _ _ h := ⟨_, ctx, readValue_error h ctx⟩

theorem retainValue_run {table : OptSlot ν} (hroom : (table :: below).length + 2 < b.ensured)
    (ctx : σ) :
    retainValue ⟨b.withSlots (table :: below ++ [key, .value v]), ctx, trace⟩ =
      (.ok (), ⟨b.withSlots (table :: .value v :: below ++ [key, .value v]), ctx, trace⟩) := by
  have htop : (StackM.top : StackM (OptSlot ν) String (OptSlot ν))
      (b.withSlots (table :: below ++ [key, .value v])) =
        (.ok (.value v), b.withSlots (table :: below ++ [key, .value v])) := by
    rw [List.append_cons (table :: below)]
    exact StackM.top_snoc _ _
  have hpush : (StackM.push (.value v) : StackM (OptSlot ν) String Unit)
      (b.withSlots (table :: below ++ [key, .value v])) =
        (.ok (), b.withSlots (table :: below ++ [key, .value v] ++ [.value v])) :=
    StackM.push_run (by rw [List.length_append]; exact hroom) _
  rw [retainValue, Raising.bind_of_ok (onStack_run htop ctx trace),
    Raising.bind_of_ok (onStack_run hpush ctx trace)]
  exact onStack_run (StackM.insert_snoc _ _ 2) ctx trace

theorem retain_runs (check : ν → Except String (σ → σ)) :
    CallbackRuns 1 (readValue check >>= fun _ => retainValue) check where
  accepts b ctx trace below key v change _ hle hroom h := by
    obtain ⟨table, below, rfl⟩ := List.exists_cons_of_length_pos hle
    rw [calleeSlots] at hroom
    refine ⟨table :: .value v :: below, .value v, ?_, rfl, Nat.le_succ _, Nat.le_refl _⟩
    rw [Raising.bind_of_ok (readValue_ok h ctx)]
    exact retainValue_run (by omega) (change ctx)
  rejects _ ctx _ _ _ _ _ _ _ _ h := ⟨_, ctx, Raising.bind_of_error (readValue_error h ctx)⟩

end Callbacks

def writing {α : Type} (read : ν → Except String α) (write : α → σ → σ) (v : ν) :
    Except String (σ → σ) :=
  (read v).map write

def OptSpec.read {idx : Nat} (name : Bytes) (check : ν → Except String (σ → σ)) : OptSpec ν σ idx where
  name := name
  callback := readValue check
  check := check
  runs := readValue_runs idx check

/-- A spec whose callback also keeps the value on the stack. The options are at the index 1, and
the value goes right above them. -/
def OptSpec.retain (name : Bytes) (check : ν → Except String (σ → σ)) : OptSpec ν σ 1 where
  name := name
  callback := readValue check >>= fun _ => retainValue
  check := check
  runs := retain_runs check

abbrev OptEntry (ν σ : Type) (idx : Nat) := Bool × OptSpec ν σ idx

def dispatch {idx : Nat} (k : Bytes) :
    List (OptEntry ν σ idx) → Option (OptSpec ν σ idx × List (OptEntry ν σ idx))
  | [] => none
  | (seen, spec) :: entries =>
    if !seen && spec.name = k then some (spec, (true, spec) :: entries)
    else (dispatch k entries).map fun r => (r.1, (seen, spec) :: r.2)

def checkNext {idx : Nat} : Nat → List (OptEntry ν σ idx) → OptM ν σ Unit
  | 0, _ => Raising.raise .misuse
  | fuel + 1, entries => do
    if ← luaNext idx then
      match ← onStack (StackM.fromTop 2) with
      | .key (.string k) =>
        match dispatch k entries with
        | some (spec, entries) => do
          note (.called k)
          spec.callback
          onStack (StackM.pop 1)
          checkNext fuel entries
        | none => do
          onStack (StackM.pop 1)
          checkNext fuel entries
      | _ => Raising.raise (.raised "opts keys must be strings")
    else return ()

def optcheckMaxSpecs : Nat := 32

def optspecCheck {idx : Nat} (specs : List (OptSpec ν σ idx)) : OptM ν σ Unit := do
  match ← onStack (StackM.peek idx) with
  | none => return ()
  | some .nil => return ()
  | some (.opts pairs) =>
    if optcheckMaxSpecs < specs.length then
      Raising.raise (.raised ("opts spec array too large: " ++ toString specs.length ++ " > " ++
        toString optcheckMaxSpecs))
    else do
      onStack (StackM.push .nil)
      checkNext (pairs.length + 1) (specs.map fun spec => (false, spec))
  | some (.other typename) =>
    Raising.raise (.raised ("opts must be table, got " ++ typename))
  | some _ => Raising.raise .misuse

/-! `lua_next` visits every pair once, whatever is below the key. -/

section Traversal

variable {pairs : List (OptKey × ν)} {b : BoundedStack (OptSlot ν)} {ctx : σ}
  {trace : List OptEvent} {idx : Nat} {below : List (OptSlot ν)} {top : OptSlot ν}

theorem nextPair_key {before after : List (OptKey × ν)} {p : OptKey × ν}
    (hnodup : ((before ++ p :: after).map Prod.fst).Nodup) :
    nextPair (before ++ p :: after) (.key p.1) = some after.head? := by
  have hne : ∀ q ∈ before, (decide (q.1 ≠ p.1)) = true := by
    intro q hq
    rw [List.map_append, List.map_cons] at hnodup
    have hdisj := (List.nodup_append.mp hnodup).2.2
    exact decide_eq_true (hdisj q.1 (List.mem_map_of_mem hq) p.1 List.mem_cons_self)
  rw [nextPair, List.dropWhile_append_of_pos hne, List.dropWhile_cons_of_neg (by simp)]

theorem luaNext_pair (htable : below[idx - 1]? = some (.opts pairs)) {k : OptKey} {v : ν}
    (hnext : nextPair pairs top = some (some (k, v))) (hroom : below.length + 2 ≤ b.ensured) :
    luaNext idx ⟨b.withSlots (below ++ [top]), ctx, trace⟩ =
      (.ok true, ⟨b.withSlots (below ++ [.key k, .value v]), ctx, trace ++ [.visited k]⟩) := by
  rw [luaNext, Raising.bind_of_ok (onStack_run (StackM.top_snoc below top) ctx trace),
    Raising.bind_of_ok (onStack_run (StackM.pop_snoc below top) ctx trace),
    Raising.bind_of_ok (onStack_run (StackM.get_run htable) ctx trace)]
  simp only [hnext]
  have hkey : (StackM.push (.key k) : StackM (OptSlot ν) String Unit) (b.withSlots below) =
      (.ok (), b.withSlots (below ++ [.key k])) := StackM.push_run (by omega) _
  have hvalue : (StackM.push (.value v) : StackM (OptSlot ν) String Unit)
      (b.withSlots (below ++ [.key k])) = (.ok (), b.withSlots (below ++ [.key k, .value v])) := by
    rw [StackM.push_run (by rw [List.length_append, List.length_singleton]; omega),
      List.append_assoc]
    rfl
  refine (Raising.bind_of_ok (onStack_run hkey ctx (trace ++ [.visited k]))).trans ?_
  exact Raising.bind_of_ok (onStack_run hvalue ctx (trace ++ [.visited k]))

theorem luaNext_end (htable : below[idx - 1]? = some (.opts pairs))
    (hnext : nextPair pairs top = some none) :
    luaNext idx ⟨b.withSlots (below ++ [top]), ctx, trace⟩ =
      (.ok false, ⟨b.withSlots below, ctx, trace⟩) := by
  rw [luaNext, Raising.bind_of_ok (onStack_run (StackM.top_snoc below top) ctx trace),
    Raising.bind_of_ok (onStack_run (StackM.pop_snoc below top) ctx trace),
    Raising.bind_of_ok (onStack_run (StackM.get_run htable) ctx trace)]
  simp only [hnext]
  rfl

end Traversal

/-! One spec for each key. -/

section Dispatch

variable {idx : Nat}

def specOf (specs : List (OptSpec ν σ idx)) (k : Bytes) : Option (OptSpec ν σ idx) :=
  specs.find? fun spec => spec.name = k

def Fresh (entries : List (OptEntry ν σ idx)) (names : List Bytes) : Prop :=
  ∀ e ∈ entries, e.1 = true → e.2.name ∉ names

def unseen (entries : List (OptEntry ν σ idx)) : Nat := entries.countP fun e => !e.1

theorem dispatch_none {k : Bytes} {entries : List (OptEntry ν σ idx)} (h : Fresh entries [k])
    (hnone : specOf (entries.map Prod.snd) k = none) : dispatch k entries = none := by
  induction entries with
  | nil => rfl
  | cons e entries ih =>
    obtain ⟨seen, spec⟩ := e
    rw [specOf, List.map_cons, List.find?_cons] at hnone
    have hname : ¬ spec.name = k := by
      intro heq
      simp [heq] at hnone
    simp only [hname, decide_false] at hnone
    have hrest : Fresh entries [k] := fun e he => h e (List.mem_cons_of_mem _ he)
    rw [dispatch, if_neg (by simp [hname]), ih hrest hnone]
    rfl

theorem dispatch_some {k : Bytes} {entries : List (OptEntry ν σ idx)} {spec : OptSpec ν σ idx}
    (h : Fresh entries [k]) (hsome : specOf (entries.map Prod.snd) k = some spec) :
    ∃ entries', dispatch k entries = some (spec, entries') ∧
      entries'.map Prod.snd = entries.map Prod.snd ∧ unseen entries' + 1 = unseen entries ∧
      ∀ e ∈ entries', e.1 = true → e ∈ entries ∨ e.2.name = k := by
  induction entries with
  | nil => cases hsome
  | cons e entries ih =>
    obtain ⟨seen, head⟩ := e
    rw [specOf, List.map_cons, List.find?_cons] at hsome
    have hrest : Fresh entries [k] := fun e he => h e (List.mem_cons_of_mem _ he)
    by_cases hname : head.name = k
    · simp only [hname, decide_true, Option.some.injEq] at hsome
      subst hsome
      have hseen : seen = false := by
        cases seen with
        | false => rfl
        | true =>
          have hmem := h _ List.mem_cons_self rfl
          exact absurd (by rw [hname]; exact List.mem_singleton_self k) hmem
      subst hseen
      refine ⟨(true, head) :: entries, by rw [dispatch, if_pos (by simp [hname])], rfl, ?_, ?_⟩
      · simp [unseen]
      · intro e he _
        rcases List.mem_cons.mp he with rfl | he
        · exact .inr hname
        · exact .inl (List.mem_cons_of_mem _ he)
    · simp only [hname, decide_false] at hsome
      obtain ⟨entries', hdispatch, hsnd, hcount, hmem⟩ := ih hrest hsome
      refine ⟨(seen, head) :: entries', ?_, ?_, ?_, ?_⟩
      · rw [dispatch, if_neg (by simp [hname]), hdispatch]
        rfl
      · rw [List.map_cons, hsnd, List.map_cons]
      · rw [unseen, unseen] at *
        rw [List.countP_cons, List.countP_cons]
        omega
      · intro e he htrue
        rcases List.mem_cons.mp he with rfl | he
        · exact .inl List.mem_cons_self
        · exact (hmem e he htrue).imp_left (List.mem_cons_of_mem _)

end Dispatch

/-! The run of `optspec_check` is a pass over the pairs. -/

section Run

variable {idx : Nat} {specs : List (OptSpec ν σ idx)} {pairs : List (OptKey × ν)}
  {b : BoundedStack (OptSlot ν)} {ctx : σ} {trace : List OptEvent} {below : List (OptSlot ν)}
  {top : OptSlot ν} {entries : List (OptEntry ν σ idx)} {fuel : Nat} {k : Bytes} {v : ν}

def visit (specs : List (OptSpec ν σ idx)) (p : Bytes × ν) : Except String (σ → σ) :=
  match specOf specs p.1 with
  | some spec => spec.check p.2
  | none => .ok id

def eventsOf (specs : List (OptSpec ν σ idx)) (p : Bytes × ν) : List OptEvent :=
  .visited (.string p.1) :: if (specOf specs p.1).isSome then [.called p.1] else []

theorem checkNext_unknown (htable : below[idx - 1]? = some (.opts pairs))
    (hnext : nextPair pairs top = some (some (.string k, v)))
    (hroom : below.length + calleeSlots ≤ b.ensured) (hdispatch : dispatch k entries = none) :
    checkNext (fuel + 1) entries ⟨b.withSlots (below ++ [top]), ctx, trace⟩ =
      checkNext fuel entries ⟨b.withSlots (below ++ [.key (.string k)]), ctx,
        trace ++ [.visited (.string k)]⟩ := by
  rw [calleeSlots] at hroom
  have hpop : (StackM.pop 1 : StackM (OptSlot ν) String Unit)
      (b.withSlots (below ++ [.key (.string k), .value v])) =
        (.ok (), b.withSlots (below ++ [.key (.string k)])) := by
    rw [List.append_cons below]
    exact StackM.pop_snoc _ _
  rw [checkNext, Raising.bind_of_ok (luaNext_pair htable hnext (by omega)), if_pos rfl,
    Raising.bind_of_ok (onStack_run (StackM.fromTop_two below _ _) ctx _)]
  simp only [hdispatch]
  exact Raising.bind_of_ok (onStack_run hpop ctx _)

theorem checkNext_known {spec : OptSpec ν σ idx} {entries' : List (OptEntry ν σ idx)} (fuel : Nat)
    (ctx : σ) (trace : List OptEvent) (htable : below[idx - 1]? = some (.opts pairs))
    (hnext : nextPair pairs top = some (some (.string k, v))) (hidx : 1 ≤ idx)
    (hroom : below.length + calleeSlots ≤ b.ensured)
    (hdispatch : dispatch k entries = some (spec, entries')) :
    (∀ change, spec.check v = .ok change →
      ∃ below', below'[idx - 1]? = below[idx - 1]? ∧ below'.length ≤ below.length + 1 ∧
        checkNext (fuel + 1) entries ⟨b.withSlots (below ++ [top]), ctx, trace⟩ =
          checkNext fuel entries' ⟨b.withSlots (below' ++ [.key (.string k)]), change ctx,
            trace ++ [.visited (.string k), .called k]⟩) ∧
    ∀ msg, spec.check v = .error msg →
      ∃ t ctx', checkNext (fuel + 1) entries ⟨b.withSlots (below ++ [top]), ctx, trace⟩ =
        (.error (.raised msg), ⟨t, ctx', trace ++ [.visited (.string k), .called k]⟩) := by
  have hle : idx ≤ below.length := by
    have hlt := (List.getElem?_eq_some_iff.mp htable).1
    omega
  have hcalled : trace ++ [.visited (.string k)] ++ [.called k] =
      trace ++ [OptEvent.visited (.string k), .called k] := List.append_assoc _ _ _
  have hcallee := hroom
  rw [calleeSlots] at hroom
  rw [checkNext, Raising.bind_of_ok (luaNext_pair htable hnext (by omega)), if_pos rfl,
    Raising.bind_of_ok (onStack_run (StackM.fromTop_two below _ _) ctx _)]
  simp only [hdispatch]
  constructor
  · intro change hcheck
    obtain ⟨below', w, hrun, hkept, -, hlen⟩ := spec.runs.accepts b ctx
      (trace ++ [.visited (.string k), .called k]) below (.key (.string k)) v change hidx hle
      hcallee hcheck
    have hpop : (StackM.pop 1 : StackM (OptSlot ν) String Unit)
        (b.withSlots (below' ++ [.key (.string k), w])) =
          (.ok (), b.withSlots (below' ++ [.key (.string k)])) := by
      rw [List.append_cons below']
      exact StackM.pop_snoc _ _
    refine ⟨below', hkept, hlen, ?_⟩
    rw [← hcalled] at hrun ⊢
    refine (Raising.bind_of_ok hrun).trans ?_
    exact Raising.bind_of_ok (onStack_run hpop _ _)
  · intro msg hcheck
    obtain ⟨t, ctx', hrun⟩ := spec.runs.rejects b ctx
      (trace ++ [.visited (.string k), .called k]) below (.key (.string k)) v msg hidx hle
      hcallee hcheck
    rw [← hcalled] at hrun ⊢
    exact ⟨t, ctx', (Raising.bind_of_ok rfl).trans (Raising.bind_of_error hrun)⟩

def stringPairs (l : List (Bytes × ν)) : List (OptKey × ν) := l.map fun p => (.string p.1, p.2)

inductive At (before : List (Bytes × ν)) : OptSlot ν → Prop
  | start (h : before = []) : At before .nil
  | behind {init : List (Bytes × ν)} {p : Bytes × ν} (h : before = init ++ [p]) :
    At before (.key (.string p.1))

theorem nextPair_at {before after : List (Bytes × ν)} {top : OptSlot ν} (h : At before top)
    (hnodup : ((before ++ after).map Prod.fst).Nodup) :
    nextPair (stringPairs (before ++ after)) top = some (stringPairs after).head? := by
  rcases h with rfl | ⟨rfl⟩
  · rfl
  · next init p =>
    have hsplit : stringPairs (init ++ [p] ++ after) =
        stringPairs init ++ (.string p.1, p.2) :: stringPairs after := by
      rw [stringPairs, List.append_assoc, List.map_append]
      rfl
    have hkeys : ((stringPairs (init ++ [p] ++ after)).map Prod.fst).Nodup := by
      have hmap : (stringPairs (init ++ [p] ++ after)).map Prod.fst =
          ((init ++ [p] ++ after).map Prod.fst).map OptKey.string := by
        rw [stringPairs, List.map_map, List.map_map]
        rfl
      rw [hmap]
      exact hnodup.map fun _ _ h => OptKey.string.inj h
    rw [hsplit] at hkeys ⊢
    exact nextPair_key hkeys

theorem checkNext_run {all : List (Bytes × ν)} (hnodup : (all.map Prod.fst).Nodup)
    (hidx : 1 ≤ idx) (rest before : List (Bytes × ν)) (ctx : σ) (trace : List OptEvent)
    (hall : all = before ++ rest) (hat : At before top)
    (htable : below[idx - 1]? = some (.opts (stringPairs all)))
    (hspecs : entries.map Prod.snd = specs) (hfresh : Fresh entries (rest.map Prod.fst))
    (hroom : below.length + unseen entries + calleeSlots ≤ b.ensured) :
    (∀ ctx', sweep (visit specs) rest ctx = .ok ctx' →
      ∃ t, checkNext (rest.length + 1) entries ⟨b.withSlots (below ++ [top]), ctx, trace⟩ =
        (.ok (), ⟨t, ctx', trace ++ rest.flatMap (eventsOf specs)⟩)) ∧
    ∀ msg, sweep (visit specs) rest ctx = .error msg →
      ∃ t ctx' n, checkNext (rest.length + 1) entries ⟨b.withSlots (below ++ [top]), ctx, trace⟩ =
        (.error (.raised msg), ⟨t, ctx', trace ++ (rest.take n).flatMap (eventsOf specs)⟩) := by
  induction rest generalizing before below top entries ctx trace with
  | nil =>
    have hnext : nextPair (stringPairs all) top = some none := by
      rw [hall] at hnodup ⊢
      exact nextPair_at hat hnodup
    refine ⟨fun ctx' h => ⟨b.withSlots below, ?_⟩, fun msg h => ?_⟩
    · cases h
      rw [List.flatMap_nil, List.append_nil, checkNext,
        Raising.bind_of_ok (luaNext_end htable hnext)]
      rfl
    · cases h
  | cons p rest ih =>
    obtain ⟨k, v⟩ := p
    have hnext : nextPair (stringPairs all) top = some (some (.string k, v)) := by
      rw [hall] at hnodup ⊢
      exact nextPair_at hat hnodup
    have hk : k ∉ rest.map Prod.fst := by
      rw [hall, List.map_append, List.map_cons] at hnodup
      exact (List.nodup_cons.mp (List.nodup_append.mp hnodup).2.1).1
    have hmore : all = (before ++ [(k, v)]) ++ rest := by rw [hall, List.append_assoc]; rfl
    have hfreshk : Fresh entries [k] := fun e he htrue hmem =>
      hfresh e he htrue (List.mem_cons.mpr (.inl (List.mem_singleton.mp hmem)))
    have hfresh' : Fresh entries (rest.map Prod.fst) := fun e he htrue hmem =>
      hfresh e he htrue (List.mem_cons_of_mem _ hmem)
    have hcallee : below.length + calleeSlots ≤ b.ensured := by omega
    simp only [sweep, List.flatMap_cons, List.length_cons]
    cases hspec : specOf specs k with
    | none =>
      have hvisit : visit specs (k, v) = .ok id := by simp only [visit, hspec]
      have hevents : eventsOf specs (k, v) = [.visited (.string k)] := by simp [eventsOf, hspec]
      have hdispatch : dispatch k entries = none := dispatch_none hfreshk (by rw [hspecs, hspec])
      obtain ⟨hok, herr⟩ := ih (before ++ [(k, v)]) ctx (trace ++ [.visited (.string k)]) hmore
        (.behind rfl) htable hspecs hfresh' hroom
      rw [hvisit, checkNext_unknown htable hnext hcallee hdispatch, hevents]
      refine ⟨fun ctx' h => ?_, fun msg h => ?_⟩
      · rw [← List.append_assoc]
        exact hok ctx' h
      · obtain ⟨t, ctx', n, hrun⟩ := herr msg h
        refine ⟨t, ctx', n + 1, hrun.trans ?_⟩
        rw [List.take_succ_cons, List.flatMap_cons, hevents, List.append_assoc]
    | some spec =>
      have hvisit : visit specs (k, v) = spec.check v := by simp only [visit, hspec]
      have hevents : eventsOf specs (k, v) = [.visited (.string k), .called k] := by
        simp [eventsOf, hspec]
      obtain ⟨entries', hdispatch, hsnd, hcount, hmem⟩ :=
        dispatch_some hfreshk (by rw [hspecs, hspec])
      obtain ⟨haccept, hreject⟩ := checkNext_known (rest.length + 1) ctx trace htable
        hnext hidx hcallee hdispatch
      rw [hvisit, hevents]
      cases hcheck : spec.check v with
      | error msg =>
        refine ⟨fun ctx' h => ?_, fun msg' h => ?_⟩
        · cases h
        · cases h
          obtain ⟨t, ctx', hrun⟩ := hreject msg hcheck
          refine ⟨t, ctx', 1, hrun.trans ?_⟩
          rw [List.take_succ_cons, List.take_zero, List.flatMap_singleton, hevents]
      | ok change =>
        obtain ⟨below', hkept, hlen, hrun⟩ := haccept change hcheck
        have hfresh'' : Fresh entries' (rest.map Prod.fst) := by
          intro e he htrue
          rcases hmem e he htrue with hold | hname
          · exact hfresh' e hold htrue
          · rw [hname]
            exact hk
        obtain ⟨hok, herr⟩ := ih (before ++ [(k, v)]) (change ctx)
          (trace ++ [.visited (.string k), .called k]) hmore (.behind rfl) (hkept.trans htable)
          (hsnd.trans hspecs) hfresh'' (by omega)
        rw [hrun]
        refine ⟨fun ctx' h => ?_, fun msg h => ?_⟩
        · rw [← List.append_assoc]
          exact hok ctx' h
        · obtain ⟨t, ctx', n, hrun'⟩ := herr msg h
          refine ⟨t, ctx', n + 1, hrun'.trans ?_⟩
          rw [List.take_succ_cons, List.flatMap_cons, hevents, List.append_assoc]

end Run

/-! Calls of `optspec_check` with tables whose keys are strings. -/

structure StringTable (ν : Type) where
  pairs : List (Bytes × ν)
  nodup : (pairs.map Prod.fst).Nodup

def StringTable.keys (table : StringTable ν) : List Bytes := table.pairs.map Prod.fst

def luaMinstack : Nat := 20

structure OptCall (ν : Type) (idx : Nat) where
  before : List (OptSlot ν)
  after : List (OptSlot ν)
  ensured : Nat
  limit : Nat
  idx_eq : before.length + 1 = idx
  room : before.length + 1 + after.length + luaMinstack ≤ ensured

section Calls

variable {idx : Nat}

def OptCall.slots (call : OptCall ν idx) (table : StringTable ν) : List (OptSlot ν) :=
  call.before ++ .opts (stringPairs table.pairs) :: call.after

def parse (specs : List (OptSpec ν σ idx)) (call : OptCall ν idx) (table : StringTable ν)
    (ctx : σ) : Except (StackHalt String) Unit × OptState ν σ :=
  optspecCheck specs ⟨⟨call.slots table, call.ensured, call.limit⟩, ctx, []⟩

def accepted (r : Except (StackHalt String) Unit × OptState ν σ) : Option σ :=
  r.1.toOption.map fun _ => r.2.ctx

def OptEvent.visited? : OptEvent → Option OptKey
  | .visited k => some k
  | .called _ => none

def OptSpec.Commutes (a b : OptSpec ν σ idx) : Prop := ∀ v w, Commute₂ (a.check v) (b.check w)

instance OptSpec.commutes_symm :
    Std.Symm fun a b : OptSpec ν σ idx => a.Commutes b where
  symm _ _ h v w := (h w v).symm

theorem writing_commutes {α β : Type} {read : ν → Except String α} {read' : ν → Except String β}
    {write : α → σ → σ} {write' : β → σ → σ} {x y : OptSpec ν σ idx}
    (hx : x.check = writing read write) (hy : y.check = writing read' write')
    (h : ∀ a b s, write a (write' b s) = write' b (write a s)) : x.Commutes y := by
  intro v w
  rw [hx, hy]
  exact Commute₂.map h

/-- The specs of one function: their names are told apart, and what they write does not depend on
the order. -/
structure Independent (specs : List (OptSpec ν σ idx)) : Prop where
  few : specs.length + calleeSlots ≤ luaMinstack
  names : (specs.map fun spec => spec.name).Nodup
  noNul : ∀ spec ∈ specs, (0 : UInt8) ∉ spec.name
  commute : specs.Pairwise OptSpec.Commutes

variable {specs : List (OptSpec ν σ idx)}

theorem Independent.of_names (names : List Bytes)
    (hnames : specs.map (fun spec => spec.name) = names)
    (hfew : names.length + calleeSlots ≤ luaMinstack) (hnodup : names.Nodup)
    (hnul : ∀ name ∈ names, (0 : UInt8) ∉ name) (hcommute : specs.Pairwise OptSpec.Commutes) :
    Independent specs where
  few := by
    rw [← hnames, List.length_map] at hfew
    exact hfew
  names := by
    rw [hnames]
    exact hnodup
  noNul spec hspec := by
    apply hnul
    rw [← hnames]
    exact List.mem_map_of_mem hspec
  commute := hcommute

theorem parse_run (hfew : specs.length + calleeSlots ≤ luaMinstack) (call : OptCall ν idx)
    (table : StringTable ν) (ctx : σ) :
    (∀ ctx', sweep (visit specs) table.pairs ctx = .ok ctx' →
      ∃ t, parse specs call table ctx =
        (.ok (), ⟨t, ctx', table.pairs.flatMap (eventsOf specs)⟩)) ∧
    ∀ msg, sweep (visit specs) table.pairs ctx = .error msg →
      ∃ t ctx' n, parse specs call table ctx =
        (.error (.raised msg), ⟨t, ctx', (table.pairs.take n).flatMap (eventsOf specs)⟩) := by
  have hidx := call.idx_eq
  have hroom := call.room
  have hlen : (call.slots table).length = call.before.length + 1 + call.after.length := by
    rw [OptCall.slots, List.length_append, List.length_cons]
    omega
  have htable : (call.slots table)[idx - 1]? = some (.opts (stringPairs table.pairs)) := by
    have hpos : idx - 1 = call.before.length := by omega
    rw [OptCall.slots, List.getElem?_append_right (Nat.le_of_eq hpos.symm), hpos, Nat.sub_self]
    rfl
  have hunseen : unseen (specs.map fun spec => (false, spec)) = specs.length := by
    rw [unseen, List.countP_map]
    exact List.countP_eq_length.mpr fun _ _ => rfl
  have hspecs : (specs.map fun spec => (false, spec)).map Prod.snd = specs := by
    rw [List.map_map]
    exact List.map_id specs
  have hfresh : Fresh (specs.map fun spec => (false, spec)) (table.pairs.map Prod.fst) := by
    intro e he htrue
    obtain ⟨spec, -, rfl⟩ := List.mem_map.mp he
    cases htrue
  have hpush : (StackM.push .nil : StackM (OptSlot ν) String Unit)
      ⟨call.slots table, call.ensured, call.limit⟩ =
        (.ok (), ⟨call.slots table ++ [.nil], call.ensured, call.limit⟩) := if_pos (by
    rw [luaMinstack] at hroom
    simp only [hlen]
    omega)
  have hmany : ¬ optcheckMaxSpecs < specs.length := by
    rw [luaMinstack] at hfew
    rw [optcheckMaxSpecs]
    omega
  have hloop := checkNext_run (b := ⟨call.slots table, call.ensured, call.limit⟩) table.nodup
    (by omega) table.pairs [] ctx [] rfl (.start rfl) htable hspecs hfresh (by
      rw [hlen, hunseen]
      show _ ≤ call.ensured
      omega)
  have hentry : parse specs call table ctx =
      checkNext (table.pairs.length + 1) (specs.map fun spec => (false, spec))
        ⟨⟨call.slots table ++ [.nil], call.ensured, call.limit⟩, ctx, []⟩ := by
    rw [parse, optspecCheck, Raising.bind_of_ok (onStack_run (StackM.peek_run idx) ctx [])]
    simp only [htable, hmany, if_false]
    rw [Raising.bind_of_ok (onStack_run hpush ctx []), stringPairs, List.length_map]
  rw [hentry]
  exact hloop

theorem parse_accepted (hfew : specs.length + calleeSlots ≤ luaMinstack) (call : OptCall ν idx)
    (table : StringTable ν) (ctx : σ) :
    accepted (parse specs call table ctx) = (sweep (visit specs) table.pairs ctx).toOption := by
  obtain ⟨hok, herr⟩ := parse_run hfew call table ctx
  cases h : sweep (visit specs) table.pairs ctx with
  | ok ctx' =>
    obtain ⟨t, hrun⟩ := hok ctx' h
    rw [hrun]
    rfl
  | error msg =>
    obtain ⟨t, ctx', n, hrun⟩ := herr msg h
    rw [hrun]
    rfl

theorem parse_trace (hfew : specs.length + calleeSlots ≤ luaMinstack) (call : OptCall ν idx)
    (table : StringTable ν) (ctx : σ) :
    (∃ n, (parse specs call table ctx).2.trace = (table.pairs.take n).flatMap (eventsOf specs)) ∧
    ((parse specs call table ctx).1 = .ok () →
      (parse specs call table ctx).2.trace = table.pairs.flatMap (eventsOf specs)) := by
  obtain ⟨hok, herr⟩ := parse_run hfew call table ctx
  cases h : sweep (visit specs) table.pairs ctx with
  | ok ctx' =>
    obtain ⟨t, hrun⟩ := hok ctx' h
    rw [hrun]
    exact ⟨⟨table.pairs.length, by rw [List.take_length]⟩, fun _ => rfl⟩
  | error msg =>
    obtain ⟨t, ctx', n, hrun⟩ := herr msg h
    rw [hrun]
    exact ⟨⟨n, rfl⟩, nofun⟩

theorem count_called {name : Bytes} (hspec : (specOf specs name).isSome) (l : List (Bytes × ν)) :
    (l.flatMap (eventsOf specs)).count (.called name) = (l.map Prod.fst).count name := by
  induction l with
  | nil => rfl
  | cons p l ih =>
    obtain ⟨k, v⟩ := p
    rw [List.flatMap_cons, List.count_append, ih, List.map_cons, List.count_cons, Nat.add_comm]
    congr 1
    by_cases hk : k = name
    · subst hk
      simp [eventsOf, hspec]
    · by_cases hsome : (specOf specs k).isSome
      · simp [eventsOf, hsome, hk]
      · simp [eventsOf, hsome, hk]

theorem visited_events (l : List (Bytes × ν)) :
    (l.flatMap (eventsOf specs)).filterMap OptEvent.visited? =
      l.map fun p => OptKey.string p.1 := by
  induction l with
  | nil => rfl
  | cons p l ih =>
    rw [List.flatMap_cons, List.filterMap_append, ih, List.map_cons, eventsOf]
    split <;> rfl

theorem specOf_isSome {spec : OptSpec ν σ idx} (h : spec ∈ specs) :
    (specOf specs spec.name).isSome := by
  rw [specOf, List.find?_isSome]
  exact ⟨spec, h, decide_eq_true rfl⟩

/-- What is asked of a list of specs. A call of `optspec_check` returns or raises an error. It
accepts the same tables with the same result in every order, calls each callback once for a key
of exactly its name and not otherwise, passes over all other keys, and visits every key. -/
structure OrderFree (specs : List (OptSpec ν σ idx)) : Prop where
  settles : ∀ call table ctx, (parse specs call table ctx).1 = .ok () ∨
    ∃ msg, (parse specs call table ctx).1 = .error (.raised msg)
  order : ∀ call table table' ctx, table.pairs.Perm table'.pairs →
    accepted (parse specs call table ctx) = accepted (parse specs call table' ctx)
  once : ∀ call table ctx, (parse specs call table ctx).1 = .ok () → ∀ spec ∈ specs,
    (parse specs call table ctx).2.trace.count (.called spec.name) =
      if spec.name ∈ table.keys then 1 else 0
  atMost : ∀ call table ctx, ∀ spec ∈ specs,
    (parse specs call table ctx).2.trace.count (.called spec.name) ≤
      if spec.name ∈ table.keys then 1 else 0
  unknown : ∀ call table table' ctx,
    table'.pairs = table.pairs.filter (fun p => (specOf specs p.1).isSome) →
    accepted (parse specs call table ctx) = accepted (parse specs call table' ctx)
  nul : ∀ spec ∈ specs, ∀ junk, specOf specs (spec.name ++ 0 :: junk) = none
  visits : ∀ call table ctx, (parse specs call table ctx).1 = .ok () →
    (parse specs call table ctx).2.trace.filterMap OptEvent.visited? =
      table.keys.map OptKey.string

theorem specOf_some {k : Bytes} {spec : OptSpec ν σ idx} (h : specOf specs k = some spec) :
    spec ∈ specs ∧ spec.name = k :=
  ⟨List.mem_of_find?_eq_some h, by simpa using List.find?_some h⟩

theorem Independent.visit_commute (h : Independent specs) {p q : Bytes × ν} (hne : p.1 ≠ q.1) :
    Commute₂ (visit specs p) (visit specs q) := by
  rw [visit, visit]
  cases hp : specOf specs p.1 with
  | none => exact (Commute₂.pure_id _).symm
  | some spec =>
    cases hq : specOf specs q.1 with
    | none => exact Commute₂.pure_id _
    | some spec' =>
      obtain ⟨hmem, hname⟩ := specOf_some hp
      obtain ⟨hmem', hname'⟩ := specOf_some hq
      have hspecs : spec ≠ spec' := by
        rintro rfl
        exact hne (hname.symm.trans hname')
      exact h.commute.forall hmem hmem' hspecs p.2 q.2

theorem Independent.sweep_perm (h : Independent specs) {table table' : StringTable ν}
    (hperm : table.pairs.Perm table'.pairs) (ctx : σ) :
    (sweep (visit specs) table.pairs ctx).toOption =
      (sweep (visit specs) table'.pairs ctx).toOption := by
  refine LuaNet.Lib.sweep_perm hperm (fun p hp q hq => ?_) ctx
  by_cases hkey : p.1 = q.1
  · have hpq : p = q := List.inj_on_of_nodup_map table.nodup hp hq hkey
    rw [hpq]
    exact Commute₂.refl _
  · exact h.visit_commute hkey

theorem Independent.orderFree (h : Independent specs) : OrderFree specs where
  settles call table ctx := by
    obtain ⟨hok, herr⟩ := parse_run h.few call table ctx
    cases hsweep : sweep (visit specs) table.pairs ctx with
    | ok ctx' =>
      obtain ⟨t, hrun⟩ := hok ctx' hsweep
      exact .inl (congrArg Prod.fst hrun)
    | error msg =>
      obtain ⟨t, ctx', n, hrun⟩ := herr msg hsweep
      exact .inr ⟨msg, congrArg Prod.fst hrun⟩
  order call table table' ctx hperm := by
    rw [parse_accepted h.few, parse_accepted h.few, h.sweep_perm hperm]
  once call table ctx hok spec hspec := by
    rw [(parse_trace h.few call table ctx).2 hok, count_called (specOf_isSome hspec)]
    exact table.nodup.count
  atMost call table ctx spec hspec := by
    obtain ⟨n, htrace⟩ := (parse_trace h.few call table ctx).1
    have hsub : ((table.pairs.take n).map Prod.fst).Sublist (table.pairs.map Prod.fst) :=
      (List.take_sublist n table.pairs).map Prod.fst
    rw [htrace, count_called (specOf_isSome hspec)]
    exact Nat.le_trans (hsub.count_le spec.name) (Nat.le_of_eq table.nodup.count)
  unknown call table table' ctx hfilter := by
    rw [parse_accepted h.few, parse_accepted h.few, hfilter, sweep_filter]
    intro p hp
    rw [Option.isSome_eq_false_iff, Option.isNone_iff_eq_none] at hp
    rw [visit, hp]
  nul spec hspec junk := by
    rw [specOf, List.find?_eq_none]
    intro spec' hspec' heq
    have hname : spec'.name = spec.name ++ 0 :: junk := of_decide_eq_true heq
    apply h.noNul spec' hspec'
    rw [hname]
    exact List.mem_append_right _ List.mem_cons_self
  visits call table ctx hok := by
    rw [(parse_trace h.few call table ctx).2 hok, visited_events, StringTable.keys, List.map_map]
    rfl

end Calls

end LuaNet.Shared
