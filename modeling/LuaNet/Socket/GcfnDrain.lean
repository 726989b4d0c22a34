import LuaNet.Socket.GcfnAtomic

/-! The life of gc callbacks, call by call. A drain invokes the callbacks that are registered when
it begins, once each and the last registered first, whatever they raise or call, as long as it does
not begin while the gc thread runs. -/

namespace LuaNet.Socket

open LuaNet.Lib

def keptNext (l : List GcFn) : GcfnEvent → List GcFn
  | .registered c => l ++ [c]
  | .deleted (some c) _ => l.erase c
  | _ => l

def keptGcfns (es : List GcfnEvent) : List GcFn := es.foldl keptNext []

def GcfnEvent.invokes : GcfnEvent → Option GcFn
  | .invoked c => some c
  | _ => none

def invokedGcfns (es : List GcfnEvent) : List GcFn := es.filterMap GcfnEvent.invokes

def GcfnEvent.detaches : GcfnEvent → Bool
  | .detached _ => true
  | _ => false

def GcfnFrame.leaves : GcfnFrame → Option (List GcFn)
  | .draining _ _ pending => some pending
  | _ => none

def pendingOf (fs : List GcfnFrame) : List (List GcFn) := fs.filterMap GcfnFrame.leaves

/-- Once the thread is detached nothing is registered or deleted, and nothing detached again. -/
def AfterDetach (before : List GcfnEvent) (e : GcfnEvent) : Prop :=
  before.any GcfnEvent.detaches = true → e.edits = false ∧ e.detaches = false

structure GcfnLaw (fs : List GcfnFrame) (es : List GcfnEvent) : Prop where
  made : ∀ id addr, .returned id (.handle addr) ∈ es →
    ∃ c, .registered c ∈ es ∧ c.id = id ∧ c.addr = addr
  once : (keptGcfns es).Nodup
  lifo : invokedGcfns es <+: (keptGcfns es).reverse
  early : es.any GcfnEvent.detaches = false → invokedGcfns es = []
  all : es.any GcfnEvent.detaches = true → pendingOf fs = [] →
    invokedGcfns es = (keptGcfns es).reverse
  after : Each AfterDetach es

def GcfnMethod.drains : GcfnMethod → Option (Detacher × Bool)
  | .close onThread => some (.close, onThread)
  | .unwrap onThread => some (.unwrap, onThread)
  | .gc onThread => some (.gc, onThread)
  | _ => none

def Phase.turns : Phase → Nat
  | .loop => 0
  | .fn _ => 2
  | .errfn _ => 1

/-- A bound on the steps that a drain has left. -/
def drainTurns (phase : Phase) (pending : List GcFn) : Nat := 3 * pending.length + phase.turns + 1

/-- How a drain begins, goes on and ends. The callback that it has called ends with any answer. -/
structure GcfnProgress (lua51 : Bool) (w : GcfnWorld) (fs : List GcfnFrame)
    (es : List GcfnEvent) : Prop where
  begins : (gcfnCalls lua51).yields fs = true → w.sock.gcThread = true →
    ∀ m d onThread, m.drains = some (d, onThread) →
      (d = .gc ∨ (onThread && runsOnThread fs) = false) → ∀ a, ThreadIdle w fs (.entering m) a →
        ∃ w', runs (gcfnCalls lua51).step (w, fs) [.call m, .act a] =
          ((w', .draining d .loop (keptGcfns es) :: fs), [.detached (keptGcfns es)])
  turn : ∀ d pending outer, fs = .draining d .loop pending :: outer → ∀ a,
    (∃ w' rest c, pending = rest ++ [c] ∧ invokedGcfns es ++ [c] <+: (keptGcfns es).reverse ∧
      (gcfnCalls lua51).step (w, fs) (.act a) =
        ((w', .draining d (.fn c) rest :: outer), [.invoked c])) ∨
    ∃ w', invokedGcfns es = (keptGcfns es).reverse ∧
      (gcfnCalls lua51).step (w, fs) (.act a) = ((w', outer), [])
  ends : ∀ d phase pending outer, fs = .draining d phase pending :: outer → ∀ as : List GcfnAns,
    drainTurns phase pending ≤ as.length → ∃ n ≤ as.length,
      (runs (gcfnCalls lua51).step (w, fs) ((as.take n).map .act)).1.2 = outer

structure GcfnDrainInv (w : GcfnWorld) (fs : List GcfnFrame) (es : List GcfnEvent) : Prop where
  atomic : AtomicInv w fs es
  lifo : invokedGcfns es ++ (pendingOf fs).flatten.reverse ++ w.sock.stack.reverse =
    (keptGcfns es).reverse
  alone : (pendingOf fs).length ≤ 1
  idle : w.sock.gcThread = true → invokedGcfns es = [] ∧ pendingOf fs = []
  begun : es.any GcfnEvent.detaches = !w.sock.gcThread
  once : (keptGcfns es).Nodup
  usable : w.sock.gcThread = true → w.sock.fd ≠ -1 ∧ w.sock.metatable = true
  after : Each AfterDetach es

def GcfnEvent.quiet : GcfnEvent → Bool
  | .called _ => true
  | .returned _ _ => true
  | .deleted none _ => true
  | _ => false

variable {w w' : GcfnWorld} {fs fs' : List GcfnFrame} {f : GcfnFrame} {es new : List GcfnEvent}
  {call : AddCall} {p : AddPoint} {a : GcfnAns} {lua51 : Bool}

theorem keptGcfns_snoc (es : List GcfnEvent) (e : GcfnEvent) :
    keptGcfns (es ++ [e]) = keptNext (keptGcfns es) e := by
  rw [keptGcfns, List.foldl_append, List.foldl_cons, List.foldl_nil, ← keptGcfns]

theorem invokedGcfns_append (es new : List GcfnEvent) :
    invokedGcfns (es ++ new) = invokedGcfns es ++ invokedGcfns new := List.filterMap_append

theorem any_snoc (es : List GcfnEvent) (e : GcfnEvent) :
    (es ++ [e]).any GcfnEvent.detaches = (es.any GcfnEvent.detaches || e.detaches) := by
  rw [List.any_append, List.any_cons, List.any_nil, Bool.or_false]

theorem quiet_same (h : Each AfterDetach es) (hnew : ∀ e ∈ new, e.quiet = true) :
    keptGcfns (es ++ new) = keptGcfns es ∧ invokedGcfns (es ++ new) = invokedGcfns es ∧
      (es ++ new).any GcfnEvent.detaches = es.any GcfnEvent.detaches ∧
        Each AfterDetach (es ++ new) := by
  induction new using List.reverseRecOn with
  | nil =>
    rw [List.append_nil]
    exact ⟨rfl, rfl, rfl, h⟩
  | append_singleton new e ih =>
    obtain ⟨hkept, hinvoked, hany, hafter⟩ := ih fun d hd => hnew d (List.mem_append_left _ hd)
    have he := hnew e (List.mem_append_right _ (List.mem_singleton_self e))
    have hnone : keptNext (keptGcfns (es ++ new)) e = keptGcfns (es ++ new) ∧
        invokedGcfns [e] = [] ∧ e.edits = false ∧ e.detaches = false := by
      cases e with
      | deleted c r =>
        cases c with
        | none => exact ⟨rfl, rfl, rfl, rfl⟩
        | some c => cases he
      | called id => exact ⟨rfl, rfl, rfl, rfl⟩
      | returned id r => exact ⟨rfl, rfl, rfl, rfl⟩
      | _ => cases he
    obtain ⟨hnext, hinvokes, hedits, hdetaches⟩ := hnone
    rw [← List.append_assoc, keptGcfns_snoc, invokedGcfns_append, any_snoc, hnext, hinvokes,
      hdetaches, Bool.or_false, List.append_nil]
    exact ⟨hkept, hinvoked, hany, hafter.snoc fun _ => ⟨hedits, hdetaches⟩⟩

theorem GcfnDrainInv.quiet (h : GcfnDrainInv w fs es) (hatomic : AtomicInv w' fs' (es ++ new))
    (hnew : ∀ e ∈ new, e.quiet = true) (hpending : pendingOf fs' = pendingOf fs)
    (hstack : w'.sock.stack = w.sock.stack) (hthread : w'.sock.gcThread = w.sock.gcThread)
    (husable : w.sock.gcThread = true →
      w'.sock.fd = w.sock.fd ∧ w'.sock.metatable = w.sock.metatable) :
    GcfnDrainInv w' fs' (es ++ new) := by
  obtain ⟨hkept, hinvoked, hany, hafter⟩ := quiet_same h.after hnew
  constructor
  · exact hatomic
  · rw [hinvoked, hkept, hpending, hstack]
    exact h.lifo
  · rw [hpending]
    exact h.alone
  · rw [hthread, hinvoked, hpending]
    exact h.idle
  · rw [hany, hthread]
    exact h.begun
  · rw [hkept]
    exact h.once
  · intro hopen
    obtain ⟨hfd, hmeta⟩ := husable (hthread ▸ hopen)
    rw [hfd, hmeta]
    exact h.usable (hthread ▸ hopen)
  · exact hafter

theorem GcfnDrainInv.attached (h : GcfnDrainInv w fs es) (hthread : w.sock.gcThread = true) :
    keptGcfns es = w.sock.stack := by
  obtain ⟨hinvoked, hpending⟩ := h.idle hthread
  have hlifo := h.lifo
  rw [hinvoked, hpending, List.flatten_nil, List.reverse_nil, List.nil_append, List.nil_append]
    at hlifo
  exact (List.reverse_injective hlifo).symm

theorem GcfnDrainInv.edited {e : GcfnEvent} (h : GcfnDrainInv w fs es)
    (hthread : w.sock.gcThread = true) (hatomic : AtomicInv w' fs' (es ++ e :: new))
    (hpending : pendingOf fs' = pendingOf fs) (he : e.invokes = none ∧ e.detaches = false)
    (hnew : ∀ d ∈ new, d.quiet = true) (hstack : w'.sock.stack = keptNext w.sock.stack e)
    (hthread' : w'.sock.gcThread = true)
    (husable : w'.sock.fd = w.sock.fd ∧ w'.sock.metatable = w.sock.metatable) :
    GcfnDrainInv w' fs' (es ++ e :: new) := by
  obtain ⟨hinvokes, hdetaches⟩ := he
  obtain ⟨hnone, hleft⟩ := h.idle hthread
  have hbegun : es.any GcfnEvent.detaches = false := by rw [h.begun, hthread, Bool.not_true]
  have hafter : Each AfterDetach (es ++ [e]) :=
    h.after.snoc fun hmem => absurd (hbegun.symm.trans hmem) Bool.false_ne_true
  obtain ⟨hkept, hinvoked, hany, hafter'⟩ := quiet_same hafter hnew
  rw [← List.append_cons] at hkept hinvoked hany hafter'
  rw [keptGcfns_snoc, h.attached hthread, ← hstack] at hkept
  have hnow : invokedGcfns (es ++ [e]) = [] := by
    rw [invokedGcfns_append, hnone, invokedGcfns, List.filterMap_cons_none hinvokes,
      List.filterMap_nil, List.nil_append]
  rw [hnow] at hinvoked
  rw [any_snoc, hbegun, hdetaches] at hany
  constructor
  · exact hatomic
  · rw [hinvoked, hkept, hpending, hleft]
    rfl
  · rw [hpending]
    exact h.alone
  · exact fun _ => ⟨hinvoked, hpending.trans hleft⟩
  · rw [hany, hthread']
    rfl
  · rw [hkept]
    exact (hatomic.heap.registered_nodup.of_map _).of_append_left
  · exact fun _ => ⟨husable.1 ▸ (h.usable hthread).1, husable.2.trans (h.usable hthread).2⟩
  · exact hafter'

theorem pendingOf_none (hf : f.leaves = none) (fs : List GcfnFrame) :
    pendingOf (f :: fs) = pendingOf fs := List.filterMap_cons_none hf

theorem pendingOf_draining (m : Detacher) (phase : Phase) (pending : List GcFn)
    (fs : List GcfnFrame) :
    pendingOf (.draining m phase pending :: fs) = pending :: pendingOf fs := rfl

theorem GcfnDrainInv.only {m : Detacher} {phase : Phase} {pending : List GcFn}
    (h : GcfnDrainInv w (.draining m phase pending :: fs) es) :
    pendingOf fs = [] ∧ w.sock.gcThread = false ∧ w.sock.stack = [] ∧
      invokedGcfns es ++ pending.reverse = (keptGcfns es).reverse := by
  have hnone : pendingOf fs = [] := by
    have halone := h.alone
    rw [pendingOf_draining, List.length_cons] at halone
    exact List.eq_nil_of_length_eq_zero (by omega)
  have hthread : w.sock.gcThread = false := by
    by_contra hopen
    cases (h.idle (eq_true_of_ne_false hopen)).2
  have hstack : w.sock.stack = [] := (List.append_eq_nil_iff.mp (h.atomic.heap.closed hthread)).1
  refine ⟨hnone, hthread, hstack, ?_⟩
  rw [← h.lifo, hstack, pendingOf_draining, hnone, List.flatten_singleton, List.reverse_nil,
    List.append_nil]

theorem GcfnDrainInv.detach {k : GcfnMethod} {m : Detacher} {onThread : Bool} {r : GcfnStep}
    (h : GcfnDrainInv w (.entering k :: fs) es) (hmove : DetachMove w fs onThread m r)
    (hidle : onThread = false ∨ m = .gc → onThread = true ∨ threadRuns fs = true →
      w.sock.stack = [])
    (husable : w.sock.gcThread = true → r.2.1 = none → r.1 = w) :
    GcfnDrainInv r.1 (r.2.1.toList ++ fs) (es ++ r.2.2) := by
  have hatomic := h.atomic.detach hmove hidle
  cases hmove with
  | refused hon hm => exact h.quiet hatomic nofun rfl rfl rfl fun _ => ⟨rfl, rfl⟩
  | nothing s hthread hstack =>
    refine h.quiet hatomic nofun rfl hstack hthread fun hopen => ?_
    have hsame : s = w.sock := congrArg GcfnWorld.sock (husable hopen rfl)
    exact ⟨congrArg _ hsame, congrArg _ hsame⟩
  | detached hthread hon =>
    have hpending := frame_eq h.atomic.inner (hidle hon)
    have hbegun : es.any GcfnEvent.detaches = false := by rw [h.begun, hthread, Bool.not_true]
    obtain ⟨hinvoked, hleft⟩ := h.idle hthread
    rw [pendingOf_none rfl] at hleft
    unfold GcfnWorld.netGcthreadClose at hatomic ⊢
    rw [hpending] at hatomic ⊢
    have hkept : keptGcfns (es ++ [.detached w.sock.stack]) = w.sock.stack :=
      (keptGcfns_snoc es _).trans (h.attached hthread)
    have hnone : invokedGcfns (es ++ [.detached w.sock.stack]) = [] := by
      rw [invokedGcfns_append, hinvoked]
      rfl
    constructor
    · exact hatomic
    · rw [hkept, hnone, Option.toList_some, List.singleton_append, pendingOf_draining, hleft,
        List.flatten_singleton, List.nil_append]
      exact List.append_nil _
    · rw [Option.toList_some, List.singleton_append, pendingOf_draining, hleft]
      exact Nat.le_refl 1
    · exact nofun
    · rw [any_snoc]
      exact Bool.or_true _
    · rw [hkept, ← h.attached hthread]
      exact h.once
    · exact nofun
    · exact h.after.snoc fun hmem => absurd (hbegun.symm.trans hmem) Bool.false_ne_true

theorem GcfnDrainInv.drainStep {m : Detacher} {phase : Phase} {pending : List GcFn}
    (h : GcfnDrainInv w (.draining m phase pending :: fs) es) :
    GcfnDrainInv (w.drainStep m phase pending a).1
      ((w.drainStep m phase pending a).2.1.toList ++ fs)
      (es ++ (w.drainStep m phase pending a).2.2) := by
  have hatomic := h.atomic.drainStep (a := a)
  have hmove := drainStep_move w m phase pending a
  obtain ⟨hnone, hthread, hstack, hlifo⟩ := h.only
  have hclosed : w.sock.gcThread = true → False :=
    fun hopen => Bool.false_ne_true (hthread.symm.trans hopen)
  generalize w.drainStep m phase pending a = r at hmove hatomic
  cases hmove with
  | ended =>
    have hfinish : (w.finish m).sock.gcThread = w.sock.gcThread := by cases m <;> rfl
    have hleft : pendingOf (none.toList ++ fs) = [] := hnone
    rw [List.append_nil] at hatomic ⊢
    constructor
    · exact hatomic
    · rw [hleft, (finish_same w m).1, hstack]
      exact (List.append_nil _).trans hlifo
    · rw [hleft]
      exact Nat.zero_le 1
    · exact fun hopen => (hclosed (hfinish.symm.trans hopen)).elim
    · rw [hfinish]
      exact h.begun
    · exact h.once
    · exact fun hopen => (hclosed (hfinish.symm.trans hopen)).elim
    · exact h.after
  | invoked pending c =>
    have hkept : keptGcfns (es ++ [.invoked c]) = keptGcfns es := keptGcfns_snoc es _
    constructor
    · exact hatomic
    · rw [hkept, ← hlifo, hstack, Option.toList_some, List.singleton_append, pendingOf_draining,
        hnone, List.flatten_singleton, invokedGcfns_append, List.reverse_append, List.append_assoc,
        List.append_assoc, List.reverse_nil, List.append_nil]
      rfl
    · rw [Option.toList_some, List.singleton_append, pendingOf_draining, hnone]
      exact Nat.le_refl 1
    · exact fun hopen => (hclosed hopen).elim
    · rw [any_snoc]
      exact (Bool.or_false _).trans h.begun
    · rw [hkept]
      exact h.once
    · exact fun hopen => (hclosed hopen).elim
    · exact h.after.snoc fun _ => ⟨rfl, rfl⟩
  | raised pending c => exact h.quiet hatomic nofun rfl rfl rfl fun _ => ⟨rfl, rfl⟩
  | returned phase pending hphase => exact h.quiet hatomic nofun rfl rfl rfl fun _ => ⟨rfl, rfl⟩

theorem GcfnDrainInv.addStep (h : GcfnDrainInv w (.adding call p :: fs) es)
    (hidle : ThreadIdle w fs (.adding call p) a) :
    GcfnDrainInv (w.addStep fs call p a).1 ((w.addStep fs call p a).2.1.toList ++ fs)
      (es ++ (w.addStep fs call p a).2.2) := by
  have hatomic := h.atomic.addStep hidle
  have hmove := addStep_move w fs call p a
  have hreturned : ∀ r, ∀ e ∈ [GcfnEvent.returned call.id r], e.quiet = true :=
    fun r e he => List.mem_singleton.mp he ▸ rfl
  generalize w.addStep fs call p a = r at hmove hatomic
  cases hmove with
  | failed p hp e => exact h.quiet hatomic (hreturned _) rfl rfl rfl fun _ => ⟨rfl, rfl⟩
  | reserved q hq =>
    obtain ⟨hsock, -, -⟩ := leave_sock w fs
    refine h.quiet hatomic nofun rfl (congrArg _ hsock) (congrArg _ hsock) fun _ => ?_
    rw [hsock]
    exact ⟨rfl, rfl⟩
  | allocated c hid haddr => exact h.quiet hatomic nofun rfl rfl rfl fun _ => ⟨rfl, rfl⟩
  | closed c => exact h.quiet hatomic nofun rfl rfl rfl fun _ => ⟨rfl, rfl⟩
  | registered c hfails hthread =>
    obtain ⟨hon, hrun⟩ := hidle hfails hthread
    have hregister : w.register fs call c =
        ({ w with sock := { w.sock with stack := w.sock.stack ++ [c] }, made := w.made ++ [c] },
          none, [.registered c, .returned call.id (.handle c.addr)]) := by
      rw [GcfnWorld.register, hon, hrun]
      rfl
    rw [hregister] at hatomic ⊢
    exact h.edited hthread hatomic rfl ⟨rfl, rfl⟩ (hreturned _) rfl hthread ⟨rfl, rfl⟩

theorem delStep_cases (hinner : w.inner = []) (fs : List GcfnFrame) (onThread : Bool)
    (handle : Handle) :
    (∃ r, w.delStep fs onThread handle = (w, none, r)) ∨
      ∃ c r, w.sock.gcThread = true ∧ w.delStep fs onThread handle =
        ({ w with sock := { w.sock with stack := w.sock.stack.erase c } }, some c, r) := by
  unfold GcfnWorld.delStep
  split
  · exact .inl ⟨_, rfl⟩
  split
  · have hnone : (netGcthreadDel { w.sock with stack := w.inner } handle).2.1 = none := by
      by_contra hsome
      obtain ⟨c, hc⟩ := Option.ne_none_iff_exists'.mp hsome
      have hmem := (netGcthreadDel_removed hc).2.1
      rw [hinner] at hmem
      cases hmem
    refine .inl ⟨(netGcthreadDel { w.sock with stack := w.inner } handle).2.2,
      Prod.ext ?_ (Prod.ext hnone rfl)⟩
    simp only [netGcthreadDel_refused hnone]
  · cases hremoved : (netGcthreadDel w.sock handle).2.1 with
    | none =>
      refine .inl ⟨(netGcthreadDel w.sock handle).2.2, Prod.ext ?_ (Prod.ext hremoved rfl)⟩
      simp only [netGcthreadDel_refused hremoved]
    | some c =>
      obtain ⟨hthread, -, hsock⟩ := netGcthreadDel_removed hremoved
      refine .inr ⟨c, (netGcthreadDel w.sock handle).2.2, hthread,
        Prod.ext ?_ (Prod.ext hremoved rfl)⟩
      simp only [hsock]

theorem GcfnDrainInv.delgcfnLua {m : GcfnMethod} (h : GcfnDrainInv w (.entering m :: fs) es)
    (onThread : Bool) (handle : Handle) :
    GcfnDrainInv (w.delgcfnLua fs onThread handle).1
      ((w.delgcfnLua fs onThread handle).2.1.toList ++ fs)
      (es ++ (w.delgcfnLua fs onThread handle).2.2) := by
  have hatomic := h.atomic.delgcfnLua onThread handle
  have hquiet : ∀ r, ∀ e ∈ [GcfnEvent.deleted none r], e.quiet = true :=
    fun r e he => List.mem_singleton.mp he ▸ rfl
  unfold GcfnWorld.delgcfnLua at hatomic ⊢
  split
  · next hmeta =>
    rw [if_pos hmeta] at hatomic
    exact h.quiet hatomic (hquiet _) rfl rfl rfl fun _ => ⟨rfl, rfl⟩
  next hmeta =>
  rw [if_neg hmeta] at hatomic
  obtain ⟨r, hdel⟩ | ⟨c, r, hthread, hdel⟩ := delStep_cases h.atomic.inner fs onThread handle
  · rw [hdel] at hatomic ⊢
    exact h.quiet hatomic (hquiet _) rfl rfl rfl fun _ => ⟨rfl, rfl⟩
  · rw [hdel] at hatomic ⊢
    exact h.edited hthread hatomic rfl ⟨rfl, rfl⟩ nofun rfl hthread ⟨rfl, rfl⟩

theorem act_drains {m : GcfnMethod} {d : Detacher} {onThread : Bool}
    (hm : m.drains = some (d, onThread)) (hthread : w.sock.gcThread = true)
    (husable : w.sock.fd ≠ -1 ∧ w.sock.metatable = true) :
    w.act lua51 fs (.entering m) a =
      if d ≠ .gc ∧ (onThread && runsOnThread fs) = true then (w, some .refusing, [])
      else w.netGcthreadClose fs (onThread && runsOnThread fs) d := by
  obtain ⟨hfd, hmeta⟩ := husable
  cases m with
  | close t =>
    cases hm
    simp [GcfnWorld.act, GcfnWorld.closeLua, hthread, hmeta, hfd]
  | unwrap t =>
    cases hm
    simp [GcfnWorld.act, GcfnWorld.unwrapLua, hthread, hmeta]
  | gc t =>
    cases hm
    simp [GcfnWorld.act, GcfnWorld.gcLua, hthread, hmeta]
  | _ => cases hm

theorem act_drains_stays {m : GcfnMethod} {d : Detacher} {onThread : Bool}
    (hm : m.drains = some (d, onThread)) (hthread : w.sock.gcThread = true)
    (husable : w.sock.fd ≠ -1 ∧ w.sock.metatable = true) :
    (w.act lua51 fs (.entering m) a).2.1 ≠ none := by
  rw [act_drains hm hthread husable]
  split <;> nofun

theorem GcfnDrainInv.act (h : GcfnDrainInv w (f :: fs) es) (hidle : ThreadIdle w fs f a) :
    GcfnDrainInv (w.act lua51 fs f a).1 ((w.act lua51 fs f a).2.1.toList ++ fs)
      (es ++ (w.act lua51 fs f a).2.2) := by
  have hatomic := h.atomic.act lua51 hidle
  cases f with
  | entering m =>
    have hstays : ∀ {d onThread}, m.drains = some (d, onThread) → w.sock.gcThread = true →
        (w.act lua51 fs (.entering m) a).2.1 ≠ none :=
      fun hm hthread => act_drains_stays hm hthread (h.usable hthread)
    cases m with
    | addgcfn onThread args =>
      refine h.quiet hatomic (fun e he => ?_) rfl rfl rfl fun _ => ⟨rfl, rfl⟩
      rw [List.mem_singleton.mp he]
      rfl
    | delgcfn onThread handle => exact h.delgcfnLua _ _
    | close onThread =>
      exact h.detach (closeLua_move w fs _) (idle_guarded nofun hidle)
        fun hthread hnone => absurd hnone (hstays rfl hthread)
    | unwrap onThread =>
      exact h.detach (unwrapLua_move w fs _) (idle_guarded nofun hidle)
        fun hthread hnone => absurd hnone (hstays rfl hthread)
    | gc onThread =>
      exact h.detach (gcLua_move w fs _) (fun _ => hidle)
        fun hthread hnone => absurd hnone (hstays rfl hthread)
  | adding call p => exact h.addStep hidle
  | draining m phase pending => exact h.drainStep
  | refusing => exact h.quiet hatomic nofun rfl rfl rfl fun _ => ⟨rfl, rfl⟩

theorem gcfnDrainInv_kept (lua51 : Bool) : (gcfnCalls lua51).Kept ThreadIdle GcfnDrainInv where
  call w fs es m h hwait := by
    have hatomic := (atomicInv_kept lua51).call w fs es m h.atomic hwait
    rw [← List.append_nil es] at hatomic ⊢
    exact h.quiet hatomic nofun rfl rfl rfl fun _ => ⟨rfl, rfl⟩
  foreign w fs es x h _ := by
    have hatomic := h.atomic.foreign x
    rw [← List.append_nil es] at hatomic ⊢
    cases x <;> exact h.quiet hatomic nofun rfl rfl rfl fun _ => ⟨rfl, rfl⟩
  act _ _ _ _ _ h _ hidle := h.act hidle

theorem GcfnDrainInv.start (fd sockAddr threadAddr : Nat) (heap : List Nat) :
    GcfnDrainInv (gcfnWorldNew fd sockAddr threadAddr heap) [] [] where
  atomic := AtomicInv.new fd sockAddr threadAddr heap
  lifo := rfl
  alone := Nat.zero_le 1
  idle _ := ⟨rfl, rfl⟩
  begun := rfl
  once := List.nodup_nil
  usable _ := ⟨by simp [gcfnWorldNew], rfl⟩
  after := Each.nil AfterDetach

theorem GcfnDrainInv.gcfnLaw (h : GcfnDrainInv w fs es) : GcfnLaw fs es where
  made id addr hmem := by
    obtain ⟨before, after, hes⟩ := List.append_of_mem hmem
    obtain ⟨nested, c, rfl, hid, haddr⟩ := h.atomic.law before _ after hes
    refine ⟨c, ?_, hid, haddr⟩
    rw [hes]
    exact List.mem_append_left _ (List.mem_append_right _ (List.mem_singleton_self _))
  once := h.once
  lifo := by
    rw [← h.lifo, List.append_assoc]
    exact List.prefix_append _ _
  early hbegun := by
    rw [h.begun, Bool.not_eq_false'] at hbegun
    exact (h.idle hbegun).1
  all hbegun hpending := by
    rw [h.begun, Bool.not_eq_true'] at hbegun
    have hlifo := h.lifo
    rw [hpending, (List.append_eq_nil_iff.mp (h.atomic.heap.closed hbegun)).1] at hlifo
    simpa only [List.flatten_nil, List.reverse_nil, List.append_nil] using hlifo
  after := h.after

theorem idle_drains {m : GcfnMethod} {d : Detacher} {onThread : Bool}
    (hm : m.drains = some (d, onThread))
    (hfree : d = .gc ∨ (onThread && runsOnThread fs) = false)
    (hidle : ThreadIdle w fs (.entering m) a) :
    (onThread && runsOnThread fs) = true ∨ threadRuns fs = true → w.sock.stack = [] := by
  cases m with
  | close t =>
    cases hm
    have hclose : Detacher.close ≠ .gc := nofun
    exact idle_guarded hclose hidle hfree.symm
  | unwrap t =>
    cases hm
    have hunwrap : Detacher.unwrap ≠ .gc := nofun
    exact idle_guarded hunwrap hidle hfree.symm
  | gc t =>
    cases hm
    exact hidle
  | _ => cases hm

theorem GcfnDrainInv.begins (h : GcfnDrainInv w fs es) (hyields : (gcfnCalls lua51).yields fs = true)
    (hthread : w.sock.gcThread = true) {m : GcfnMethod} {d : Detacher} {onThread : Bool}
    (hm : m.drains = some (d, onThread))
    (hfree : d = .gc ∨ (onThread && runsOnThread fs) = false)
    (hidle : ThreadIdle w fs (.entering m) a) :
    ∃ w', runs (gcfnCalls lua51).step (w, fs) [.call m, .act a] =
      ((w', .draining d .loop (keptGcfns es) :: fs), [.detached (keptGcfns es)]) := by
  have hact : w.act lua51 fs (.entering m) a =
      w.netGcthreadClose fs (onThread && runsOnThread fs) d := by
    rw [act_drains hm hthread (h.usable hthread), if_neg]
    rintro ⟨hgc, hon⟩
    rw [hfree.resolve_left hgc] at hon
    cases hon
  have hcall : (gcfnCalls lua51).step (w, fs) (.call m) = ((w, .entering m :: fs), []) := by
    rw [Reentrant.step, if_pos hyields]
    rfl
  have hstep : (gcfnCalls lua51).step (w, .entering m :: fs) (.act a) =
      (((w.act lua51 fs (.entering m) a).1, (w.act lua51 fs (.entering m) a).2.1.toList ++ fs),
        (w.act lua51 fs (.entering m) a).2.2) := rfl
  refine ⟨(w.netGcthreadClose fs (onThread && runsOnThread fs) d).1, ?_⟩
  rw [runs, hcall, runs, hstep, hact, runs_nil, h.attached hthread,
    ← frame_eq h.atomic.inner (idle_drains hm hfree hidle)]
  rfl

theorem GcfnDrainInv.turn {d : Detacher} {pending : List GcFn}
    (h : GcfnDrainInv w (.draining d .loop pending :: fs) es) :
    (∃ w' rest c, pending = rest ++ [c] ∧ invokedGcfns es ++ [c] <+: (keptGcfns es).reverse ∧
      (gcfnCalls lua51).step (w, .draining d .loop pending :: fs) (.act a) =
        ((w', .draining d (.fn c) rest :: fs), [.invoked c])) ∨
    ∃ w', invokedGcfns es = (keptGcfns es).reverse ∧
      (gcfnCalls lua51).step (w, .draining d .loop pending :: fs) (.act a) = ((w', fs), []) := by
  obtain ⟨-, -, -, hlifo⟩ := h.only
  rcases List.eq_nil_or_concat' pending with rfl | ⟨rest, c, rfl⟩
  · exact .inr ⟨w.finish d, by rwa [List.reverse_nil, List.append_nil] at hlifo, rfl⟩
  · refine .inl ⟨w, rest, c, rfl, ?_, ?_⟩
    · rw [← hlifo, List.reverse_append, List.reverse_singleton, ← List.append_assoc]
      exact List.prefix_append _ _
    · simp [Reentrant.step, gcfnCalls, GcfnWorld.act, GcfnWorld.drainStep]

theorem drain_ends (lua51 : Bool) (w : GcfnWorld) (d : Detacher) (phase : Phase)
    (pending : List GcFn) (outer : List GcfnFrame) (as : List GcfnAns)
    (hlength : drainTurns phase pending ≤ as.length) :
    ∃ n ≤ as.length, (runs (gcfnCalls lua51).step (w, .draining d phase pending :: outer)
      ((as.take n).map .act)).1.2 = outer := by
  induction as generalizing w phase pending with
  | nil => exact absurd hlength (Nat.not_succ_le_zero _)
  | cons a as ih =>
    have hmove := drainStep_move w d phase pending a
    have hrun : ∀ n, (runs (gcfnCalls lua51).step (w, .draining d phase pending :: outer)
        (((a :: as).take (n + 1)).map .act)).1.2 =
          (runs (gcfnCalls lua51).step ((w.drainStep d phase pending a).1,
            (w.drainStep d phase pending a).2.1.toList ++ outer) ((as.take n).map .act)).1.2 :=
      fun _ => rfl
    generalize w.drainStep d phase pending a = r at hmove hrun
    have hnext : ∀ phase' pending', r.2.1 = some (.draining d phase' pending') →
        drainTurns phase' pending' < drainTurns phase pending →
        ∃ n ≤ (a :: as).length, (runs (gcfnCalls lua51).step
          (w, .draining d phase pending :: outer) (((a :: as).take n).map .act)).1.2 = outer := by
      intro phase' pending' hr hless
      have hle : drainTurns phase' pending' ≤ as.length := by
        rw [List.length_cons] at hlength
        omega
      obtain ⟨n, hn, hends⟩ := ih r.1 phase' pending' hle
      refine ⟨n + 1, Nat.succ_le_succ hn, ?_⟩
      rw [hrun, hr]
      exact hends
    cases hmove with
    | ended => exact ⟨1, Nat.succ_le_succ (Nat.zero_le _), hrun 0⟩
    | invoked pending c =>
      refine hnext _ _ rfl ?_
      rw [drainTurns, drainTurns, List.length_append, List.length_singleton]
      simp only [Phase.turns]
      omega
    | raised pending c => exact hnext _ _ rfl (Nat.lt_succ_self _)
    | returned phase pending hphase =>
      refine hnext _ _ rfl ?_
      cases phase with
      | loop => exact absurd rfl hphase
      | _ => simp [drainTurns, Phase.turns]

def reenteringRun : List (ReentrantLabel GcfnMethod GcfnForeign GcfnAns) :=
  [.call (.addgcfn false [.nil, .function]), .act {}, .act {}, .act { hint := 3 }, .act {},
    .call (.addgcfn false [.function, .function]), .act {}, .act {}, .act { hint := 4 }, .act {},
    .call (.close false), .act {}, .act {},
    .call (.addgcfn true [.nil, .function]), .act {}, .act {}, .call (.close true), .act {},
    .act { fails := true }, .call (.unwrap false), .act {}, .act {}, .act {}, .act {}, .act {},
    .call (.gc false), .act {}]

example : invokedGcfns (runs (gcfnCalls true).step (gcfnWorldNew 3 1 2 [], []) reenteringRun).2 =
    [⟨1, 4, true⟩, ⟨0, 3, false⟩] := by decide

/-- On Lua 5.1 a finalizer that runs while `addgcfn` grows the stack of the gc thread resumes a
coroutine that closes the socket. -/
def closedOnThreadRun : List (ReentrantLabel GcfnMethod GcfnForeign GcfnAns) :=
  [.call (.addgcfn false [.nil, .function]), .act {}, .act {}, .act { hint := 3 }, .act {},
    .call (.addgcfn false [.nil, .function]), .act {}, .call (.close false), .act {}, .act {},
    .act {}, .act { hint := 4 }, .act {}, .act {}]

end LuaNet.Socket
