import LuaNet.Socket.GcfnCalls
import Mathlib.Data.List.Induction

/-! A call of `addgcfn` registers its function with its last step or not at all, whatever the
finalizers do that run inside of it, as long as nothing is registered while the gc thread runs. -/

namespace LuaNet.Socket

open LuaNet.Lib

def GcfnEvent.caller : GcfnEvent → Option Nat
  | .called id => some id
  | .registered c => some c.id
  | .returned id _ => some id
  | _ => none

def callEvents (id : Nat) (es : List GcfnEvent) : List GcfnEvent :=
  es.filter fun e => e.caller = some id

def liveGcfns (l : List GcFn) : GcfnEvent → List GcFn
  | .registered c => l ++ [c]
  | .deleted (some c) _ => l.erase c
  | .detached _ => []
  | _ => l

def gcfnsAfter (es : List GcfnEvent) : List GcFn := es.foldl liveGcfns []

def GcfnEvent.edits : GcfnEvent → Bool
  | .registered _ => true
  | .deleted (some _) _ => true
  | _ => false

/-- The registered callbacks are `l` as before, or have been drained. -/
def KeptOrDrained (l : List GcFn) (during : List GcfnEvent) (l' : List GcFn) : Prop :=
  l' = l ∨ .detached l ∈ during ∧ l' = []

/-- What atomic means for the events of a run. -/
structure AddAtomic (w : GcfnWorld) (es : List GcfnEvent) : Prop where
  live : w.sock.stack = gcfnsAfter es
  failed : ∀ before during after id r,
    es = before ++ .called id :: during ++ .returned id (.failed r) :: after →
      (∀ e ∈ during, e.caller ≠ some id) ∧ (∀ c, .invoked c ∈ es → c.id ≠ id) ∧
        ((∀ e ∈ during, e.edits = false) →
          KeptOrDrained (gcfnsAfter before) during (gcfnsAfter (before ++ .called id :: during)))
  added : ∀ before during after id result,
    es = before ++ .called id :: during ++ .returned id result :: after →
      (∀ r, result ≠ .failed r) → ∃ nested c, during = nested ++ [.registered c] ∧ c.id = id ∧
        result = .handle c.addr ∧ (∀ e ∈ nested, e.caller ≠ some id) ∧
          (∀ d ∈ gcfnsAfter (before ++ .called id :: nested), d.addr ≠ c.addr) ∧
            gcfnsAfter (before ++ .called id :: during) =
              gcfnsAfter (before ++ .called id :: nested) ++ [c]

/-- Nothing is registered while the gc thread runs, and nothing drained then. -/
def ThreadIdle (w : GcfnWorld) (fs : List GcfnFrame) (f : GcfnFrame) (a : GcfnAns) : Prop :=
  match f with
  | .adding call (.handle _) =>
    a.fails = false → w.sock.gcThread = true → call.onThread = false ∧ threadRuns fs = false
  | .entering (.close onThread) =>
    (onThread && runsOnThread fs) = false → threadRuns fs = true → w.sock.stack = []
  | .entering (.unwrap onThread) =>
    (onThread && runsOnThread fs) = false → threadRuns fs = true → w.sock.stack = []
  | .entering (.gc onThread) =>
    (onThread && runsOnThread fs) = true ∨ threadRuns fs = true → w.sock.stack = []
  | _ => True

instance ThreadIdle.decidable : ∀ w fs f a, Decidable (ThreadIdle w fs f a)
  | w, fs, .adding call (.handle _), a => inferInstanceAs (Decidable (a.fails = false →
      w.sock.gcThread = true → call.onThread = false ∧ threadRuns fs = false))
  | w, fs, .entering (.close onThread), _ => inferInstanceAs (Decidable
      ((onThread && runsOnThread fs) = false → threadRuns fs = true → w.sock.stack = []))
  | w, fs, .entering (.unwrap onThread), _ => inferInstanceAs (Decidable
      ((onThread && runsOnThread fs) = false → threadRuns fs = true → w.sock.stack = []))
  | w, fs, .entering (.gc onThread), _ => inferInstanceAs (Decidable
      ((onThread && runsOnThread fs) = true ∨ threadRuns fs = true → w.sock.stack = []))
  | _, _, .entering (.addgcfn _ _), _ => isTrue trivial
  | _, _, .entering (.delgcfn _ _), _ => isTrue trivial
  | _, _, .adding _ .reserve, _ => isTrue trivial
  | _, _, .adding _ .closure, _ => isTrue trivial
  | _, _, .adding _ .refuse, _ => isTrue trivial
  | _, _, .adding _ (.raising _), _ => isTrue trivial
  | _, _, .draining _ _ _, _ => isTrue trivial
  | _, _, .refusing, _ => isTrue trivial

def EventLaw (before : List GcfnEvent) : GcfnEvent → Prop
  | .called id => callEvents id before = []
  | .registered c => callEvents c.id before = [.called c.id] ∧
      ∀ d ∈ gcfnsAfter before, d.addr ≠ c.addr
  | .returned id (.failed _) => callEvents id before = [.called id]
  | .returned id (.handle addr) => ∃ nested c, before = nested ++ [.registered c] ∧
      c.id = id ∧ c.addr = addr
  | .returned _ (.closure _) => False
  | .detached pending => pending = gcfnsAfter before
  | .invoked c => .registered c ∈ before
  | .deleted _ _ => True

def openId : GcfnFrame → Option Nat
  | .adding call _ => some call.id
  | _ => none

def GcfnFrame.Known (es : List GcfnEvent) : GcfnFrame → Prop
  | .adding call (.handle c) => c.id = call.id
  | .draining _ _ pending => ∀ c ∈ pending, .registered c ∈ es
  | _ => True

structure AtomicInv (w : GcfnWorld) (fs : List GcfnFrame) (es : List GcfnEvent) : Prop where
  heap : HeapInv w fs
  live : w.sock.stack = gcfnsAfter es
  inner : w.inner = []
  opened : ∀ id ∈ fs.filterMap openId, callEvents id es = [.called id]
  distinct : (fs.filterMap openId).Nodup
  fresh : ∀ id, w.nextId ≤ id → callEvents id es = []
  known : ∀ f ∈ fs, f.Known es
  sources : ∀ c ∈ w.sock.stack, .registered c ∈ es
  law : Each EventLaw es

variable {w w' : GcfnWorld} {fs : List GcfnFrame} {f : GcfnFrame} {es : List GcfnEvent}
  {call : AddCall} {p : AddPoint} {a : GcfnAns}

theorem callEvents_append (id : Nat) (es fs : List GcfnEvent) :
    callEvents id (es ++ fs) = callEvents id es ++ callEvents id fs := List.filter_append ..

theorem callEvents_snoc_ne {id k : Nat} {e : GcfnEvent} (he : e.caller = some k) (hne : id ≠ k)
    (es : List GcfnEvent) : callEvents id (es ++ [e]) = callEvents id es := by
  have hnone : callEvents id [e] = [] := List.filter_cons_of_neg (by simpa [he] using hne.symm)
  rw [callEvents_append, hnone, List.append_nil]

theorem callEvents_snoc_own {id : Nat} {e : GcfnEvent} (he : e.caller = some id)
    (es : List GcfnEvent) : callEvents id (es ++ [e]) = callEvents id es ++ [e] := by
  rw [callEvents_append, callEvents, callEvents, List.filter_cons_of_pos (by simpa using he),
    List.filter_nil]

theorem callEvents_eq_nil {id : Nat} :
    callEvents id es = [] ↔ ∀ e ∈ es, e.caller ≠ some id := by
  simp [callEvents, List.filter_eq_nil_iff]

theorem gcfnsAfter_snoc (es : List GcfnEvent) (e : GcfnEvent) :
    gcfnsAfter (es ++ [e]) = liveGcfns (gcfnsAfter es) e := by
  rw [gcfnsAfter, List.foldl_append, List.foldl_cons, List.foldl_nil, ← gcfnsAfter]

theorem GcfnFrame.Known.later (h : f.Known es) (fs : List GcfnEvent) : f.Known (es ++ fs) := by
  cases f with
  | adding call p => cases p <;> exact h
  | draining m phase pending => exact fun c hc => List.mem_append_left fs (h c hc)
  | _ => exact h

theorem AtomicInv.later (h : AtomicInv w fs es) (es' : List GcfnEvent) :
    ∀ f ∈ fs, f.Known (es ++ es') := fun f hf => (h.known f hf).later es'

theorem AtomicInv.noted (h : AtomicInv w (f :: fs) es) {o : Option GcfnFrame}
    {new : List GcfnEvent} (hnew : ∀ e ∈ new, e.caller = none)
    (hheap : HeapInv w' (o.toList ++ fs)) (hlive : w'.sock.stack = gcfnsAfter (es ++ new))
    (hsub : ∀ c ∈ w'.sock.stack, c ∈ w.sock.stack) (hinner : w'.inner = [])
    (hopen : (o.toList ++ fs).filterMap openId = (f :: fs).filterMap openId)
    (hnext : w'.nextId = w.nextId) (hknown : ∀ g ∈ o.toList, g.Known (es ++ new))
    (hlaw : Each EventLaw (es ++ new)) : AtomicInv w' (o.toList ++ fs) (es ++ new) := by
  have hsame : ∀ id, callEvents id (es ++ new) = callEvents id es := by
    intro id
    have hnil : callEvents id new = [] :=
      callEvents_eq_nil.mpr fun e he hid => absurd ((hnew e he).symm.trans hid) nofun
    rw [callEvents_append, hnil, List.append_nil]
  constructor
  · exact hheap
  · exact hlive
  · exact hinner
  · intro id hid
    rw [hsame]
    exact h.opened id (hopen ▸ hid)
  · rw [hopen]
    exact h.distinct
  · intro id hid
    rw [hsame]
    exact h.fresh id (hnext ▸ hid)
  · intro g hg
    rcases List.mem_append.mp hg with hg | hg
    · exact hknown g hg
    · exact h.later new g (List.mem_cons_of_mem f hg)
  · exact fun c hc => List.mem_append_left new (h.sources c (hsub c hc))
  · exact hlaw

theorem AtomicInv.silent (h : AtomicInv w (f :: fs) es) {o : Option GcfnFrame}
    (hheap : HeapInv w' (o.toList ++ fs)) (hsock : w'.sock.stack = w.sock.stack) (hinner : w'.inner = [])
    (hopen : (o.toList ++ fs).filterMap openId = (f :: fs).filterMap openId)
    (hnext : w'.nextId = w.nextId) (hknown : ∀ g ∈ o.toList, g.Known es) :
    AtomicInv w' (o.toList ++ fs) (es ++ []) := by
  apply h.noted (fun e he => absurd he List.not_mem_nil) hheap
  · rw [hsock, List.append_nil]
    exact h.live
  · intro c hc
    rwa [hsock] at hc
  · exact hinner
  · exact hopen
  · exact hnext
  · rwa [List.append_nil]
  · rw [List.append_nil]
    exact h.law

theorem AtomicInv.called (h : AtomicInv w (f :: fs) es) (hf : openId f = none)
    (hheap : HeapInv { w with nextId := w.nextId + 1 } (.adding call p :: fs))
    (hid : call.id = w.nextId) (hp : (GcfnFrame.adding call p).holds = []) :
    AtomicInv { w with nextId := w.nextId + 1 } (.adding call p :: fs)
      (es ++ [.called w.nextId]) := by
  have hopen : (f :: fs).filterMap openId = fs.filterMap openId := List.filterMap_cons_none hf
  have hother : ∀ id, id ≠ w.nextId →
      callEvents id (es ++ [.called w.nextId]) = callEvents id es :=
    fun id hne => callEvents_snoc_ne rfl hne es
  have hnew : ∀ id ∈ fs.filterMap openId, id ≠ w.nextId := by
    rintro id hmem rfl
    have hcalled := h.opened w.nextId (hopen ▸ hmem)
    rw [h.fresh w.nextId (Nat.le_refl _)] at hcalled
    cases hcalled
  constructor
  · exact hheap
  · rw [gcfnsAfter_snoc]
    exact h.live
  · exact h.inner
  · intro id hmem
    rcases List.mem_cons.mp hmem with rfl | hmem
    · rw [hid, callEvents_snoc_own rfl, h.fresh w.nextId (Nat.le_refl _), List.nil_append]
    · rw [hother id (hnew id hmem)]
      exact h.opened id (hopen ▸ hmem)
  · refine List.nodup_cons.mpr ⟨fun hmem => hnew _ hmem hid, ?_⟩
    rw [← hopen]
    exact h.distinct
  · intro id hle
    rw [hother id (Nat.ne_of_gt hle)]
    exact h.fresh id (Nat.le_of_succ_le hle)
  · intro g hg
    rcases List.mem_cons.mp hg with rfl | hg
    · cases p with
      | handle c => cases hp
      | _ => trivial
    · exact h.later _ g (List.mem_cons_of_mem f hg)
  · exact fun c hc => List.mem_append_left _ (h.sources c hc)
  · exact h.law.snoc (h.fresh w.nextId (Nat.le_refl _))

theorem AtomicInv.failed (h : AtomicInv w (.adding call p :: fs) es) (hheap : HeapInv w fs)
    (r : Reply) : AtomicInv w fs (es ++ [.returned call.id (.failed r)]) := by
  obtain ⟨hout, hdistinct⟩ := List.nodup_cons.mp h.distinct
  have hother : ∀ id, id ≠ call.id →
      callEvents id (es ++ [.returned call.id (.failed r)]) = callEvents id es :=
    fun id hne => callEvents_snoc_ne rfl hne es
  have hcalled := h.opened call.id List.mem_cons_self
  constructor
  · exact hheap
  · rw [gcfnsAfter_snoc]
    exact h.live
  · exact h.inner
  · intro id hmem
    rw [hother id (ne_of_mem_of_not_mem hmem hout)]
    exact h.opened id (List.mem_cons_of_mem _ hmem)
  · exact hdistinct
  · intro id hle
    have hne : id ≠ call.id := by
      rintro rfl
      rw [h.fresh _ hle] at hcalled
      cases hcalled
    rw [hother id hne]
    exact h.fresh id hle
  · exact fun g hg => h.later _ g (List.mem_cons_of_mem _ hg)
  · exact fun c hc => List.mem_append_left _ (h.sources c hc)
  · exact h.law.snoc hcalled

theorem AtomicInv.registered {c : GcFn} (h : AtomicInv w (.adding call (.handle c) :: fs) es)
    (hheap : HeapInv w' fs) (hlive : w'.sock.stack = w.sock.stack ++ [c])
    (hinner : w'.inner = []) (hnext : w'.nextId = w.nextId) :
    AtomicInv w' fs (es ++ [.registered c] ++ [.returned call.id (.handle c.addr)]) := by
  obtain ⟨hout, hdistinct⟩ := List.nodup_cons.mp h.distinct
  have hid : c.id = call.id := h.known _ List.mem_cons_self
  have hcalled := h.opened call.id List.mem_cons_self
  have hother : ∀ id, id ≠ call.id →
      callEvents id (es ++ [.registered c] ++ [.returned call.id (.handle c.addr)]) =
        callEvents id es := by
    intro id hne
    have hreg : (GcfnEvent.registered c).caller = some call.id := congrArg some hid
    rw [callEvents_snoc_ne rfl hne, callEvents_snoc_ne hreg hne]
  -- the call still holds its closure, so no registered one has its address
  have hdistant : ∀ d ∈ gcfnsAfter es, d.addr ≠ c.addr := by
    intro d hd haddr
    rw [← h.live] at hd
    have hall := h.heap.distinct
    rw [GcfnWorld.held, List.map_append] at hall
    refine List.disjoint_of_nodup_append hall
      (List.mem_map_of_mem (List.mem_append_left w.inner hd)) ?_
    rw [haddr]
    exact List.mem_map_of_mem (List.mem_append_left _ (List.mem_singleton_self c))
  constructor
  · exact hheap
  · rw [gcfnsAfter_snoc, gcfnsAfter_snoc, hlive, h.live]
    rfl
  · exact hinner
  · intro id hmem
    rw [hother id (ne_of_mem_of_not_mem hmem hout)]
    exact h.opened id (List.mem_cons_of_mem _ hmem)
  · exact hdistinct
  · intro id hle
    rw [hnext] at hle
    have hne : id ≠ call.id := by
      rintro rfl
      rw [h.fresh _ hle] at hcalled
      cases hcalled
    rw [hother id hne]
    exact h.fresh id hle
  · intro g hg
    rw [List.append_assoc]
    exact h.later _ g (List.mem_cons_of_mem _ hg)
  · intro d hd
    rw [hlive] at hd
    rw [List.append_assoc]
    rcases List.mem_append.mp hd with hd | hd
    · exact List.mem_append_left _ (h.sources d hd)
    · rw [List.mem_singleton.mp hd]
      exact List.mem_append_right es List.mem_cons_self
  · have hlaw : EventLaw es (.registered c) := ⟨by rwa [hid], hdistant⟩
    exact (h.law.snoc hlaw).snoc ⟨es, c, rfl, hid, rfl⟩

theorem delStep_live (hinner : w.inner = []) (fs : List GcfnFrame) (onThread : Bool)
    (handle : Handle) :
    (w.delStep fs onThread handle).1.sock.stack = liveGcfns w.sock.stack
      (.deleted (w.delStep fs onThread handle).2.1 (w.delStep fs onThread handle).2.2) ∧
    (w.delStep fs onThread handle).1.inner = [] ∧
      (w.delStep fs onThread handle).1.nextId = w.nextId := by
  have hdel : ∀ s : NetSocket, (netGcthreadDel s handle).1.stack =
      liveGcfns s.stack (.deleted (netGcthreadDel s handle).2.1 (netGcthreadDel s handle).2.2) := by
    intro s
    cases hremoved : (netGcthreadDel s handle).2.1 with
    | none =>
      rw [netGcthreadDel_refused hremoved]
      rfl
    | some c =>
      rw [(netGcthreadDel_removed hremoved).2.2]
      rfl
  unfold GcfnWorld.delStep
  split
  · exact ⟨rfl, hinner, rfl⟩
  split
  · have hnil : (netGcthreadDel { w.sock with stack := [] } handle).2.1 = none := by
      cases hremoved : (netGcthreadDel { w.sock with stack := [] } handle).2.1 with
      | none => rfl
      | some c => exact absurd (netGcthreadDel_removed hremoved).2.1 List.not_mem_nil
    simp only [hinner, hnil, netGcthreadDel_refused hnil, liveGcfns, and_self]
  · exact ⟨hdel w.sock, hinner, rfl⟩

theorem AtomicInv.delStep {m : GcfnMethod} (h : AtomicInv w (.entering m :: fs) es)
    (onThread : Bool) (handle : Handle) :
    AtomicInv (w.delStep fs onThread handle).1 fs (es ++
      [.deleted (w.delStep fs onThread handle).2.1 (w.delStep fs onThread handle).2.2]) := by
  obtain ⟨hlive, hinner, hnext⟩ := delStep_live h.inner fs onThread handle
  apply h.noted (o := none)
  · exact fun e he => List.mem_singleton.mp he ▸ rfl
  · exact h.heap.delStep rfl rfl onThread handle
  · rw [gcfnsAfter_snoc, ← h.live]
    exact hlive
  · intro c hc
    rw [hlive] at hc
    cases hremoved : (w.delStep fs onThread handle).2.1 with
    | none => rwa [hremoved] at hc
    | some d =>
      rw [hremoved] at hc
      exact List.mem_of_mem_erase hc
  · exact hinner
  · rfl
  · exact hnext
  · exact fun g hg => absurd hg List.not_mem_nil
  · exact h.law.snoc trivial

theorem AtomicInv.delgcfnLua {m : GcfnMethod} (h : AtomicInv w (.entering m :: fs) es)
    (onThread : Bool) (handle : Handle) :
    AtomicInv (w.delgcfnLua fs onThread handle).1
      ((w.delgcfnLua fs onThread handle).2.1.toList ++ fs)
      (es ++ (w.delgcfnLua fs onThread handle).2.2) := by
  unfold GcfnWorld.delgcfnLua
  split
  · apply h.noted (o := none)
    · exact fun e he => List.mem_singleton.mp he ▸ rfl
    · exact h.heap.next (o := none) rfl rfl w.nextId
    · rw [gcfnsAfter_snoc]
      exact h.live
    · exact fun c hc => hc
    · exact h.inner
    · rfl
    · rfl
    · exact fun g hg => absurd hg List.not_mem_nil
    · exact h.law.snoc trivial
  · exact h.delStep onThread handle

theorem frame_eq (hinner : w.inner = []) {onThread : Bool}
    (hidle : onThread = true ∨ threadRuns fs = true → w.sock.stack = []) :
    (if onThread then [] else w.frame fs) = w.sock.stack := by
  split
  · next hon => exact (hidle (.inl hon)).symm
  · unfold GcfnWorld.frame
    split
    · next hrun => rw [hinner, hidle (.inr hrun)]
    · rfl

theorem AtomicInv.detach {k : GcfnMethod} {m : Detacher} {onThread : Bool} {r : GcfnStep}
    (h : AtomicInv w (.entering k :: fs) es) (hmove : DetachMove w fs onThread m r)
    (hidle : onThread = false ∨ m = .gc → onThread = true ∨ threadRuns fs = true →
      w.sock.stack = []) :
    AtomicInv r.1 (r.2.1.toList ++ fs) (es ++ r.2.2) := by
  have hheap := h.heap.detach rfl rfl hmove
  cases hmove with
  | refused hon hm =>
    apply h.silent (o := some .refusing) hheap rfl h.inner rfl rfl
    exact fun g hg => List.mem_singleton.mp hg ▸ trivial
  | nothing s hthread hstack =>
    exact h.silent (o := none) hheap hstack h.inner rfl rfl fun g hg => absurd hg List.not_mem_nil
  | detached hthread hon =>
    have hpending := frame_eq h.inner (hidle hon)
    unfold GcfnWorld.netGcthreadClose at hheap ⊢
    rw [hpending] at hheap ⊢
    apply h.noted (o := some _)
    · exact fun e he => List.mem_singleton.mp he ▸ rfl
    · exact hheap
    · rw [gcfnsAfter_snoc]
      rfl
    · exact fun c hc => absurd hc List.not_mem_nil
    · rfl
    · rfl
    · rfl
    · intro g hg
      rw [List.mem_singleton.mp hg]
      exact fun c hc => List.mem_append_left _ (h.sources c hc)
    · exact h.law.snoc h.live

theorem finish_same (w : GcfnWorld) (m : Detacher) :
    (w.finish m).sock.stack = w.sock.stack ∧ (w.finish m).inner = w.inner ∧
      (w.finish m).nextId = w.nextId := by
  cases m <;> exact ⟨rfl, rfl, rfl⟩

theorem AtomicInv.drainStep {m : Detacher} {phase : Phase} {pending : List GcFn}
    (h : AtomicInv w (.draining m phase pending :: fs) es) :
    AtomicInv (w.drainStep m phase pending a).1
      ((w.drainStep m phase pending a).2.1.toList ++ fs)
      (es ++ (w.drainStep m phase pending a).2.2) := by
  have hmove := drainStep_move w m phase pending a
  have hheap := h.heap.drainStep (a := a)
  have hknown : ∀ c ∈ pending, .registered c ∈ es := h.known _ List.mem_cons_self
  generalize w.drainStep m phase pending a = r at hmove hheap
  have hsilent : ∀ phase', HeapInv w (.draining m phase' pending :: fs) →
      AtomicInv w (.draining m phase' pending :: fs) (es ++ []) := by
    intro phase' hheap'
    apply h.silent (o := some _) hheap' rfl h.inner rfl rfl
    exact fun g hg => List.mem_singleton.mp hg ▸ hknown
  cases hmove with
  | ended =>
    obtain ⟨hstack, hinner, hnext⟩ := finish_same w m
    exact h.silent (o := none) hheap hstack (hinner.trans h.inner) rfl hnext
      fun g hg => absurd hg List.not_mem_nil
  | invoked pending c =>
    apply h.noted (o := some _)
    · exact fun e he => List.mem_singleton.mp he ▸ rfl
    · exact hheap
    · rw [gcfnsAfter_snoc]
      exact h.live
    · exact fun d hd => hd
    · exact h.inner
    · rfl
    · rfl
    · intro g hg
      rw [List.mem_singleton.mp hg]
      exact fun d hd => List.mem_append_left _ (hknown d (List.mem_append_left _ hd))
    · exact h.law.snoc (hknown c (List.mem_append_right _ (List.mem_singleton_self c)))
  | raised pending c => exact hsilent _ hheap
  | returned phase pending hphase => exact hsilent _ hheap

theorem leave_sock (w : GcfnWorld) (fs : List GcfnFrame) :
    (w.leave fs).sock = w.sock ∧ (w.leave fs).nextId = w.nextId ∧
      (w.inner = [] → (w.leave fs).inner = []) := by
  unfold GcfnWorld.leave
  split
  · exact ⟨rfl, rfl, id⟩
  · exact ⟨rfl, rfl, fun _ => rfl⟩

theorem AtomicInv.addStep (h : AtomicInv w (.adding call p :: fs) es)
    (hidle : ThreadIdle w fs (.adding call p) a) :
    AtomicInv (w.addStep fs call p a).1 ((w.addStep fs call p a).2.1.toList ++ fs)
      (es ++ (w.addStep fs call p a).2.2) := by
  have hmove := addStep_move w fs call p a
  have hheap := h.heap.addStep a
  generalize w.addStep fs call p a = r at hmove hheap
  cases hmove with
  | failed p hp e => exact h.failed hheap e
  | reserved q hq =>
    obtain ⟨hsock, hnext, hinner⟩ := leave_sock w fs
    apply h.silent (o := some _) hheap (congrArg NetSocket.stack hsock) (hinner h.inner) rfl hnext
    intro g hg
    rw [List.mem_singleton.mp hg]
    cases q with
    | handle c => cases hq
    | _ => trivial
  | allocated c hid haddr =>
    apply h.silent (o := some _) hheap rfl h.inner rfl rfl
    exact fun g hg => List.mem_singleton.mp hg ▸ hid
  | closed c =>
    apply h.silent (o := some _) hheap rfl h.inner rfl rfl
    exact fun g hg => List.mem_singleton.mp hg ▸ trivial
  | registered c hfails hthread =>
    obtain ⟨hon, hrun⟩ := hidle hfails hthread
    have hregister : w.register fs call c =
        ({ w with sock := { w.sock with stack := w.sock.stack ++ [c] }, made := w.made ++ [c] },
          none, [.registered c, .returned call.id (.handle c.addr)]) := by
      rw [GcfnWorld.register, hon, hrun]
      rfl
    rw [hregister] at hheap ⊢
    rw [List.append_cons es]
    apply h.registered hheap
    · rfl
    · exact h.inner
    · rfl

theorem idle_guarded {m : Detacher} {onThread : Bool} {P : Prop} (hm : m ≠ .gc)
    (h : onThread = false → threadRuns fs = true → P) :
    onThread = false ∨ m = .gc → onThread = true ∨ threadRuns fs = true → P := by
  intro hoff hrun
  have hon : onThread = false := hoff.resolve_right hm
  exact h hon (hrun.resolve_left (Bool.eq_false_iff.mp hon))

theorem AtomicInv.act (lua51 : Bool) (h : AtomicInv w (f :: fs) es)
    (hidle : ThreadIdle w fs f a) :
    AtomicInv (w.act lua51 fs f a).1 ((w.act lua51 fs f a).2.1.toList ++ fs)
      (es ++ (w.act lua51 fs f a).2.2) := by
  cases f with
  | entering m =>
    cases m with
    | addgcfn onThread args =>
      exact h.called rfl (h.heap.act lua51 a) rfl (enterAdd_holds lua51 w _ a)
    | delgcfn onThread handle => exact h.delgcfnLua _ _
    | close onThread => exact h.detach (closeLua_move w fs _) (idle_guarded nofun hidle)
    | unwrap onThread => exact h.detach (unwrapLua_move w fs _) (idle_guarded nofun hidle)
    | gc onThread => exact h.detach (gcLua_move w fs _) fun _ => hidle
  | adding call p => exact h.addStep hidle
  | draining m phase pending => exact h.drainStep
  | refusing =>
    exact h.silent (o := none) (h.heap.act lua51 a) rfl h.inner rfl rfl
      fun g hg => absurd hg List.not_mem_nil

theorem AtomicInv.foreign (h : AtomicInv w fs es) (x : GcfnForeign) :
    AtomicInv (w.foreign fs x) fs es where
  heap := h.heap.foreign x
  live := by cases x <;> exact h.live
  inner := by cases x <;> first | exact h.inner | rfl
  opened := h.opened
  distinct := h.distinct
  fresh := by cases x <;> exact h.fresh
  known := h.known
  sources := by cases x <;> exact h.sources
  law := h.law

theorem atomicInv_kept (lua51 : Bool) : (gcfnCalls lua51).Kept ThreadIdle AtomicInv where
  call w fs es m h hwait := {
    heap := (heapInv_kept lua51).call w fs es m h.heap hwait
    live := h.live
    inner := h.inner
    opened := h.opened
    distinct := h.distinct
    fresh := h.fresh
    known := fun g hg => (List.mem_cons.mp hg).elim (fun heq => heq ▸ trivial) (h.known g)
    sources := h.sources
    law := h.law }
  foreign _ _ _ x h _ := h.foreign x
  act _ _ _ _ _ h _ hidle := h.act lua51 hidle

theorem AtomicInv.new (fd sockAddr threadAddr : Nat) (heap : List Nat) :
    AtomicInv (gcfnWorldNew fd sockAddr threadAddr heap) [] [] where
  heap := HeapInv.new fd sockAddr threadAddr heap
  live := rfl
  inner := rfl
  opened _ hid := absurd hid List.not_mem_nil
  distinct := List.nodup_nil
  fresh _ _ := rfl
  known _ hg := absurd hg List.not_mem_nil
  sources _ hc := absurd hc List.not_mem_nil
  law := Each.nil EventLaw

theorem kept_or_drained {during : List GcfnEvent} (hlaw : Each EventLaw (es ++ during))
    (hquiet : ∀ e ∈ during, e.edits = false) :
    KeptOrDrained (gcfnsAfter es) during (gcfnsAfter (es ++ during)) := by
  -- by induction on what happened during the call: only a close takes registrations away
  induction during using List.reverseRecOn with
  | nil =>
    rw [List.append_nil]
    exact .inl rfl
  | append_singleton during e ih =>
    rw [← List.append_assoc] at hlaw ⊢
    have hnow : EventLaw (es ++ during) e := hlaw _ e [] rfl
    have hbefore := ih hlaw.left fun d hd => hquiet d (List.mem_append_left _ hd)
    have hedits := hquiet e (List.mem_append_right _ (List.mem_singleton_self e))
    have hstays : liveGcfns (gcfnsAfter (es ++ during)) e = gcfnsAfter (es ++ during) →
        KeptOrDrained (gcfnsAfter es) (during ++ [e]) (gcfnsAfter (es ++ during ++ [e])) := by
      intro hsame
      rw [gcfnsAfter_snoc, hsame]
      exact hbefore.imp id fun h => ⟨List.mem_append_left _ h.1, h.2⟩
    cases e with
    | registered c => cases hedits
    | deleted c r =>
      cases c with
      | some c => cases hedits
      | none => exact hstays rfl
    | detached pending =>
      refine .inr ⟨?_, gcfnsAfter_snoc _ _⟩
      rcases hbefore with hkept | ⟨hdrained, -⟩
      · rw [← hkept, ← show pending = gcfnsAfter (es ++ during) from hnow]
        exact List.mem_append_right _ (List.mem_singleton_self _)
      · exact List.mem_append_left _ hdrained
    | _ => exact hstays rfl

theorem AtomicInv.failed_never (h : AtomicInv w fs es) {before after : List GcfnEvent} {id : Nat}
    {r : Reply} (hes : es = before ++ .returned id (.failed r) :: after) {c : GcFn}
    (hc : .registered c ∈ es) : c.id ≠ id := by
  rintro rfl
  have hcalled : callEvents c.id before = [.called c.id] := h.law before _ after hes
  rw [hes] at hc
  rcases List.mem_append.mp hc with hc | hc
  · have hmem : .registered c ∈ callEvents c.id before :=
      List.mem_filter.mpr ⟨hc, decide_eq_true rfl⟩
    rw [hcalled] at hmem
    cases List.mem_singleton.mp hmem
  · -- a registration after the return would find the return among the events of its call
    rcases List.mem_cons.mp hc with heq | hc
    · cases heq
    obtain ⟨between, rest, rfl⟩ := List.append_of_mem hc
    have hlaw := h.law (before ++ .returned c.id (.failed r) :: between) (.registered c) rest
      (by rw [hes, List.append_assoc, List.cons_append])
    have hmem : .returned c.id (.failed r) ∈
        callEvents c.id (before ++ .returned c.id (.failed r) :: between) :=
      List.mem_filter.mpr
        ⟨List.mem_append_right _ List.mem_cons_self, decide_eq_true rfl⟩
    rw [hlaw.1] at hmem
    cases List.mem_singleton.mp hmem

theorem callEvents_during {before during : List GcfnEvent} {id : Nat}
    (h : callEvents id (before ++ .called id :: during) = [.called id]) :
    ∀ e ∈ during, e.caller ≠ some id := by
  have hcons : callEvents id (.called id :: during) = .called id :: callEvents id during :=
    List.filter_cons_of_pos (decide_eq_true rfl)
  rw [callEvents_append, hcons] at h
  have hlength := congrArg List.length h
  rw [List.length_append, List.length_cons, List.length_singleton] at hlength
  apply callEvents_eq_nil.mp
  apply List.eq_nil_of_length_eq_zero
  omega

theorem AtomicInv.atomic (h : AtomicInv w fs es) : AddAtomic w es := by
  constructor
  · exact h.live
  · intro before during after id r hes
    have hsnoc : es = (before ++ .called id :: during) ++ .returned id (.failed r) :: after := hes
    have hcalled : callEvents id (before ++ .called id :: during) = [.called id] :=
      h.law _ _ _ hsnoc
    refine ⟨callEvents_during hcalled, fun c hc => ?_, fun hquiet => ?_⟩
    · obtain ⟨earlier, later, hsplit⟩ := List.append_of_mem hc
      have hreg : .registered c ∈ earlier := h.law earlier _ later hsplit
      apply h.failed_never hsnoc
      rw [hsplit]
      exact List.mem_append_left _ hreg
    · have hlaw := h.law
      rw [hsnoc, List.append_cons before] at hlaw
      have hkept := kept_or_drained hlaw.left hquiet
      rw [gcfnsAfter_snoc] at hkept
      rwa [List.append_cons before]
  · intro before during after id result hes hdone
    have hreturned : EventLaw (before ++ .called id :: during) (.returned id result) :=
      h.law _ _ _ hes
    cases result with
    | failed r => exact absurd rfl (hdone r)
    | closure c => cases hreturned
    | handle addr =>
      obtain ⟨earlier, c, hsplit, rfl, rfl⟩ := hreturned
      rcases List.eq_nil_or_concat during with rfl | ⟨nested, e, rfl⟩
      · cases (List.append_inj' hsplit rfl).2
      rw [List.concat_eq_append] at hes hsplit ⊢
      rw [← List.cons_append, ← List.append_assoc] at hsplit
      obtain ⟨rfl, heq⟩ := List.append_inj' hsplit rfl
      cases heq
      have hregistered := h.law (before ++ .called c.id :: nested) (.registered c)
        (.returned c.id (.handle c.addr) :: after) (by simp [hes])
      refine ⟨nested, c, rfl, rfl, rfl, callEvents_during hregistered.1, hregistered.2, ?_⟩
      rw [← List.cons_append, ← List.append_assoc, gcfnsAfter_snoc]
      rfl

/-- In every run in which nothing is registered or drained while the gc thread runs. -/
theorem addgcfn_atomic (lua51 : Bool) (fd sockAddr threadAddr : Nat) (heap : List Nat)
    (calls : List (ReentrantLabel GcfnMethod GcfnForeign GcfnAns))
    (hidle : Along (gcfnCalls lua51).step (Reentrant.Acts ThreadIdle)
      (gcfnWorldNew fd sockAddr threadAddr heap, []) calls) :
    AddAtomic (runs (gcfnCalls lua51).step (gcfnWorldNew fd sockAddr threadAddr heap, []) calls).1.1
      (runs (gcfnCalls lua51).step (gcfnWorldNew fd sockAddr threadAddr heap, []) calls).2 :=
  (Reentrant.runs_kept (atomicInv_kept lua51) (AtomicInv.new fd sockAddr threadAddr heap)
    hidle).atomic

def closedInsideRun : List (ReentrantLabel GcfnMethod GcfnForeign GcfnAns) :=
  [.call (.addgcfn false [.nil, .function]), .act {}, .act {}, .act { hint := 3 }, .act {},
    .call (.addgcfn false [.nil, .function]), .act {}, .act {},
    .call (.close false), .act {}, .act {}, .act {}, .act { hint := 4 }, .act {}, .act {}]

theorem addgcfn_atomic_closedInside :
    AddAtomic (runs (gcfnCalls true).step (gcfnWorldNew 3 1 2 [], []) closedInsideRun).1.1
      (runs (gcfnCalls true).step (gcfnWorldNew 3 1 2 [], []) closedInsideRun).2 :=
  addgcfn_atomic true 3 1 2 [] closedInsideRun (by decide)

/-- On Lua 5.1 a finalizer calls `addgcfn` on the gc thread, while that grows its stack. -/
def onThreadRun : List (ReentrantLabel GcfnMethod GcfnForeign GcfnAns) :=
  [.call (.addgcfn false [.nil, .function]), .act {}, .call (.addgcfn true [.nil, .function]),
    .act {}, .act {}, .act { hint := 3 }, .act {}]

theorem addgcfn_onThread :
    ¬ AddAtomic (runs (gcfnCalls true).step (gcfnWorldNew 3 1 2 [], []) onThreadRun).1.1
      (runs (gcfnCalls true).step (gcfnWorldNew 3 1 2 [], []) onThreadRun).2 := by
  intro h
  obtain ⟨_, _, -, -, hresult, -⟩ :=
    h.added [.called 0] [] [] 1 (.closure ⟨1, 3, false⟩) rfl (fun _ heq => by cases heq)
  cases hresult

def OffThread : GcfnFrame → Prop
  | .adding call p => call.onThread = false ∧ p ≠ .reserve
  | _ => True

theorem runsOnThread_off (h : ∀ g ∈ fs, OffThread g) : runsOnThread fs = false := by
  unfold runsOnThread
  split
  · exact absurd rfl (h _ List.mem_cons_self).2
  · exact (h _ List.mem_cons_self).1
  · rfl

theorem threadRuns_off (h : ∀ g ∈ fs, OffThread g) : threadRuns fs = false := by
  apply List.any_eq_false.mpr
  intro g hg hreserves
  unfold GcfnFrame.reserves at hreserves
  split at hreserves
  · exact (h _ hg).2 rfl
  · cases hreserves

theorem enterAdd_later (w : GcfnWorld) (call : AddCall) (a : GcfnAns) :
    w.enterAdd false call a ≠ .reserve := by
  unfold GcfnWorld.enterAdd
  simp only [Bool.false_eq_true, if_false]
  split_ifs <;> nofun

theorem register_returns (w : GcfnWorld) (fs : List GcfnFrame) (call : AddCall) (c : GcFn) :
    (w.register fs call c).2.1 = none := by
  unfold GcfnWorld.register
  split_ifs <;> rfl

theorem DetachMove.off {m : Detacher} {onThread : Bool} {r : GcfnStep}
    (h : DetachMove w fs onThread m r) : ∀ g ∈ r.2.1, OffThread g := by
  cases h with
  | nothing s hthread hstack => exact fun g hg => by cases hg
  | _ =>
    rintro g ⟨⟩
    trivial

theorem act_off (h : ∀ g ∈ f :: fs, OffThread g) (a : GcfnAns) :
    ∀ g ∈ (w.act false fs f a).2.1, OffThread g := by
  have houter : ∀ g ∈ fs, OffThread g := fun g hg => h g (List.mem_cons_of_mem f hg)
  cases f with
  | entering m =>
    cases m with
    | addgcfn onThread args =>
      rintro g ⟨⟩
      refine ⟨?_, enterAdd_later _ _ a⟩
      rw [runsOnThread_off houter, Bool.and_false]
    | delgcfn onThread handle =>
      intro g hg
      rw [GcfnWorld.act, GcfnWorld.delgcfnLua] at hg
      split at hg <;> cases hg
    | close onThread => exact (closeLua_move w fs _).off
    | unwrap onThread => exact (unwrapLua_move w fs _).off
    | gc onThread => exact (gcLua_move w fs _).off
  | adding call p =>
    obtain ⟨hon, hp⟩ := h _ List.mem_cons_self
    have hmove := addStep_move w fs call p a
    rw [GcfnWorld.act]
    generalize w.addStep fs call p a = r at hmove
    cases hmove with
    | failed p hp e => exact fun g hg => by cases hg
    | reserved q hq => exact absurd rfl hp
    | allocated c hid haddr =>
      rintro g ⟨⟩
      exact ⟨hon, nofun⟩
    | closed c =>
      rintro g ⟨⟩
      exact ⟨hon, nofun⟩
    | registered c hfails hthread =>
      intro g hg
      rw [register_returns] at hg
      cases hg
  | draining m phase pending =>
    have hmove := drainStep_move w m phase pending a
    rw [GcfnWorld.act]
    generalize w.drainStep m phase pending a = r at hmove
    cases hmove with
    | ended => exact fun g hg => by cases hg
    | _ =>
      rintro g ⟨⟩
      trivial
  | refusing => exact fun g hg => by cases hg

theorem offThread_kept :
    (gcfnCalls false).Kept (fun _ _ _ _ => True) fun _ fs _ => ∀ g ∈ fs, OffThread g where
  call _ fs _ m h _ := fun g hg => (List.mem_cons.mp hg).elim (fun heq => heq ▸ trivial) (h g)
  foreign _ _ _ _ h _ := h
  act w fs _ f a h _ _ := by
    intro g hg
    rcases List.mem_append.mp hg with hg | hg
    · exact act_off h a g (Option.mem_toList.mp hg)
    · exact h g (List.mem_cons_of_mem f hg)

/-- After Lua 5.1 every run is one of these. -/
theorem threadIdle_later (fd sockAddr threadAddr : Nat) (heap : List Nat)
    (calls : List (ReentrantLabel GcfnMethod GcfnForeign GcfnAns)) :
    Along (gcfnCalls false).step (Reentrant.Acts ThreadIdle)
      (gcfnWorldNew fd sockAddr threadAddr heap, []) calls := by
  have hall : Along (gcfnCalls false).step (Reentrant.Acts fun _ _ _ _ => True)
      (gcfnWorldNew fd sockAddr threadAddr heap, []) calls := by
    apply along_of_forall
    rintro ⟨w, _ | ⟨f, fs⟩⟩ l <;> cases l <;> trivial
  refine (Reentrant.acts_congr offThread_kept (fun w fs f a h => ?_)
    (fun g hg => absurd hg List.not_mem_nil) calls).mpr hall
  apply iff_of_true ?_ trivial
  have hruns := threadRuns_off fun g hg => h g (List.mem_cons_of_mem f hg)
  unfold ThreadIdle
  split
  · exact fun _ _ => ⟨(h _ List.mem_cons_self).1, hruns⟩
  · exact fun _ hrun => absurd (hruns.symm.trans hrun) Bool.false_ne_true
  · exact fun _ hrun => absurd (hruns.symm.trans hrun) Bool.false_ne_true
  · rintro (hon | hrun)
    · rw [runsOnThread_off fun g hg => h g (List.mem_cons_of_mem _ hg), Bool.and_false] at hon
      cases hon
    · exact absurd (hruns.symm.trans hrun) Bool.false_ne_true
  · trivial

end LuaNet.Socket
