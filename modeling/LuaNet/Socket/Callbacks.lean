import LuaNet.Socket.Lifecycle
import Mathlib.Data.List.Nodup

/-! The life of gc callbacks where each `addgcfn` is one step: in every run, whatever the callbacks
themselves do, a drain invokes the registered callbacks once each, the last registered first, and
nothing invokes them again. -/

namespace LuaNet.Socket

open LuaNet.Lib

def liveNext (k : Nat) (l : List GcFn) : Event → List GcFn
  | .added j c => if j = k then l ++ [c] else l
  | .removed j c => if j = k then l.erase c else l
  | _ => l

def liveOf (k : Nat) (es : List Event) : List GcFn := es.foldl (liveNext k) []

def invokedBy (k : Nat) : Event → Option GcFn
  | .invoked j c => if j = k then some c else none
  | _ => none

def invokedOf (k : Nat) (es : List Event) : List GcFn := es.filterMap (invokedBy k)

def isTurn (k : Nat) : Event → Bool
  | .invoked j _ => j = k
  | .drained j => j = k
  | _ => false

def turnsOf (k : Nat) (es : List Event) : Nat := es.countP (isTurn k)

/-- Once a drain of `k` has begun no callback is added or deleted and no other drain begins;
once it has ended none is invoked. -/
def AfterDrain (k : Nat) (before : List Event) (e : Event) : Prop :=
  (.drain k ∈ before → e ≠ .drain k ∧ ∀ c, e ≠ .added k c ∧ e ≠ .removed k c) ∧
  (.drained k ∈ before → e ≠ .drained k ∧ ∀ c, e ≠ .invoked k c)

def Event.about : Event → Option Nat
  | .added k _ => some k
  | .removed k _ => some k
  | .drain k => some k
  | .invoked k _ => some k
  | .drained k => some k
  | _ => none

/-- What holds of one socket. `made` says that the socket exists, `framed` that a drain of it is
in progress. -/
structure SockInv (s : NetSocket) (made framed : Prop) (nextFn k : Nat) (es : List Event) :
    Prop where
  lifo : invokedOf k es ++ s.stack.reverse = (liveOf k es).reverse
  nodup : (liveOf k es).Nodup
  ids : ∀ c ∈ liveOf k es, c.id < nextFn
  unmade : ¬made → s.gcThread = false ∧ s.usable = false ∧ s.stack = []
  notBegun : s.gcThread = true ∨ ¬made → Event.drain k ∉ es
  begun : made → s.gcThread = false → Event.drain k ∈ es
  idle : Event.drain k ∉ es → invokedOf k es = [] ∧ Event.drained k ∉ es
  ended : Event.drained k ∈ es → s.stack = []
  frame : framed → Event.drain k ∈ es ∧ Event.drained k ∉ es
  after : Each (AfterDrain k) es
  live : s.usable = true → s.fd = -1 → s.gcThread = false

structure DrainInv (w : World) (es : List Event) : Prop where
  sock : ∀ k, SockInv (w.socks k) (k < w.nextSock) (k ∈ w.frames.map Frame.sock) w.nextFn k es
  alone : (w.frames.map Frame.sock).Nodup

variable {w : World} {es fs : List Event} {k : Nat}

theorem about_singleton {f : Event} (hf : f.about = some k) :
    ∀ j, j ≠ k → ∀ e ∈ [f], e.about ≠ some j := by
  intro j hj e he heq
  rw [List.mem_singleton.mp he, hf] at heq
  exact hj (Option.some.inj heq).symm

theorem DrainInv.alone_cons (h : DrainInv w es) {f : Frame} {fs : List Frame}
    (hframes : w.frames = f :: fs) : (f.sock :: fs.map Frame.sock).Nodup := by
  have hall := h.alone
  rwa [hframes] at hall

theorem liveOf_snoc (k : Nat) (es : List Event) (e : Event) :
    liveOf k (es ++ [e]) = liveNext k (liveOf k es) e := by
  rw [liveOf, List.foldl_append, List.foldl_cons, List.foldl_nil, ← liveOf]

theorem invokedOf_append (k : Nat) (es fs : List Event) :
    invokedOf k (es ++ fs) = invokedOf k es ++ invokedOf k fs := List.filterMap_append

section Foreign

variable (hfs : ∀ e ∈ fs, e.about ≠ some k)
include hfs

theorem ne_of_foreign {e f : Event} (he : e ∈ fs) (hf : f.about = some k) : e ≠ f := by
  rintro rfl
  exact hfs e he hf

theorem liveOf_foreign : liveOf k (es ++ fs) = liveOf k es := by
  induction fs using List.reverseRecOn with
  | nil => rw [List.append_nil]
  | append_singleton fs e ih =>
    rw [← List.append_assoc, liveOf_snoc, ih fun f hf => hfs f (List.mem_append_left _ hf)]
    have he := hfs e (List.mem_append_right _ (List.mem_singleton_self e))
    cases e with
    | added j c => exact if_neg fun hj => he (congrArg some hj)
    | removed j c => exact if_neg fun hj => he (congrArg some hj)
    | _ => rfl

theorem invokedOf_foreign : invokedOf k (es ++ fs) = invokedOf k es := by
  have hnil : invokedOf k fs = [] := List.filterMap_eq_nil_iff.mpr fun e he => by
    have hne := hfs e he
    cases e with
    | invoked j c => exact if_neg fun hj => hne (congrArg some hj)
    | _ => rfl
  rw [invokedOf_append, hnil, List.append_nil]

theorem mem_foreign {f : Event} (hf : f.about = some k) : f ∈ es ++ fs ↔ f ∈ es := by
  rw [List.mem_append, or_iff_left]
  exact fun hmem => hfs f hmem hf

theorem afterDrain_foreign (h : Each (AfterDrain k) es) : Each (AfterDrain k) (es ++ fs) := by
  refine h.append_of_forall fun before e he => ?_
  have hne : ∀ f : Event, f.about = some k → e ≠ f := fun f hf => ne_of_foreign hfs he hf
  exact ⟨fun _ => ⟨hne _ rfl, fun c => ⟨hne _ rfl, hne _ rfl⟩⟩,
    fun _ => ⟨hne _ rfl, fun c => hne _ rfl⟩⟩

end Foreign

theorem SockInv.foreign {s s' : NetSocket} {made made' framed framed' : Prop} {n n' : Nat}
    (h : SockInv s made framed n k es) (hfs : ∀ e ∈ fs, e.about ≠ some k)
    (hstack : s'.stack = s.stack) (hthread : s'.gcThread = s.gcThread)
    (husable : s'.usable = true → s.usable = true) (hmade : made' ↔ made)
    (hframed : framed' → framed) (hn : n ≤ n')
    (hlive : s'.usable = true → s'.fd = -1 → s'.gcThread = false) :
    SockInv s' made' framed' n' k (es ++ fs) := by
  have hdrain : Event.drain k ∈ es ++ fs ↔ Event.drain k ∈ es := mem_foreign hfs rfl
  have hdrained : Event.drained k ∈ es ++ fs ↔ Event.drained k ∈ es := mem_foreign hfs rfl
  have hinvoked : invokedOf k (es ++ fs) = invokedOf k es := invokedOf_foreign hfs
  have hlist : liveOf k (es ++ fs) = liveOf k es := liveOf_foreign hfs
  constructor
  · rw [hinvoked, hlist, hstack]
    exact h.lifo
  · rw [hlist]
    exact h.nodup
  · rw [hlist]
    exact fun c hc => Nat.lt_of_lt_of_le (h.ids c hc) hn
  · intro hnot
    obtain ⟨hnone, hunusable, hempty⟩ := h.unmade (mt hmade.mpr hnot)
    refine ⟨hthread.trans hnone, Bool.eq_false_iff.mpr fun hu => ?_, hstack.trans hempty⟩
    rw [husable hu] at hunusable
    cases hunusable
  · rw [hdrain, hthread, hmade]
    exact h.notBegun
  · rw [hdrain, hthread, hmade]
    exact h.begun
  · rw [hdrain, hdrained, hinvoked]
    exact h.idle
  · rw [hdrained, hstack]
    exact h.ended
  · rw [hdrain, hdrained]
    exact fun hf => h.frame (hframed hf)
  · exact afterDrain_foreign hfs h.after
  · exact hlive

theorem invokedOf_snoc (k : Nat) (es : List Event) (e : Event) :
    invokedOf k (es ++ [e]) = invokedOf k es ++ (invokedBy k e).toList := by
  rw [invokedOf_append]
  cases h : invokedBy k e with
  | none => simp only [invokedOf, List.filterMap_cons, h, List.filterMap_nil, Option.toList_none]
  | some c => simp only [invokedOf, List.filterMap_cons, h, List.filterMap_nil, Option.toList_some]

section Own

variable {s : NetSocket} {made framed : Prop} {n : Nat} {c : GcFn}

theorem SockInv.stack_eq (h : SockInv s made framed n k es) (hthread : s.gcThread = true) :
    s.stack = liveOf k es := by
  have hlifo := h.lifo
  rw [(h.idle (h.notBegun (.inl hthread))).1, List.nil_append] at hlifo
  exact List.reverse_injective hlifo

theorem SockInv.edited (h : SockInv s made framed n k es) (hthread : s.gcThread = true)
    {stack : List GcFn} {e : Event} {n' : Nat} (hlive : stack = liveNext k (liveOf k es) e)
    (he : (∃ c, e = .added k c) ∨ ∃ c, e = .removed k c) (hnodup : stack.Nodup)
    (hids : ∀ c ∈ stack, c.id < n') :
    SockInv { s with stack := stack } made framed n' k (es ++ [e]) := by
  have hbegun : Event.drain k ∉ es := h.notBegun (.inl hthread)
  obtain ⟨hnone, hended⟩ := h.idle hbegun
  have hinvoked : invokedOf k (es ++ [e]) = [] := by
    rw [invokedOf_snoc, hnone]
    rcases he with ⟨c, rfl⟩ | ⟨c, rfl⟩ <;> rfl
  have hlist : liveOf k (es ++ [e]) = stack := by rw [liveOf_snoc, hlive]
  have hdrain : Event.drain k ∉ es ++ [e] := by
    rcases he with ⟨c, rfl⟩ | ⟨c, rfl⟩ <;> simpa using hbegun
  have hdrained : Event.drained k ∉ es ++ [e] := by
    rcases he with ⟨c, rfl⟩ | ⟨c, rfl⟩ <;> simpa using hended
  constructor
  · rw [hinvoked, hlist, List.nil_append]
  · rwa [hlist]
  · rwa [hlist]
  · exact fun hnot => nomatch hthread.symm.trans (h.unmade hnot).1
  · exact fun _ => hdrain
  · exact fun _ hfalse => nomatch hthread.symm.trans hfalse
  · exact fun _ => ⟨hinvoked, hdrained⟩
  · exact fun hmem => absurd hmem hdrained
  · exact fun hf => absurd (h.frame hf).1 hbegun
  · exact h.after.snoc ⟨fun hmem => absurd hmem hbegun, fun hmem => absurd hmem hended⟩
  · exact h.live

theorem SockInv.added (h : SockInv s made framed n k es) (hthread : s.gcThread = true)
    (hc : c.id = n) :
    SockInv { s with stack := s.stack ++ [c] } made framed (n + 1) k (es ++ [.added k c]) := by
  have hstack := h.stack_eq hthread
  have hnew : c ∉ liveOf k es := fun hmem => Nat.ne_of_lt (h.ids c hmem) hc
  refine h.edited hthread ?_ (.inl ⟨c, rfl⟩) ?_ fun d hd => ?_
  · rw [hstack]
    exact (if_pos rfl).symm
  · rw [hstack]
    exact List.Nodup.append h.nodup (List.nodup_singleton c) (List.disjoint_singleton.mpr hnew)
  · rw [hstack, List.mem_append, List.mem_singleton] at hd
    rcases hd with hd | rfl
    · exact Nat.lt_succ_of_lt (h.ids d hd)
    · exact hc ▸ Nat.lt_succ_self _

theorem SockInv.removed (h : SockInv s made framed n k es) (hthread : s.gcThread = true) :
    SockInv { s with stack := s.stack.erase c } made framed n k (es ++ [.removed k c]) := by
  have hstack := h.stack_eq hthread
  refine h.edited hthread ?_ (.inr ⟨c, rfl⟩) ?_ fun d hd => ?_
  · rw [hstack]
    exact (if_pos rfl).symm
  · rw [hstack]
    exact h.nodup.erase c
  · rw [hstack] at hd
    exact h.ids d (List.mem_of_mem_erase hd)

theorem SockInv.drain {framed' : Prop} (h : SockInv s made framed n k es)
    (hthread : s.gcThread = true) (hmade : made) :
    SockInv { s with gcThread := false } made framed' n k (es ++ [.drain k]) := by
  have hbegun : Event.drain k ∉ es := h.notBegun (.inl hthread)
  obtain ⟨hnone, hended⟩ := h.idle hbegun
  have hinvoked : invokedOf k (es ++ [.drain k]) = [] := by rw [invokedOf_snoc, hnone]; rfl
  have hlist : liveOf k (es ++ [.drain k]) = liveOf k es := liveOf_snoc k es _
  have hdrain : Event.drain k ∈ es ++ [.drain k] := by simp
  have hdrained : Event.drained k ∉ es ++ [.drain k] := by simpa using hended
  constructor
  · rw [hinvoked, hlist, ← h.stack_eq hthread, List.nil_append]
  · rw [hlist]
    exact h.nodup
  · rw [hlist]
    exact h.ids
  · exact fun hnot => absurd hmade hnot
  · rintro (hfalse | hnot)
    · cases hfalse
    · exact absurd hmade hnot
  · exact fun _ _ => hdrain
  · exact fun hnot => absurd hdrain hnot
  · exact fun hmem => absurd hmem hdrained
  · exact fun _ => ⟨hdrain, hdrained⟩
  · exact h.after.snoc ⟨fun hmem => absurd hmem hbegun, fun hmem => absurd hmem hended⟩
  · exact fun _ _ => rfl

theorem SockInv.invoked (h : SockInv s made framed n k es) (hframed : framed)
    (hlast : s.stack.getLast? = some c) :
    SockInv { s with stack := s.stack.dropLast } made framed n k (es ++ [.invoked k c]) := by
  obtain ⟨hbegun, hended⟩ := h.frame hframed
  have hlist : liveOf k (es ++ [.invoked k c]) = liveOf k es := liveOf_snoc k es _
  have hinvoked : invokedOf k (es ++ [.invoked k c]) = invokedOf k es ++ [c] := by
    rw [invokedOf_snoc]
    exact congrArg (fun o => invokedOf k es ++ Option.toList o) (if_pos rfl)
  have hsplit : s.stack = s.stack.dropLast ++ [c] := (List.dropLast_append_getLast? c hlast).symm
  have hdrain : Event.drain k ∈ es ++ [.invoked k c] := List.mem_append_left _ hbegun
  have hdrained : Event.drained k ∉ es ++ [.invoked k c] := by simpa using hended
  constructor
  · rw [hinvoked, hlist, ← h.lifo]
    conv_rhs => rw [hsplit]
    rw [List.reverse_append, List.reverse_singleton, List.append_assoc]
  · rw [hlist]
    exact h.nodup
  · rw [hlist]
    exact h.ids
  · exact fun hnot => absurd hbegun (h.notBegun (.inr hnot))
  · exact fun hnot => absurd hbegun (h.notBegun hnot)
  · exact fun _ _ => hdrain
  · exact fun hnot => absurd hdrain hnot
  · exact fun hmem => absurd hmem hdrained
  · exact fun _ => ⟨hdrain, hdrained⟩
  · exact h.after.snoc ⟨fun _ => ⟨nofun, fun _ => ⟨nofun, nofun⟩⟩, fun hmem => absurd hmem hended⟩
  · exact h.live

theorem SockInv.drained {framed' : Prop} (h : SockInv s made framed n k es) (hframed : framed)
    (hempty : s.stack = []) (hout : ¬framed') :
    SockInv s made framed' n k (es ++ [.drained k]) := by
  obtain ⟨hbegun, hended⟩ := h.frame hframed
  have hlist : liveOf k (es ++ [.drained k]) = liveOf k es := liveOf_snoc k es _
  have hinvoked : invokedOf k (es ++ [.drained k]) = invokedOf k es := by
    rw [invokedOf_snoc]
    exact List.append_nil _
  have hdrain : Event.drain k ∈ es ++ [.drained k] := List.mem_append_left _ hbegun
  constructor
  · rw [hinvoked, hlist]
    exact h.lifo
  · rw [hlist]
    exact h.nodup
  · rw [hlist]
    exact h.ids
  · exact h.unmade
  · exact fun hnot => absurd hbegun (h.notBegun hnot)
  · exact fun _ _ => hdrain
  · exact fun hnot => absurd hdrain hnot
  · exact fun _ => hempty
  · exact fun hf => absurd hf hout
  · exact h.after.snoc ⟨fun _ => ⟨nofun, fun _ => ⟨nofun, nofun⟩⟩, fun hmem => absurd hmem hended⟩
  · exact h.live

theorem SockInv.new {s' : NetSocket} {made' framed' : Prop} (h : SockInv s made framed n k es)
    (hunmade : ¬made) (hstack : s'.stack = []) (hthread : s'.gcThread = true)
    (hframed : framed' → framed) (hmade : made') (hlive : s'.usable = true → s'.fd ≠ -1) :
    SockInv s' made' framed' n k es := by
  have hbegun : Event.drain k ∉ es := h.notBegun (.inr hunmade)
  have hlifo := h.lifo
  rw [(h.unmade hunmade).2.2] at hlifo
  exact ⟨hstack ▸ hlifo, h.nodup, h.ids, fun hnot => absurd hmade hnot, fun _ => hbegun,
    fun _ hfalse => (nomatch hthread.symm.trans hfalse), h.idle, fun _ => hstack,
    fun hf => h.frame (hframed hf), h.after, fun hu hfd => absurd hfd (hlive hu)⟩

end Own

theorem DrainInv.touch (h : DrainInv w es) {r : World × List Event} (k : Nat)
    (hsocks : ∀ j, j ≠ k → r.1.socks j = w.socks j)
    (hevents : ∀ j, j ≠ k → ∀ e ∈ r.2, e.about ≠ some j)
    (hmade : ∀ j, j ≠ k → (j < r.1.nextSock ↔ j < w.nextSock))
    (hframes : ∀ j, j ≠ k → j ∈ r.1.frames.map Frame.sock → j ∈ w.frames.map Frame.sock)
    (hn : w.nextFn ≤ r.1.nextFn) (halone : (r.1.frames.map Frame.sock).Nodup)
    (hk : SockInv (r.1.socks k) (k < r.1.nextSock) (k ∈ r.1.frames.map Frame.sock) r.1.nextFn k
      (es ++ r.2)) : DrainInv r.1 (es ++ r.2) := by
  refine ⟨fun j => ?_, halone⟩
  by_cases hj : j = k
  · subst hj
    exact hk
  · rw [hsocks j hj]
    exact (h.sock j).foreign (hevents j hj) rfl rfl id (hmade j hj) (hframes j hj) hn
      (h.sock j).live

theorem DrainInv.same (h : DrainInv w es) {r : World × List Event}
    (hsocks : ∀ j, r.1.socks j = w.socks j) (hevents : ∀ e ∈ r.2, e.about = none)
    (hmade : r.1.nextSock = w.nextSock)
    (hframes : r.1.frames.map Frame.sock = w.frames.map Frame.sock)
    (hn : r.1.nextFn = w.nextFn) : DrainInv r.1 (es ++ r.2) := by
  refine ⟨fun j => ?_, hframes ▸ h.alone⟩
  rw [hsocks j, hmade, hframes, hn]
  exact (h.sock j).foreign (fun e he heq => nomatch (hevents e he).symm.trans heq) rfl rfl id
    Iff.rfl id (Nat.le_refl _) (h.sock j).live

theorem DrainInv.silent (h : DrainInv w es) {fs : List Event} (hfs : ∀ e ∈ fs, e.about = none) :
    DrainInv w (es ++ fs) :=
  h.same (r := (w, fs)) (fun _ => rfl) hfs rfl rfl rfl

theorem DrainInv.skip (h : DrainInv w es) : DrainInv w (es ++ []) := h.silent nofun

theorem DrainInv.reply (h : DrainInv w es) (r : Reply) : DrainInv w (es ++ [.reply r]) :=
  h.silent fun _ he => List.mem_singleton.mp he ▸ rfl

theorem hand_about {fd : Int} {src dst : Option Holder} :
    ∀ e ∈ (w.hand fd src dst).2, e.about = none := by
  intro e he
  rw [List.mem_singleton.mp he]
  rfl

theorem DrainInv.hand (h : DrainInv w es) {fd : Int} {src dst : Option Holder}
    (hsrc : ∀ j, src ≠ some (.socket j)) (hdst : ∀ j, dst ≠ some (.socket j)) :
    DrainInv (w.hand fd src dst).1 (es ++ (w.hand fd src dst).2) :=
  h.same (fun j => hand_socks_of_ne (hsrc j) (hdst j)) hand_about (hand_nextSock ..)
    (congrArg _ (hand_frames ..)) (hand_nextFn ..)

theorem DrainInv.hand_src (h : DrainInv w es) {fd : Int} {k : Nat} {dst : Option Holder}
    (hdst : ∀ j, dst ≠ some (.socket j)) (hthread : (w.socks k).gcThread = false) :
    DrainInv (w.hand fd (some (.socket k)) dst).1
      (es ++ (w.hand fd (some (.socket k)) dst).2) := by
  refine h.touch k (fun j hj => hand_socks_of_ne (fun heq => ?_) (hdst j))
    (fun j _ e he => ?_) (fun j _ => by rw [hand_nextSock]) (fun j _ => by rw [hand_frames]; exact id)
    (Nat.le_of_eq (hand_nextFn ..).symm) (by rw [hand_frames]; exact h.alone) ?_
  · cases heq
    exact hj rfl
  · rw [hand_about e he]
    exact nofun
  · rw [hand_socks_src (hdst k), hand_nextSock, hand_frames, hand_nextFn]
    refine (h.sock k).foreign (fun e he => ?_) rfl rfl id Iff.rfl id (Nat.le_refl _)
      fun _ _ => hthread
    rw [hand_about e he]
    exact nofun

theorem newSocket_inv (h : DrainInv w es) : DrainInv (newSocket w false) es := by
  have hlt : ¬w.nextSock < w.nextSock := Nat.lt_irrefl _
  have htouch := h.touch (r := (newSocket w false, [])) w.nextSock
    (fun j hj => newSocket_socks_of_ne hj) (fun _ _ => nofun)
    (fun j hj => newSocket_made hj) (fun _ _ => id) (Nat.le_refl _) h.alone
  rw [List.append_nil] at htouch
  refine htouch ?_
  rw [newSocket_socks_self]
  exact (h.sock w.nextSock).new hlt rfl rfl id (Nat.lt_succ_self _) nofun

theorem newSocket_hand_inv (h : DrainInv w es) {held : Bool} {fd : Int} {src : Option Holder}
    (hsrc : ∀ j, src ≠ some (.socket j)) (hfd : fd ≠ -1) :
    DrainInv ((newSocket w held).hand fd src (some (.socket w.nextSock))).1
      (es ++ ((newSocket w held).hand fd src (some (.socket w.nextSock))).2) := by
  have hlt : ¬w.nextSock < w.nextSock := Nat.lt_irrefl _
  refine h.touch w.nextSock (fun j hj => ?_) (fun j _ e he => ?_) (fun j hj => ?_)
    (fun j _ => by rw [hand_frames]; exact id) (by rw [hand_nextFn]; exact Nat.le_refl _)
    (by rw [hand_frames]; exact h.alone) ?_
  · rw [hand_socks_of_ne (hsrc j) (fun heq => by cases heq; exact hj rfl),
      newSocket_socks_of_ne hj]
  · rw [hand_about e he]
    exact nofun
  · rw [hand_nextSock]
    exact newSocket_made hj
  · rw [hand_socks_dst (hsrc _), newSocket_socks_self, hand_nextSock, hand_frames, hand_nextFn]
    have hnew : SockInv { netSocketNew held with fd := fd } (w.nextSock < w.nextSock + 1)
        (w.nextSock ∈ w.frames.map Frame.sock) w.nextFn w.nextSock es :=
      (h.sock w.nextSock).new hlt rfl rfl id (Nat.lt_succ_self _) fun _ => hfd
    refine hnew.foreign (fun e he => ?_) rfl rfl id Iff.rfl id (Nat.le_refl _) hnew.live
    rw [hand_about e he]
    exact nofun

theorem openedAndClosed_inv (h : DrainInv w es) (fd : Int) :
    DrainInv (openedAndClosed w fd).1 (es ++ (openedAndClosed w fd).2) :=
  andThen_history (h.hand nofun nofun) fun ht => ht.hand nofun nofun

theorem obtainSocket_inv (h : DrainInv w es) (held : Bool) (a : Attempt) :
    DrainInv (obtainSocket w held a).1 (es ++ (obtainSocket w held a).2) := by
  unfold obtainSocket
  split
  · rw [List.append_nil]
    exact newSocket_inv h
  · split
    · exact openedAndClosed_inv (newSocket_inv h) _
    · exact h.skip
  · split
    · next hfresh => exact newSocket_hand_inv h nofun (fresh_ne hfresh)
    · exact h.skip

theorem newNetSocket_inv (h : DrainInv w es) (as : List Attempt) :
    DrainInv (newNetSocket w as).1 (es ++ (newNetSocket w as).2) := by
  induction as generalizing w es with
  | nil => exact h.skip
  | cons a as ih =>
    refine andThen_history (obtainSocket_inv h true a) fun ht => ?_
    split
    · exact ht.skip
    · exact ih ht

theorem acceptfdLua_inv (h : DrainInv w es) (k : Nat) (withAddr : Bool) (a : Attempt) :
    DrainInv (acceptfdLua w k withAddr a).1 (es ++ (acceptfdLua w k withAddr a).2) := by
  unfold acceptfdLua
  split
  · exact h.skip
  split
  · exact h.skip
  · split
    · exact openedAndClosed_inv h _
    · exact h.skip
  · split
    · exact h.skip
    split
    · have hnext : DrainInv { w with nextCtx := w.nextCtx + 1 } es := ⟨h.sock, h.alone⟩
      exact hnext.hand nofun nofun
    · exact andThen_history (h.hand nofun nofun) fun ht => ht.hand nofun nofun

theorem acceptfdEnd_inv (h : DrainInv w es) (i : Nat) (raised : Bool) :
    DrainInv (acceptfdEnd w i raised).1 (es ++ (acceptfdEnd w i raised).2) := by
  unfold acceptfdEnd
  split
  · exact h.skip
  · exact h.hand nofun fun j => by split <;> exact nofun

theorem pairLua_inv (h : DrainInv w es) (a : PairAttempt) :
    DrainInv (pairLua w a).1 (es ++ (pairLua w a).2) := by
  unfold pairLua
  split
  · rw [List.append_nil]
    exact newSocket_inv (newSocket_inv h)
  · split
    · exact andThen_history (openedAndClosed_inv (newSocket_inv (newSocket_inv h)) _)
        fun ht => openedAndClosed_inv ht _
    · exact h.skip
  · split
    · next fd fd' hfresh =>
      simp only [Bool.and_eq_true] at hfresh
      rw [pairLua_made_eq]
      exact andThen_history (newSocket_hand_inv h nofun (fresh_ne hfresh.1.1))
        fun ht => newSocket_hand_inv ht nofun (fresh_ne hfresh.1.2)
    · exact h.skip

theorem wrapLua_inv (h : DrainInv w es) (fd : Int) (checks : Bool) :
    DrainInv (wrapLua w fd checks).1 (es ++ (wrapLua w fd checks).2) := by
  unfold wrapLua
  split
  · exact h.reply _
  · next hrange =>
    have hfd : fd ≠ -1 := by
      rintro rfl
      exact hrange rfl
    split
    · rw [List.append_nil]
      exact newSocket_inv h
    split
    · exact h.skip
    · exact newSocket_hand_inv h nofun hfd

theorem DrainInv.made (h : DrainInv w es) {k : Nat} (hk : (w.socks k).usable = true) :
    k < w.nextSock := by
  by_contra hnot
  rw [((h.sock k).unmade hnot).2.1] at hk
  cases hk

theorem DrainInv.setSock (h : DrainInv w es) {k n : Nat} {s : NetSocket} (hn : w.nextFn ≤ n)
    (hevents : ∀ j, j ≠ k → ∀ e ∈ fs, e.about ≠ some j)
    (hk : SockInv s (k < w.nextSock) (k ∈ w.frames.map Frame.sock) n k (es ++ fs)) :
    DrainInv { w.setSock k s with nextFn := n } (es ++ fs) := by
  refine h.touch (r := ({ w.setSock k s with nextFn := n }, fs)) k
    (fun j hj => setSock_socks_of_ne hj) hevents (fun _ _ => Iff.rfl) (fun _ _ => id) hn
    h.alone ?_
  exact (setSock_socks_self w k s).symm ▸ hk

theorem addgcfnLua_inv (h : DrainInv w es) (k : Nat) (args : GcFnArgs) :
    DrainInv (addgcfnLua w k args).1 (es ++ (addgcfnLua w k args).2) := by
  unfold addgcfnLua
  split
  · exact h.skip
  · dsimp only
    cases hadd : (netGcthreadAdd (w.socks k) w.nextFn args).2.1 with
    | none =>
      refine h.setSock (Nat.le_succ _) (by simp [Event.about]) ?_
      rw [netGcthreadAdd_refused hadd]
      exact (h.sock k).foreign (by simp [Event.about]) rfl rfl id Iff.rfl id (Nat.le_succ _)
        (h.sock k).live
    | some c =>
      obtain ⟨hthread, hid, hsock⟩ := netGcthreadAdd_added hadd
      have hadded := (h.sock k).added hthread hid
      refine h.setSock (Nat.le_succ _) (fun j hj => by simp [Event.about, hj.symm]) ?_
      rw [hsock, Option.map_some, Option.toList_some, ← List.append_assoc]
      exact hadded.foreign (by simp [Event.about]) rfl rfl id Iff.rfl id (Nat.le_refl _)
        hadded.live

theorem delgcfnLua_inv (h : DrainInv w es) (k : Nat) (handle : Handle) :
    DrainInv (delgcfnLua w k handle).1 (es ++ (delgcfnLua w k handle).2) := by
  unfold delgcfnLua
  split
  · exact h.skip
  · dsimp only
    cases hdel : (netGcthreadDel (w.socks k) handle).2.1 with
    | none =>
      refine h.setSock (Nat.le_refl _) (by simp [Event.about]) ?_
      rw [netGcthreadDel_refused hdel]
      exact (h.sock k).foreign (by simp [Event.about]) rfl rfl id Iff.rfl id (Nat.le_refl _)
        (h.sock k).live
    | some c =>
      obtain ⟨hthread, -, hsock⟩ := netGcthreadDel_removed hdel
      have hremoved := (h.sock k).removed (c := c) hthread
      refine h.setSock (Nat.le_refl _) (fun j hj => by simp [Event.about, hj.symm]) ?_
      rw [hsock, Option.map_some, Option.toList_some, ← List.append_assoc]
      exact hremoved.foreign (by simp [Event.about]) rfl rfl id Iff.rfl id (Nat.le_refl _)
        hremoved.live

theorem DrainInv.not_framed (h : DrainInv w es) {k : Nat} (hk : (w.socks k).gcThread = true) :
    k ∉ w.frames.map Frame.sock := fun hmem =>
  (h.sock k).notBegun (.inl hk) ((h.sock k).frame hmem).1

theorem netGcthreadClose_inv (h : DrainInv w es) {k : Nat} (hk : (w.socks k).gcThread = true)
    (op : Op) :
    DrainInv (netGcthreadClose w k op).1 (es ++ (netGcthreadClose w k op).2) := by
  have hmade : k < w.nextSock := by
    by_contra hnot
    rw [((h.sock k).unmade hnot).1] at hk
    cases hk
  refine h.touch k (fun j hj => setSock_socks_of_ne hj) (about_singleton rfl)
    (fun _ _ => Iff.rfl) (fun j hj hmem => ?_) (Nat.le_refl _) ?_ ?_
  · exact (List.mem_cons.mp hmem).resolve_left hj
  · exact List.nodup_cons.mpr ⟨h.not_framed hk, h.alone⟩
  · have hself : (netGcthreadClose w k op).1.socks k = { w.socks k with gcThread := false } :=
      Function.update_self ..
    rw [hself]
    exact (h.sock k).drain hk hmade

theorem closeEnd_inv (h : DrainInv w es) {k : Nat} (hk : (w.socks k).gcThread = false) (fd : Int)
    (withShutdown : Bool) (sys : CloseSys) :
    DrainInv (closeEnd w k fd withShutdown sys).1 (es ++ (closeEnd w k fd withShutdown sys).2) :=
  andThen_history (h.hand_src nofun hk) fun ht => ht.reply _

theorem DrainInv.setQuiet (h : DrainInv w es) {k : Nat} {s : NetSocket}
    (hk : (w.socks k).gcThread = false) (hthread : s.gcThread = false)
    (hstack : s.stack = (w.socks k).stack) (husable : s.usable = true → (w.socks k).usable = true) :
    DrainInv (w.setSock k s) es := by
  have hset : DrainInv { w.setSock k s with nextFn := w.nextFn } (es ++ []) :=
    h.setSock (Nat.le_refl _) (fun _ _ => nofun)
      ((h.sock k).foreign nofun hstack (hthread.trans hk.symm) husable Iff.rfl id (Nat.le_refl _)
        fun _ _ => hthread)
  rwa [List.append_nil] at hset

theorem unwrapEnd_inv (h : DrainInv w es) {k : Nat} (hk : (w.socks k).gcThread = false)
    (fd : Int) : DrainInv (unwrapEnd w k fd).1 (es ++ (unwrapEnd w k fd).2) := by
  have hplain : DrainInv (w.setSock k { w.socks k with metatable := false }) es :=
    h.setQuiet hk hk rfl fun hu => by simp [NetSocket.usable] at hu
  have hthread : ((w.setSock k { w.socks k with metatable := false }).socks k).gcThread = false := by
    rw [setSock_socks_self]
    exact hk
  unfold unwrapEnd
  dsimp only
  split
  · have hset : DrainInv ((w.setSock k { w.socks k with metatable := false }).setFd k (-1)) es :=
      hplain.setQuiet hthread hthread rfl id
    exact hset.reply _
  · exact andThen_history (hplain.hand_src nofun hthread) fun ht => ht.reply _

theorem gcEnd_inv (h : DrainInv w es) {k : Nat} (hk : (w.socks k).gcThread = false) :
    DrainInv (gcEnd w k).1 (es ++ (gcEnd w k).2) := by
  unfold gcEnd
  split
  · exact h.skip
  · exact h.hand_src nofun hk

theorem closeLua_inv (h : DrainInv w es) (k : Nat) (onGc withShutdown : Bool) :
    DrainInv (closeLua w k onGc withShutdown).1 (es ++ (closeLua w k onGc withShutdown).2) := by
  unfold closeLua
  split
  · exact h.skip
  split
  · exact h.reply _
  split
  · exact h.reply _
  · next hopen =>
    simp only [Bool.or_eq_true, not_or, Bool.not_eq_true', Bool.not_eq_false] at hopen
    exact netGcthreadClose_inv h hopen.2 _

theorem unwrapLua_inv (h : DrainInv w es) (k : Nat) (onGc : Bool) :
    DrainInv (unwrapLua w k onGc).1 (es ++ (unwrapLua w k onGc).2) := by
  unfold unwrapLua
  split
  · exact h.skip
  split
  · exact h.reply _
  split
  · next hk => exact netGcthreadClose_inv h hk _
  · next hk => exact unwrapEnd_inv h (Bool.eq_false_iff.mpr hk) _

theorem gcLua_inv (h : DrainInv w es) (k : Nat) :
    DrainInv (gcLua w k).1 (es ++ (gcLua w k).2) := by
  unfold gcLua
  split
  · exact h.skip
  split
  · next hk => exact netGcthreadClose_inv h hk _
  · next hk => exact gcEnd_inv h (Bool.eq_false_iff.mpr hk)

theorem DrainInv.detached (h : DrainInv w es) {f : Frame} (hf : f ∈ w.frames) :
    (w.socks f.sock).gcThread = false := by
  by_contra hk
  exact h.not_framed (eq_true_of_ne_false hk) (List.mem_map_of_mem hf)

theorem drainEnd_inv (h : DrainInv w es) {f : Frame} (hf : (w.socks f.sock).gcThread = false)
    (sys : CloseSys) : DrainInv (drainEnd w f sys).1 (es ++ (drainEnd w f sys).2) := by
  unfold drainEnd
  split
  · exact closeEnd_inv h hf _ _ _
  · exact unwrapEnd_inv h hf _
  · exact gcEnd_inv h hf

theorem drained_inv (h : DrainInv w es) {f : Frame} {fs : List Frame}
    (hframes : w.frames = f :: fs) (hempty : (w.socks f.sock).stack = []) :
    DrainInv { w with frames := fs } (es ++ [.drained f.sock]) := by
  have hframed : f.sock ∈ w.frames.map Frame.sock :=
    List.mem_map_of_mem (hframes ▸ List.mem_cons_self)
  have halone := List.nodup_cons.mp (h.alone_cons hframes)
  refine h.touch (r := ({ w with frames := fs }, [.drained f.sock])) f.sock (fun _ _ => rfl)
    (about_singleton rfl) (fun _ _ => Iff.rfl) (fun j _ hj => ?_) (Nat.le_refl _) halone.2
    ((h.sock f.sock).drained hframed hempty halone.1)
  rw [hframes]
  exact List.mem_cons_of_mem _ hj

theorem drainTick_inv (h : DrainInv w es) (sys : CloseSys) :
    DrainInv (drainTick w sys).1 (es ++ (drainTick w sys).2) := by
  rcases drainTick_cases w sys with heq | ⟨f, fs, hframes, -, hturn⟩
  · rw [heq]
    exact h.skip
  have hmem : f ∈ w.frames := hframes ▸ List.mem_cons_self
  rcases hturn with ⟨c, hlast, heq⟩ | ⟨hempty, heq⟩ <;> rw [heq]
  -- the callback leaves the stack before it runs, so nothing can call it again
  · have halone : (f.sock :: fs.map Frame.sock).Nodup := h.alone_cons hframes
    refine h.touch (r := (drainCall w f fs c, [.invoked f.sock c])) f.sock
      (fun j hj => setSock_socks_of_ne hj) (about_singleton rfl) (fun _ _ => Iff.rfl)
      (fun j _ hj => ?_) (Nat.le_refl _) halone ?_
    · rw [hframes]
      exact hj
    · have hinvoked := (h.sock f.sock).invoked (List.mem_map_of_mem hmem) hlast
      have hself : (drainCall w f fs c).socks f.sock =
          { w.socks f.sock with stack := (w.socks f.sock).stack.dropLast } :=
        setSock_socks_self ..
      rw [hframes] at hinvoked
      rw [hself]
      exact hinvoked
  · exact andThen_history (drained_inv h hframes hempty) fun ht =>
      drainEnd_inv ht (h.detached hmem) sys

theorem callbackEnd_inv (h : DrainInv w es) (raised : Bool) :
    DrainInv (callbackEnd w raised).1 (es ++ (callbackEnd w raised).2) := by
  rcases callbackEnd_cases w raised with heq | ⟨f, fs, phase, hframes, heq⟩ <;> rw [heq]
  · exact h.skip
  · exact h.same (r := ({ w with frames := { f with phase := phase } :: fs }, []))
      (fun _ => rfl) nofun rfl (by rw [hframes]; rfl) rfl

theorem step_inv (w : World) (es : List Event) (l : Label) (h : DrainInv w es) :
    DrainInv (step w l).1 (es ++ (step w l).2) := by
  cases l with
  | tick sys => exact drainTick_inv h sys
  | ret raised => exact callbackEnd_inv h raised
  | lua c =>
    unfold step
    dsimp only
    split
    · cases c with
      | create as => exact newNetSocket_inv h as
      | accept k a raised =>
        unfold call acceptLua
        dsimp only
        split
        · exact h.skip
        · exact obtainSocket_inv h _ a
      | acceptfd k withAddr a => exact acceptfdLua_inv h k withAddr a
      | acceptfdEnd i raised => exact acceptfdEnd_inv h i raised
      | pair a => exact pairLua_inv h a
      | wrap fd checks => exact wrapLua_inv h fd checks
      | dup k a =>
        unfold call dupLua
        dsimp only
        split
        · exact h.skip
        · exact obtainSocket_inv h _ a
      | addgcfn k args => exact addgcfnLua_inv h k args
      | delgcfn k handle => exact delgcfnLua_inv h k handle
      | close k onGc withShutdown => exact closeLua_inv h k onGc withShutdown
      | unwrap k onGc => exact unwrapLua_inv h k onGc
      | gc k => exact gcLua_inv h k
      | callerOpen fd =>
        unfold call
        dsimp only
        split
        · exact h.hand nofun nofun
        · exact h.skip
      | callerClose fd =>
        unfold call
        dsimp only
        split
        · exact h.hand nofun nofun
        · exact h.skip
    · exact h.skip

theorem worldNew_inv : DrainInv worldNew [] := by
  refine ⟨fun k => ?_, List.nodup_nil⟩
  exact ⟨rfl, List.nodup_nil, nofun, fun _ => ⟨rfl, rfl, rfl⟩, fun _ => nofun,
    fun hk => absurd hk (Nat.not_lt_zero k), fun _ => ⟨rfl, nofun⟩, fun _ => rfl, nofun,
    Each.nil _, nofun⟩

theorem runs_inv (ls : List Label) :
    DrainInv (runs step worldNew ls).1 (runs step worldNew ls).2 :=
  runs_history step_inv worldNew_inv ls

/-- What the history says of the callbacks of socket `k`: those invoked so far are the live ones
in reverse order, as far as the drain has come; none is there twice; a drain that has ended has
invoked them all; nothing comes after the drain; and its loop takes a turn for each of them and
one more. -/
structure CallbackLaw (k : Nat) (es : List Event) : Prop where
  lifo : invokedOf k es <+: (liveOf k es).reverse
  once : (liveOf k es).Nodup
  all : .drained k ∈ es → invokedOf k es = (liveOf k es).reverse
  after : Each (AfterDrain k) es
  turns : turnsOf k es ≤ (liveOf k es).length + 1

/-- How a drain of `k` begins, goes on and ends: a method of a socket that still has its gc
thread begins it; each turn of its loop invokes the next callback, or ends it when none is left;
and a callback, however it ends, hands back to the loop. -/
structure DrainProgress (k : Nat) (w : World) (es : List Event) : Prop where
  begins : w.luaRuns = true → (w.socks k).usable = true → (w.socks k).gcThread = true →
    ∀ c, ((∃ onGc how, c = .close k onGc how) ∨ (∃ onGc, c = .unwrap k onGc) ∨ c = .gc k) →
      (step w (.lua c)).2 = [.drain k]
  turn : ∀ f fs, w.frames = f :: fs → f.sock = k → f.phase = .loop → ∀ sys,
    (∃ c, (step w (.tick sys)).2 = [.invoked k c] ∧
        invokedOf k es ++ [c] <+: (liveOf k es).reverse) ∨
      (.drained k ∈ (step w (.tick sys)).2 ∧ invokedOf k es = (liveOf k es).reverse)
  back : ∀ f fs, w.frames = f :: fs → f.sock = k → ∀ raised raised',
    (runs step w [.ret raised, .ret raised']).1.frames = { f with phase := .loop } :: fs

theorem turnsOf_le (h : Each (AfterDrain k) es) :
    turnsOf k es ≤ (invokedOf k es).length + if .drained k ∈ es then 1 else 0 := by
  induction es using List.reverseRecOn with
  | nil => exact Nat.zero_le _
  | append_singleton es e ih =>
    have hle := ih (Each.left h)
    rw [turnsOf, List.countP_append, ← turnsOf, invokedOf_snoc, List.length_append]
    by_cases hturn : isTurn k e = true
    · rw [List.countP_singleton, if_pos hturn]
      cases e with
      | invoked j c =>
        obtain rfl : j = k := of_decide_eq_true hturn
        have hdrained : Event.drained j ∈ es ++ [.invoked j c] ↔ .drained j ∈ es := by simp
        simp only [hdrained, invokedBy, if_true, Option.toList_some, List.length_singleton]
        omega
      | drained j =>
        obtain rfl : j = k := of_decide_eq_true hturn
        have hnew : Event.drained j ∉ es := fun hmem => ((h es _ [] rfl).2 hmem).1 rfl
        have hmem : Event.drained j ∈ es ++ [.drained j] := by simp
        rw [if_neg hnew] at hle
        rw [if_pos hmem]
        omega
      | _ => cases hturn
    · rw [List.countP_singleton, if_neg hturn]
      have hsub : (if Event.drained k ∈ es then 1 else 0) ≤
          if Event.drained k ∈ es ++ [e] then 1 else 0 := by
        by_cases hmem : Event.drained k ∈ es
        · exact Nat.le_of_eq (by rw [if_pos hmem, if_pos (List.mem_append_left _ hmem)])
        · rw [if_neg hmem]
          exact Nat.zero_le _
      omega

theorem SockInv.law {s : NetSocket} {made framed : Prop} {n : Nat}
    (h : SockInv s made framed n k es) : CallbackLaw k es := by
  have hpre : invokedOf k es <+: (liveOf k es).reverse := ⟨s.stack.reverse, h.lifo⟩
  refine ⟨hpre, h.nodup, fun hdone => ?_, h.after, ?_⟩
  · have hlifo := h.lifo
    rwa [h.ended hdone, List.reverse_nil, List.append_nil] at hlifo
  · have hlength := hpre.length_le
    rw [List.length_reverse] at hlength
    have hturns := turnsOf_le h.after
    split at hturns <;> omega

theorem DrainInv.onGcThread (h : DrainInv w es) (k : Nat) (onGc : Bool) :
    w.onGcThread k onGc = false := by
  cases hframes : w.frames with
  | nil => simp [World.onGcThread, hframes]
  | cons f fs =>
    by_cases hf : f.sock = k
    · have hdetached := h.detached (hframes ▸ List.mem_cons_self : f ∈ w.frames)
      rw [hf] at hdetached
      simp [World.onGcThread, hdetached]
    · simp [World.onGcThread, hframes, hf]

theorem DrainInv.begins (h : DrainInv w es) {k : Nat} (hlua : w.luaRuns = true)
    (husable : (w.socks k).usable = true) (hthread : (w.socks k).gcThread = true) (c : Call)
    (hc : (∃ onGc how, c = .close k onGc how) ∨ (∃ onGc, c = .unwrap k onGc) ∨ c = .gc k) :
    (step w (.lua c)).2 = [.drain k] := by
  have hfd : (w.socks k).fd ≠ -1 := fun hfd =>
    nomatch hthread.symm.trans ((h.sock k).live husable hfd)
  have hmeta : (w.socks k).metatable = true := ((Bool.and_eq_true ..).mp husable).2
  rcases hc with ⟨onGc, how, rfl⟩ | ⟨onGc, rfl⟩ | rfl
  · simp [step, hlua, call, closeLua, husable, h.onGcThread, hfd, hthread, netGcthreadClose]
  · simp [step, hlua, call, unwrapLua, husable, h.onGcThread, hthread, netGcthreadClose]
  · simp [step, hlua, call, gcLua, hmeta, hthread, netGcthreadClose]

theorem DrainInv.turn (h : DrainInv w es) {f : Frame} {fs : List Frame}
    (hframes : w.frames = f :: fs) (hphase : f.phase = .loop) (sys : CloseSys) :
    (∃ c, (step w (.tick sys)).2 = [.invoked f.sock c] ∧
        invokedOf f.sock es ++ [c] <+: (liveOf f.sock es).reverse) ∨
      (.drained f.sock ∈ (step w (.tick sys)).2 ∧
        invokedOf f.sock es = (liveOf f.sock es).reverse) := by
  have hlifo := (h.sock f.sock).lifo
  cases hlast : (w.socks f.sock).stack.getLast? with
  | some c =>
    refine .inl ⟨c, by simp [step, drainTick, hframes, hphase, hlast], ?_⟩
    rw [← hlifo, ← List.dropLast_append_getLast? c hlast, List.reverse_append,
      List.reverse_singleton, ← List.append_assoc]
    exact List.prefix_append _ _
  | none =>
    rw [List.getLast?_eq_none_iff.mp hlast, List.reverse_nil, List.append_nil] at hlifo
    exact .inr ⟨by simp [step, drainTick, hframes, hphase, hlast, andThen], hlifo⟩

theorem ret_ret_frames {f : Frame} {fs : List Frame} (hframes : w.frames = f :: fs)
    (raised raised' : Bool) :
    (runs step w [.ret raised, .ret raised']).1.frames = { f with phase := .loop } :: fs := by
  obtain ⟨op, sock, fd, phase⟩ := f
  cases phase with
  | loop => simp [runs, step, callbackEnd, hframes]
  | errfn c => simp [runs, step, callbackEnd, hframes]
  | fn c =>
    cases hraised : raised && c.errfn <;> simp [runs, step, callbackEnd, hframes, hraised]

/-- In every run, whatever callbacks raise or call, the callbacks of a socket obey the law, and
no drain gets stuck. -/
theorem gcfn_lifecycle (ls : List Label) (k : Nat) :
    CallbackLaw k (runs step worldNew ls).2 ∧
      DrainProgress k (runs step worldNew ls).1 (runs step worldNew ls).2 := by
  have h := runs_inv ls
  refine ⟨(h.sock k).law, fun hlua hu ht c hc => h.begins hlua hu ht c hc, ?_, ?_⟩
  · rintro f fs hframes rfl hphase sys
    exact h.turn hframes hphase sys
  · rintro f fs hframes - raised raised'
    exact ret_ret_frames hframes raised raised'

/-- Two callbacks; the one that runs first closes the socket again, registers another and
raises. -/
example :
    invokedOf 0 (runs step worldNew
      [.lua (.create [.made 3]), .lua (.addgcfn 0 ⟨.nil, .function, 0, true, 10⟩),
        .lua (.addgcfn 0 ⟨.function, .function, 0, true, 20⟩), .lua (.close 0 false false),
        .tick ⟨none, none⟩, .lua (.close 0 true false),
        .lua (.addgcfn 0 ⟨.nil, .function, 0, true, 30⟩), .ret true, .ret false,
        .tick ⟨none, none⟩, .ret false, .tick ⟨none, none⟩, .lua (.close 0 false false)]).2 =
      [⟨1, 20, true⟩, ⟨0, 10, false⟩] := by decide

end LuaNet.Socket
