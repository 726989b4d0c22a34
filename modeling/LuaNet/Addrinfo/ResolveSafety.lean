import LuaNet.Addrinfo.Resolve

/-! What calls of `addrinfo.c` leave behind: no list of the resolver, no reference without its object,
and objects that are what their sources were. -/

namespace LuaNet.Addrinfo

open LuaNet.Lib

def heldList (o : Option Nat) (l : Nat) : Bool := decide (o = some l)

theorem heldList_none (l : Nat) : heldList none l = false := decide_eq_false nofun

theorem heldList_other {l l' : Nat} (h : l' ≠ l) : heldList (some l) l' = false :=
  decide_eq_false fun heq => h (Option.some.inj heq).symm

theorem heldList_acquire (l : Nat) : Function.update (heldList none) l true = heldList (some l) := by
  funext l'
  by_cases h : l' = l
  · subst h
    rw [Function.update_self, heldList, decide_eq_true rfl]
  · rw [Function.update_of_ne h, heldList_none, heldList_other h]

theorem heldList_free (l : Nat) : Function.update (heldList (some l)) l false = heldList none := by
  funext l'
  by_cases h : l' = l
  · subst h
    rw [Function.update_self, heldList_none]
  · rw [Function.update_of_ne h, heldList_none, heldList_other h]

abbrev Resolving (c : CallCtx) (made : List (Nat × NetAddrinfo)) : Logged Nat AddrWorld → Prop :=
  Logged.Owns (heldList c.list) (Running c made none)

inductive ListBlame (c : CallCtx) (entries : List AddrInfo) : AddrError → Prop
  | memory (h : ¬ c.ample) : ListBlame c entries .memory
  | oversize {src : AddrInfo} (h : entries.find? (fun e => e.usable.isNone) = some src) :
    ListBlame c entries (.raised (oversizeText src.addrlen))
  | overread {src : AddrInfo} {addr : Bytes} (hmem : src ∈ entries) (h : src.usable = some addr)
    (hshort : addr.length < src.addrlen) : ListBlame c entries .overread

structure TableMade (c : CallCtx) (entries : List AddrInfo) (ps : List (Nat × NetAddrinfo)) :
    Prop where
  copies : List.Forall₂ (fun src p => Makes src p.2) entries ps
  fresh : ∀ p ∈ ps, c.frame ≤ p.1
  nodup : (ps.map Prod.fst).Nodup

section Rules

variable {c : CallCtx} {made : List (Nat × NetAddrinfo)}

theorem Running.forget {more : List (Nat × NetAddrinfo)} {w : AddrWorld}
    (h : Running c (made ++ more) none w) : Running c made none w :=
  ⟨⟨h.kept.refs, fun p hp => h.kept.stands p (List.mem_append_left _ hp)⟩, nofun, h.frame,
    h.frame_le, h.ample, h.vars⟩

theorem Running.relist {w : AddrWorld} (h : Running c made none w) (list : Option Nat)
    (lists : Nat) :
    Running { c with list := list, lists := lists } made none
      { w with list := list, lists := lists } :=
  ⟨⟨h.kept.refs.of_same rfl rfl rfl, h.kept.stands⟩, nofun, h.frame, h.frame_le, h.ample,
    ⟨rfl, rfl⟩⟩

theorem allocate_rule :
    Raising.Triple (Resolving c made) allocate (fun _ => Resolving c made)
      fun e s => Resolving c made s ∧ e = .memory ∧ ¬ c.ample := by
  refine Raising.Triple.bind ?_ fun _ => Raising.Triple.pure fun _ h => h
  refine (Logged.inner_rule alloc_rule).mono (fun _ h => h) (fun _ _ h => h) fun e s h => ?_
  exact ⟨h.mono fun hrest => hrest.1, h.rest.2⟩

def CallCtx.stored (c : CallCtx) (entries : List AddrInfo) : CallCtx :=
  if entries.isEmpty then c else { c with list := some c.lists, lists := c.lists + 1 }

theorem stored_frame (c : CallCtx) (entries : List AddrInfo) :
    (c.stored entries).frame = c.frame ∧ (c.stored entries).ample = c.ample := by
  rw [CallCtx.stored]
  split
  · exact ⟨rfl, rfl⟩
  · exact ⟨rfl, rfl⟩

theorem storeList_rule (entries : List AddrInfo) (hnone : c.list = none)
    {E : AddrError → Logged Nat AddrWorld → Prop} :
    Raising.Triple (Resolving c made) (storeList entries)
      (fun l s => (entries ≠ [] → (c.stored entries).list = some l) ∧
        Resolving (c.stored entries) made s) E := by
  refine Raising.Triple.bind (Q := fun w s => w.lists = c.lists ∧ Resolving c made s) ?_
    fun w => Raising.Triple.of_fact fun hlists => ?_
  · intro s hs
    exact ⟨hs.rest.vars.2, hs⟩
  · rw [CallCtx.stored, hlists]
    split
    · next hempty =>
      refine Raising.Triple.pure fun s hs => ⟨fun hne => ?_, hs⟩
      exact absurd (List.isEmpty_iff.mp hempty) hne
    · have hfree : heldList c.list c.lists = false := by
        rw [hnone]
        exact heldList_none _
      refine (Logged.acquire_rule hfree).bind fun _ => ?_
      refine Raising.Triple.bind (Q := fun _ => Resolving { c with
        list := some c.lists, lists := c.lists + 1 } made) ?_ fun _ => ?_
      · intro s hs
        refine ⟨?_, hs.rest.relist _ _⟩
        have htracks := hs.tracks
        rw [hnone, heldList_acquire] at htracks
        exact htracks
      · exact Raising.Triple.pure fun s hs => ⟨fun _ => rfl, hs⟩

theorem freeList_rule :
    Raising.Triple (Resolving c made) freeList
      (fun _ => Resolving { c with list := none } made) fun _ _ => False := by
  refine Raising.Triple.bind (Q := fun w s => w.list = c.list ∧ Resolving c made s) ?_
    fun w => Raising.Triple.of_fact fun hlist => ?_
  · intro s hs
    exact ⟨hs.rest.vars.1, hs⟩
  · rw [hlist]
    cases hc : c.list with
    | none =>
      refine Raising.Triple.pure fun s hs => ?_
      have hsame : { c with list := none } = c := by rw [← hc]
      rwa [hsame]
    | some l =>
      have hheld : heldList c.list l = true := by
        rw [hc]
        exact decide_eq_true rfl
      refine (Logged.free_rule hheld).bind fun _ => ?_
      intro s hs
      refine ⟨?_, ?_⟩
      · have htracks := hs.tracks
        rw [hc, heldList_free] at htracks
        exact htracks
      · have hrest := hs.rest.relist none c.lists
        have hvars : { s.rest with list := none, lists := c.lists } =
            ({ s.rest with list := none } : AddrWorld) := by rw [← hs.rest.vars.2]
        rwa [hvars] at hrest

theorem buildLoop_rule {l : Nat} (entries : List AddrInfo) (hlist : entries ≠ [] → c.list = some l)
    (table : List Nat) :
    Raising.Triple (Resolving c made) (buildLoop l table entries)
      (fun is s => ∃ ps, is = table ++ ps.map Prod.fst ∧ TableMade c entries ps ∧
        Resolving c (made ++ ps) s ∧ ∀ p ∈ ps, ∀ q ∈ made, q.1 ≠ p.1)
      fun e s => Resolving c made s ∧ ListBlame c entries e := by
  induction entries generalizing table made with
  | nil =>
    refine Raising.Triple.pure fun s hs => ⟨[], ?_, ⟨.nil, nofun, .nil⟩, ?_, nofun⟩
    · rw [List.map_nil, List.append_nil]
    · rwa [List.append_nil]
  | cons ptr rest ih =>
    have hl := hlist (List.cons_ne_nil ptr rest)
    have hheld : heldList c.list l = true := by
      rw [hl]
      exact decide_eq_true rfl
    have hblame {e : AddrError} (he : Blamed c ptr e) : ListBlame c (ptr :: rest) e := by
      cases he with
      | memory h => exact .memory h
      | oversize h => exact .oversize (List.find?_cons_of_pos (by rw [h]; rfl))
      | overread h hshort => exact .overread List.mem_cons_self h hshort
    refine (Logged.use_rule hheld).bind fun _ => ?_
    have hnew : Raising.Triple (Resolving c made) (Logged.inner (netAddrinfoNewObject ptr))
        (fun i s => ∃ info, (Makes ptr info ∧ c.frame ≤ i ∧ ∀ p ∈ made, p.1 ≠ i) ∧
          Resolving c (made ++ [(i, info)]) s)
        fun e s => Resolving c made s ∧ ListBlame c (ptr :: rest) e := by
      refine (Logged.inner_rule (netAddrinfoNewObject_rule ptr)).mono (fun _ h => h)
        (fun i s h => ?_) fun e s h => ⟨h.mono fun hrest => hrest.1, hblame h.rest.2⟩
      obtain ⟨info, hmakes, hrun, hnew⟩ := h.rest
      exact ⟨info, ⟨hmakes, hnew⟩, h.mono fun _ => hrun⟩
    refine hnew.bind fun i => Raising.Triple.of_exists fun info => Raising.Triple.of_fact fun hi => ?_
    obtain ⟨hmakes, hframe, hapart⟩ := hi
    have hlater {e : AddrError} (he : ListBlame c rest e) : ListBlame c (ptr :: rest) e := by
      cases he with
      | memory h => exact .memory h
      | oversize h =>
        refine .oversize ((List.find?_cons_of_neg ?_).trans h)
        rw [Option.isNone_iff_eq_none]
        exact usable_of_makes hmakes
      | overread hmem h hshort => exact .overread (List.mem_cons_of_mem _ hmem) h hshort
    refine (allocate_rule.mono (fun _ h => h) (fun _ _ h => h) fun e s h => ?_).bind fun _ => ?_
    · obtain ⟨hs, rfl, hample⟩ := h
      exact ⟨hs.mono Running.forget, .memory hample⟩
    refine (Logged.use_rule hheld).bind fun _ => ?_
    refine (ih (fun _ => hl) (table ++ [i])).mono (fun _ h => h) (fun is s h => ?_) fun e s h => ?_
    · obtain ⟨ps, rfl, hmade, hs, hothers⟩ := h
      refine ⟨(i, info) :: ps, ?_, ⟨.cons hmakes hmade.copies, ?_, ?_⟩, ?_, ?_⟩
      · rw [List.map_cons, List.append_assoc]
        rfl
      · exact List.forall_mem_cons.mpr ⟨hframe, hmade.fresh⟩
      · refine List.nodup_cons.mpr ⟨fun hmem => ?_, hmade.nodup⟩
        obtain ⟨p, hp, heq⟩ := List.mem_map.mp hmem
        exact hothers p hp (i, info) (List.mem_append_right _ (List.mem_singleton_self _)) heq.symm
      · rwa [List.append_assoc] at hs
      · refine List.forall_mem_cons.mpr ⟨hapart, fun p hp q hq => ?_⟩
        exact hothers p hp q (List.mem_append_left _ hq)
    · exact ⟨h.1.mono Running.forget, hlater h.2⟩

def CallCtx.Same (c c' : CallCtx) : Prop := c'.frame = c.frame ∧ c'.ample = c.ample

def Midway (c : CallCtx) (made : List (Nat × NetAddrinfo)) (s : Logged Nat AddrWorld) : Prop :=
  ∃ c', c.Same c' ∧ Resolving c' made s

def Settled (c : CallCtx) (made : List (Nat × NetAddrinfo)) (s : Logged Nat AddrWorld) : Prop :=
  ∃ c', (c.Same c' ∧ c'.list = none) ∧ Resolving c' made s

theorem Settled.of_resolving {s : Logged Nat AddrWorld} (hnone : c.list = none)
    (h : Resolving c made s) : Settled c made s := ⟨c, ⟨⟨rfl, rfl⟩, hnone⟩, h⟩

theorem freeList_settles :
    Raising.Triple (Midway c made) freeList (fun _ => Settled c made) fun _ _ => False := by
  refine Raising.Triple.of_exists fun c' => Raising.Triple.of_fact fun hsame => ?_
  exact freeList_rule.post fun _ s hs => ⟨{ c' with list := none }, ⟨hsame, rfl⟩, hs⟩

inductive Answered (c : CallCtx) : GaiAnswer → GaiReturn → List (Nat × NetAddrinfo) → Prop
  | failed (rc : Int) (errno : Nat) :
    Answered c (.failed rc errno) (.failed (gaiError rc errno)) []
  | table {entries : List AddrInfo} {ps : List (Nat × NetAddrinfo)} (h : TableMade c entries ps) :
    Answered c (.list entries) (.table (ps.map Prod.fst)) ps

inductive AnswerBlame (c : CallCtx) : GaiAnswer → AddrError → Prop
  | memory (answer : GaiAnswer) (h : ¬ c.ample) : AnswerBlame c answer .memory
  | entries {entries : List AddrInfo} {e : AddrError} (h : ListBlame c entries e) :
    AnswerBlame c (.list entries) e

theorem allocate_midway (answer : GaiAnswer) :
    Raising.Triple (Midway c made) allocate (fun _ => Midway c made)
      fun e s => Midway c made s ∧ AnswerBlame c answer e := by
  refine Raising.Triple.of_exists fun c' => Raising.Triple.of_fact fun hsame => ?_
  refine allocate_rule.mono (fun _ h => h) (fun _ s h => ⟨c', hsame, h⟩) fun e s h => ?_
  obtain ⟨hs, rfl, hample⟩ := h
  rw [hsame.2] at hample
  exact ⟨⟨c', hsame, hs⟩, .memory answer hample⟩

theorem buildAddrinfoList_rule (answer : GaiAnswer) (hnone : c.list = none) :
    Raising.Triple (Resolving c made) (buildAddrinfoList answer)
      (fun r s => ∃ ps, Answered c answer r ps ∧ Midway c (made ++ ps) s)
      fun e s => Midway c made s ∧ AnswerBlame c answer e := by
  cases answer with
  | failed rc errno =>
    refine ((allocate_midway _).pre fun s hs => ⟨c, ⟨rfl, rfl⟩, hs⟩).bind fun _ => ?_
    refine Raising.Triple.pure fun s hs => ⟨[], .failed rc errno, ?_⟩
    rwa [List.append_nil]
  | list entries =>
    refine (storeList_rule entries hnone).bind fun l => Raising.Triple.of_fact fun hlist => ?_
    have hsame : c.Same (c.stored entries) := stored_frame c entries
    refine Raising.Triple.bind (allocate_rule.mono (fun _ h => h) (fun _ _ h => h) fun e s h => ?_)
      fun _ => ?_
    · obtain ⟨hs, rfl, hample⟩ := h
      rw [hsame.2] at hample
      exact ⟨⟨_, hsame, hs⟩, .memory _ hample⟩
    refine Raising.Triple.bind ((buildLoop_rule entries hlist []).mono (fun _ h => h)
      (fun _ _ h => h) fun e s h => ?_) fun table => Raising.Triple.pure fun s h => ?_
    · refine ⟨⟨_, hsame, h.1⟩, .entries ?_⟩
      cases h.2 with
      | memory hample =>
        rw [hsame.2] at hample
        exact .memory hample
      | oversize hfirst => exact .oversize hfirst
      | overread hmem husable hshort => exact .overread hmem husable hshort
    · obtain ⟨ps, rfl, hmade, hs, -⟩ := h
      refine ⟨ps, .table ⟨hmade.copies, fun p hp => ?_, hmade.nodup⟩, _, hsame, hs⟩
      rw [← hsame.1]
      exact hmade.fresh p hp

theorem doGetaddrinfo_rule (answer : GaiAnswer) (hnone : c.list = none) :
    Raising.Triple (Resolving c made) (doGetaddrinfo answer)
      (fun r s => ∃ ps, Answered c answer r ps ∧ Settled c (made ++ ps) s)
      fun e s => Settled c made s ∧ AnswerBlame c answer e := by
  refine Raising.Triple.bind (allocate_rule.mono (fun _ h => h) (fun _ _ h => h) fun e s h => ?_)
    fun _ => ?_
  · obtain ⟨hs, rfl, hample⟩ := h
    exact ⟨.of_resolving hnone hs, .memory answer hample⟩
  refine (buildAddrinfoList_rule answer hnone).finallyDo (fun r => ?_) fun e => ?_
  · refine Raising.Triple.of_exists fun ps => Raising.Triple.of_fact fun hanswered => ?_
    exact freeList_settles.post fun _ s hs => ⟨ps, hanswered, hs⟩
  · refine Raising.Triple.pre (P := fun s => AnswerBlame c answer e ∧ Midway c made s)
      (Raising.Triple.of_fact fun hblame => ?_) fun s hs => hs.symm
    exact freeList_settles.post fun _ s hs => ⟨hs, hblame⟩

structure GaiArgs.Asks (args : GaiArgs) (answer : GaiAnswer) : Prop where
  asked : ∃ host serv hints, parseHostPort args.host args.port = .ok (some (host, serv)) ∧
    args.opts = .ok hints ∧ args.resolver host serv hints = answer

inductive GaiReturned (c : CallCtx) (args : GaiArgs) :
    GaiReturn → List (Nat × NetAddrinfo) → Prop
  | badPort (h : parseHostPort args.host args.port = .ok none) :
    GaiReturned c args (.failed (.eai eaiService "getaddrinfo")) []
  | answered {answer : GaiAnswer} {r : GaiReturn} {ps : List (Nat × NetAddrinfo)}
    (hasks : args.Asks answer) (h : Answered c answer r ps) : GaiReturned c args r ps

inductive GaiRaised (c : CallCtx) (args : GaiArgs) : AddrError → Prop
  | argument {e : AddrError} (h : parseHostPort args.host args.port = .error e) :
    GaiRaised c args e
  | options {msg : String} {hostserv : Option Bytes × Option Bytes}
    (hparse : parseHostPort args.host args.port = .ok (some hostserv))
    (h : args.opts = .error msg) : GaiRaised c args (.raised msg)
  | memory (h : ¬ c.ample) : GaiRaised c args .memory
  | entries {entries : List AddrInfo} {e : AddrError} (hasks : args.Asks (.list entries))
    (h : ListBlame c entries e) : GaiRaised c args e

theorem getaddrinfoLua_rule (args : GaiArgs) (hnone : c.list = none) :
    Raising.Triple (Resolving c made) (getaddrinfoLua args)
      (fun r s => ∃ ps, GaiReturned c args r ps ∧ Settled c (made ++ ps) s)
      fun e s => Settled c made s ∧ GaiRaised c args e := by
  rw [getaddrinfoLua]
  cases hparse : parseHostPort args.host args.port with
  | error e =>
    exact Raising.Triple.raise fun s hs => ⟨.of_resolving hnone hs, .argument hparse⟩
  | ok parsed =>
    cases parsed with
    | none =>
      refine Raising.Triple.bind (allocate_rule.mono (fun _ h => h) (fun _ _ h => h)
        fun e s h => ?_) fun _ => Raising.Triple.pure fun s hs => ?_
      · obtain ⟨hs, rfl, hample⟩ := h
        exact ⟨.of_resolving hnone hs, .memory hample⟩
      · refine ⟨[], .badPort hparse, ?_⟩
        rw [List.append_nil]
        exact .of_resolving hnone hs
    | some hostserv =>
      obtain ⟨host, serv⟩ := hostserv
      cases hopts : args.opts with
      | error msg =>
        exact Raising.Triple.raise fun s hs => ⟨.of_resolving hnone hs, .options hparse hopts⟩
      | ok hints =>
        obtain ⟨answer, hanswer⟩ : ∃ answer, args.resolver host serv hints = answer := ⟨_, rfl⟩
        have hasks : args.Asks answer := ⟨host, serv, hints, hparse, hopts, hanswer⟩
        simp only [hanswer]
        refine (doGetaddrinfo_rule _ hnone).mono (fun _ h => h) (fun r s h => ?_) fun e s h => ?_
        · obtain ⟨ps, hanswered, hs⟩ := h
          exact ⟨ps, .answered hasks hanswered, hs⟩
        · refine ⟨h.1, ?_⟩
          cases h.2 with
          | memory _ hample => exact .memory hample
          | entries hentries => exact .entries hasks hentries

end Rules

/-! Runs. -/

section Runs

structure AddrKept (made : List (Nat × NetAddrinfo)) (s : Logged Nat AddrWorld) : Prop where
  lists : Tracks (heldList none) s.events
  objs : ObjsKept made s.rest
  list : s.rest.list = none

inductive OpRaised (c : CallCtx) : AddrOp → AddrError → Prop
  | make {src : AddrInfo} {e : AddrError} (h : Blamed c src e) : OpRaised c (.make src) e
  | getaddrinfo {args : GaiArgs} {e : AddrError} (h : GaiRaised c args e) :
    OpRaised c (.getaddrinfo args) e

inductive OpReturned (c : CallCtx) : AddrOp → AddrRet → List (Nat × NetAddrinfo) → Prop
  | make {src : AddrInfo} {i : Nat} {info : NetAddrinfo} (h : Makes src info) :
    OpReturned c (.make src) (.object i) [(i, info)]
  | getaddrinfo {args : GaiArgs} {r : GaiReturn} {ps : List (Nat × NetAddrinfo)}
    (h : GaiReturned c args r ps) : OpReturned c (.getaddrinfo args) (.resolved r) ps
  | collect (is : List Nat) : OpReturned c (.collect is) .collected []

variable {made : List (Nat × NetAddrinfo)} {s : Logged Nat AddrWorld}

theorem run_rule {c : CallCtx} (op : AddrOp) (hnone : c.list = none) :
    Raising.Triple (Resolving c made) op.run
      (fun r s => ∃ ps, OpReturned c op r ps ∧ Settled c (made ++ ps) s)
      fun e s => Settled c made s ∧ OpRaised c op e := by
  cases op with
  | make src =>
    refine Raising.Triple.bind ((Logged.inner_rule (netAddrinfoNewObject_rule src)).mono
      (fun _ h => h) (fun _ _ h => h) fun e s h => ?_) fun i => Raising.Triple.pure fun s h => ?_
    · exact ⟨.of_resolving hnone (h.mono fun hrest => hrest.1), .make h.rest.2⟩
    · obtain ⟨info, hmakes, hrun, -⟩ := h.rest
      exact ⟨[(i, info)], .make hmakes, .of_resolving hnone (h.mono fun _ => hrun)⟩
  | getaddrinfo args =>
    refine Raising.Triple.bind ((getaddrinfoLua_rule args hnone).mono (fun _ h => h)
      (fun _ _ h => h) fun e s h => ⟨h.1, .getaddrinfo h.2⟩) fun r => Raising.Triple.pure fun s h => ?_
    obtain ⟨ps, hret, hs⟩ := h
    exact ⟨ps, .getaddrinfo hret, hs⟩
  | collect is =>
    intro s hs
    refine ⟨[], .collect is, ?_⟩
    rw [List.append_nil]
    exact .of_resolving hnone ⟨hs.tracks, hs.rest.collect is⟩

def enterCtx (memory : List AllocAns) (s : Logged Nat AddrWorld) : CallCtx where
  frame := s.rest.objs.length
  ample := ∀ a ∈ memory, a.granted = true
  list := none
  lists := s.rest.lists

theorem AddrKept.enter (h : AddrKept made s) (memory : List AllocAns) :
    Resolving (enterCtx memory s) made { s with rest := s.rest.enter memory } := by
  refine ⟨h.lists, ⟨h.objs.refs.of_same rfl rfl rfl, fun p hp => ?_⟩, nofun, rfl, Nat.le_refl _,
    fun hample => hample, h.list, rfl⟩
  have hlt := stands_lt (h.objs.stands p hp)
  obtain ⟨o, hi, -, hshape⟩ := h.objs.stands p hp
  exact ⟨o, hi, fun _ => hlt, hshape⟩

theorem Settled.kept {c : CallCtx} (h : Settled c made s) : AddrKept made s := by
  obtain ⟨c', ⟨-, hnone⟩, hs⟩ := h
  have htracks := hs.tracks
  rw [hnone] at htracks
  exact ⟨htracks, hs.rest.kept, hs.rest.vars.1.trans hnone⟩

/-- What is known of a call that has been made. -/
inductive CallEnded (made : List (Nat × NetAddrinfo)) (call : AddrCall) :
    CallCtx → AddrRet → Logged Nat AddrWorld → List (Nat × NetAddrinfo) → Prop
  | returned {c : CallCtx} {r : AddrRet} {t : Logged Nat AddrWorld} {ps : List (Nat × NetAddrinfo)}
    (h : OpReturned c call.op r ps) (hs : Settled c (made ++ ps) t) : CallEnded made call c r t ps
  | raised {c : CallCtx} {e : AddrError} {t : Logged Nat AddrWorld} (h : OpRaised c call.op e)
    (hs : Settled c made t) : CallEnded made call c (.raised e) t []

theorem addrCall_ends (h : AddrKept made s) (call : AddrCall) :
    ∃ ps, CallEnded made call (enterCtx call.memory s) (addrCall call s).1 (addrCall call s).2 ps := by
  have hrun := run_rule call.op rfl _ (h.enter call.memory)
  rw [addrCall]
  rcases hcase : call.op.run { s with rest := s.rest.enter call.memory } with ⟨e | r, t⟩
  · rw [hcase] at hrun
    exact ⟨[], .raised hrun.2 hrun.1⟩
  · rw [hcase] at hrun
    obtain ⟨ps, hret, hs⟩ := hrun
    exact ⟨ps, .returned hret hs⟩

/-- An object is still what it was made of, or it has been finalized. -/
def AddrWorld.Remains (w : AddrWorld) (src : AddrInfo) (i : Nat) : Prop :=
  ∃ o info, w.objs[i]? = some o ∧ Makes src info ∧ (o.gone = false → w.view o = some info)

inductive CallRemains (w : AddrWorld) : AddrCall × AddrRet → Prop
  | object {call : AddrCall} {src : AddrInfo} {i : Nat} (hop : call.op = .make src)
    (h : w.Remains src i) : CallRemains w (call, .object i)
  | table {call : AddrCall} {args : GaiArgs} {entries : List AddrInfo} {objs : List Nat}
    (hop : call.op = .getaddrinfo args) (hasks : args.Asks (.list entries))
    (h : List.Forall₂ w.Remains entries objs) : CallRemains w (call, .resolved (.table objs))
  | failed (call : AddrCall) (e : GaiError) : CallRemains w (call, .resolved (.failed e))
  | raised (call : AddrCall) {e : AddrError} (h : e ≠ .dangling) : CallRemains w (call, .raised e)
  | collected (call : AddrCall) : CallRemains w (call, .collected)

inductive CallKept (made : List (Nat × NetAddrinfo)) : AddrCall × AddrRet → Prop
  | returned {call : AddrCall} {c : CallCtx} {r : AddrRet} {ps : List (Nat × NetAddrinfo)}
    (h : OpReturned c call.op r ps) (hps : ps ⊆ made) : CallKept made (call, r)
  | raised {call : AddrCall} {c : CallCtx} {e : AddrError} (h : OpRaised c call.op e) :
    CallKept made (call, .raised e)

theorem CallEnded.kept {call : AddrCall} {c : CallCtx} {r : AddrRet} {t : Logged Nat AddrWorld}
    {ps : List (Nat × NetAddrinfo)} (h : CallEnded made call c r t ps) :
    AddrKept (made ++ ps) t ∧ ∀ more, CallKept (made ++ (ps ++ more)) (call, r) := by
  cases h with
  | returned hret hs =>
    refine ⟨hs.kept, fun more => .returned hret fun p hp => ?_⟩
    exact List.mem_append_right _ (List.mem_append_left _ hp)
  | raised hraised hs =>
    rw [List.append_nil]
    exact ⟨hs.kept, fun _ => .raised hraised⟩

theorem addrRun_kept (calls : List AddrCall) (h : AddrKept made s) :
    ∃ more, AddrKept (made ++ more) (addrRun calls s).2 ∧
      ∀ p ∈ (addrRun calls s).1, CallKept (made ++ more) p := by
  induction calls generalizing made s with
  | nil =>
    refine ⟨[], ?_, nofun⟩
    rwa [List.append_nil]
  | cons call calls ih =>
    obtain ⟨ps, hend⟩ := addrCall_ends h call
    obtain ⟨hafter, hcall⟩ := hend.kept
    obtain ⟨more, hkept, hcalls⟩ := ih hafter
    rw [List.append_assoc] at hkept hcalls
    exact ⟨ps ++ more, hkept, List.forall_mem_cons.mpr ⟨hcall more, hcalls⟩⟩

theorem addrKept_empty : AddrKept [] ⟨[], {}⟩ where
  lists := tracks_nil
  objs := ⟨⟨nofun, nofun, nofun, nofun, nofun, nofun⟩, nofun⟩
  list := rfl

theorem AddrKept.remains (h : AddrKept made s) {src : AddrInfo} {p : Nat × NetAddrinfo}
    (hp : p ∈ made) (hmakes : Makes src p.2) : s.rest.Remains src p.1 := by
  have hstands := h.objs.stands p hp
  obtain ⟨o, hi, -⟩ := h.objs.stands p hp
  exact ⟨o, p.2, hi, hmakes, view_of_stands hstands hi⟩

theorem AddrKept.table_remains (h : AddrKept made s) {entries : List AddrInfo}
    {ps : List (Nat × NetAddrinfo)} (hps : ps ⊆ made)
    (hcopies : List.Forall₂ (fun src p => Makes src p.2) entries ps) :
    List.Forall₂ s.rest.Remains entries (ps.map Prod.fst) := by
  induction hcopies with
  | nil => exact .nil
  | cons hmakes _ ih =>
    refine .cons (h.remains (hps List.mem_cons_self) hmakes) (ih fun p hp => ?_)
    exact hps (List.mem_cons_of_mem _ hp)

theorem ListBlame.not_dangling {c : CallCtx} {entries : List AddrInfo} {e : AddrError}
    (h : ListBlame c entries e) : e ≠ .dangling := by
  cases h <;> nofun

theorem parseHostPort_error {host : Option Bytes} {port : ServArg} {e : AddrError}
    (h : parseHostPort host port = .error e) : ∃ arg msg, e = .argError arg msg := by
  have hhost {e : AddrError} (h : parseHost host = .error e) : ∃ arg msg, e = .argError arg msg := by
    cases host with
    | none => cases h
    | some host =>
      rw [parseHost] at h
      split at h
      · cases h
      · split at h
        · cases h
          exact ⟨_, _, rfl⟩
        · cases h
  have hport {e : AddrError} (h : parsePort port = .error e) : ∃ arg msg, e = .argError arg msg := by
    rw [parsePort.eq_def] at h
    cases port with
    | string s =>
      simp only at h
      split at h
      · cases h
      · split at h
        · cases h
          exact ⟨_, _, rfl⟩
        · cases h
    | number p =>
      simp only at h
      split at h <;> cases h
    | _ => cases h
  rw [parseHostPort] at h
  cases hcase : parseHost host with
  | error e' =>
    rw [hcase] at h
    cases h
    exact hhost hcase
  | ok host' =>
    cases hcase' : parsePort port with
    | error e' =>
      rw [hcase, hcase'] at h
      cases h
      exact hport hcase'
    | ok serv =>
      rw [hcase, hcase'] at h
      cases h

theorem CallKept.remains (h : AddrKept made s) {p : AddrCall × AddrRet} (hp : CallKept made p) :
    CallRemains s.rest p := by
  cases hp with
  | @returned call c r ps hret hps =>
    cases hop : call.op with
    | make src =>
      rw [hop] at hret
      cases hret with
      | make hmakes =>
        exact .object hop (h.remains (hps List.mem_cons_self) hmakes)
    | getaddrinfo args =>
      rw [hop] at hret
      cases hret with
      | getaddrinfo hgai =>
        cases hgai with
        | badPort _ => exact .failed call _
        | answered hasks hanswered =>
          cases hanswered with
          | failed rc errno => exact .failed call _
          | table hmade => exact .table hop hasks (h.table_remains hps hmade.copies)
    | collect is =>
      rw [hop] at hret
      cases hret
      exact .collected call
  | @raised call c e hraised =>
    refine .raised call ?_
    cases hop : call.op with
    | make src =>
      rw [hop] at hraised
      cases hraised with
      | make hblame => cases hblame <;> nofun
    | getaddrinfo args =>
      rw [hop] at hraised
      cases hraised with
      | getaddrinfo hgai =>
        cases hgai with
        | argument hparse =>
          obtain ⟨arg, msg, rfl⟩ := parseHostPort_error hparse
          nofun
        | options _ _ => nofun
        | memory _ => nofun
        | entries _ hentries => exact hentries.not_dangling
    | collect is =>
      rw [hop] at hraised
      cases hraised

end Runs

/-- In every run the resolver's lists are freed once each and never used when they are not alive,
each reference in the registry keeps alive what one field of one object points to, and an object
stays what it was made of until its own finalizer runs, also when that happens to the others. -/
theorem addrinfo_custody (calls : List AddrCall) :
    (SafeLives (addrRun calls ⟨[], {}⟩).2.events ∧
      ∀ l, aliveAfter l (addrRun calls ⟨[], {}⟩).2.events = false) ∧
    RefsKept (addrRun calls ⟨[], {}⟩).2.rest ∧
    ∀ p ∈ (addrRun calls ⟨[], {}⟩).1, CallRemains (addrRun calls ⟨[], {}⟩).2.rest p := by
  obtain ⟨more, hkept, hcalls⟩ := addrRun_kept calls addrKept_empty
  refine ⟨⟨hkept.lists.safe, fun l => ?_⟩, hkept.objs.refs, fun p hp => ?_⟩
  · rw [hkept.lists.alive]
    exact heldList_none l
  · exact (hcalls p hp).remains hkept

/-- What a call of `getaddrinfo` comes to, by its arguments, the resolver's answer, and whether all
allocations are granted. -/
inductive GaiOutcome (args : GaiArgs) (ample : Prop) : AddrRet × Logged Nat AddrWorld → Prop
  | argument {e : AddrError} {t : Logged Nat AddrWorld}
    (h : parseHostPort args.host args.port = .error e) : GaiOutcome args ample (.raised e, t)
  | badPort {t : Logged Nat AddrWorld} (h : parseHostPort args.host args.port = .ok none) :
    GaiOutcome args ample (.resolved (.failed (.eai eaiService "getaddrinfo")), t)
  | options {msg : String} {hostserv : Option Bytes × Option Bytes} {t : Logged Nat AddrWorld}
    (hparse : parseHostPort args.host args.port = .ok (some hostserv))
    (h : args.opts = .error msg) : GaiOutcome args ample (.raised (.raised msg), t)
  | failed {rc : Int} {errno : Nat} {t : Logged Nat AddrWorld} (h : args.Asks (.failed rc errno)) :
    GaiOutcome args ample (.resolved (.failed (gaiError rc errno)), t)
  /-- One object for each entry, in their order, and none twice. -/
  | table {entries : List AddrInfo} {objs : List Nat} {t : Logged Nat AddrWorld}
    (h : args.Asks (.list entries)) (hnodup : objs.Nodup)
    (hcopies : List.Forall₂ (fun src i => ∃ o info, t.rest.objs[i]? = some o ∧ Makes src info ∧
      t.rest.view o = some info) entries objs) :
    GaiOutcome args ample (.resolved (.table objs), t)
  | memory {t : Logged Nat AddrWorld} (h : ¬ ample) : GaiOutcome args ample (.raised .memory, t)
  | oversize {entries : List AddrInfo} {src : AddrInfo} {t : Logged Nat AddrWorld}
    (h : args.Asks (.list entries))
    (hfirst : entries.find? (fun e => e.usable.isNone) = some src) :
    GaiOutcome args ample (.raised (.raised (oversizeText src.addrlen)), t)
  /-- The resolver has answered with an address that is shorter than it says. -/
  | overread {entries : List AddrInfo} {src : AddrInfo} {addr : Bytes} {t : Logged Nat AddrWorld}
    (h : args.Asks (.list entries)) (hmem : src ∈ entries) (husable : src.usable = some addr)
    (hshort : addr.length < src.addrlen) : GaiOutcome args ample (.raised .overread, t)

theorem Settled.view {c : CallCtx} {made : List (Nat × NetAddrinfo)} {t : Logged Nat AddrWorld}
    (h : Settled c made t) {p : Nat × NetAddrinfo} (hp : p ∈ made) (hframe : c.frame ≤ p.1) :
    ∃ o, t.rest.objs[p.1]? = some o ∧ t.rest.view o = some p.2 := by
  obtain ⟨c', ⟨hsame, -⟩, hs⟩ := h
  have hstands := hs.rest.kept.stands p hp
  obtain ⟨o, hi, hgone, -⟩ := hs.rest.kept.stands p hp
  have hlive : o.gone = false := by
    cases hcase : o.gone with
    | false => rfl
    | true =>
      have hlt := hgone hcase
      rw [hs.rest.frame, hsame.1] at hlt
      exact absurd hframe (Nat.not_le.mpr hlt)
  exact ⟨o, hi, view_of_stands hstands hi hlive⟩

theorem Settled.table_views {c : CallCtx} {made : List (Nat × NetAddrinfo)}
    {t : Logged Nat AddrWorld} (h : Settled c made t) {entries : List AddrInfo}
    {ps : List (Nat × NetAddrinfo)} (hps : ∀ p ∈ ps, p ∈ made ∧ c.frame ≤ p.1)
    (hcopies : List.Forall₂ (fun src p => Makes src p.2) entries ps) :
    List.Forall₂ (fun src i => ∃ o info, t.rest.objs[i]? = some o ∧ Makes src info ∧
      t.rest.view o = some info) entries (ps.map Prod.fst) := by
  induction hcopies with
  | nil => exact .nil
  | @cons src p entries ps hmakes _ ih =>
    obtain ⟨hp, hrest⟩ := List.forall_mem_cons.mp hps
    obtain ⟨o, hi, hview⟩ := h.view hp.1 hp.2
    exact .cons ⟨o, p.2, hi, hmakes, hview⟩ (ih hrest)

/-- After every run a call of `getaddrinfo` answers with what the resolver has answered, as objects
of its own, or raises an error that its arguments, the entries or the memory account for. -/
theorem getaddrinfo_outcome (calls : List AddrCall) (args : GaiArgs) (memory : List AllocAns) :
    GaiOutcome args (∀ a ∈ memory, a.granted = true)
      (addrCall ⟨.getaddrinfo args, memory⟩ (addrRun calls ⟨[], {}⟩).2) := by
  obtain ⟨more, hkept, -⟩ := addrRun_kept calls addrKept_empty
  obtain ⟨ps, hend⟩ := addrCall_ends hkept ⟨.getaddrinfo args, memory⟩
  generalize addrCall ⟨.getaddrinfo args, memory⟩ (addrRun calls ⟨[], {}⟩).2 = rt at hend ⊢
  obtain ⟨r, t⟩ := rt
  cases hend with
  | returned hret hs =>
    cases hret with
    | getaddrinfo hgai =>
      cases hgai with
      | badPort h => exact .badPort h
      | answered hasks hanswered =>
        cases hanswered with
        | failed rc errno => exact .failed hasks
        | table hmade =>
          refine .table hasks hmade.nodup (hs.table_views (fun p hp => ?_) hmade.copies)
          exact ⟨List.mem_append_right _ hp, hmade.fresh p hp⟩
  | raised hraised hs =>
    cases hraised with
    | getaddrinfo hgai =>
      cases hgai with
      | argument h => exact .argument h
      | options hparse h => exact .options hparse h
      | memory h => exact .memory h
      | entries hasks hentries =>
        cases hentries with
        | memory h => exact .memory h
        | oversize hfirst => exact .oversize hasks hfirst
        | overread hmem husable hshort => exact .overread hasks hmem husable hshort

end LuaNet.Addrinfo
