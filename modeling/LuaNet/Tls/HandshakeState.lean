import Mathlib.Logic.Function.Basic
import LuaNet.Lib.Reentrant
import LuaNet.Tls.Context

/-! The Lua state of a handshake. `do_handshake` leaves the state it runs on in the `sslctx` of the
server, where `client_hello_cb` finds it, and puts the earlier one back. Handshakes nest inside
SNI callbacks and coroutines, over contexts that share an `sslctx`. -/

namespace LuaNet.Tls

open LuaNet.Lib

abbrev LuaStateId := Nat

def mainState : LuaStateId := 0

abbrev SslCtxId := Nat

abbrev CtxId := Nat

structure AcceptCtx where
  parent : ParentId
  sniDone : Bool := false
  handshaked : Bool := false
  closed : Bool := false

/-- `saved` is the field `L` of each `sslctx`, `ctxs` lists the contexts there have been, `dead`
the collected servers and `finished` the coroutines that have ended. -/
structure HandshakeWorld where
  saved : SslCtxId → Option LuaStateId
  ctxs : List AcceptCtx
  dead : List ParentId
  finished : List LuaStateId

structure DriveCall where
  ctx : CtxId
  p : ParentId
  prev : Option LuaStateId
  L : LuaStateId
  before : SslCtxId → Option LuaStateId

/-- `enter` and `resuming` have just been called; `accept` is inside of `SSL_accept`, `sni` in the
SNI callback on the state `on`. -/
inductive DriveFrame
  | enter (c : CtxId)
  | resuming (co : LuaStateId)
  | resumed (co : LuaStateId)
  | accept (call : DriveCall)
  | sni (call : DriveCall) (on : LuaStateId)

inductive DriveMethod
  | handshake (c : CtxId)
  | resume (co : LuaStateId)

inductive DriveForeign
  | accept (p : ParentId)
  | close (c : CtxId)
  | collect (p : ParentId)

structure DriveAns where
  hello : Option ServerName := none
  success : Bool := false
  target : Option ParentId := none
  ended : Bool := false

/-- A callback on the state `on`, for a handshake driven by `driving` while `current` runs; and a
handshake call that is over, with all saved states before and after it. -/
inductive DriveEvent
  | callback (on : Option LuaStateId) (driving current : LuaStateId)
  | returned (before after : SslCtxId → Option LuaStateId) (ownerAlive : Bool)

abbrev DriveStep := HandshakeWorld × Option DriveFrame × List DriveEvent

def running : List DriveFrame → LuaStateId
  | [] => mainState
  | .resumed co :: _ => co
  | .sni _ on :: _ => on
  | _ :: fs => running fs

def DriveFrame.uses (c : CtxId) : DriveFrame → Bool
  | .accept call => call.ctx = c
  | .sni call _ => call.ctx = c
  | _ => false

def DriveFrame.runs (co : LuaStateId) : DriveFrame → Bool
  | .resumed co' => co' = co
  | _ => false

def DriveFrame.waits : DriveFrame → Bool
  | .resumed _ => true
  | .sni _ _ => true
  | _ => false

namespace HandshakeWorld

def setSaved (w : HandshakeWorld) (k : SslCtxId) (L : Option LuaStateId) : HandshakeWorld :=
  { w with saved := Function.update w.saved k L }

def setCtx (w : HandshakeWorld) (c : CtxId) (ctx : AcceptCtx) : HandshakeWorld :=
  { w with ctxs := w.ctxs.set c ctx }

def doHandshake (sslctx : ParentId → SslCtxId) (w : HandshakeWorld) (L : LuaStateId) (c : CtxId) :
    DriveStep :=
  match w.ctxs[c]? with
  | none => (w, none, [])
  | some ctx =>
    if ctx.closed || ctx.handshaked then (w, none, [])
    else
      let p := ctx.parent
      let prev := w.saved (sslctx p)
      (w.setSaved (sslctx p) (some L), some (.accept ⟨c, p, prev, L, w.saved⟩), [])

def clientHelloCb (sslctx : ParentId → SslCtxId) (sni : ParentId → Bool) (w : HandshakeWorld)
    (current : LuaStateId) (call : DriveCall) (name : ServerName) : DriveStep :=
  let stay := some (.accept call)
  match w.ctxs[call.ctx]? with
  | none => (w, stay, [])
  | some ctx =>
    if !sni ctx.parent then (w, stay, [])
    else if ctx.sniDone then (w, stay, [])
    else
      let w := w.setCtx call.ctx { ctx with sniDone := true }
      match name with
      | .hostName =>
        -- the callback runs on the state that the server has saved
        let on := w.saved (sslctx ctx.parent)
        let next := match on with
          | none => .accept call
          | some L => .sni call L
        (w, some next, [.callback on call.L current])
      | _ => (w, stay, [])

def acceptReturned (sslctx : ParentId → SslCtxId) (w : HandshakeWorld) (call : DriveCall)
    (success : Bool) : DriveStep :=
  -- the server is the one of the start, even if another was selected
  let restored := w.setSaved (sslctx call.p) call.prev
  let ended := match w.ctxs[call.ctx]? with
    | none => restored
    | some ctx => restored.setCtx call.ctx { ctx with handshaked := success }
  (ended, none, [.returned call.before ended.saved (call.p ∉ w.dead)])

def selected (w : HandshakeWorld) (call : DriveCall) (target : Option ParentId) :
    HandshakeWorld :=
  match target, w.ctxs[call.ctx]? with
  | some t, some ctx =>
    if t ∈ w.dead then w else w.setCtx call.ctx { ctx with parent := t }
  | _, _ => w

end HandshakeWorld

def driveAct (sslctx : ParentId → SslCtxId) (sni : ParentId → Bool) (w : HandshakeWorld)
    (fs : List DriveFrame) (f : DriveFrame) (a : DriveAns) : DriveStep :=
  match f with
  | .enter c => w.doHandshake sslctx (running fs) c
  | .resuming co =>
    if co = mainState ∨ co ∈ w.finished ∨ fs.any (DriveFrame.runs co) then (w, none, [])
    else (w, some (.resumed co), [])
  | .resumed co => (if a.ended then { w with finished := co :: w.finished } else w, none, [])
  | .accept call =>
    match a.hello with
    | some name => w.clientHelloCb sslctx sni (running fs) call name
    | none => w.acceptReturned sslctx call a.success
  -- an error of the callback stays in its protected call
  | .sni call _ => (w.selected call a.target, some (.accept call), [])

def DriveMethod.start : DriveMethod → DriveFrame
  | .handshake c => .enter c
  | .resume co => .resuming co

def driveForeign (w : HandshakeWorld) (fs : List DriveFrame) : DriveForeign → HandshakeWorld
  | .accept p => if p ∈ w.dead then w else { w with ctxs := w.ctxs ++ [{ parent := p }] }
  | .close c =>
    match w.ctxs[c]? with
    | none => w
    | some ctx =>
      if fs.any (DriveFrame.uses c) then w else w.setCtx c { ctx with closed := true }
  | .collect p =>
    if w.ctxs.any (fun ctx => !ctx.closed && ctx.parent = p) then w
    else { w with dead := p :: w.dead }

def driveMachine (sslctx : ParentId → SslCtxId) (sni : ParentId → Bool) :
    Reentrant HandshakeWorld DriveFrame DriveMethod DriveForeign DriveAns DriveEvent where
  start := DriveMethod.start
  waits := DriveFrame.waits
  foreign := driveForeign
  act := driveAct sslctx sni

/-! What is kept. -/

/-- A callback runs on the state that drives its handshake, which is the one that runs; a
handshake call leaves all saved states as they were. -/
def DriveEvent.Good : DriveEvent → Prop
  | .callback on driving current => on = some driving ∧ driving = current
  | .returned before after ownerAlive => after = before ∧ ownerAlive = true

/-- What a handshake call has found, and what it has made of the saved states. -/
structure DriveCall.Entered (sslctx : ParentId → SslCtxId) (call : DriveCall)
    (fs : List DriveFrame) (saved : SslCtxId → Option LuaStateId) : Prop where
  saved : saved = Function.update call.before (sslctx call.p) (some call.L)
  prev : call.prev = call.before (sslctx call.p)
  driving : call.L = running fs

def Linked (sslctx : ParentId → SslCtxId) :
    List DriveFrame → (SslCtxId → Option LuaStateId) → Prop
  | [], _ => True
  | .accept call :: fs, saved => call.Entered sslctx fs saved ∧ Linked sslctx fs call.before
  | .sni call on :: fs, saved =>
    on = call.L ∧ call.Entered sslctx fs saved ∧ Linked sslctx fs call.before
  | .enter _ :: fs, saved => Linked sslctx fs saved
  | .resuming _ :: fs, saved => Linked sslctx fs saved
  | .resumed _ :: fs, saved => Linked sslctx fs saved

def DriveFrame.sniCtx? : DriveFrame → Option CtxId
  | .sni call _ => some call.ctx
  | _ => none

theorem sniCtxs_cons (call : DriveCall) (on : LuaStateId) (fs : List DriveFrame) :
    (DriveFrame.sni call on :: fs).filterMap DriveFrame.sniCtx? =
      call.ctx :: fs.filterMap DriveFrame.sniCtx? := rfl

structure DriveInv (sslctx : ParentId → SslCtxId) (w : HandshakeWorld) (fs : List DriveFrame) :
    Prop where
  linked : Linked sslctx fs w.saved
  /-- Until a server is selected the parent is the one that `do_handshake` remembers. -/
  accepting : ∀ call, .accept call ∈ fs → ∃ ctx, w.ctxs[call.ctx]? = some ctx ∧
    ctx.closed = false ∧ call.p ∉ w.dead ∧ (ctx.parent = call.p ∨ ctx.sniDone = true)
  waiting : ∀ call on, .sni call on ∈ fs → ∃ ctx, w.ctxs[call.ctx]? = some ctx ∧
    ctx.closed = false ∧ ctx.parent = call.p ∧ ctx.sniDone = true
  distinct : (fs.filterMap DriveFrame.sniCtx?).Nodup
  anchored : ∀ ctx ∈ w.ctxs, ctx.closed = false → ctx.parent ∉ w.dead

section Steps

variable {sslctx : ParentId → SslCtxId} {w : HandshakeWorld} {fs : List DriveFrame}

theorem HandshakeWorld.setCtx_get (w : HandshakeWorld) (c d : CtxId) (ctx : AcceptCtx) :
    (w.setCtx c ctx).ctxs[d]? =
      if c = d then (w.ctxs[d]?).map fun _ => ctx else w.ctxs[d]? := by
  unfold setCtx
  rw [List.getElem?_set]
  split
  next heq =>
    subst heq
    split
    next hlt => rw [List.getElem?_eq_getElem hlt, Option.map_some]
    next hge => rw [List.getElem?_eq_none (Nat.le_of_not_lt hge), Option.map_none]
  next => rfl

theorem DriveInv.push {f : DriveFrame} (h : DriveInv sslctx w fs)
    (hlinked : Linked sslctx (f :: fs) w.saved) (haccept : ∀ call, f ≠ .accept call)
    (hsni : ∀ call on, f ≠ .sni call on) : DriveInv sslctx w (f :: fs) where
  linked := hlinked
  accepting call hmem := by
    rcases List.mem_cons.1 hmem with heq | hmem
    · exact absurd heq.symm (haccept call)
    · exact h.accepting call hmem
  waiting call on hmem := by
    rcases List.mem_cons.1 hmem with heq | hmem
    · exact absurd heq.symm (hsni call on)
    · exact h.waiting call on hmem
  distinct := by
    have hnone : f.sniCtx? = none := by
      cases f with
      | sni call on => exact absurd rfl (hsni call on)
      | _ => rfl
    rw [List.filterMap_cons_none hnone]
    exact h.distinct
  anchored := h.anchored

theorem DriveInv.pop {f : DriveFrame} (h : DriveInv sslctx w (f :: fs))
    (hlinked : Linked sslctx fs w.saved) : DriveInv sslctx w fs where
  linked := hlinked
  accepting call hmem := h.accepting call (List.mem_cons_of_mem f hmem)
  waiting call on hmem := h.waiting call on (List.mem_cons_of_mem f hmem)
  distinct := h.distinct.sublist ((List.sublist_cons_self f fs).filterMap _)
  anchored := h.anchored

theorem DriveInv.setCtx {c : CtxId} {ctx ctx' : AcceptCtx} (h : DriveInv sslctx w fs)
    (hget : w.ctxs[c]? = some ctx) (hparent : ctx'.parent = ctx.parent)
    (hclosed : ctx'.closed = ctx.closed) (hdone : ctx.sniDone = true → ctx'.sniDone = true) :
    DriveInv sslctx (w.setCtx c ctx') fs where
  linked := h.linked
  accepting call hmem := by
    obtain ⟨old, hold, hopen, halive, howner⟩ := h.accepting call hmem
    rw [HandshakeWorld.setCtx_get]
    by_cases heq : c = call.ctx
    · subst heq
      obtain rfl := Option.some.inj (hget.symm.trans hold)
      rw [if_pos rfl, hold]
      exact ⟨ctx', rfl, hclosed.trans hopen, halive, howner.imp (hparent.trans ·) hdone⟩
    · rw [if_neg heq]
      exact ⟨old, hold, hopen, halive, howner⟩
  waiting call on hmem := by
    obtain ⟨old, hold, hopen, howner, hsettled⟩ := h.waiting call on hmem
    rw [HandshakeWorld.setCtx_get]
    by_cases heq : c = call.ctx
    · subst heq
      obtain rfl := Option.some.inj (hget.symm.trans hold)
      rw [if_pos rfl, hold]
      exact ⟨ctx', rfl, hclosed.trans hopen, hparent.trans howner, hdone hsettled⟩
    · rw [if_neg heq]
      exact ⟨old, hold, hopen, howner, hsettled⟩
  distinct := h.distinct
  anchored := by
    intro other hmem hopen
    rcases List.mem_or_eq_of_mem_set hmem with hmem | rfl
    · exact h.anchored other hmem hopen
    · have hold := h.anchored ctx (List.mem_of_getElem? hget) (hclosed.symm.trans hopen)
      rwa [hparent]

theorem DriveInv.enter {c : CtxId} (h : DriveInv sslctx w (.enter c :: fs)) :
    DriveInv sslctx (w.doHandshake sslctx (running fs) c).1
      ((w.doHandshake sslctx (running fs) c).2.1.toList ++ fs) := by
  have hpop : DriveInv sslctx w fs := h.pop h.linked
  unfold HandshakeWorld.doHandshake
  split
  · exact hpop
  next ctx hget =>
    split
    · exact hpop
    next hgoing =>
      simp only [Bool.or_eq_true, not_or, Bool.not_eq_true] at hgoing
      have halive := hpop.anchored ctx (List.mem_of_getElem? hget) hgoing.1
      refine ⟨⟨⟨rfl, rfl, rfl⟩, h.linked⟩, fun call hmem => ?_, fun call on hmem => ?_,
        hpop.distinct, hpop.anchored⟩
      · rcases List.mem_cons.1 hmem with heq | hmem
        · obtain rfl := DriveFrame.accept.inj heq
          exact ⟨ctx, hget, hgoing.1, halive, Or.inl rfl⟩
        · exact hpop.accepting call hmem
      · rcases List.mem_cons.1 hmem with heq | hmem
        · exact absurd heq nofun
        · exact hpop.waiting call on hmem

theorem DriveInv.callback {call : DriveCall} {ctx : AcceptCtx}
    (h : DriveInv sslctx w (.accept call :: fs)) (hget : w.ctxs[call.ctx]? = some ctx)
    (hfresh : ctx.sniDone = false) :
    w.saved (sslctx ctx.parent) = some call.L ∧
      DriveInv sslctx (w.setCtx call.ctx { ctx with sniDone := true }) (.sni call call.L :: fs) := by
  obtain ⟨hentered, hlinked⟩ := h.linked
  obtain ⟨old, hold, hopen, -, howner⟩ := h.accepting call List.mem_cons_self
  obtain rfl := Option.some.inj (hget.symm.trans hold)
  have hparent : ctx.parent = call.p := howner.resolve_right (by rw [hfresh]; exact nofun)
  have hmarked : DriveInv sslctx (w.setCtx call.ctx { ctx with sniDone := true })
      (.accept call :: fs) := h.setCtx hget rfl rfl fun _ => rfl
  constructor
  · rw [hparent, hentered.saved, Function.update_self]
  · refine ⟨⟨rfl, hentered, hlinked⟩, fun call' hmem => ?_, fun call' on hmem => ?_, ?_,
      hmarked.anchored⟩
    · rcases List.mem_cons.1 hmem with heq | hmem
      · exact absurd heq nofun
      · exact hmarked.accepting call' (List.mem_cons_of_mem _ hmem)
    · rcases List.mem_cons.1 hmem with heq | hmem
      · obtain ⟨rfl, rfl⟩ := DriveFrame.sni.inj heq
        refine ⟨{ ctx with sniDone := true }, ?_, hopen, hparent, rfl⟩
        rw [HandshakeWorld.setCtx_get, if_pos rfl, hget]
        rfl
      · exact hmarked.waiting call' on (List.mem_cons_of_mem _ hmem)
    · -- a callback of the context that still runs would have settled it
      rw [sniCtxs_cons]
      refine List.nodup_cons.2 ⟨fun hmem => ?_, h.distinct⟩
      obtain ⟨f, hf, hctx⟩ := List.mem_filterMap.1 hmem
      cases f with
      | sni call' on =>
        obtain ⟨other, hother, -, -, hsettled⟩ := h.waiting call' on (List.mem_cons_of_mem _ hf)
        rw [Option.some.inj hctx, hget] at hother
        rw [← Option.some.inj hother, hfresh] at hsettled
        exact absurd hsettled nofun
      | _ => exact absurd hctx nofun

theorem DriveInv.hello {sni : ParentId → Bool} {call : DriveCall} {name : ServerName}
    (h : DriveInv sslctx w (.accept call :: fs)) :
    DriveInv sslctx (w.clientHelloCb sslctx sni (running fs) call name).1
      ((w.clientHelloCb sslctx sni (running fs) call name).2.1.toList ++ fs) ∧
    ∀ e ∈ (w.clientHelloCb sslctx sni (running fs) call name).2.2, e.Good := by
  have hquiet : ∀ e ∈ ([] : List DriveEvent), e.Good := fun e he => absurd he List.not_mem_nil
  unfold HandshakeWorld.clientHelloCb
  split
  · exact ⟨h, hquiet⟩
  next ctx hget =>
    split
    · exact ⟨h, hquiet⟩
    split
    · exact ⟨h, hquiet⟩
    next hfresh =>
      have hmarked : DriveInv sslctx (w.setCtx call.ctx { ctx with sniDone := true })
          (.accept call :: fs) := h.setCtx hget rfl rfl fun _ => rfl
      cases name with
      | hostName =>
        obtain ⟨hsaved, hcallback⟩ := h.callback hget (Bool.eq_false_iff.2 hfresh)
        have hon : (w.setCtx call.ctx { ctx with sniDone := true }).saved (sslctx ctx.parent) =
            some call.L := hsaved
        simp only [hon]
        refine ⟨hcallback, fun e he => ?_⟩
        rw [List.mem_singleton.1 he]
        exact ⟨rfl, h.linked.1.driving⟩
      | absent => exact ⟨hmarked, hquiet⟩
      | malformed => exact ⟨hmarked, hquiet⟩
      | unrecognized => exact ⟨hmarked, hquiet⟩
      | ipLiteral => exact ⟨hmarked, hquiet⟩

theorem DriveCall.Entered.restore {call : DriveCall} {saved : SslCtxId → Option LuaStateId}
    (h : call.Entered sslctx fs saved) :
    Function.update saved (sslctx call.p) call.prev = call.before := by
  rw [h.saved, h.prev, Function.update_idem, Function.update_eq_self]

theorem DriveInv.returned {call : DriveCall} {success : Bool}
    (h : DriveInv sslctx w (.accept call :: fs)) :
    DriveInv sslctx (w.acceptReturned sslctx call success).1
      ((w.acceptReturned sslctx call success).2.1.toList ++ fs) ∧
    ∀ e ∈ (w.acceptReturned sslctx call success).2.2, e.Good := by
  obtain ⟨hentered, hlinked⟩ := h.linked
  obtain ⟨ctx, hget, -, halive, -⟩ := h.accepting call List.mem_cons_self
  have hbefore : (w.setSaved (sslctx call.p) call.prev).saved = call.before := hentered.restore
  have hrestored : DriveInv sslctx (w.setSaved (sslctx call.p) call.prev) fs := by
    refine ⟨?_, fun call' hmem => h.accepting call' (List.mem_cons_of_mem _ hmem),
      fun call' on hmem => h.waiting call' on (List.mem_cons_of_mem _ hmem),
      h.distinct, h.anchored⟩
    rw [hbefore]
    exact hlinked
  have hget' : (w.setSaved (sslctx call.p) call.prev).ctxs[call.ctx]? = some ctx := hget
  unfold HandshakeWorld.acceptReturned
  simp only [hget]
  refine ⟨hrestored.setCtx hget' rfl rfl fun hdone => hdone, fun e he => ?_⟩
  rw [List.mem_singleton.1 he]
  exact ⟨hbefore, decide_eq_true halive⟩

theorem DriveInv.selected {call : DriveCall} {on : LuaStateId}
    (h : DriveInv sslctx w (.sni call on :: fs)) (hwait : ∀ g ∈ fs, g.waits = true)
    (target : Option ParentId) :
    DriveInv sslctx (w.selected call target) (.accept call :: fs) := by
  obtain ⟨hon, hentered, hlinked⟩ := h.linked
  obtain ⟨ctx, hget, hopen, hparent, hdone⟩ := h.waiting call on List.mem_cons_self
  have halive : call.p ∉ w.dead := by
    rw [← hparent]
    exact h.anchored ctx (List.mem_of_getElem? hget) hopen
  have hdistinct := h.distinct
  rw [sniCtxs_cons, List.nodup_cons] at hdistinct
  have hkept : DriveInv sslctx w (.accept call :: fs) := by
    refine ⟨⟨hentered, hlinked⟩, fun call' hmem => ?_, fun call' on' hmem => ?_, hdistinct.2,
      h.anchored⟩
    · rcases List.mem_cons.1 hmem with heq | hmem
      · obtain rfl := DriveFrame.accept.inj heq
        exact ⟨ctx, hget, hopen, halive, Or.inl hparent⟩
      · exact absurd (hwait _ hmem) Bool.false_ne_true
    · rcases List.mem_cons.1 hmem with heq | hmem
      · exact absurd heq nofun
      · exact h.waiting call' on' (List.mem_cons_of_mem _ hmem)
  unfold HandshakeWorld.selected
  rw [hget]
  cases target with
  | none => exact hkept
  | some t =>
    simp only
    split
    · exact hkept
    next htarget =>
      refine ⟨⟨hentered, hlinked⟩, fun call' hmem => ?_, fun call' on' hmem => ?_,
        hdistinct.2, ?_⟩
      · rcases List.mem_cons.1 hmem with heq | hmem
        · obtain rfl := DriveFrame.accept.inj heq
          refine ⟨{ ctx with parent := t }, ?_, hopen, halive, Or.inr hdone⟩
          rw [HandshakeWorld.setCtx_get, if_pos rfl, hget]
          rfl
        · exact absurd (hwait _ hmem) Bool.false_ne_true
      · rcases List.mem_cons.1 hmem with heq | hmem
        · exact absurd heq nofun
        · obtain ⟨other, hother, hrest⟩ := h.waiting call' on' (List.mem_cons_of_mem _ hmem)
          have hne : call.ctx ≠ call'.ctx := fun heq => by
            apply hdistinct.1
            exact List.mem_filterMap.2 ⟨.sni call' on', hmem, by rw [heq]; rfl⟩
          rw [HandshakeWorld.setCtx_get, if_neg hne]
          exact ⟨other, hother, hrest⟩
      · intro other hmem hother
        rcases List.mem_or_eq_of_mem_set hmem with hmem | rfl
        · exact h.anchored other hmem hother
        · exact htarget

theorem DriveInv.act {f : DriveFrame} (sni : ParentId → Bool)
    (h : DriveInv sslctx w (f :: fs)) (hwait : ∀ g ∈ fs, g.waits = true) (a : DriveAns) :
    DriveInv sslctx (driveAct sslctx sni w fs f a).1
      ((driveAct sslctx sni w fs f a).2.1.toList ++ fs) ∧
    ∀ e ∈ (driveAct sslctx sni w fs f a).2.2, e.Good := by
  have hquiet : ∀ e ∈ ([] : List DriveEvent), e.Good := fun e he => absurd he List.not_mem_nil
  cases f with
  | enter c =>
    refine ⟨h.enter, ?_⟩
    simp only [driveAct, HandshakeWorld.doHandshake]
    split
    · exact hquiet
    · split <;> exact hquiet
  | resuming co =>
    have hpop : DriveInv sslctx w fs := h.pop h.linked
    simp only [driveAct]
    split
    · exact ⟨hpop, hquiet⟩
    · exact ⟨hpop.push h.linked nofun nofun, hquiet⟩
  | resumed co =>
    have hpop : DriveInv sslctx w fs := h.pop h.linked
    refine ⟨?_, hquiet⟩
    simp only [driveAct]
    split
    · exact ⟨hpop.linked, hpop.accepting, hpop.waiting, hpop.distinct, hpop.anchored⟩
    · exact hpop
  | accept call =>
    simp only [driveAct]
    split
    · exact h.hello
    · exact h.returned
  | sni call on => exact ⟨h.selected hwait a.target, hquiet⟩

theorem DriveInv.foreign (h : DriveInv sslctx w fs) (hwait : ∀ g ∈ fs, g.waits = true)
    (x : DriveForeign) : DriveInv sslctx (driveForeign w fs x) fs := by
  have hnot : ∀ call, .accept call ∉ fs := fun call hmem =>
    absurd (hwait _ hmem) Bool.false_ne_true
  cases x with
  | accept p =>
    simp only [driveForeign]
    split
    · exact h
    next halive =>
      refine ⟨h.linked, fun call hmem => absurd hmem (hnot call), fun call on hmem => ?_,
        h.distinct, ?_⟩
      · obtain ⟨ctx, hget, hrest⟩ := h.waiting call on hmem
        refine ⟨ctx, ?_, hrest⟩
        rw [List.getElem?_append_left (List.getElem?_eq_some_iff.1 hget).1, hget]
      · intro ctx hmem hopen
        rcases List.mem_append.1 hmem with hmem | hmem
        · exact h.anchored ctx hmem hopen
        · rw [List.mem_singleton.1 hmem]
          exact halive
  | close c =>
    simp only [driveForeign]
    split
    · exact h
    next ctx hget =>
      split
      · exact h
      next hfree =>
        refine ⟨h.linked, fun call hmem => absurd hmem (hnot call), fun call on hmem => ?_,
          h.distinct, ?_⟩
        · have hne : c ≠ call.ctx := fun heq => by
            apply hfree
            rw [List.any_eq_true]
            exact ⟨.sni call on, hmem, decide_eq_true heq.symm⟩
          rw [HandshakeWorld.setCtx_get, if_neg hne]
          exact h.waiting call on hmem
        · intro other hmem hopen
          rcases List.mem_or_eq_of_mem_set hmem with hmem | rfl
          · exact h.anchored other hmem hopen
          · exact absurd hopen nofun
  | collect p =>
    simp only [driveForeign]
    split
    · exact h
    next hfree =>
      refine ⟨h.linked, fun call hmem => absurd hmem (hnot call), h.waiting, h.distinct, ?_⟩
      intro ctx hmem hopen hdead
      rcases List.mem_cons.1 hdead with heq | hdead
      · apply hfree
        rw [List.any_eq_true]
        refine ⟨ctx, hmem, ?_⟩
        rw [hopen, heq]
        exact decide_eq_true rfl
      · exact h.anchored ctx hmem hopen hdead

theorem driveMachine_guarded (sslctx : ParentId → SslCtxId) (sni : ParentId → Bool) :
    (driveMachine sslctx sni).Guarded (fun _ _ _ _ => True) (DriveInv sslctx)
      DriveEvent.Good where
  call w fs m h _ := by
    cases m with
    | handshake c => exact h.push h.linked nofun nofun
    | resume co => exact h.push h.linked nofun nofun
  foreign w fs x h hwait := h.foreign hwait x
  act w fs f a h hwait _ := h.act sni hwait a

end Steps

/-- Over all nestings of handshakes, callbacks and coroutines: each callback runs on the state that
drives its handshake, the one that runs; and each handshake call leaves the saved state of every
`sslctx` as it was, with the server it remembers still there. -/
theorem handshakeState_kept (sslctx : ParentId → SslCtxId) (sni : ParentId → Bool)
    (saved : SslCtxId → Option LuaStateId)
    (ls : List (ReentrantLabel DriveMethod DriveForeign DriveAns)) :
    ∀ e ∈ (runs (driveMachine sslctx sni).step (⟨saved, [], [], []⟩, []) ls).2, e.Good := by
  apply Reentrant.runs_good (driveMachine_guarded sslctx sni)
  · exact ⟨trivial, fun _ hmem => absurd hmem List.not_mem_nil,
      fun _ _ hmem => absurd hmem List.not_mem_nil, List.nodup_nil,
      fun _ hmem => absurd hmem List.not_mem_nil⟩
  · apply along_of_forall
    intro w l
    rcases w with ⟨w, fs⟩
    cases l with
    | act a => cases fs <;> trivial
    | _ => trivial

/-- Two contexts over one `sslctx`: the SNI callback of the first resumes a coroutine, which drives
the second as far as its own callback. -/
def nestedHandshakes : List (ReentrantLabel DriveMethod DriveForeign DriveAns) :=
  [.foreign (.accept 5), .foreign (.accept 6), .call (.handshake 0), .act {},
    .act { hello := some .hostName }, .call (.resume 1), .act {}, .call (.handshake 1), .act {},
    .act { hello := some .hostName }]

theorem handshakeState_kept_nested : (DriveEvent.callback (some 1) 1 1).Good :=
  handshakeState_kept (fun _ => 0) (fun _ => true) (fun _ => none) nestedHandshakes _
    (List.mem_of_getElem? (i := 1) rfl)

end LuaNet.Tls
