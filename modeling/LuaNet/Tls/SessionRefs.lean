import LuaNet.Lib.Holders
import LuaNet.Lib.Reentrant
import Mathlib.Order.Nat

/-! The references to `SSL_SESSION` objects that a client owns: where they come from, who holds
them, and where they are released. Any finalizer may run in an allocation, also one that closes
the context whose session is being stored. -/

namespace LuaNet.Tls

open LuaNet.Lib

/-- A client context. `keyed` is the reference to its session key, `oldVersion` tells that the
connection is one of TLS 1.2 or earlier, and `clientSession` is the reference that
`ctx->client_session` holds. -/
structure RefCtx where
  ssl : Bool
  keyed : Bool
  appData : Bool
  handshakeCb : Bool
  oldVersion : Bool
  clientSession : Option Nat

/-- References, contexts and the items of the session stores have numbers; `items` is
`item->session`. Which item a store gives back is left open. -/
structure RefWorld where
  ctxs : Nat → RefCtx
  items : Nat → Option Nat
  nextCtx : Nat
  nextItem : Nat
  nextRef : Nat

def RefWorld.start : RefWorld where
  ctxs := fun _ => ⟨false, false, false, false, false, none⟩
  items := fun _ => none
  nextCtx := 0
  nextItem := 0
  nextRef := 0

inductive RefHolder
  | ctx (k : Nat)
  | item (i : Nat)
  | running
deriving DecidableEq

inductive RefEvent
  | acquired (r k : Nat)
  | stored (r k i : Nat)
  | taken (r i : Nat)
  | released (r : Nat) (h : RefHolder)
deriving DecidableEq

def RefEvent.move : RefEvent → Option (Move Nat RefHolder)
  | .acquired r k => some ⟨r, none, some (.ctx k)⟩
  | .stored r k i => some ⟨r, some (.ctx k), some (.item i)⟩
  | .taken r i => some ⟨r, some (.item i), some .running⟩
  | .released r h => some ⟨r, some h, none⟩

inductive RefMethod
  | connect (keyed oldVersion : Bool)
  | handshake (k : Nat)
  | read (k : Nat)
  | write (k : Nat)
  | shutdown (k : Nat)
  | close (k : Nat)
  | gc (k : Nat)
  | gcItem (i : Nat)

/-- An activation, where it waits for an allocation: of its arguments, of the session key and
what the store needs to take a session, of the buffer of `read`, of the protected call that
stores a session, of the item (`r` is the local `session`), of what the store needs, and of the
text of an error. `ends` tells that the SSL object goes afterwards. -/
inductive RefFrame
  | entry (m : RefMethod)
  | resume (k : Nat)
  | readBuf (k : Nat)
  | cachePcall (k : Nat) (ends : Bool)
  | cachePut (k r : Nat) (ends : Bool)
  | storePut (k : Nat) (ends : Bool)
  | cacheErr (k : Nat) (ends : Bool)

/-- `raised` is a Lua error, `tickets` counts the calls of `new_session_cb`, `done` tells that
the call of OpenSSL returned 1, `session` that `SSL_get1_session` found one, `usable` that the
session can be cached, `item` is what the store gives back, and `fresh` tells that its session
can be used. -/
structure RefAns where
  raised : Bool := false
  tickets : Nat := 0
  done : Bool := false
  session : Bool := false
  usable : Bool := false
  item : Option Nat := none
  fresh : Bool := false

abbrev RefStep := RefWorld × Option RefFrame × List RefEvent

namespace RefWorld

def setCtx (w : RefWorld) (k : Nat) (c : RefCtx) : RefWorld :=
  { w with ctxs := Function.update w.ctxs k c }

def setItem (w : RefWorld) (i : Nat) (o : Option Nat) : RefWorld :=
  { w with items := Function.update w.items i o }

def held (w : RefWorld) : RefHolder → Option Nat
  | .ctx k => (w.ctxs k).clientSession
  | .item i => w.items i
  | .running => none

def freeSession (w : RefWorld) (k : Nat) : RefWorld × List RefEvent :=
  match (w.ctxs k).clientSession with
  | none => (w, [])
  | some r => (w.setCtx k { w.ctxs k with clientSession := none }, [.released r (.ctx k)])

def acquire (w : RefWorld) (k : Nat) : RefWorld × List RefEvent :=
  ({ w.setCtx k { w.ctxs k with clientSession := some w.nextRef } with nextRef := w.nextRef + 1 },
    [.acquired w.nextRef k])

def cleanupSsl (w : RefWorld) (k : Nat) : RefWorld :=
  if (w.ctxs k).ssl then w.setCtx k { w.ctxs k with ssl := false, appData := false } else w

def cleanupContext (w : RefWorld) (k : Nat) : RefWorld × List RefEvent :=
  let w := w.cleanupSsl k
  (w.setCtx k { w.ctxs k with keyed := false, handshakeCb := false }).freeSession k

def newSessionCb (k : Nat) (w : RefWorld) : RefWorld × List RefEvent :=
  let c := w.ctxs k
  if !c.appData || !c.keyed || c.oldVersion then (w, [])
  else andThen (w.freeSession k) (·.acquire k)

def newSessions (k : Nat) : Nat → RefWorld → RefWorld × List RefEvent
  | 0, w => (w, [])
  | n + 1, w => andThen (w.newSessionCb k) (newSessions k n)

def sslCall (w : RefWorld) (k : Nat) (a : RefAns) : RefWorld × List RefEvent :=
  if (w.ctxs k).ssl then w.newSessions k a.tickets else (w, [])

def get1Session (w : RefWorld) (k : Nat) (a : RefAns) : RefWorld × List RefEvent :=
  if a.session then w.acquire k
  else (w.setCtx k { w.ctxs k with clientSession := none }, [])

def afterCache (k : Nat) (ends : Bool) (r : RefWorld × List RefEvent) : RefStep :=
  (if ends then r.1.cleanupSsl k else r.1, none, r.2)

def cacheClientSession (k : Nat) (ends : Bool) (r : RefWorld × List RefEvent) : RefStep :=
  if (r.1.ctxs k).clientSession.isSome then (r.1, some (.cachePcall k ends), r.2)
  else afterCache k ends r

def sslSessPut (w : RefWorld) (k : Nat) (ends : Bool) (a : RefAns) : RefStep :=
  match (w.ctxs k).clientSession with
  | none => afterCache k ends (w, [])
  | some r =>
    if a.usable then (w, some (.cachePut k r ends), [])
    else afterCache k ends (w.freeSession k)

/-- The end of `cache_client_session_lua`: the item takes the local `session`, whatever
`*owned_session` is now. -/
def handOver (w : RefWorld) (k r : Nat) : RefWorld × List RefEvent :=
  ({ (w.setItem w.nextItem (some r)).setCtx k { w.ctxs k with clientSession := none } with
      nextItem := w.nextItem + 1 }, [.stored r k w.nextItem])

def handshakeLua (w : RefWorld) (k : Nat) (a : RefAns) : RefStep :=
  if !(w.ctxs k).ssl || !(w.ctxs k).handshakeCb then (w, none, [])
  else
    let r := w.sslCall k a
    if !a.done then (r.1, none, r.2)
    else
      let w' := r.1.setCtx k { r.1.ctxs k with handshakeCb := false }
      if !(w'.ctxs k).keyed then (w', none, r.2)
      else if (w'.ctxs k).oldVersion then
        cacheClientSession k false (andThen (w', r.2) (·.get1Session k a))
      else cacheClientSession k false (w', r.2)

def readLua (w : RefWorld) (k : Nat) : RefStep :=
  (w, if (w.ctxs k).ssl then some (.readBuf k) else none, [])

def writeLua (w : RefWorld) (k : Nat) (a : RefAns) : RefStep :=
  let r := w.sslCall k a
  (r.1, none, r.2)

def shutdownLua (w : RefWorld) (k : Nat) (a : RefAns) : RefStep :=
  if !(w.ctxs k).ssl || (w.ctxs k).handshakeCb then (w, none, [])
  else cacheClientSession k a.done (w.sslCall k a)

def closeLua (w : RefWorld) (k : Nat) : RefStep :=
  let r := w.cleanupContext k
  (r.1, none, r.2)

def sessionGcLua (w : RefWorld) (i : Nat) : RefStep :=
  match w.items i with
  | none => (w, none, [])
  | some r => (w.setItem i none, none, [.released r (.item i)])

def connectLua (w : RefWorld) (keyed oldVersion : Bool) (a : RefAns) : RefStep :=
  if !a.done then (w, none, [])
  else
    ({ w.setCtx w.nextCtx ⟨true, keyed, false, true, oldVersion, none⟩ with
        nextCtx := w.nextCtx + 1 },
      if keyed then some (.resume w.nextCtx) else none, [])

def sslSessTake (w : RefWorld) (a : RefAns) : Option Nat × RefWorld × List RefEvent :=
  match a.item with
  | none => (none, w, [])
  | some i =>
    match w.items i with
    | none => (none, w, [])
    | some r =>
      if a.fresh then (some r, w.setItem i none, [.taken r i])
      else (none, w.setItem i none, [.taken r i, .released r .running])

def useCachedSession (w : RefWorld) (a : RefAns) : RefWorld × List RefEvent :=
  match w.sslSessTake a with
  | (none, w', es) => (w', es)
  | (some r, w', es) => (w', es ++ [.released r .running])

def resumeLua (w : RefWorld) (k : Nat) (a : RefAns) : RefStep :=
  let r := w.useCachedSession a
  (r.1.setCtx k { r.1.ctxs k with appData := true }, none, r.2)

def enter (w : RefWorld) (a : RefAns) : RefMethod → RefStep
  | .connect keyed oldVersion => w.connectLua keyed oldVersion a
  | .handshake k => w.handshakeLua k a
  | .read k => w.readLua k
  | .write k => w.writeLua k a
  | .shutdown k => w.shutdownLua k a
  | .close k => w.closeLua k
  | .gc k => w.closeLua k
  | .gcItem i => w.sessionGcLua i

end RefWorld

def refAct (w : RefWorld) (_ : List RefFrame) (f : RefFrame) (a : RefAns) : RefStep :=
  match f with
  | .entry m => if a.raised then (w, none, []) else w.enter a m
  | .resume k => if a.raised then (w, none, []) else w.resumeLua k a
  | .readBuf k =>
    if a.raised then (w, none, []) else RefWorld.cacheClientSession k false (w.sslCall k a)
  | .cachePcall k ends =>
    if a.raised then (w, some (.cacheErr k ends), []) else w.sslSessPut k ends a
  | .cachePut k r ends =>
    if a.raised then (w, some (.cacheErr k ends), [])
    else
      let put := w.handOver k r
      (put.1, some (.storePut k ends), put.2)
  | .storePut k ends =>
    if a.raised then (w, some (.cacheErr k ends), [])
    else RefWorld.afterCache k ends (w, [])
  | .cacheErr k ends => RefWorld.afterCache k ends (w, [])

def refMachine : Reentrant RefWorld RefFrame RefMethod Empty RefAns RefEvent where
  start := .entry
  waits := fun _ => true
  foreign := fun w _ _ => w
  act := refAct

/-- When the item is there, the context still holds the session that was read before. -/
def Unchanged (w : RefWorld) (_ : List RefFrame) (f : RefFrame) (a : RefAns) : Prop :=
  match f with
  | .cachePut k r _ => a.raised = false → (w.ctxs k).clientSession = some r
  | _ => True

/-- Every reference is handed on and released by the one that holds it, is held by nobody else,
and has been released exactly once unless it still is held. -/
structure RefsKept (w : RefWorld) (es : List RefEvent) : Prop where
  lawful : Lawful RefEvent.move es
  held : ∀ r h, ownerOf RefEvent.move r es = some h ↔ w.held h = some r
  once : ∀ r, r < w.nextRef → es.countP (enters RefEvent.move r) = 1 ∧
    es.countP (leaves RefEvent.move r) =
      if (ownerOf RefEvent.move r es).isSome then 0 else 1

structure RefInv (w : RefWorld) (es : List RefEvent) : Prop where
  places : Places RefEvent.move w.held es
  known : ∀ h r, w.held h = some r → r < w.nextRef
  counted : ∀ r, es.countP (enters RefEvent.move r) = if r < w.nextRef then 1 else 0
  newItem : ∀ i, w.nextItem ≤ i → w.items i = none
  newCtx : ∀ k, w.nextCtx ≤ k →
    (w.ctxs k).ssl = false ∧ (w.ctxs k).clientSession = none
  /-- In TLS 1.2 the session is fetched once, at the end of the handshake. -/
  first : ∀ k, (w.ctxs k).oldVersion = true → (w.ctxs k).handshakeCb = true →
    (w.ctxs k).clientSession = none

section Steps

variable {w : RefWorld} {es : List RefEvent} {k : Nat}

theorem RefWorld.setCtx_self (w : RefWorld) (k : Nat) (c : RefCtx) : (w.setCtx k c).ctxs k = c :=
  Function.update_self ..

theorem RefWorld.setCtx_other (w : RefWorld) {j : Nat} (c : RefCtx) (hj : j ≠ k) :
    (w.setCtx k c).ctxs j = w.ctxs j := Function.update_of_ne hj ..

theorem RefWorld.held_setCtx (w : RefWorld) (k : Nat) (c : RefCtx) :
    (w.setCtx k c).held = Function.update w.held (.ctx k) c.clientSession := by
  funext h
  cases h with
  | ctx j =>
    by_cases hj : j = k
    · simp [RefWorld.held, RefWorld.setCtx, hj]
    · simp [RefWorld.held, RefWorld.setCtx, hj]
  | item i => simp [RefWorld.held, RefWorld.setCtx]
  | running => simp [RefWorld.held]

theorem RefWorld.held_setItem (w : RefWorld) (i : Nat) (o : Option Nat) :
    (w.setItem i o).held = Function.update w.held (.item i) o := by
  funext h
  cases h with
  | ctx k => simp [RefWorld.held, RefWorld.setItem]
  | item j =>
    by_cases hj : j = i
    · simp [RefWorld.held, RefWorld.setItem, hj]
    · simp [RefWorld.held, RefWorld.setItem, hj]
  | running => simp [RefWorld.held]

theorem RefInv.counted_append (h : RefInv w es) {fs : List RefEvent}
    (hfs : ∀ e ∈ fs, ∀ r k, e ≠ .acquired r k) (r : Nat) :
    (es ++ fs).countP (enters RefEvent.move r) = if r < w.nextRef then 1 else 0 := by
  have hnone : fs.countP (enters RefEvent.move r) = 0 := by
    apply List.countP_eq_zero.mpr
    intro e he
    cases e with
    | acquired r k => exact absurd rfl (hfs _ he r k)
    | stored r k i => simp [enters, RefEvent.move]
    | taken r i => simp [enters, RefEvent.move]
    | released r h => simp [enters, RefEvent.move]
  rw [List.countP_append, hnone, h.counted, Nat.add_zero]

theorem RefInv.flags (h : RefInv w es) {c : RefCtx}
    (hsession : c.clientSession = (w.ctxs k).clientSession)
    (hssl : c.ssl = true → (w.ctxs k).ssl = true) (hold : c.oldVersion = (w.ctxs k).oldVersion)
    (hcb : c.handshakeCb = true → (w.ctxs k).handshakeCb = true) :
    RefInv (w.setCtx k c) es := by
  have hheld : (w.setCtx k c).held = w.held := by
    rw [RefWorld.held_setCtx, hsession]
    exact Function.update_eq_self _ _
  refine ⟨hheld ▸ h.places, hheld ▸ h.known, h.counted, h.newItem, fun j hj => ?_,
    fun j hjold hjcb => ?_⟩
  · by_cases hjk : j = k
    · subst hjk
      obtain ⟨hnossl, hnone⟩ := h.newCtx j hj
      rw [w.setCtx_self, hsession]
      exact ⟨eq_false_of_ne_true fun hc => absurd (hnossl.symm.trans (hssl hc)) nofun, hnone⟩
    · rw [w.setCtx_other c hjk]
      exact h.newCtx j hj
  · by_cases hjk : j = k
    · subst hjk
      rw [w.setCtx_self] at hjold hjcb ⊢
      rw [hsession]
      exact h.first j (hold ▸ hjold) (hcb hjcb)
    · rw [w.setCtx_other c hjk] at hjold hjcb ⊢
      exact h.first j hjold hjcb

theorem RefInv.cleared (h : RefInv w es) (k : Nat) {t : RefWorld}
    (ht : t.ctxs = (w.setCtx k { w.ctxs k with clientSession := none }).ctxs) :
    (∀ j, w.nextCtx ≤ j → (t.ctxs j).ssl = false ∧ (t.ctxs j).clientSession = none) ∧
      ∀ j, (t.ctxs j).oldVersion = true → (t.ctxs j).handshakeCb = true →
        (t.ctxs j).clientSession = none := by
  rw [ht]
  refine ⟨fun j hj => ?_, fun j hjold hjcb => ?_⟩
  · by_cases hjk : j = k
    · subst hjk
      rw [w.setCtx_self]
      exact ⟨(h.newCtx j hj).1, rfl⟩
    · rw [w.setCtx_other _ hjk]
      exact h.newCtx j hj
  · by_cases hjk : j = k
    · subst hjk
      rw [w.setCtx_self]
    · rw [w.setCtx_other _ hjk] at hjold hjcb ⊢
      exact h.first j hjold hjcb

theorem RefInv.known_update (h : RefInv w es) {x y : RefHolder} {r : Nat}
    (hy : Function.update w.held x none y = some r) : r < w.nextRef := by
  by_cases hxy : y = x
  · rw [hxy, Function.update_self] at hy
    cases hy
  · rw [Function.update_of_ne hxy] at hy
    exact h.known y r hy

theorem RefInv.freeSession (h : RefInv w es) (k : Nat) :
    RefInv (w.freeSession k).1 (es ++ (w.freeSession k).2) := by
  unfold RefWorld.freeSession
  split
  next =>
    rw [List.append_nil]
    exact h
  next r hr =>
    have hheld := w.held_setCtx k { w.ctxs k with clientSession := none }
    obtain ⟨hnewCtx, hfirst⟩ := h.cleared k rfl
    refine ⟨?_, fun x c hx => ?_, h.counted_append (by simp), h.newItem, hnewCtx, hfirst⟩
    · rw [hheld]
      exact h.places.leave rfl hr
    · rw [hheld] at hx
      exact h.known_update hx

theorem RefWorld.freeSession_ctx (w : RefWorld) (k : Nat) :
    (w.freeSession k).1.ctxs k = { w.ctxs k with clientSession := none } := by
  unfold RefWorld.freeSession
  split
  next hnone => rw [← hnone]
  next => exact w.setCtx_self ..

theorem RefInv.acquire (h : RefInv w es) (hssl : (w.ctxs k).ssl = true)
    (hnone : (w.ctxs k).clientSession = none)
    (hfirst : (w.ctxs k).oldVersion = true → (w.ctxs k).handshakeCb = false) :
    RefInv (w.acquire k).1 (es ++ (w.acquire k).2) := by
  have hnew : ∀ x, w.held x ≠ some w.nextRef := fun x hx =>
    absurd (h.known x _ hx) (lt_irrefl _)
  have hheld : (w.acquire k).1.held = Function.update w.held (.ctx k) (some w.nextRef) :=
    RefWorld.held_setCtx ..
  refine ⟨?_, fun x r hx => ?_, fun r => ?_, h.newItem, fun j hj => ?_, fun j hjold hjcb => ?_⟩
  · rw [hheld]
    exact h.places.enter rfl hnone hnew
  · rw [hheld] at hx
    by_cases hxk : x = .ctx k
    · rw [hxk, Function.update_self] at hx
      cases hx
      exact Nat.lt_succ_self _
    · rw [Function.update_of_ne hxk] at hx
      exact (h.known x r hx).trans (Nat.lt_succ_self _)
  · -- every reference below `nextRef` has come in once, and none from there on
    show (es ++ [RefEvent.acquired w.nextRef k]).countP (enters RefEvent.move r) =
      if r < w.nextRef + 1 then 1 else 0
    rw [List.countP_append, h.counted, List.countP_singleton]
    by_cases hr : w.nextRef = r
    · simp [enters, RefEvent.move, hr]
    · have hlt : r < w.nextRef + 1 ↔ r < w.nextRef :=
        Nat.lt_succ_iff_lt_or_eq.trans (or_iff_left (Ne.symm hr))
      simp [enters, RefEvent.move, hr, hlt]
  · have hjk : j ≠ k := by
      rintro rfl
      exact absurd ((h.newCtx j hj).1.symm.trans hssl) Bool.false_ne_true
    have hother : (w.acquire k).1.ctxs j = w.ctxs j := w.setCtx_other _ hjk
    rw [hother]
    exact h.newCtx j hj
  · by_cases hjk : j = k
    · subst hjk
      have hself : (w.acquire j).1.ctxs j = { w.ctxs j with clientSession := some w.nextRef } :=
        w.setCtx_self ..
      rw [hself] at hjold hjcb
      exact absurd ((hfirst hjold).symm.trans hjcb) Bool.false_ne_true
    · have hother : (w.acquire k).1.ctxs j = w.ctxs j := w.setCtx_other _ hjk
      rw [hother] at hjold hjcb ⊢
      exact h.first j hjold hjcb

theorem RefInv.cleanupSsl (h : RefInv w es) (k : Nat) : RefInv (w.cleanupSsl k) es := by
  unfold RefWorld.cleanupSsl
  split
  next => exact h.flags rfl nofun rfl id
  next => exact h

theorem RefInv.cleanupContext (h : RefInv w es) (k : Nat) :
    RefInv (w.cleanupContext k).1 (es ++ (w.cleanupContext k).2) := by
  have hflags := (h.cleanupSsl k).flags (k := k)
    (c := { (w.cleanupSsl k).ctxs k with keyed := false, handshakeCb := false }) rfl id rfl nofun
  exact hflags.freeSession k

structure Sound (es : List RefEvent) (k : Nat) (w : RefWorld) (r : RefWorld × List RefEvent) :
    Prop where
  inv : RefInv r.1 (es ++ r.2)
  flags : ∃ o, r.1.ctxs k = { w.ctxs k with clientSession := o }

theorem Sound.refl (h : RefInv w es) (k : Nat) : Sound es k w (w, []) :=
  ⟨by rwa [List.append_nil], (w.ctxs k).clientSession, rfl⟩

theorem Sound.andThen {r : RefWorld × List RefEvent} {f : RefWorld → RefWorld × List RefEvent}
    (h : Sound es k w r) (hf : Sound (es ++ r.2) k r.1 (f r.1)) :
    Sound es k w (andThen r f) := by
  obtain ⟨o, ho⟩ := h.flags
  obtain ⟨o', ho'⟩ := hf.flags
  refine ⟨?_, o', ?_⟩
  · have hinv := hf.inv
    rwa [List.append_assoc] at hinv
  · rw [ho] at ho'
    exact ho'

theorem RefInv.newSessionCb (h : RefInv w es) (hssl : (w.ctxs k).ssl = true) :
    Sound es k w (w.newSessionCb k) := by
  unfold RefWorld.newSessionCb
  dsimp only
  split
  next => exact Sound.refl h k
  next hcalled =>
    have hfree : Sound es k w (w.freeSession k) := ⟨h.freeSession k, none, w.freeSession_ctx k⟩
    refine hfree.andThen ⟨?_, _, RefWorld.setCtx_self ..⟩
    have hctx : (w.freeSession k).1.ctxs k = { w.ctxs k with clientSession := none } :=
      w.freeSession_ctx k
    have hold : (w.ctxs k).oldVersion = false := by simp_all
    exact hfree.inv.acquire (by rw [hctx]; exact hssl) (by rw [hctx])
      (by rw [hctx]; exact fun hc => absurd (hold.symm.trans hc) Bool.false_ne_true)

theorem RefInv.newSessions (h : RefInv w es) (hssl : (w.ctxs k).ssl = true) (n : Nat) :
    Sound es k w (w.newSessions k n) := by
  induction n generalizing w es with
  | zero => exact Sound.refl h k
  | succ n ih =>
    have hcb := h.newSessionCb hssl
    obtain ⟨o, ho⟩ := hcb.flags
    exact hcb.andThen (ih hcb.inv (by rw [ho]; exact hssl))

theorem RefInv.sslCall (h : RefInv w es) (k : Nat) (a : RefAns) :
    Sound es k w (w.sslCall k a) := by
  unfold RefWorld.sslCall
  split
  next hssl => exact h.newSessions hssl a.tickets
  next => exact Sound.refl h k

theorem RefInv.afterCache {r : RefWorld × List RefEvent} (h : RefInv r.1 (es ++ r.2)) (k : Nat)
    (ends : Bool) : RefInv (RefWorld.afterCache k ends r).1
      (es ++ (RefWorld.afterCache k ends r).2.2) := by
  unfold RefWorld.afterCache
  dsimp only
  split
  next => exact h.cleanupSsl k
  next => exact h

theorem RefInv.cacheClientSession {r : RefWorld × List RefEvent} (h : RefInv r.1 (es ++ r.2))
    (k : Nat) (ends : Bool) : RefInv (RefWorld.cacheClientSession k ends r).1
      (es ++ (RefWorld.cacheClientSession k ends r).2.2) := by
  unfold RefWorld.cacheClientSession
  split
  next => exact h
  next => exact h.afterCache k ends

theorem RefInv.sslSessPut (h : RefInv w es) (k : Nat) (ends : Bool) (a : RefAns) :
    RefInv (w.sslSessPut k ends a).1 (es ++ (w.sslSessPut k ends a).2.2) := by
  have hsame : RefInv w (es ++ []) := by rwa [List.append_nil]
  unfold RefWorld.sslSessPut
  split
  next => exact RefInv.afterCache (r := (w, [])) hsame k ends
  next =>
    split
    next => exact hsame
    next => exact (h.freeSession k).afterCache k ends

theorem RefInv.handOver (h : RefInv w es) {r : Nat} (hr : (w.ctxs k).clientSession = some r) :
    RefInv (w.handOver k r).1 (es ++ (w.handOver k r).2) := by
  have hheld : (w.handOver k r).1.held = Function.update (Function.update w.held
      (.ctx k) none) (.item w.nextItem) (some r) := by
    have hne : RefHolder.item w.nextItem ≠ .ctx k := nofun
    rw [Function.update_comm hne.symm, ← RefWorld.held_setItem]
    exact (w.setItem w.nextItem (some r)).held_setCtx k { w.ctxs k with clientSession := none }
  obtain ⟨hnewCtx, hfirst⟩ := h.cleared k (t := (w.handOver k r).1) rfl
  refine ⟨?_, fun x c hx => ?_, h.counted_append (by simp [RefWorld.handOver]), fun j hj => ?_,
    hnewCtx, hfirst⟩
  · have hctx : w.held (.ctx k) = some r := hr
    have hitem : w.held (.item w.nextItem) = none := h.newItem w.nextItem le_rfl
    rw [hheld]
    exact h.places.pass (e := .stored r k w.nextItem) rfl hctx hitem
  · rw [hheld] at hx
    by_cases hxi : x = .item w.nextItem
    · rw [hxi, Function.update_self, Option.some_inj] at hx
      exact hx ▸ h.known (.ctx k) r hr
    · rw [Function.update_of_ne hxi] at hx
      exact h.known_update hx
  · have hne : j ≠ w.nextItem := (Nat.lt_of_succ_le hj).ne'
    exact (Function.update_of_ne hne ..).trans (h.newItem j ((Nat.le_succ _).trans hj))

theorem RefInv.dropItem (h : RefInv w es) {i : Nat} {fs : List RefEvent}
    (hplaces : Places RefEvent.move (w.setItem i none).held (es ++ fs))
    (hfs : ∀ e ∈ fs, ∀ r k, e ≠ .acquired r k) : RefInv (w.setItem i none) (es ++ fs) := by
  refine ⟨hplaces, fun x r hx => ?_, h.counted_append hfs, fun j hj => ?_, h.newCtx, h.first⟩
  · rw [RefWorld.held_setItem] at hx
    exact h.known_update hx
  · by_cases hji : j = i
    · subst hji
      exact Function.update_self ..
    · exact (Function.update_of_ne hji ..).trans (h.newItem j hj)

theorem RefInv.sessionGcLua (h : RefInv w es) (i : Nat) :
    RefInv (w.sessionGcLua i).1 (es ++ (w.sessionGcLua i).2.2) := by
  unfold RefWorld.sessionGcLua
  split
  next => rwa [List.append_nil]
  next r hr =>
    refine h.dropItem ?_ (by simp)
    rw [RefWorld.held_setItem]
    exact h.places.leave rfl hr

theorem RefInv.takeItem (h : RefInv w es) {i r : Nat} (hr : w.items i = some r) :
    RefInv (w.setItem i none) (es ++ [.taken r i, .released r .running]) := by
  refine h.dropItem ?_ (by simp)
  have hitem : w.held (.item i) = some r := hr
  have htaken : Places RefEvent.move (Function.update (Function.update w.held (.item i) none)
      .running (some r)) (es ++ [.taken r i]) := h.places.pass rfl hitem rfl
  have hleft := htaken.leave (e := .released r .running) (x := .running) rfl
    (Function.update_self ..)
  have hempty : Function.update (w.setItem i none).held .running none =
      (w.setItem i none).held := Function.update_eq_self RefHolder.running _
  rwa [List.append_assoc, Function.update_idem, ← RefWorld.held_setItem, hempty] at hleft

theorem RefInv.useCachedSession (h : RefInv w es) (a : RefAns) :
    RefInv (w.useCachedSession a).1 (es ++ (w.useCachedSession a).2) := by
  have hsame : RefInv w (es ++ []) := by rwa [List.append_nil]
  unfold RefWorld.useCachedSession RefWorld.sslSessTake
  cases a.item with
  | none => exact hsame
  | some i =>
    dsimp only
    cases hr : w.items i with
    | none => exact hsame
    | some r =>
      cases a.fresh with
      | true => exact h.takeItem hr
      | false => exact h.takeItem hr

theorem RefInv.connectLua (h : RefInv w es) (keyed oldVersion : Bool) (a : RefAns) :
    RefInv (w.connectLua keyed oldVersion a).1
      (es ++ (w.connectLua keyed oldVersion a).2.2) := by
  unfold RefWorld.connectLua
  split
  next => rwa [List.append_nil]
  next =>
    rw [List.append_nil]
    have hheld : (w.setCtx w.nextCtx ⟨true, keyed, false, true, oldVersion, none⟩).held =
        w.held := by
      rw [RefWorld.held_setCtx]
      exact Function.update_eq_self_iff.mpr (h.newCtx w.nextCtx le_rfl).2.symm
    refine ⟨hheld ▸ h.places, hheld ▸ h.known, h.counted, h.newItem, fun j hj => ?_,
      fun j hjold hjcb => ?_⟩
    · have hne : j ≠ w.nextCtx := (Nat.lt_of_succ_le hj).ne'
      rw [show ({ w.setCtx w.nextCtx ⟨true, keyed, false, true, oldVersion, none⟩ with
        nextCtx := w.nextCtx + 1 } : RefWorld).ctxs j = w.ctxs j from w.setCtx_other _ hne]
      exact h.newCtx j ((Nat.le_succ _).trans hj)
    · by_cases hne : j = w.nextCtx
      · subst hne
        exact congrArg RefCtx.clientSession (w.setCtx_self ..)
      · have hother : (w.setCtx w.nextCtx ⟨true, keyed, false, true, oldVersion, none⟩).ctxs j =
            w.ctxs j := w.setCtx_other _ hne
        dsimp only at hjold hjcb ⊢
        rw [hother] at hjold hjcb ⊢
        exact h.first j hjold hjcb

theorem RefInv.handshakeLua (h : RefInv w es) (k : Nat) (a : RefAns) :
    RefInv (w.handshakeLua k a).1 (es ++ (w.handshakeLua k a).2.2) := by
  unfold RefWorld.handshakeLua
  split
  next => rwa [List.append_nil]
  next hready =>
    have hcall := h.sslCall k a
    obtain ⟨o, ho⟩ := hcall.flags
    dsimp only
    generalize w.sslCall k a = r at hcall ho ⊢
    have hdone : RefInv (r.1.setCtx k { r.1.ctxs k with handshakeCb := false }) (es ++ r.2) :=
      hcall.inv.flags rfl id rfl nofun
    have hready' : (w.ctxs k).ssl = true ∧ (w.ctxs k).handshakeCb = true := by simpa using hready
    rw [RefWorld.setCtx_self]
    split
    next => exact hcall.inv
    next =>
      split
      next => exact hdone
      next =>
        split
        next hold =>
          -- no session has come before the end of the handshake
          have hnone : (r.1.ctxs k).clientSession = none :=
            hcall.inv.first k hold (by rw [ho]; exact hready'.2)
          apply RefInv.cacheClientSession
          unfold andThen RefWorld.get1Session
          dsimp only
          rw [← List.append_assoc, RefWorld.setCtx_self]
          split
          next =>
            refine hdone.acquire ?_ ?_ ?_
            · rw [RefWorld.setCtx_self, ho]
              exact hready'.1
            · rw [RefWorld.setCtx_self]
              exact hnone
            · rw [RefWorld.setCtx_self]
              exact fun _ => rfl
          next =>
            rw [List.append_nil]
            refine hdone.flags ?_ ?_ ?_ ?_
            · rw [RefWorld.setCtx_self]
              exact hnone.symm
            · rw [RefWorld.setCtx_self]
              exact id
            · rw [RefWorld.setCtx_self]
            · exact nofun
        next => exact RefInv.cacheClientSession (r := (_, r.2)) hdone k false

theorem RefInv.enter (h : RefInv w es) (a : RefAns) (m : RefMethod) :
    RefInv (w.enter a m).1 (es ++ (w.enter a m).2.2) := by
  have hsame : RefInv w (es ++ []) := by rwa [List.append_nil]
  cases m with
  | connect keyed oldVersion => exact h.connectLua keyed oldVersion a
  | handshake k => exact h.handshakeLua k a
  | read k => exact hsame
  | write k => exact (h.sslCall k a).inv
  | shutdown k =>
    show RefInv (w.shutdownLua k a).1 (es ++ (w.shutdownLua k a).2.2)
    unfold RefWorld.shutdownLua
    split
    next => exact hsame
    next => exact (h.sslCall k a).inv.cacheClientSession k a.done
  | close k => exact h.cleanupContext k
  | gc k => exact h.cleanupContext k
  | gcItem i => exact h.sessionGcLua i

theorem RefInv.resumeLua (h : RefInv w es) (k : Nat) (a : RefAns) :
    RefInv (w.resumeLua k a).1 (es ++ (w.resumeLua k a).2.2) :=
  (h.useCachedSession a).flags rfl id rfl id

theorem RefInv.act (h : RefInv w es) {fs : List RefFrame} {f : RefFrame} {a : RefAns}
    (hf : Unchanged w fs f a) : RefInv (refAct w fs f a).1 (es ++ (refAct w fs f a).2.2) := by
  have hsame : RefInv w (es ++ []) := by rwa [List.append_nil]
  unfold refAct
  cases f with
  | entry m =>
    dsimp only
    split
    next => exact hsame
    next => exact h.enter a m
  | resume k =>
    dsimp only
    split
    next => exact hsame
    next => exact h.resumeLua k a
  | readBuf k =>
    dsimp only
    split
    next => exact hsame
    next => exact (h.sslCall k a).inv.cacheClientSession k false
  | cachePcall k ends =>
    dsimp only
    split
    next => exact hsame
    next => exact h.sslSessPut k ends a
  | cachePut k r ends =>
    dsimp only
    split
    next => exact hsame
    next hraised => exact h.handOver (hf (eq_false_of_ne_true hraised))
  | storePut k ends =>
    dsimp only
    split
    next => exact hsame
    next => exact RefInv.afterCache (r := (w, [])) hsame k ends
  | cacheErr k ends => exact RefInv.afterCache (r := (w, [])) hsame k ends

end Steps

section Runs

abbrev RefLabel := ReentrantLabel RefMethod Empty RefAns

theorem RefInv.step {w : RefWorld × List RefFrame} {es : List RefEvent} (h : RefInv w.1 es)
    {l : RefLabel} (hl : Reentrant.Acts Unchanged w l) :
    RefInv (refMachine.step w l).1.1 (es ++ (refMachine.step w l).2) := by
  have hsame : RefInv w.1 (es ++ []) := by rwa [List.append_nil]
  obtain ⟨w, fs⟩ := w
  cases l with
  | call m =>
    unfold Reentrant.step
    dsimp only
    split
    next => exact hsame
    next => exact hsame
  | foreign x => exact x.elim
  | act a =>
    cases fs with
    | nil => exact hsame
    | cons f fs => exact h.act (f := f) hl

theorem RefInv.unchanged_of_lawful {w : RefWorld × List RefFrame} {es : List RefEvent}
    (h : RefInv w.1 es) {l : RefLabel}
    (hlaw : Lawful RefEvent.move (es ++ (refMachine.step w l).2)) :
    Reentrant.Acts Unchanged w l := by
  obtain ⟨w, fs⟩ := w
  cases l with
  | call m => trivial
  | foreign x => trivial
  | act a =>
    cases fs with
    | nil => trivial
    | cons f fs =>
      show Unchanged w fs f a
      cases f with
      | cachePut k r ends =>
        intro hraised
        have hevents : (refMachine.step (w, .cachePut k r ends :: fs) (.act a)).2 =
            [.stored r k w.nextItem] := by
          simp [refMachine, Reentrant.step, refAct, hraised, RefWorld.handOver]
        rw [hevents] at hlaw
        have howner := hlaw es (.stored r k w.nextItem) [] rfl _ rfl
        exact (h.places.owner r (.ctx k)).mp howner
      | _ => trivial

theorem refInv_start : RefInv RefWorld.start [] where
  places := by
    have hheld : RefWorld.start.held = fun _ => none := by
      funext h
      cases h <;> rfl
    rw [hheld]
    exact places_nil
  known h r hr := by cases h <;> cases hr
  counted _ := rfl
  newItem _ _ := rfl
  newCtx _ _ := ⟨rfl, rfl⟩
  first _ _ _ := rfl

theorem RefInv.kept {w : RefWorld} {es : List RefEvent} (h : RefInv w es) : RefsKept w es where
  lawful := h.places.lawful
  held := h.places.owner
  once r hr := by
    have hcount := h.places.lawful.count r
    have hin := h.counted r
    rw [if_pos hr] at hin
    refine ⟨hin, ?_⟩
    rw [hin] at hcount
    cases hown : ownerOf RefEvent.move r es with
    | none =>
      rw [hown] at hcount
      exact hcount.symm
    | some x =>
      rw [hown] at hcount
      exact (Nat.succ.inj hcount).symm

/-- The references of a run are kept exactly when every hand-over finds `ctx->client_session` as
it was before the item was allocated. -/
theorem refsKept_iff (ls : List RefLabel) :
    RefsKept (runs refMachine.step (RefWorld.start, []) ls).1.1
        (runs refMachine.step (RefWorld.start, []) ls).2 ↔
      Along refMachine.step (Reentrant.Acts Unchanged) (RefWorld.start, []) ls := by
  constructor
  · intro hkept
    refine along_of_history (I := fun w es => RefInv w.1 es) (Q := Lawful RefEvent.move)
      (fun _ _ _ hl h => h.step hl) (fun _ _ _ h hlaw => h.unchanged_of_lawful hlaw)
      (fun _ _ h => Each.left h) refInv_start ?_
    rw [List.nil_append]
    exact hkept.lawful
  · intro hls
    have hinv := runs_history_along (P := Reentrant.Acts Unchanged)
      (I := fun w es => RefInv w.1 es) (fun _ _ _ hl h => h.step hl) refInv_start hls
    rw [List.nil_append] at hinv
    exact hinv.kept

/-- A ticket of TLS 1.3 comes in a read, and while it is being cached the finalizer that the
allocation of its item runs closes the context. Then the item takes what has been freed. -/
theorem refsKept_closed :
    let run := runs refMachine.step (RefWorld.start, [])
      [.call (.connect true false), .act { done := true }, .act {},
        .call (.handshake 0), .act { done := true },
        .call (.read 0), .act {}, .act { tickets := 1 }, .act { usable := true },
        .call (.close 0), .act {}, .act {}, .act {}, .call (.gcItem 0), .act {}]
    run.2 = [.acquired 0 0, .released 0 (.ctx 0), .stored 0 0 0, .released 0 (.item 0)] ∧
      ¬ RefsKept run.1.1 run.2 := by
  intro run
  have hevents : run.2 =
      [.acquired 0 0, .released 0 (.ctx 0), .stored 0 0 0, .released 0 (.item 0)] := by decide
  refine ⟨hevents, fun hkept => ?_⟩
  have hstored := hkept.lawful [.acquired 0 0, .released 0 (.ctx 0)] (.stored 0 0 0)
    [.released 0 (.item 0)] hevents _ rfl
  exact absurd hstored (by decide)

end Runs

end LuaNet.Tls
