import LuaNet.Tls.Context

/-! No OpenSSL call meets a freed or missing SSL object, as long as no foreign code disposes of
the context while an activation outside still needs it. -/

namespace LuaNet.Tls

open LuaNet.Lib

def CtxEvent.Good : CtxEvent → Prop
  | .ssl _ arg => arg = .live
  | .freed running => running = false
  | .cleared running => running = false
  | .parentRead anchored => anchored = true
  | .ownerUsed alive => alive = true
  | .bioRead anchored => anchored = true
  | .returned _ object bio parent => object = true → bio = true ∧ parent = true

def SessionWriter.asksError : SessionWriter → Bool
  | .handshake => false
  | .read rv => rv ≤ 0
  | .shutdown rv => rv ≠ 1 ∧ rv ≠ 0

/-- The activation will pass its SSL object to OpenSSL without looking at it again. -/
def CtxFrame.needsSsl : CtxFrame → Bool
  | .entry _ => false
  | .accept _ _ => true
  | .readBuf => true
  | .cachePcall k => k.asksError
  | .cachePut k => k.asksError
  | .cacheErr k => k.asksError
  | .result _ => false

def CtxFrame.freesSsl (ctx : TlsCtx) (a : CtxAns) : CtxFrame → Bool
  | .entry .close => ctx.ssl && !a.raised
  | .entry .gc => ctx.ssl && !a.raised
  | .entry .shutdown =>
    ctx.ssl && !a.raised && !ctx.handshakeCb && !(ctx.newSessionCb a).1.clientSession && a.rv = 1
  | .cachePut (.shutdown rv) => ctx.ssl && !a.raised && rv = 1
  | .cacheErr (.shutdown rv) => ctx.ssl && rv = 1
  | _ => false

def CtxFrame.releasesParent (a : CtxAns) : CtxFrame → Bool
  | .entry .close => !a.raised
  | .entry .gc => !a.raised
  | _ => false

def CtxFrame.needsParent : CtxFrame → Bool
  | .cachePcall _ => true
  | _ => false

/-- What an act must not do to the activations outside: free the SSL object of one that needs it,
or release the parent of one that is about to store a session under it. -/
structure Undisturbed (ctx : TlsCtx) (fs : List CtxFrame) (f : CtxFrame) (a : CtxAns) : Prop where
  ssl : f.freesSsl ctx a = true → ∀ g ∈ fs, g.needsSsl = false
  parent : f.releasesParent a = true → ∀ g ∈ fs, g.needsParent = false

instance (ctx : TlsCtx) (fs : List CtxFrame) (f : CtxFrame) (a : CtxAns) :
    Decidable (Undisturbed ctx fs f a) :=
  decidable_of_iff ((f.freesSsl ctx a = true → ∀ g ∈ fs, g.needsSsl = false) ∧
      (f.releasesParent a = true → ∀ g ∈ fs, g.needsParent = false))
    ⟨fun h => ⟨h.1, h.2⟩, fun h => ⟨h.ssl, h.parent⟩⟩

def CtxFrame.selecting (f : CtxFrame) : Bool := f.inAccept && f.waits

structure CtxInv (ctx : TlsCtx) (fs : List CtxFrame) : Prop where
  live : ctx.ssl = true → ctx.freed = false ∧ ctx.bioAnchored = true ∧ ctx.parent.isSome = true
  anchored : ∀ p, ctx.parent = some p → ctx.parentRef = some p ∧ p ∉ ctx.dead
  needs : ∀ f ∈ fs, f.needsSsl = true → ctx.ssl = true
  cached : ∀ k, .cachePcall k ∈ fs → ctx.parent.isSome = true
  /-- The server that `do_handshake` remembers is the parent, until one is selected; then it is
  used once more before anything can be collected. -/
  owner : ∀ p phase, .accept p phase ∈ fs → ∃ q, p = some q ∧ q ∉ ctx.dead ∧
    (ctx.parentRef = some q ∨ phase = .none ∧ ctx.sniDone = true)
  target : ∀ p target, .accept p (.ref target) ∈ fs → target ∉ ctx.dead
  once : fs.countP CtxFrame.selecting ≤ if ctx.sniDone then 1 else 0

section Inv

variable {ctx ctx' : TlsCtx} {fs : List CtxFrame}

theorem CtxInv.tail {f : CtxFrame} (h : CtxInv ctx (f :: fs)) : CtxInv ctx fs where
  live := h.live
  anchored := h.anchored
  needs g hg := h.needs g (List.mem_cons_of_mem f hg)
  cached k hk := h.cached k (List.mem_cons_of_mem f hk)
  owner p phase hp := h.owner p phase (List.mem_cons_of_mem f hp)
  target p t hp := h.target p t (List.mem_cons_of_mem f hp)
  once := ((List.sublist_cons_self f fs).countP_le).trans h.once

theorem CtxInv.push (h : CtxInv ctx fs) {f : CtxFrame} (hacc : f.inAccept = false)
    (hneeds : f.needsSsl = true → ctx.ssl = true)
    (hcached : ∀ k, f = .cachePcall k → ctx.parent.isSome = true) : CtxInv ctx (f :: fs) where
  live := h.live
  anchored := h.anchored
  needs := List.forall_mem_cons.mpr ⟨hneeds, h.needs⟩
  cached k hk := (List.mem_cons.mp hk).elim (fun heq => hcached k heq.symm) (h.cached k)
  owner p phase hp := by
    rcases List.mem_cons.mp hp with rfl | hp
    · cases hacc
    · exact h.owner p phase hp
  target p t hp := by
    rcases List.mem_cons.mp hp with rfl | hp
    · cases hacc
    · exact h.target p t hp
  once := by
    rw [List.countP_cons_of_neg]
    · exact h.once
    · rw [CtxFrame.selecting, hacc]
      exact Bool.false_ne_true

structure TlsCtx.Keeps (ctx ctx' : TlsCtx) : Prop where
  client : ctx'.client = ctx.client
  ssl : ctx'.ssl = ctx.ssl
  freed : ctx'.freed = ctx.freed
  bio : ctx'.bioAnchored = ctx.bioAnchored
  parent : ctx'.parent = ctx.parent
  parentRef : ctx'.parentRef = ctx.parentRef
  sniDone : ctx'.sniDone = ctx.sniDone
  dead : ctx'.dead = ctx.dead

theorem CtxInv.keeps (h : CtxInv ctx fs) (hk : ctx.Keeps ctx') : CtxInv ctx' fs where
  live := by
    rw [hk.ssl, hk.freed, hk.bio, hk.parent]
    exact h.live
  anchored := by
    rw [hk.parent, hk.parentRef, hk.dead]
    exact h.anchored
  needs := by
    rw [hk.ssl]
    exact h.needs
  cached := by
    rw [hk.parent]
    exact h.cached
  owner := by
    rw [hk.dead, hk.parentRef, hk.sniDone]
    exact h.owner
  target := by
    rw [hk.dead]
    exact h.target
  once := by
    rw [hk.sniDone]
    exact h.once

theorem CtxInv.parentAnchored (h : CtxInv ctx fs) (hp : ctx.parent.isSome = true) :
    ctx.parentAnchored = true := by
  obtain ⟨p, hparent⟩ := Option.isSome_iff_exists.mp hp
  rw [TlsCtx.parentAnchored, hparent]
  exact decide_eq_true (h.anchored p hparent)

theorem CtxInv.object (h : CtxInv ctx fs) (hssl : ctx.ssl = true) : ctx.object = .live := by
  rw [TlsCtx.object, (h.live hssl).1]
  rfl

theorem CtxInv.sslCall (h : CtxInv ctx fs) (hssl : ctx.ssl = true) (f : SslFn) :
    (ctx.sslCall f).Good := by
  show ctx.sslArg = .live
  rw [TlsCtx.sslArg, if_pos hssl, h.object hssl]

theorem CtxInv.callbackCall (h : CtxInv ctx fs) (hssl : ctx.ssl = true) (f : SslFn) :
    (ctx.callbackCall f).Good :=
  h.object hssl

theorem CtxInv.readParent (h : CtxInv ctx fs) (hp : ctx.parent.isSome = true) :
    ctx.readParent.Good :=
  h.parentAnchored hp

end Inv

section Steps

variable {ctx : TlsCtx} {fs : List CtxFrame}

def AllGood (es : List CtxEvent) : Prop := ∀ e ∈ es, e.Good

structure StepSafe (fs : List CtxFrame) (r : CtxStep) : Prop where
  inv : CtxInv r.1 (r.2.1.toList ++ fs)
  good : AllGood r.2.2

theorem AllGood.nil : AllGood [] := fun _ he => absurd he List.not_mem_nil

theorem AllGood.cons {e : CtxEvent} {es : List CtxEvent} (hes : AllGood es) (he : e.Good) :
    AllGood (e :: es) :=
  List.forall_mem_cons.mpr ⟨he, hes⟩

theorem AllGood.append {es es' : List CtxEvent} (hes : AllGood es) (hes' : AllGood es') :
    AllGood (es ++ es') :=
  List.forall_mem_append.mpr ⟨hes, hes'⟩

theorem AllGood.snoc {e : CtxEvent} {es : List CtxEvent} (hes : AllGood es) (he : e.Good) :
    AllGood (es ++ [e]) :=
  hes.append (AllGood.nil.cons he)

theorem leave_safe (h : CtxInv ctx fs) (ret : CtxRet) : StepSafe fs (ctx.leave ret) where
  inv := h
  good := AllGood.nil.cons fun hssl => ⟨(h.live hssl).2.1, h.parentAnchored (h.live hssl).2.2⟩

theorem give_safe (h : CtxInv ctx fs) (ret : CtxRet) {es : List CtxEvent}
    (hes : AllGood es) : StepSafe fs (ctx.give ret es) where
  inv := h.push rfl nofun nofun
  good := hes

theorem CtxInv.unneeded (h : CtxInv ctx fs)
    (hfree : ctx.ssl = true → ∀ g ∈ fs, g.needsSsl = false) : ∀ g ∈ fs, g.needsSsl = false := by
  intro g hg
  by_contra hneeds
  exact hneeds (hfree (h.needs g hg (Bool.not_eq_false _ ▸ hneeds)) g hg)

theorem not_running (hfree : ∀ g ∈ fs, g.needsSsl = false) : fs.any CtxFrame.inAccept = false := by
  rw [List.any_eq_false]
  intro g hg hacc
  have hneeds := hfree g hg
  cases g <;> cases hacc
  cases hneeds

theorem cleanupSsl_safe (h : CtxInv ctx fs) (hfree : ∀ g ∈ fs, g.needsSsl = false) :
    CtxInv (ctx.cleanupSsl (fs.any CtxFrame.inAccept)).1 fs ∧
      AllGood (ctx.cleanupSsl (fs.any CtxFrame.inAccept)).2 := by
  unfold TlsCtx.cleanupSsl
  split
  · next hssl =>
    refine ⟨⟨nofun, h.anchored, fun g hg hneeds => ?_, h.cached, h.owner, h.target, h.once⟩, ?_⟩
    · rw [hfree g hg] at hneeds
      cases hneeds
    · have hfreed : (CtxEvent.freed (fs.any CtxFrame.inAccept)).Good := not_running hfree
      have hcleared : (CtxEvent.cleared (fs.any CtxFrame.inAccept)).Good := not_running hfree
      exact (((AllGood.nil.cons hcleared).cons hfreed).cons (h.sslCall hssl _)).cons
        (h.sslCall hssl _)
  · exact ⟨h, AllGood.nil⟩

theorem closeLua_safe (h : CtxInv ctx fs) (hfree : ∀ g ∈ fs, g.needsSsl = false)
    (hparent : ∀ g ∈ fs, g.needsParent = false) (ret : CtxRet) :
    StepSafe fs (ctx.closeLua (fs.any CtxFrame.inAccept) ret) := by
  obtain ⟨hinv, hgood⟩ := cleanupSsl_safe h hfree
  have hssl : (ctx.cleanupSsl (fs.any CtxFrame.inAccept)).1.ssl = false := by
    unfold TlsCtx.cleanupSsl
    split
    · rfl
    · next hssl => exact Bool.eq_false_iff.mpr hssl
  have hclosed : CtxInv (ctx.cleanupContext (fs.any CtxFrame.inAccept)).1 fs := by
    refine ⟨fun hlive => ?_, nofun, fun g hg hneeds => ?_, fun k hk => absurd (hparent _ hk) nofun,
      fun p phase hp => absurd (hfree _ hp) nofun, hinv.target, hinv.once⟩
    · exact absurd (hssl.symm.trans hlive) nofun
    · exact absurd ((hfree g hg).symm.trans hneeds) nofun
  exact give_safe hclosed ret hgood

theorem newSessionCb_safe (h : CtxInv ctx fs) (hssl : ctx.ssl = true) (a : CtxAns) :
    ctx.Keeps (ctx.newSessionCb a).1 ∧ AllGood (ctx.newSessionCb a).2 := by
  unfold TlsCtx.newSessionCb
  split
  · split
    · exact ⟨⟨rfl, rfl, rfl, rfl, rfl, rfl, rfl, rfl⟩,
        (AllGood.nil.cons (h.callbackCall hssl _)).cons (h.callbackCall hssl _)⟩
    · exact ⟨⟨rfl, rfl, rfl, rfl, rfl, rfl, rfl, rfl⟩, AllGood.nil.cons (h.callbackCall hssl _)⟩
  · exact ⟨⟨rfl, rfl, rfl, rfl, rfl, rfl, rfl, rfl⟩, AllGood.nil⟩

theorem afterCache_safe (h : CtxInv ctx fs) (a : CtxAns) {es : List CtxEvent}
    (hes : AllGood es) {k : SessionWriter} (hask : k.asksError = true → ctx.ssl = true)
    (hfree : k = .shutdown 1 → ∀ g ∈ fs, g.needsSsl = false) :
    StepSafe fs (ctx.afterCache (fs.any CtxFrame.inAccept) a es k) := by
  unfold TlsCtx.afterCache
  cases k with
  | handshake => exact give_safe h _ hes
  | read rv =>
    dsimp only
    split
    · exact give_safe h _ hes
    · next hrv =>
      have hssl := hask (decide_eq_true (Int.not_lt.mp hrv))
      exact give_safe h _ (hes.snoc (h.sslCall hssl _))
  | shutdown rv =>
    dsimp only
    split
    · next hone =>
      obtain ⟨hinv, hgood⟩ := cleanupSsl_safe h (hfree (by rw [hone]))
      exact give_safe hinv _ (hes.append hgood)
    split
    · exact give_safe h _ hes
    next hone hzero =>
    have hssl := hask (decide_eq_true ⟨hone, hzero⟩)
    have hes' := hes.snoc (h.sslCall hssl .getError)
    split
    · exact give_safe h _ hes'
    · exact give_safe h _ (hes'.snoc (h.live hssl).2.1)
    · exact give_safe h _ hes'

theorem cacheClientSession_safe (h : CtxInv ctx fs) (hssl : ctx.ssl = true) (a : CtxAns)
    {es : List CtxEvent} (hes : AllGood es) {k : SessionWriter}
    (hfree : k = .shutdown 1 → ctx.clientSession = false → ∀ g ∈ fs, g.needsSsl = false) :
    StepSafe fs (ctx.cacheClientSession (fs.any CtxFrame.inAccept) a es k) := by
  unfold TlsCtx.cacheClientSession
  split
  · exact ⟨h.push rfl (fun _ => hssl) fun _ _ => (h.live hssl).2.2, hes⟩
  · next hnone =>
    exact afterCache_safe h a hes (fun _ => hssl) fun hk => hfree hk (Bool.eq_false_iff.mpr hnone)

theorem afterHandshake_safe (h : CtxInv ctx fs) (hssl : ctx.ssl = true) (a : CtxAns)
    {es : List CtxEvent} (hes : AllGood es) :
    StepSafe fs (ctx.afterHandshake (fs.any CtxFrame.inAccept) a es) := by
  have hdone : CtxInv { ctx with handshakeCb := false } fs :=
    h.keeps ⟨rfl, rfl, rfl, rfl, rfl, rfl, rfl, rfl⟩
  unfold TlsCtx.afterHandshake
  split
  · dsimp only
    split
    · have hes' := hes.snoc (hdone.sslCall hssl .version)
      split
      · have hkept : CtxInv { ctx with handshakeCb := false, clientSession := a.session } fs :=
          h.keeps ⟨rfl, rfl, rfl, rfl, rfl, rfl, rfl, rfl⟩
        exact cacheClientSession_safe hkept hssl a
          (hes'.snoc (hdone.sslCall hssl .get1Session)) nofun
      · exact cacheClientSession_safe hdone hssl a hes' nofun
    · exact give_safe hdone _ hes
  · exact give_safe h _ (hes.snoc (h.sslCall hssl _))

theorem handshakeLua_safe (h : CtxInv ctx fs) (a : CtxAns) :
    StepSafe fs (ctx.handshakeLua (fs.any CtxFrame.inAccept) a) := by
  unfold TlsCtx.handshakeLua
  split
  · exact give_safe h _ .nil
  next hlive =>
  have hssl : ctx.ssl = true := by simpa using hlive
  split
  · exact give_safe h _ .nil
  split
  · have hparent := (h.live hssl).2.2
    refine ⟨?_, ((AllGood.nil.cons (h.sslCall hssl _)).cons (h.sslCall hssl _)).cons
      (h.readParent hparent)⟩
    have hkept : CtxInv { ctx with appData := true } fs :=
      h.keeps ⟨rfl, rfl, rfl, rfl, rfl, rfl, rfl, rfl⟩
    obtain ⟨p, hp⟩ := Option.isSome_iff_exists.mp hparent
    obtain ⟨href, hdead⟩ := h.anchored p hp
    refine ⟨hkept.live, hkept.anchored, List.forall_mem_cons.mpr ⟨fun _ => hssl, hkept.needs⟩,
      fun k hk => ?_, fun q phase hq => ?_, fun q target hq => ?_, hkept.once⟩
    · exact (List.mem_cons.mp hk).elim nofun (hkept.cached k)
    · rcases List.mem_cons.mp hq with heq | hq
      · cases heq
        exact ⟨p, hp, hdead, .inl href⟩
      · exact hkept.owner q phase hq
    · exact (List.mem_cons.mp hq).elim nofun (hkept.target q target)
  · obtain ⟨hkeeps, hgood⟩ := newSessionCb_safe h hssl a
    exact afterHandshake_safe (h.keeps hkeeps) (hkeeps.ssl.trans hssl) a
      (hgood.cons (h.sslCall hssl _))

theorem readBuffered_safe (h : CtxInv ctx fs) (hssl : ctx.ssl = true) (a : CtxAns) :
    StepSafe fs (ctx.readBuffered (fs.any CtxFrame.inAccept) a) := by
  obtain ⟨hkeeps, hgood⟩ := newSessionCb_safe h hssl a
  exact cacheClientSession_safe (h.keeps hkeeps) (hkeeps.ssl.trans hssl) a
    (hgood.cons (h.sslCall hssl _)) nofun

theorem readLua_safe (h : CtxInv ctx fs) (bufsiz : Int) : StepSafe fs (ctx.readLua bufsiz) := by
  unfold TlsCtx.readLua
  split
  · exact give_safe h _ .nil
  next hlive =>
  split
  · exact give_safe h _ .nil
  · exact ⟨h.push rfl (fun _ => by simpa using hlive) nofun, .nil⟩

theorem writeLua_safe (h : CtxInv ctx fs) (len : Nat) (a : CtxAns) :
    StepSafe fs (ctx.writeLua len a) := by
  unfold TlsCtx.writeLua
  split
  · exact give_safe h _ .nil
  next hlive =>
  have hssl : ctx.ssl = true := by simpa using hlive
  split
  · exact give_safe h _ .nil
  obtain ⟨hkeeps, hgood⟩ := newSessionCb_safe h hssl a
  have hkept := h.keeps hkeeps
  have hes := hgood.cons (h.sslCall hssl .write)
  dsimp only
  split
  · exact give_safe hkept _ hes
  · exact give_safe hkept _ (hes.snoc (hkept.sslCall (hkeeps.ssl.trans hssl) _))

theorem shutdownLua_safe (h : CtxInv ctx fs) (a : CtxAns) (ha : a.raised = false)
    (hfree : (CtxFrame.entry .shutdown).freesSsl ctx a = true → ∀ g ∈ fs, g.needsSsl = false) :
    StepSafe fs (ctx.shutdownLua (fs.any CtxFrame.inAccept) a) := by
  unfold TlsCtx.shutdownLua
  split
  · exact give_safe h _ .nil
  next hlive =>
  have hssl : ctx.ssl = true := by simpa using hlive
  split
  · exact give_safe h _ .nil
  next hcb =>
  obtain ⟨hkeeps, hgood⟩ := newSessionCb_safe h hssl a
  refine cacheClientSession_safe (h.keeps hkeeps) (hkeeps.ssl.trans hssl) a
    (hgood.cons (h.sslCall hssl _)) fun hk hnone => hfree ?_
  have hrv : a.rv = 1 := by injection hk
  simp only [CtxFrame.freesSsl, hssl, ha, hcb, hnone, hrv, Bool.not_false, Bool.and_self,
    decide_true]

theorem acceptReturned_safe {p : Option ParentId} (h : CtxInv ctx (.accept p .none :: fs))
    (a : CtxAns) : StepSafe fs (ctx.acceptReturned (fs.any CtxFrame.inAccept) p a) := by
  have hssl := h.needs _ List.mem_cons_self rfl
  have hkept : CtxInv { ctx with appData := false } fs :=
    h.tail.keeps ⟨rfl, rfl, rfl, rfl, rfl, rfl, rfl, rfl⟩
  obtain ⟨q, rfl, hdead, -⟩ := h.owner p .none List.mem_cons_self
  have halive : (CtxEvent.ownerUsed ((some q).any (· ∉ ctx.dead))).Good := decide_eq_true hdead
  exact afterHandshake_safe hkept hssl a
    ((AllGood.nil.cons (h.sslCall hssl _)).cons halive)

theorem clientHelloCb_safe {p : Option ParentId} (h : CtxInv ctx (.accept p .none :: fs))
    (a : CtxAns) (name : ServerName) : StepSafe fs (ctx.clientHelloCb p a name) := by
  have hssl := h.needs _ List.mem_cons_self rfl
  have happ : AllGood [ctx.callbackCall .getAppData] := AllGood.nil.cons (h.callbackCall hssl _)
  have hread := h.readParent (h.live hssl).2.2
  have hes : AllGood [ctx.callbackCall .getAppData, ctx.readParent] := happ.snoc hread
  unfold TlsCtx.clientHelloCb
  split
  · exact ⟨h, happ⟩
  dsimp only
  split
  · exact ⟨h, hes⟩
  split
  · exact ⟨h, hes⟩
  split
  · exact ⟨h, hes⟩
  next hdone =>
  have hnot : ctx.sniDone = false := Bool.eq_false_iff.mpr hdone
  have hes' := hes.snoc (h.callbackCall hssl .clientHelloGet0Ext)
  have honce : (CtxFrame.accept p .none :: fs).countP CtxFrame.selecting = 0 := by
    have hle := h.once
    rw [hnot] at hle
    exact Nat.le_zero.mp hle
  have hset : CtxInv { ctx with sniDone := true } (.accept p .none :: fs) := by
    refine ⟨h.live, h.anchored, h.needs, h.cached, fun q phase hq => ?_, h.target, ?_⟩
    · obtain ⟨r, hr, hdead, href⟩ := h.owner q phase hq
      exact ⟨r, hr, hdead, href.imp id fun hnone => ⟨hnone.1, rfl⟩⟩
    · rw [honce]
      exact Nat.zero_le _
  split
  · refine ⟨⟨hset.live, hset.anchored, ?_, ?_, ?_, ?_, ?_⟩, hes'.snoc hread⟩
    · exact List.forall_mem_cons.mpr ⟨fun _ => hssl, hset.tail.needs⟩
    · intro k hk
      exact (List.mem_cons.mp hk).elim nofun (hset.tail.cached k)
    · intro q phase hq
      rcases List.mem_cons.mp hq with heq | hq
      · cases heq
        obtain ⟨r, hr, hdead, href⟩ := h.owner p .none List.mem_cons_self
        refine ⟨r, hr, hdead, .inl (href.resolve_right fun hnone => ?_)⟩
        exact absurd (hnot.symm.trans hnone.2) nofun
      · exact hset.tail.owner q phase hq
    · intro q target hq
      exact (List.mem_cons.mp hq).elim nofun (hset.tail.target q target)
    · have hfs : fs.countP CtxFrame.selecting = 0 :=
        Nat.le_zero.mp (((List.sublist_cons_self _ fs).countP_le).trans honce.le)
      show (CtxFrame.accept p .hello :: fs).countP CtxFrame.selecting ≤ 1
      rw [List.countP_cons_of_pos rfl, hfs]
  · exact ⟨hset, hes'⟩

theorem CtxInv.rephase {p : Option ParentId} {phase phase' : HelloPhase}
    (h : CtxInv ctx (.accept p phase :: fs)) (hphase : (CtxFrame.accept p phase).waits = true)
    (htarget : ∀ target, phase' = .ref target → target ∉ ctx.dead) :
    CtxInv ctx (.accept p phase' :: fs) where
  live := h.live
  anchored := h.anchored
  needs := List.forall_mem_cons.mpr ⟨fun _ => h.needs _ List.mem_cons_self rfl, h.tail.needs⟩
  cached k hk := (List.mem_cons.mp hk).elim nofun (h.tail.cached k)
  owner q ph hq := by
    rcases List.mem_cons.mp hq with heq | hq
    · cases heq
      obtain ⟨r, hr, hdead, href⟩ := h.owner p phase List.mem_cons_self
      refine ⟨r, hr, hdead, .inl (href.resolve_right fun hnone => ?_)⟩
      rw [hnone.1] at hphase
      cases hphase
    · exact h.tail.owner q ph hq
  target q target hq := by
    rcases List.mem_cons.mp hq with heq | hq
    · cases heq
      exact htarget target rfl
    · exact h.tail.target q target hq
  once := by
    have hle := h.once
    have hselecting : (CtxFrame.accept p phase).selecting = true := hphase
    rw [List.countP_cons_of_pos hselecting] at hle
    refine le_trans ?_ hle
    rw [List.countP_cons]
    split
    · exact Nat.le_refl _
    · exact Nat.le_succ _

theorem CtxInv.selected {p : Option ParentId} {target : ParentId}
    (h : CtxInv ctx (.accept p (.ref target) :: fs)) (hwait : ∀ g ∈ fs, g.waits = true) :
    CtxInv { ctx with parentRef := some target, parent := some target }
      (.accept p .none :: fs) := by
  have hcount := h.once
  rw [List.countP_cons_of_pos rfl] at hcount
  have hdone : ctx.sniDone = true := by
    by_contra hnot
    rw [Bool.eq_false_iff.mpr hnot] at hcount
    exact absurd hcount (Nat.not_succ_le_zero _)
  -- the selection that ends here is the one that `sniDone` allows
  have hnone : fs.countP CtxFrame.selecting = 0 := by
    rw [hdone] at hcount
    exact Nat.le_zero.mp (Nat.le_of_succ_le_succ hcount)
  have hacc : ∀ q phase, .accept q phase ∉ fs := fun q phase hq =>
    List.countP_eq_zero.mp hnone _ hq (hwait _ hq)
  refine ⟨fun hssl => ⟨(h.live hssl).1, (h.live hssl).2.1, rfl⟩, fun q hq => ?_, ?_,
    fun _ _ => rfl, fun q phase hq => ?_, fun q t hq => ?_, ?_⟩
  · cases hq
    exact ⟨rfl, h.target p target List.mem_cons_self⟩
  · exact List.forall_mem_cons.mpr ⟨fun _ => h.needs _ List.mem_cons_self rfl, h.tail.needs⟩
  · rcases List.mem_cons.mp hq with heq | hq
    · cases heq
      obtain ⟨r, hr, hdead, -⟩ := h.owner p _ List.mem_cons_self
      exact ⟨r, hr, hdead, .inr ⟨rfl, hdone⟩⟩
    · exact absurd hq (hacc q phase)
  · exact (List.mem_cons.mp hq).elim nofun fun hq => absurd hq (hacc q _)
  · rw [List.countP_cons_of_neg Bool.false_ne_true, hnone]
    exact Nat.zero_le _

theorem selectServerLua_safe {p : Option ParentId} {phase : HelloPhase}
    (h : CtxInv ctx (.accept p phase :: fs)) (hphase : (CtxFrame.accept p phase).waits = true)
    (hwait : ∀ g ∈ fs, g.waits = true) (a : CtxAns) :
    StepSafe fs (ctx.selectServerLua p a phase) := by
  have hssl := h.needs _ List.mem_cons_self rfl
  have hgo : ∀ phase', (∀ target, phase' = .ref target → target ∉ ctx.dead) →
      CtxInv ctx (.accept p phase' :: fs) := fun phase' => h.rephase hphase
  cases phase with
  | none => cases hphase
  | hello =>
    rw [TlsCtx.selectServerLua]
    split
    · exact ⟨hgo _ nofun, .nil⟩
    · exact ⟨hgo _ nofun, AllGood.nil.cons (h.readParent (h.live hssl).2.2)⟩
  | sni =>
    rw [TlsCtx.selectServerLua]
    split
    · exact ⟨hgo _ nofun, .nil⟩
    split
    · split
      · exact ⟨hgo _ nofun, .nil⟩
      · next hlive =>
        refine ⟨hgo _ fun target htarget => ?_, .nil⟩
        cases htarget
        exact hlive
    · exact ⟨hgo _ nofun, .nil⟩
  | ref target =>
    rw [TlsCtx.selectServerLua]
    split
    · exact ⟨hgo _ nofun, .nil⟩
    · refine ⟨h.selected hwait, fun e he => ?_⟩
      obtain ⟨f, -, rfl⟩ := List.mem_map.mp he
      exact h.callbackCall hssl f
  | error => exact ⟨hgo _ nofun, .nil⟩

theorem enter_safe (h : CtxInv ctx fs) {a : CtxAns} (ha : a.raised = false) (m : CtxMethod)
    (hP : Undisturbed ctx fs (.entry m) a) :
    StepSafe fs (ctx.enter (fs.any CtxFrame.inAccept) a m) := by
  have hclose : ((CtxFrame.entry m).freesSsl ctx a = (ctx.ssl && !a.raised)) →
      (CtxFrame.entry m).releasesParent a = !a.raised → ∀ ret,
        StepSafe fs (ctx.closeLua (fs.any CtxFrame.inAccept) ret) := by
    intro hfrees hreleases ret
    refine closeLua_safe h (h.unneeded fun hssl => hP.ssl ?_) (hP.parent ?_) ret
    · rw [hfrees, hssl, ha]
      rfl
    · rw [hreleases, ha]
      rfl
  cases m with
  | handshake => exact handshakeLua_safe h a
  | read bufsiz => exact readLua_safe h bufsiz
  | write len => exact writeLua_safe h len a
  | shutdown => exact shutdownLua_safe h a ha hP.ssl
  | close => exact hclose rfl rfl .yes
  | getBio =>
    show StepSafe fs ctx.getBioLua
    unfold TlsCtx.getBioLua
    split
    · exact give_safe h _ .nil
    · exact give_safe h _ .nil
  | gc => exact hclose rfl rfl .nothing

theorem ctxAct_safe {f : CtxFrame} (h : CtxInv ctx (f :: fs)) (hwait : ∀ g ∈ fs, g.waits = true)
    {a : CtxAns} (hP : Undisturbed ctx fs f a) : StepSafe fs (ctxAct ctx fs f a) := by
  have htail := h.tail
  have hneeds : f.needsSsl = true → ctx.ssl = true := h.needs f List.mem_cons_self
  cases f with
  | entry m =>
    unfold ctxAct
    dsimp only
    split
    · exact leave_safe htail _
    · next ha => exact enter_safe htail (Bool.eq_false_iff.mpr ha) m hP
  | accept p phase =>
    cases hphase : (CtxFrame.accept p phase).waits with
    | false =>
      cases phase <;> cases hphase
      unfold ctxAct
      dsimp only
      split
      · next name _ => exact clientHelloCb_safe h a name
      · exact acceptReturned_safe h a
    | true =>
      have hact : ctxAct ctx fs (.accept p phase) a = ctx.selectServerLua p a phase := by
        cases phase <;> first | rfl | cases hphase
      rw [hact]
      exact selectServerLua_safe h hphase hwait a
  | readBuf =>
    unfold ctxAct
    dsimp only
    split
    · exact leave_safe htail _
    · exact readBuffered_safe htail (hneeds rfl) a
  | cachePcall k =>
    unfold ctxAct
    dsimp only
    split
    · exact ⟨htail.push rfl hneeds nofun, .nil⟩
    · exact ⟨htail.push rfl hneeds nofun,
        AllGood.nil.cons (h.readParent (h.cached k List.mem_cons_self))⟩
  | cachePut k =>
    unfold ctxAct
    dsimp only
    split
    · exact ⟨htail.push rfl hneeds nofun, .nil⟩
    · next ha =>
      have hkept : CtxInv { ctx with clientSession := false } fs :=
        htail.keeps ⟨rfl, rfl, rfl, rfl, rfl, rfl, rfl, rfl⟩
      refine afterCache_safe hkept a .nil hneeds fun hk => htail.unneeded fun hssl => hP.ssl ?_
      subst hk
      simp only [CtxFrame.freesSsl, hssl, ha, Bool.not_false, Bool.and_self, decide_true]
  | cacheErr k =>
    refine afterCache_safe htail a .nil hneeds fun hk => htail.unneeded fun hssl => hP.ssl ?_
    subst hk
    simp only [CtxFrame.freesSsl, hssl, Bool.and_self, decide_true]
  | result ret =>
    unfold ctxAct
    dsimp only
    split
    · exact leave_safe htail _
    · exact leave_safe htail _

end Steps

theorem ctxCollect_inv {ctx : TlsCtx} {fs : List CtxFrame} (h : CtxInv ctx fs)
    (hwait : ∀ g ∈ fs, g.waits = true) (p : ParentId) : CtxInv (ctxCollect ctx fs p) fs := by
  unfold ctxCollect
  split
  · exact h
  next hheld =>
  rw [not_or] at hheld
  obtain ⟨href, hstack⟩ := hheld
  have hnotMem : ∀ q, q ≠ p → q ∉ ctx.dead → q ∉ p :: ctx.dead := fun q hne hdead hmem =>
    (List.mem_cons.mp hmem).elim hne hdead
  refine ⟨h.live, fun q hq => ?_, h.needs, h.cached, fun q phase hq => ?_, fun q target hq => ?_,
    h.once⟩
  · obtain ⟨hq', hdead⟩ := h.anchored q hq
    refine ⟨hq', hnotMem q ?_ hdead⟩
    rintro rfl
    exact href hq'
  · obtain ⟨r, hr, hdead, hanchor⟩ := h.owner q phase hq
    -- `SSL_accept` itself never lets the collector in
    have hanchored : ctx.parentRef = some r := hanchor.resolve_right fun hnone => by
      have hw := hwait _ hq
      rw [hnone.1] at hw
      cases hw
    refine ⟨r, hr, hnotMem r ?_ hdead, .inl hanchored⟩
    rintro rfl
    exact href hanchored
  · refine hnotMem target ?_ (h.target q target hq)
    rintro rfl
    exact hstack (List.any_eq_true.mpr ⟨_, hq, decide_eq_true rfl⟩)

theorem ctxMachine_guarded : ctxMachine.Guarded Undisturbed CtxInv CtxEvent.Good where
  call ctx fs m h _ := h.push rfl nofun nofun
  foreign ctx fs p h hwait := ctxCollect_inv h hwait p
  act ctx fs f a h hwait hP := by
    obtain ⟨hinv, hgood⟩ := ctxAct_safe h hwait hP
    exact ⟨hinv, hgood⟩

theorem tlsCtxNew_inv (client keyed : Bool) (p : ParentId) :
    CtxInv (tlsCtxNew client keyed p) [] where
  live _ := ⟨rfl, rfl, rfl⟩
  anchored _ hq := ⟨hq, List.not_mem_nil⟩
  needs _ hf := absurd hf List.not_mem_nil
  cached _ hk := absurd hk List.not_mem_nil
  owner _ _ hp := absurd hp List.not_mem_nil
  target _ _ hp := absurd hp List.not_mem_nil
  once := Nat.le_refl 0

abbrev CtxLabel := ReentrantLabel CtxMethod ParentId CtxAns

/-- In a run that disturbs no activation, no OpenSSL call meets a missing or freed SSL object, the
object is never freed under a running call, the parent is only read while it is anchored, and
every method that returns with an SSL object leaves its BIO and its parent anchored. -/
theorem tlsCtx_undisturbed (client keyed : Bool) (p : ParentId) (ls : List CtxLabel)
    (h : Along ctxMachine.step (Reentrant.Acts Undisturbed) (tlsCtxNew client keyed p, []) ls) :
    ∀ e ∈ (runs ctxMachine.step (tlsCtxNew client keyed p, []) ls).2, e.Good :=
  Reentrant.runs_good ctxMachine_guarded (tlsCtxNew_inv client keyed p) h

def quietRun : List CtxLabel :=
  [.call .handshake, .act {}, .act { hello := some .hostName, sni := true }, .act {},
    .call .getBio, .act {}, .act {}, .call .shutdown, .act {}, .act {},
    .act { target := some 8 }, .act { switches := 8 }, .act { rv := 1 }, .act {}, .foreign 7,
    .call (.read 16), .act {}, .call (.write 4), .act { rv := 4 }, .act {}, .act { rv := 3 }, .act {},
    .call .close, .act {}, .act {}]

theorem tlsCtx_undisturbed_quietRun :
    CtxEvent.returned (.msg 3) true true true ∈
        (runs ctxMachine.step (tlsCtxNew false false 7, []) quietRun).2 ∧
      ∀ e ∈ (runs ctxMachine.step (tlsCtxNew false false 7, []) quietRun).2, e.Good :=
  ⟨by decide, tlsCtx_undisturbed false false 7 quietRun (by decide)⟩

/-- The SNI callback closes the context under the running `SSL_accept`, and selects a server. -/
def closeInSni : List CtxLabel :=
  [.call .handshake, .act {}, .act { hello := some .hostName, sni := true }, .act {},
    .call .close, .act {}, .act {}, .act { target := some 8 }, .act {}]

theorem closeInSni_freed :
    CtxEvent.freed true ∈ (runs ctxMachine.step (tlsCtxNew false false 7, []) closeInSni).2 ∧
      CtxEvent.ssl .setSslCtx .dangling ∈
        (runs ctxMachine.step (tlsCtxNew false false 7, []) closeInSni).2 ∧
      ¬ ∀ e ∈ (runs ctxMachine.step (tlsCtxNew false false 7, []) closeInSni).2, e.Good := by
  have hfreed : CtxEvent.freed true ∈
      (runs ctxMachine.step (tlsCtxNew false false 7, []) closeInSni).2 := by decide
  refine ⟨hfreed, by decide, fun h => ?_⟩
  cases h _ hfreed

end LuaNet.Tls
