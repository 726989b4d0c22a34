import LuaNet.Tls.Cache
import LuaNet.Tls.SessionKey

/-! Client resumption: clients share contexts through caches, and connections share sessions
through the session store of their context. The machine interleaves any number of connections;
a session that is offered was stored under the same key in the same context. -/

namespace LuaNet.Tls

open LuaNet.Lib

/-- A client connection. `sslCtx` and `opts` are what its SSL object was made from. -/
structure ClientCtx where
  client : Nat
  sslCtx : Nat
  opts : ContextOpts
  sessionKey : Option Bytes
  clientSession : Option SslSession
  ssl : Bool
  handshakeCb : Bool

structure ClientWorld where
  caches : Nat → TlsCache
  ctxs : Nat → TlsSslCtx
  nextCtx : Nat
  clients : Nat → Option Nat
  nextClient : Nat
  conns : Nat → Option ClientCtx
  nextConn : Nat

def ClientWorld.setConn (w : ClientWorld) (conn : Nat) (c : ClientCtx) : ClientWorld :=
  { w with conns := Function.update w.conns conn (some c) }

def ClientWorld.setCtx (w : ClientWorld) (x : Nat) (ctx : TlsSslCtx) : ClientWorld :=
  { w with ctxs := Function.update w.ctxs x ctx }

def ClientWorld.setCache (w : ClientWorld) (i : Nat) (cache : TlsCache) : ClientWorld :=
  { w with caches := Function.update w.caches i cache }

/-- `stored conn item`: the connection handed the session to the store of its context.
`offered conn item`: the session was given to `SSL_set_session` of the connection. -/
inductive SessionEvent
  | stored (conn : Nat) (item : TlsSslSession)
  | offered (conn : Nat) (item : TlsSslSession)

/-- How an attempt to cache a session ends: the allocations succeed, the item cannot be
allocated, or the store cannot be written. -/
inductive CacheOutcome
  | ok
  | noItem
  | storeFault (fault : PutFault)

def tlsCacheSslSessAccepts (ctx : TlsSslCtx) (session : SslSession) : Bool :=
  tlsCacheSslSessEnabled ctx && session.hasTicket && session.isResumable

def cacheClientSession (w : ClientWorld) (conn : Nat) (c : ClientCtx) (pick : Bytes)
    (outcome : CacheOutcome) : ClientWorld × List SessionEvent :=
  match c.clientSession with
  | none => (w, [])
  | some session =>
    let item : TlsSslSession := { session := session, storedBy := conn }
    let key := c.sessionKey.getD []
    let dropped := w.setConn conn { c with clientSession := none }
    match w.clients c.client with
    | none => (dropped, [])
    | some x =>
      if !tlsCacheSslSessAccepts (w.ctxs x) session then (dropped, [])
      else
        match outcome with
        | .ok =>
          (dropped.setCtx x (tlsCacheSslSessPut (w.ctxs x) key item pick), [.stored conn item])
        -- the connection still owns the session, and tries again later
        | .noItem => (w, [])
        | .storeFault fault =>
          (dropped.setCtx x
            { sslSessCache :=
                tlsCacheStorePutFaulty (w.ctxs x).sslSessCache key item pick fault },
            [.stored conn item])

def newSessionCb (c : ClientCtx) (session : SslSession) (tls13 : Bool) : ClientCtx :=
  if c.sessionKey.isNone || !tls13 then c else { c with clientSession := some session }

structure ConnectEnv where
  sslNew : Bool
  identitySet : Bool
  bioSet : Bool
  now : Option Int

def connectRefused (fd : Int) (opts : ContextOpts) (env : ConnectEnv) : Bool :=
  fd < 0 || 2 ^ 31 - 1 < fd || opts.servername.bytes.contains 0 || !env.sslNew ||
    (opts.verifyName && !opts.verifyCert) ||
    (opts.verifyName && opts.servername.bytes.isEmpty) || !env.identitySet || !env.bioSet

def sessionKeyed (ctx : TlsSslCtx) (opts : ContextOpts) : Bool :=
  tlsCacheSslSessEnabled ctx && !opts.host.bytes.isEmpty && !opts.port.bytes.isEmpty

def connectCtx (client x : Nat) (opts : ContextOpts) (keyed : Bool) : ClientCtx :=
  { client := client, sslCtx := x, opts := opts
    sessionKey := if keyed then some (pushSessionKey opts) else none
    clientSession := none, ssl := true, handshakeCb := true }

def connectLua (w : ClientWorld) (client : Nat) (fd : Int) (args : ConnectArgs)
    (env : ConnectEnv) : ClientWorld × List SessionEvent :=
  match checkContextOpts args, w.clients client with
  | .error _, _ => (w, [])
  | .ok _, none => (w, [])
  | .ok opts, some x =>
    if connectRefused fd opts env then (w, [])
    else
      let keyed := sessionKeyed (w.ctxs x) opts
      let w' := { w.setConn w.nextConn (connectCtx client x opts keyed) with
        nextConn := w.nextConn + 1 }
      if keyed then
        let taken := tlsCacheSslSessTake (w.ctxs x) (pushSessionKey opts) env.now
        (w'.setCtx x taken.2, taken.1.toList.map (.offered w.nextConn))
      else (w', [])

def handshakeDone (c : ClientCtx) (session12 : Option (Option SslSession)) : ClientCtx :=
  let c := { c with handshakeCb := false }
  match session12 with
  | none => c
  | some session => { c with clientSession := session }

inductive ClientOp
  | newClient (cache : Option Nat) (opts : ClientOpts) (pick pick' : Bytes) (built : Bool)
  | gcClient (client : Nat)
  | connect (client : Nat) (fd : Int) (args : ConnectArgs) (env : ConnectEnv)
  | newSession (conn : Nat) (session : SslSession) (tls13 : Bool)
  | handshake (conn : Nat) (done : Bool) (session12 : Option (Option SslSession)) (pick : Bytes)
      (outcome : CacheOutcome)
  | read (conn : Nat) (pick : Bytes) (outcome : CacheOutcome)
  | shutdown (conn : Nat) (rv : Int) (pick : Bytes) (outcome : CacheOutcome)
  | close (conn : Nat)
  | clearCache (cache : Nat)
  | collectCtxs (cache : Nat) (keys : List Bytes)
  | collectSessions (ctx : Nat) (keys : List Bytes)

def newClient (w : ClientWorld) (cache : Option Nat) (opts : ClientOpts) (pick pick' : Bytes)
    (built : Bool) : ClientWorld :=
  match cache with
  | none =>
    -- no cache: a context of its own, which retains no sessions
    let ctx : TlsSslCtx := { sslSessCache := tlsCacheStoreInit ⟨0, SizeT.zero_fits⟩ }
    { w.setCtx w.nextCtx ctx with
        nextCtx := w.nextCtx + 1
        clients := Function.update w.clients w.nextClient (if built then some w.nextCtx else none)
        nextClient := w.nextClient + 1 }
  | some i =>
    let got := openCtx { cache := w.caches i, ctxs := w.ctxs, next := w.nextCtx }
      (pushCacheKey opts) pick pick' built
    { w.setCache i got.2.cache with
        ctxs := got.2.ctxs
        nextCtx := got.2.next
        clients := Function.update w.clients w.nextClient got.1
        nextClient := w.nextClient + 1 }

def onConn (w : ClientWorld) (conn : Nat)
    (f : ClientCtx → ClientWorld × List SessionEvent) : ClientWorld × List SessionEvent :=
  match w.conns conn with
  | none => (w, [])
  | some c => if c.ssl then f c else (w, [])

def clientStep (w : ClientWorld) : ClientOp → ClientWorld × List SessionEvent
  | .newClient cache opts pick pick' built => (newClient w cache opts pick pick' built, [])
  | .gcClient client => ({ w with clients := Function.update w.clients client none }, [])
  | .connect client fd args env => connectLua w client fd args env
  | .newSession conn session tls13 =>
    onConn w conn fun c => (w.setConn conn (newSessionCb c session tls13), [])
  | .handshake conn done session12 pick outcome =>
    onConn w conn fun c =>
      if !c.handshakeCb || !done then (w, [])
      else if c.sessionKey.isNone then (w.setConn conn { c with handshakeCb := false }, [])
      else
        let c := handshakeDone c session12
        cacheClientSession (w.setConn conn c) conn c pick outcome
  | .read conn pick outcome => onConn w conn fun c => cacheClientSession w conn c pick outcome
  | .shutdown conn rv pick outcome =>
    onConn w conn fun c =>
      if c.handshakeCb then (w, [])
      else
        let (w', es) := cacheClientSession w conn c pick outcome
        if rv = 1 then
          match w'.conns conn with
          | none => (w', es)
          | some c => (w'.setConn conn { c with ssl := false }, es)
        else (w', es)
  | .close conn =>
    match w.conns conn with
    | none => (w, [])
    | some c =>
      (w.setConn conn { c with
        ssl := false, sessionKey := none, clientSession := none, handshakeCb := false }, [])
  | .clearCache i =>
    let cleared := clearLua { cache := w.caches i, ctxs := w.ctxs, next := w.nextCtx }
    ({ w.setCache i cleared.cache with ctxs := cleared.ctxs }, [])
  | .collectCtxs i keys =>
    (w.setCache i { (w.caches i) with
      sslCtxCache := storeCollect (w.caches i).sslCtxCache keys }, [])
  | .collectSessions x keys =>
    (w.setCtx x { sslSessCache := storeCollect (w.ctxs x).sslSessCache keys }, [])

def clientWorldNew (capacities : Nat → SizeT × SizeT) : ClientWorld :=
  { caches := fun i =>
      { sslCtxCache := tlsCacheStoreInit (capacities i).1, sessionCapacity := (capacities i).2 }
    ctxs := fun _ => { sslSessCache := tlsCacheStoreInit ⟨0, SizeT.zero_fits⟩ }
    nextCtx := 0
    clients := fun _ => none
    nextClient := 0
    conns := fun _ => none
    nextConn := 0 }

/-! The invariant: what a session store holds was stored there under its key. -/

def StoredFor (w : ClientWorld) (es : List SessionEvent) (item : TlsSslSession) (x : Nat)
    (k : Bytes) : Prop :=
  .stored item.storedBy item ∈ es ∧
    ∃ c, w.conns item.storedBy = some c ∧ c.sslCtx = x ∧ k = pushSessionKey c.opts

/-- What is offered was stored before, in the context and under the key of the connection. -/
def OfferedAfter (w : ClientWorld) (before : List SessionEvent) : SessionEvent → Prop
  | .stored _ _ => True
  | .offered conn item =>
    ∃ c, w.conns conn = some c ∧ StoredFor w before item c.sslCtx (pushSessionKey c.opts)

structure SessionInv (w : ClientWorld) (es : List SessionEvent) : Prop where
  conn_lt : ∀ a c, w.conns a = some c → a < w.nextConn
  live_lt : ∀ i x, w.clients i = some x → i < w.nextClient
  client_lt : ∀ a c, w.conns a = some c → c.client < w.nextClient
  client_ctx : ∀ a c x, w.conns a = some c → w.clients c.client = some x → c.sslCtx = x
  key : ∀ a c k, w.conns a = some c → c.sessionKey = some k → k = pushSessionKey c.opts
  keyed : ∀ a c, w.conns a = some c → c.clientSession.isSome → c.sessionKey.isSome
  held : ∀ x k item, (w.ctxs x).sslSessCache.Holds k item → StoredFor w es item x k
  offered : Each (OfferedAfter w) es

def ClientWorld.Keeps (w w' : ClientWorld) : Prop :=
  ∀ a c, w.conns a = some c → ∃ c', w'.conns a = some c' ∧ c'.sslCtx = c.sslCtx ∧ c'.opts = c.opts

section Growth

variable {w w' : ClientWorld} {es : List SessionEvent} {item : TlsSslSession} {x : Nat} {k : Bytes}

theorem StoredFor.keeps (h : StoredFor w es item x k) (hw : w.Keeps w') :
    StoredFor w' es item x k := by
  obtain ⟨hes, c, hc, hx, hk⟩ := h
  obtain ⟨c', hc', hctx, hopts⟩ := hw _ c hc
  exact ⟨hes, c', hc', hctx.trans hx, hopts ▸ hk⟩

theorem StoredFor.later (h : StoredFor w es item x k) (e : SessionEvent) :
    StoredFor w (es ++ [e]) item x k :=
  ⟨List.mem_append_left _ h.1, h.2⟩

theorem OfferedAfter.keeps {before : List SessionEvent} {e : SessionEvent}
    (h : OfferedAfter w before e) (hw : w.Keeps w') : OfferedAfter w' before e := by
  cases e with
  | stored conn item => trivial
  | offered conn item =>
    obtain ⟨c, hc, hstored⟩ := h
    obtain ⟨c', hc', hctx, hopts⟩ := hw _ c hc
    refine ⟨c', hc', ?_⟩
    rw [hctx, hopts]
    exact hstored.keeps hw

@[simp] theorem setConn_self (w : ClientWorld) (a : Nat) (c : ClientCtx) :
    (w.setConn a c).conns a = some c := Function.update_self _ _ _

theorem setConn_of_ne {a b : Nat} (h : b ≠ a) (w : ClientWorld) (c : ClientCtx) :
    (w.setConn a c).conns b = w.conns b := Function.update_of_ne h _ _

theorem setConn_some {a b : Nat} {c d : ClientCtx} (hd : (w.setConn a c).conns b = some d) :
    b = a ∧ d = c ∨ b ≠ a ∧ w.conns b = some d := by
  by_cases hb : b = a
  · subst hb
    exact .inl ⟨rfl, (Option.some.inj ((setConn_self w b c).symm.trans hd)).symm⟩
  · exact .inr ⟨hb, (setConn_of_ne hb w c).symm.trans hd⟩

theorem keeps_setConn {a : Nat} {c c' : ClientCtx} (hc : w.conns a = some c)
    (hctx : c'.sslCtx = c.sslCtx) (hopts : c'.opts = c.opts) : w.Keeps (w.setConn a c') := by
  intro b d hd
  by_cases hb : b = a
  · subst hb
    cases hc.symm.trans hd
    exact ⟨c', setConn_self w b c', hctx, hopts⟩
  · exact ⟨d, (setConn_of_ne hb w c').trans hd, rfl, rfl⟩

end Growth

section Preservation

variable {w : ClientWorld} {es : List SessionEvent}

theorem clientWorldNew_inv (capacities : Nat → SizeT × SizeT) :
    SessionInv (clientWorldNew capacities) [] := by
  refine ⟨?_, ?_, ?_, ?_, ?_, ?_, ?_, Each.nil _⟩
  · exact fun a c h => nomatch h
  · exact fun i x h => nomatch h
  · exact fun a c h => nomatch h
  · exact fun a c x h => nomatch h
  · exact fun a c k h => nomatch h
  · exact fun a c h => nomatch h
  · exact fun x k item h => absurd h (tlsCacheStoreInit_holds _)

theorem SessionInv.stored (h : SessionInv w es) (conn : Nat) (item : TlsSslSession) :
    SessionInv w (es ++ [.stored conn item]) :=
  { h with
    held := fun x k i hi => (h.held x k i hi).later _
    offered := h.offered.snoc trivial }

theorem SessionInv.setConn (h : SessionInv w es) {a : Nat} {c c' : ClientCtx}
    (hc : w.conns a = some c) (hclient : c'.client = c.client) (hctx : c'.sslCtx = c.sslCtx)
    (hopts : c'.opts = c.opts) (hkey : ∀ k, c'.sessionKey = some k → c.sessionKey = some k)
    (hkeyed : c'.clientSession.isSome → c'.sessionKey.isSome) :
    SessionInv (w.setConn a c') es := by
  have hkeeps := keeps_setConn hc hctx hopts
  refine ⟨fun b d hd => ?_, h.live_lt, fun b d hd => ?_, fun b d x hd hx => ?_, fun b d k hd hk => ?_,
    fun b d hd hs => ?_, fun x k i hi => (h.held x k i hi).keeps hkeeps,
    h.offered.mono fun before e he => he.keeps hkeeps⟩
  all_goals rcases setConn_some hd with ⟨rfl, rfl⟩ | ⟨-, hd⟩
  · exact h.conn_lt _ c hc
  · exact h.conn_lt b d hd
  · exact hclient ▸ h.client_lt _ c hc
  · exact h.client_lt b d hd
  · exact hctx.trans (h.client_ctx _ c x hc (hclient ▸ hx))
  · exact h.client_ctx b d x hd hx
  · exact hopts ▸ h.key _ c k hc (hkey k hk)
  · exact h.key b d k hd hk
  · exact hkeyed hs
  · exact h.keyed b d hd hs

theorem SessionInv.setCtx (h : SessionInv w es) {x : Nat} {ctx : TlsSslCtx}
    (hheld : ∀ k item, ctx.sslSessCache.Holds k item →
      (w.ctxs x).sslSessCache.Holds k item ∨ StoredFor w es item x k) :
    SessionInv (w.setCtx x ctx) es := by
  refine ⟨h.conn_lt, h.live_lt, h.client_lt, h.client_ctx, h.key, h.keyed, fun y k item hy => ?_,
    h.offered⟩
  by_cases hxy : y = x
  · subst hxy
    have hy : ctx.sslSessCache.Holds k item := by
      simpa only [ClientWorld.setCtx, Function.update_self] using hy
    exact (hheld k item hy).elim (h.held y k item) id
  · have hy : (w.ctxs y).sslSessCache.Holds k item := by
      simpa only [ClientWorld.setCtx, Function.update_of_ne hxy] using hy
    exact h.held y k item hy

theorem tlsCacheSslSessPut_holds {ctx : TlsSslCtx} {key k pick : Bytes} {item i : TlsSslSession}
    (h : (tlsCacheSslSessPut ctx key item pick).sslSessCache.Holds k i) :
    k = key ∧ i = item ∨ ctx.sslSessCache.Holds k i := by
  unfold tlsCacheSslSessPut at h
  split at h
  · exact .inr h
  · exact tlsCacheStorePut_holds h

theorem tlsCacheSslSessTake_holds {ctx : TlsSslCtx} {k : Bytes} {i : TlsSslSession}
    (key : Bytes) (now : Option Int)
    (h : (tlsCacheSslSessTake ctx key now).2.sslSessCache.Holds k i) :
    ctx.sslSessCache.Holds k i := by
  rcases tlsCacheSslSessTake_store ctx key now with heq | heq
  · rwa [heq] at h
  · rw [heq] at h
    exact tlsCacheStoreTake_holds h

theorem tlsCacheSslSessTake_some {ctx : TlsSslCtx} {key : Bytes} {now : Option Int}
    {i : TlsSslSession} (h : (tlsCacheSslSessTake ctx key now).1 = some i) :
    ctx.sslSessCache.Holds key i := by
  unfold tlsCacheSslSessTake at h
  split at h
  · cases h
  · split at h
    · cases h
    · next item store heq =>
      simp only at h
      split at h
      · cases h
      · exact tlsCacheStoreTake_some ((congrArg Prod.fst heq).trans h)

theorem cacheClientSession_inv (h : SessionInv w es) {conn : Nat} {c : ClientCtx}
    (hc : w.conns conn = some c) (pick : Bytes) (outcome : CacheOutcome) :
    SessionInv (cacheClientSession w conn c pick outcome).1
      (es ++ (cacheClientSession w conn c pick outcome).2) := by
  unfold cacheClientSession
  split
  · rw [List.append_nil]
    exact h
  · next session hsession =>
    have hdropped : SessionInv (w.setConn conn { c with clientSession := none }) es :=
      h.setConn hc rfl rfl rfl (fun _ hk => hk) (fun hs => Bool.noConfusion hs)
    have hkey : ∀ k, k = c.sessionKey.getD [] → k = pushSessionKey c.opts := by
      rintro k rfl
      have hsome := h.keyed conn c hc (by rw [hsession, Option.isSome_some])
      obtain ⟨k, hk⟩ := Option.isSome_iff_exists.mp hsome
      rw [hk, Option.getD_some]
      exact h.key conn c k hc hk
    simp only
    split
    · rw [List.append_nil]
      exact hdropped
    · next x hx =>
      have hstored : StoredFor (w.setConn conn { c with clientSession := none })
          (es ++ [.stored conn { session := session, storedBy := conn }])
          { session := session, storedBy := conn } x (c.sessionKey.getD []) :=
        ⟨List.mem_append_right _ (List.mem_singleton_self _), _, setConn_self _ _ _,
          h.client_ctx conn c x hc hx, hkey _ rfl⟩
      split
      · rw [List.append_nil]
        exact hdropped
      · split
        · refine (hdropped.stored conn _).setCtx fun k i hi => ?_
          rcases tlsCacheSslSessPut_holds hi with ⟨rfl, rfl⟩ | hold
          · exact .inr hstored
          · exact .inl hold
        · rw [List.append_nil]
          exact h
        · refine (hdropped.stored conn _).setCtx fun k i hi => ?_
          rcases tlsCacheStorePutFaulty_holds hi with ⟨rfl, rfl⟩ | hold
          · exact .inr hstored
          · exact .inl hold

theorem SessionInv.offer (h : SessionInv w es) {conn : Nat} {c : ClientCtx} {item : TlsSslSession}
    (hc : w.conns conn = some c)
    (hstored : StoredFor w es item c.sslCtx (pushSessionKey c.opts)) :
    SessionInv w (es ++ [.offered conn item]) :=
  { h with
    held := fun x k i hi => (h.held x k i hi).later _
    offered := h.offered.snoc ⟨c, hc, hstored⟩ }

def ClientWorld.addConn (w : ClientWorld) (c : ClientCtx) : ClientWorld :=
  { w.setConn w.nextConn c with nextConn := w.nextConn + 1 }

theorem SessionInv.keeps_addConn (h : SessionInv w es) (c : ClientCtx) :
    w.Keeps (w.addConn c) :=
  fun a d hd => ⟨d, (setConn_of_ne (Nat.ne_of_lt (h.conn_lt a d hd)) w c).trans hd, rfl, rfl⟩

theorem SessionInv.addConn (h : SessionInv w es) {c : ClientCtx} {x : Nat}
    (hx : w.clients c.client = some x) (hctx : c.sslCtx = x)
    (hkey : ∀ k, c.sessionKey = some k → k = pushSessionKey c.opts)
    (hsession : c.clientSession = none) :
    SessionInv (w.addConn c) es := by
  have hkeeps := h.keeps_addConn c
  refine ⟨fun a d hd => ?_, h.live_lt, fun a d hd => ?_, fun a d y hd hy => ?_,
    fun a d k hd hk => ?_, fun a d hd hs => ?_, fun y k i hi => (h.held y k i hi).keeps hkeeps,
    h.offered.mono fun before e he => he.keeps hkeeps⟩
  all_goals rcases setConn_some hd with ⟨rfl, rfl⟩ | ⟨-, hd⟩
  · exact Nat.lt_succ_self _
  · exact Nat.lt_succ_of_lt (h.conn_lt a d hd)
  · exact h.live_lt _ x hx
  · exact h.client_lt a d hd
  · exact hctx.trans (Option.some.inj (hx.symm.trans hy))
  · exact h.client_ctx a d y hd hy
  · exact hkey k hk
  · exact h.key a d k hd hk
  · rw [hsession] at hs
    exact Bool.noConfusion hs
  · exact h.keyed a d hd hs

theorem connectLua_inv (h : SessionInv w es) (client : Nat) (fd : Int) (args : ConnectArgs)
    (env : ConnectEnv) :
    SessionInv (connectLua w client fd args env).1
      (es ++ (connectLua w client fd args env).2) := by
  have hrefused : SessionInv w (es ++ []) := (List.append_nil es).symm ▸ h
  unfold connectLua
  split
  · exact hrefused
  · exact hrefused
  · next opts x hopts hx =>
    have hnew := h.addConn (c := connectCtx client x opts (sessionKeyed (w.ctxs x) opts)) hx rfl
      (fun k hk => by
        simp only [connectCtx, Option.ite_none_right_eq_some, Option.some.injEq] at hk
        exact hk.2.symm) rfl
    split
    · exact hrefused
    · simp only
      split
      · have hctx := hnew.setCtx (x := x) fun k item hi =>
          .inl (tlsCacheSslSessTake_holds (pushSessionKey opts) env.now hi)
        cases htaken : (tlsCacheSslSessTake (w.ctxs x) (pushSessionKey opts) env.now).1 with
        | none =>
          rw [Option.toList_none, List.map_nil, List.append_nil]
          exact hctx
        | some item =>
          -- the session offered was held under this connection's own key
          have hstored := h.held x _ item (tlsCacheSslSessTake_some htaken)
          have hkept := hstored.keeps
            (h.keeps_addConn (connectCtx client x opts (sessionKeyed (w.ctxs x) opts)))
          rw [Option.toList_some, List.map_cons, List.map_nil]
          exact hctx.offer (setConn_self w w.nextConn _) hkept
      · rw [List.append_nil]
        exact hnew

theorem SessionInv.frame (h : SessionInv w es) {w' : ClientWorld} (hconns : w'.conns = w.conns)
    (hnext : w'.nextConn = w.nextConn) (hclient : w.nextClient ≤ w'.nextClient)
    (hlive : ∀ i x, w'.clients i = some x → i < w'.nextClient)
    (hctx : ∀ i x, i < w.nextClient → w'.clients i = some x → w.clients i = some x)
    (hheld : ∀ x k item, (w'.ctxs x).sslSessCache.Holds k item →
      (w.ctxs x).sslSessCache.Holds k item) : SessionInv w' es := by
  have hkeeps : w.Keeps w' := fun a c hc => ⟨c, hconns ▸ hc, rfl, rfl⟩
  refine ⟨?_, hlive, ?_, ?_, ?_, ?_, fun x k item hi => (h.held x k item (hheld x k item hi)).keeps
    hkeeps, h.offered.mono fun before e he => he.keeps hkeeps⟩
  all_goals rw [hconns]
  · rw [hnext]
    exact h.conn_lt
  · exact fun a c hc => Nat.lt_of_lt_of_le (h.client_lt a c hc) hclient
  · exact fun a c x hc hx => h.client_ctx a c x hc (hctx _ x (h.client_lt a c hc) hx)
  · exact h.key
  · exact h.keyed

theorem openCtx_holds {cw : CacheState} {key pick pick' k : Bytes} {built : Bool} {x : Nat}
    {item : TlsSslSession}
    (h : ((openCtx cw key pick pick' built).2.ctxs x).sslSessCache.Holds k item) :
    (cw.ctxs x).sslSessCache.Holds k item := by
  have hnew {c : TlsCache} (hi : ((tlsSslCtxNew { cw with cache := c }).ctxs x).sslSessCache.Holds
      k item) : (cw.ctxs x).sslSessCache.Holds k item := by
    by_cases hx : x = cw.next
    · subst hx
      simp only [tlsSslCtxNew, Function.update_self] at hi
      exact absurd hi (tlsCacheStoreInit_holds _)
    · simpa only [tlsSslCtxNew, Function.update_of_ne hx] using hi
  simp only [openCtx] at h
  split at h
  · exact h
  · split at h
    · exact hnew h
    · exact hnew h

theorem clearLua_holds {cw : CacheState} {k : Bytes} {x : Nat} {item : TlsSslSession}
    (h : ((clearLua cw).ctxs x).sslSessCache.Holds k item) :
    (cw.ctxs x).sslSessCache.Holds k item := by
  have hclear {ctxs : Nat → TlsSslCtx} {t : Table Bytes Nat}
      (hi : (clearSessions ctxs t x).sslSessCache.Holds k item) :
      (ctxs x).sslSessCache.Holds k item := by
    rw [clearSessions_apply] at hi
    split at hi
    · exact tlsCacheStoreClear_holds hi
    · exact hi
  exact hclear (hclear h)

theorem newClient_inv (h : SessionInv w es) (cache : Option Nat) (opts : ClientOpts)
    (pick pick' : Bytes) (built : Bool) :
    SessionInv (newClient w cache opts pick pick' built) es := by
  have hlive (x : Option Nat) (i y : Nat)
      (hi : Function.update w.clients w.nextClient x i = some y) : i < w.nextClient + 1 := by
    by_cases hn : i = w.nextClient
    · exact hn ▸ Nat.lt_succ_self _
    · rw [Function.update_of_ne hn] at hi
      exact Nat.lt_succ_of_lt (h.live_lt i y hi)
  have hold (x : Option Nat) (i y : Nat) (hlt : i < w.nextClient)
      (hi : Function.update w.clients w.nextClient x i = some y) : w.clients i = some y := by
    rwa [Function.update_of_ne (Nat.ne_of_lt hlt)] at hi
  unfold newClient
  split
  · refine h.frame rfl rfl (Nat.le_succ _) (hlive _) (hold _) fun x k item hi => ?_
    by_cases hx : x = w.nextCtx
    · subst hx
      simp only [ClientWorld.setCtx, Function.update_self] at hi
      exact absurd hi (tlsCacheStoreInit_holds _)
    · simpa only [ClientWorld.setCtx, Function.update_of_ne hx] using hi
  · exact h.frame rfl rfl (Nat.le_succ _) (hlive _) (hold _) fun x k item hi => openCtx_holds hi

theorem onConn_inv (h : SessionInv w es) (conn : Nat)
    {f : ClientCtx → ClientWorld × List SessionEvent}
    (hf : ∀ c, w.conns conn = some c → SessionInv (f c).1 (es ++ (f c).2)) :
    SessionInv (onConn w conn f).1 (es ++ (onConn w conn f).2) := by
  have hnone : SessionInv w (es ++ []) := (List.append_nil es).symm ▸ h
  unfold onConn
  split
  · exact hnone
  · next c hc =>
    split
    · exact hf c hc
    · exact hnone

theorem handshakeDone_keeps (c : ClientCtx) (session12 : Option (Option SslSession)) :
    (handshakeDone c session12).client = c.client ∧
      (handshakeDone c session12).sslCtx = c.sslCtx ∧
      (handshakeDone c session12).opts = c.opts ∧
      (handshakeDone c session12).sessionKey = c.sessionKey := by
  cases session12 with
  | none => exact ⟨rfl, rfl, rfl, rfl⟩
  | some session => exact ⟨rfl, rfl, rfl, rfl⟩

theorem clientStep_inv (h : SessionInv w es) (op : ClientOp) :
    SessionInv (clientStep w op).1 (es ++ (clientStep w op).2) := by
  have hsilent {w' : ClientWorld} (h' : SessionInv w' es) : SessionInv w' (es ++ []) :=
    (List.append_nil es).symm ▸ h'
  cases op with
  | newClient cache opts pick pick' built => exact hsilent (newClient_inv h cache opts pick pick' built)
  | gcClient client =>
    have hsub (i x : Nat) (hi : Function.update w.clients client none i = some x) :
        w.clients i = some x := by
      by_cases hc : i = client
      · subst hc
        rw [Function.update_self] at hi
        cases hi
      · rwa [Function.update_of_ne hc] at hi
    exact hsilent (h.frame rfl rfl le_rfl (fun i x hi => h.live_lt i x (hsub i x hi))
      (fun i x _ hi => hsub i x hi) fun x k item hi => hi)
  | connect client fd args env => exact connectLua_inv h client fd args env
  | newSession conn session tls13 =>
    refine onConn_inv h conn fun c hc => hsilent ?_
    unfold newSessionCb
    split
    · exact h.setConn hc rfl rfl rfl (fun _ hk => hk) (h.keyed conn c hc)
    · next hkey =>
      refine h.setConn hc rfl rfl rfl (fun _ hk => hk) fun _ => ?_
      simp only [Bool.or_eq_true, Option.isNone_iff_eq_none, not_or] at hkey
      exact Option.isSome_iff_ne_none.mpr hkey.1
  | handshake conn done session12 pick outcome =>
    refine onConn_inv h conn fun c hc => ?_
    split
    · exact hsilent h
    · split
      · exact hsilent (h.setConn hc rfl rfl rfl (fun _ hk => hk) (h.keyed conn c hc))
      · next hkey =>
        have hsome : c.sessionKey.isSome := by
          rwa [Option.isNone_iff_eq_none, ← ne_eq, ← Option.isSome_iff_ne_none] at hkey
        obtain ⟨hclient, hctx, hopts, hkeep⟩ := handshakeDone_keeps c session12
        have hset := h.setConn hc hclient hctx hopts (fun k hk => hkeep ▸ hk)
          (fun _ => hkeep ▸ hsome)
        exact cacheClientSession_inv hset (setConn_self _ _ _) pick outcome
  | read conn pick outcome =>
    exact onConn_inv h conn fun c hc => cacheClientSession_inv h hc pick outcome
  | shutdown conn rv pick outcome =>
    refine onConn_inv h conn fun c hc => ?_
    split
    · exact hsilent h
    · have hcached := cacheClientSession_inv h hc pick outcome
      simp only
      split
      · split
        · exact hcached
        · next d hd =>
          exact hcached.setConn hd rfl rfl rfl (fun _ hk => hk) (hcached.keyed conn d hd)
      · exact hcached
  | close conn =>
    simp only [clientStep]
    split
    · exact hsilent h
    · next c hc =>
      exact hsilent (h.setConn hc rfl rfl rfl (fun _ hk => nomatch hk) fun hs => Bool.noConfusion hs)
  | clearCache i =>
    exact hsilent (h.frame rfl rfl le_rfl h.live_lt (fun _ _ _ hi => hi)
      fun x k item hi => clearLua_holds hi)
  | collectCtxs i keys =>
    exact hsilent (h.frame rfl rfl le_rfl h.live_lt (fun _ _ _ hi => hi) fun x k item hi => hi)
  | collectSessions x keys =>
    exact hsilent (h.setCtx fun k item hi => .inl (storeCollect_holds hi))

theorem clientRuns_inv (capacities : Nat → SizeT × SizeT) (ops : List ClientOp) :
    SessionInv (runs clientStep (clientWorldNew capacities) ops).1
      (runs clientStep (clientWorldNew capacities) ops).2 :=
  runs_history (I := SessionInv) (fun _ _ op h => clientStep_inv h op)
    (clientWorldNew_inv capacities) ops

end Preservation

/-- In every run, a session that is offered to a connection was stored before by a connection on
the same context, to the same host, port and server name, with the same verification. -/
theorem session_isolation (capacities : Nat → SizeT × SizeT) (ops : List ClientOp)
    (before after : List SessionEvent) (conn : Nat) (item : TlsSslSession) :
    let w := (runs clientStep (clientWorldNew capacities) ops).1
    (runs clientStep (clientWorldNew capacities) ops).2 = before ++ .offered conn item :: after →
      .stored item.storedBy item ∈ before ∧
        ∃ a b, w.conns item.storedBy = some a ∧ w.conns conn = some b ∧ a.sslCtx = b.sslCtx ∧
          a.opts.host = b.opts.host ∧ a.opts.port = b.opts.port ∧
          a.opts.servername = b.opts.servername ∧ a.opts.verifyName = b.opts.verifyName ∧
          a.opts.verifyTime = b.opts.verifyTime ∧ a.opts.verifyCert = b.opts.verifyCert := by
  intro w hrun
  obtain ⟨b, hb, hbefore, a, ha, hctx, hkey⟩ :=
    (clientRuns_inv capacities ops).offered before _ after hrun
  have hopts := pushSessionKey_inj hkey
  exact ⟨hbefore, a, b, ha, hb, hctx, by rw [hopts], by rw [hopts], by rw [hopts], by rw [hopts],
    by rw [hopts], by rw [hopts]⟩

def resumingRun : List ClientOp :=
  let opts : ClientOpts :=
    { cert := none, key := none, protocol := 0, cipher := 0, alpn := [], verifyDepth := -1
      cafile := none, capath := none, crls := none }
  let args : ConnectArgs :=
    { host := some ⟨[104], by decide⟩, port := .string ⟨[52], by decide⟩
      servername := some ⟨[104], by decide⟩
      verifyName := none, verifyTime := none, verifyCert := none }
  let env : ConnectEnv := { sslNew := true, identitySet := true, bioSet := true, now := some 10 }
  let session : SslSession := { hasTicket := true, isResumable := true, time := 5, timeout := 60 }
  [.newClient (some 0) opts [] [] true, .connect 0 3 args env, .newSession 0 session true,
    .read 0 [] .ok, .connect 0 4 args env]

def resumingCaches (_ : Nat) : SizeT × SizeT := (⟨1, SizeT.one_fits⟩, ⟨1, SizeT.one_fits⟩)

theorem session_isolation_resumed :
    ∃ item after, (runs clientStep (clientWorldNew resumingCaches) resumingRun).2 =
        [.stored 0 item] ++ .offered 1 item :: after ∧
      .stored item.storedBy item ∈ [SessionEvent.stored 0 item] :=
  ⟨⟨⟨true, true, 5, 60⟩, 0⟩, [], rfl,
    (session_isolation resumingCaches resumingRun _ [] 1 _ rfl).1⟩

end LuaNet.Tls
