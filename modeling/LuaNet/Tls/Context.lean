import LuaNet.Lib.Reentrant
import LuaNet.Tls.SocketIo

/-! The TLS connection context of `tls_context.c` and its methods, as they run when foreign code
may call them again: the SNI callback inside `SSL_accept`, and a finalizer inside any allocation. -/

namespace LuaNet.Tls

open LuaNet.Lib

abbrev ParentId := Nat

/-- `ssl` and `bio` say that the pointers are not NULL; `freed` is the fate of the SSL object,
`appData` that it points back to the context. `parentRef` and `bioRef` are the registry references
that keep the parent and the BIO alive; `dead` lists the collected servers and clients. -/
structure TlsCtx where
  client : Bool
  ssl : Bool
  freed : Bool
  appData : Bool
  bio : Bool
  bioRef : Bool
  handshakeCb : Bool
  parent : Option ParentId
  parentRef : Option ParentId
  sniDone : Bool
  clientSession : Bool
  keyRef : Bool
  dead : List ParentId

def tlsCtxNew (client keyed : Bool) (p : ParentId) : TlsCtx where
  client := client
  ssl := true
  freed := false
  appData := client && keyed
  bio := true
  bioRef := true
  handshakeCb := true
  parent := some p
  parentRef := some p
  sniDone := false
  clientSession := false
  keyRef := client && keyed
  dead := []

inductive SslFn
  | setAppData | getAppData | accept | connect | getError | version | get1Session | read | write
  | shutdown | free | clientHelloGet0Ext | setSslCtx | setOptions | setNumTickets
  | setProtoVersion | setVerify | set1Param
deriving DecidableEq

inductive SslPtr
  | null
  | live
  | dangling
deriving DecidableEq

inductive CtxRet
  | yes
  | nothing
  | bio
  | msg (n : Int)
  | written (n : Int) (all : Bool)
  | want (w : SslWant)
  | closed
  | error (op : String)
  | raised
deriving DecidableEq

/-- `freed` and `cleared` tell whether an OpenSSL call on the object was running, `parentRead`
whether the reference to the parent was held, `ownerUsed` whether the server that `do_handshake`
remembers was still there, `bioRead` whether the BIO was held. A return tells about the SSL
pointer, the BIO and the parent. -/
inductive CtxEvent
  | ssl (f : SslFn) (arg : SslPtr)
  | freed (running : Bool)
  | cleared (running : Bool)
  | parentRead (anchored : Bool)
  | ownerUsed (alive : Bool)
  | bioRead (anchored : Bool)
  | returned (ret : CtxRet) (ssl bio parent : Bool)
deriving DecidableEq

inductive CtxMethod
  | handshake
  | read (bufsiz : Int)
  | write (len : Nat)
  | shutdown
  | close
  | getBio
  | gc

inductive SessionWriter
  | handshake
  | read (rv : Int)
  | shutdown (rv : Int)

/-- How far `client_hello_cb` has come: its protected call is being entered, the callback runs, a
reference to the selected server is made, or an error is turned into a string. -/
inductive HelloPhase
  | none
  | hello
  | sni
  | ref (target : ParentId)
  | error

/-- An activation of a method, where it waits. Outside of `SSL_accept` these are the
allocations: of the arguments, of the buffer of `read`, of the protected call that stores a
session, of the stored item, of the text of an error in it, and of the results. -/
inductive CtxFrame
  | entry (m : CtxMethod)
  | accept (p : Option ParentId) (phase : HelloPhase)
  | readBuf
  | cachePcall (k : SessionWriter)
  | cachePut (k : SessionWriter)
  | cacheErr (k : SessionWriter)
  | result (ret : CtxRet)

inductive SslError
  | want (w : SslWant)
  | zeroReturn
  | other

inductive ServerName
  | absent
  | malformed
  | unrecognized
  | ipLiteral
  | hostName

/-- The answers that an activation gets when it goes on; each one looks at some of them.
`raised` is a Lua error, `rv` and `error` are the answer of OpenSSL, `newSession` a call of
`new_session_cb` in TLS 1.3, `oldVersion` an earlier version and `session` what
`SSL_get1_session` returns, `txPending` is `tls_bio_tx_size(ctx->bio) > 0`. Inside `SSL_accept`,
`hello` is a call of `client_hello_cb`, `sni` tells whether the parent has an SNI callback,
`target` is what that callback returns and `switches` counts the settings that follow
`SSL_set_SSL_CTX`. -/
structure CtxAns where
  raised : Bool := false
  rv : Int := 0
  error : SslError := .other
  newSession : Bool := false
  oldVersion : Bool := false
  session : Bool := false
  txPending : Bool := false
  hello : Option ServerName := none
  sni : Bool := false
  target : Option ParentId := none
  switches : Nat := 0

abbrev CtxStep := TlsCtx × Option CtxFrame × List CtxEvent

namespace TlsCtx

def object (ctx : TlsCtx) : SslPtr := if ctx.freed then .dangling else .live

def sslArg (ctx : TlsCtx) : SslPtr := if ctx.ssl then ctx.object else .null

def parentAnchored (ctx : TlsCtx) : Bool :=
  match ctx.parent with
  | none => false
  | some p => ctx.parentRef = some p ∧ p ∉ ctx.dead

def bioAnchored (ctx : TlsCtx) : Bool := ctx.bio && ctx.bioRef

def sslCall (ctx : TlsCtx) (f : SslFn) : CtxEvent := .ssl f ctx.sslArg

def callbackCall (ctx : TlsCtx) (f : SslFn) : CtxEvent := .ssl f ctx.object

def readParent (ctx : TlsCtx) : CtxEvent := .parentRead ctx.parentAnchored

def leave (ctx : TlsCtx) (ret : CtxRet) : CtxStep :=
  (ctx, none, [.returned ret ctx.ssl ctx.bioAnchored ctx.parentAnchored])

def give (ctx : TlsCtx) (ret : CtxRet) (es : List CtxEvent) : CtxStep := (ctx, some (.result ret), es)

/-- `cleanup_ssl`; `running` tells whether an OpenSSL call on the object is in progress. -/
def cleanupSsl (ctx : TlsCtx) (running : Bool) : TlsCtx × List CtxEvent :=
  if ctx.ssl then
    ({ ctx with appData := false, freed := true, ssl := false },
      [ctx.sslCall .setAppData, ctx.sslCall .free, .freed running, .cleared running])
  else (ctx, [])

def cleanupContext (ctx : TlsCtx) (running : Bool) : TlsCtx × List CtxEvent :=
  let r := ctx.cleanupSsl running
  ({ r.1 with
      bio := false, bioRef := false, parentRef := none, keyRef := false, clientSession := false,
      parent := none, handshakeCb := false }, r.2)

def newSessionCb (ctx : TlsCtx) (a : CtxAns) : TlsCtx × List CtxEvent :=
  if a.newSession then
    if ctx.appData && ctx.client && ctx.keyRef then
      ({ ctx with clientSession := true }, [ctx.callbackCall .getAppData, ctx.callbackCall .version])
    else (ctx, [ctx.callbackCall .getAppData])
  else (ctx, [])

def errorRet (op : String) : SslError → CtxRet
  | .want w => .want w
  | .zeroReturn => .closed
  | .other => .error op

def afterCache (ctx : TlsCtx) (running : Bool) (a : CtxAns) (es : List CtxEvent) :
    SessionWriter → CtxStep
  | .handshake => ctx.give .yes es
  | .read rv =>
    if 0 < rv then ctx.give (.msg rv) es
    else ctx.give (errorRet "read.SSL_read" a.error) (es ++ [ctx.sslCall .getError])
  | .shutdown rv =>
    if rv = 1 then
      let r := ctx.cleanupSsl running
      r.1.give .yes (es ++ r.2)
    else if rv = 0 then ctx.give (.want .write) es
    else
      let es := es ++ [ctx.sslCall .getError]
      match a.error with
      | .want .write => ctx.give (.want .write) es
      | .want .read =>
        ctx.give (.want (if a.txPending then .write else .read))
          (es ++ [.bioRead ctx.bioAnchored])
      | _ => ctx.give (.error "shutdown.SSL_shutdown") es

def cacheClientSession (ctx : TlsCtx) (running : Bool) (a : CtxAns) (es : List CtxEvent)
    (k : SessionWriter) : CtxStep :=
  if ctx.clientSession then (ctx, some (.cachePcall k), es) else ctx.afterCache running a es k

def afterHandshake (ctx : TlsCtx) (running : Bool) (a : CtxAns) (es : List CtxEvent) : CtxStep :=
  if a.rv = 1 then
    let ctx := { ctx with handshakeCb := false }
    if ctx.client && ctx.keyRef then
      let es := es ++ [ctx.sslCall .version]
      if a.oldVersion then
        cacheClientSession { ctx with clientSession := a.session } running a
          (es ++ [ctx.sslCall .get1Session]) .handshake
      else ctx.cacheClientSession running a es .handshake
    else ctx.give .yes es
  else
    ctx.give
      (errorRet (if ctx.client then "handshake.SSL_connect" else "handshake.SSL_accept") a.error)
      (es ++ [ctx.sslCall .getError])

def handshakeLua (ctx : TlsCtx) (running : Bool) (a : CtxAns) : CtxStep :=
  if !ctx.ssl then ctx.give (.error "handshake") []
  else if !ctx.handshakeCb then ctx.give .yes []
  else if !ctx.client then
    -- the callbacks find the context through the app data, a client has it since `connect`
    ({ ctx with appData := true }, some (.accept ctx.parent .none),
      [ctx.readParent, ctx.sslCall .setAppData, ctx.sslCall .accept])
  else
    let r := ctx.newSessionCb a
    r.1.afterHandshake running a (ctx.sslCall .connect :: r.2)

def acceptReturned (ctx : TlsCtx) (running : Bool) (p : Option ParentId) (a : CtxAns) : CtxStep :=
  let es := [.ownerUsed (p.any (· ∉ ctx.dead)), ctx.sslCall .setAppData]
  { ctx with appData := false }.afterHandshake running a es

def clientHelloCb (ctx : TlsCtx) (p : Option ParentId) (a : CtxAns) (name : ServerName) : CtxStep :=
  let stay := some (.accept p .none)
  if !ctx.appData then (ctx, stay, [ctx.callbackCall .getAppData])
  else
    let es := [ctx.callbackCall .getAppData, ctx.readParent]
    if ctx.parent.isNone then (ctx, stay, es)
    else if !a.sni then (ctx, stay, es)
    -- a HelloRetryRequest brings a second ClientHello; the first selection stands
    else if ctx.sniDone then (ctx, stay, es)
    else
      let ctx := { ctx with sniDone := true }
      let es := es ++ [ctx.callbackCall .clientHelloGet0Ext]
      match name with
      | .hostName => (ctx, some (.accept p .hello), es ++ [ctx.readParent])
      | _ => (ctx, stay, es)

def switchCalls : List SslFn :=
  [.setSslCtx, .setOptions, .setOptions, .setNumTickets, .setProtoVersion, .setProtoVersion,
    .setVerify, .setVerify, .set1Param]

def selectServerLua (ctx : TlsCtx) (p : Option ParentId) (a : CtxAns) : HelloPhase → CtxStep
  | .none => (ctx, some (.accept p .none), [])
  | .hello =>
    if a.raised then (ctx, some (.accept p .error), [])
    else (ctx, some (.accept p .sni), [ctx.readParent])
  | .sni =>
    if a.raised then (ctx, some (.accept p .error), [])
    else
      match a.target with
      | some target =>
        if target ∈ ctx.dead then (ctx, some (.accept p .none), [])
        else (ctx, some (.accept p (.ref target)), [])
      | none => (ctx, some (.accept p .none), [])
  | .ref target =>
    if a.raised then (ctx, some (.accept p .error), [])
    else
      -- the new reference is there, so the old one can go
      ({ ctx with parentRef := some target, parent := some target }, some (.accept p .none),
        (switchCalls.take (a.switches + 1)).map ctx.callbackCall)
  | .error => (ctx, some (.accept p .none), [])

def readLua (ctx : TlsCtx) (bufsiz : Int) : CtxStep :=
  if !ctx.ssl then ctx.give (.error "read") []
  else if bufsiz ≤ 0 then ctx.give (.error "read") []
  -- `ctx->ssl` was checked above, and is not looked at again once the buffer is there
  else (ctx, some .readBuf, [])

def readBuffered (ctx : TlsCtx) (running : Bool) (a : CtxAns) : CtxStep :=
  let r := ctx.newSessionCb a
  r.1.cacheClientSession running a (ctx.sslCall .read :: r.2) (.read a.rv)

def writeLua (ctx : TlsCtx) (len : Nat) (a : CtxAns) : CtxStep :=
  if !ctx.ssl then ctx.give (.error "write") []
  else if len = 0 then ctx.give (.error "write") []
  else
    let r := ctx.newSessionCb a
    let es := ctx.sslCall .write :: r.2
    if 0 < a.rv then r.1.give (.written a.rv (a.rv = len)) es
    else r.1.give (errorRet "write.SSL_write" a.error) (es ++ [r.1.sslCall .getError])

def shutdownLua (ctx : TlsCtx) (running : Bool) (a : CtxAns) : CtxStep :=
  if !ctx.ssl then ctx.give .yes []
  else if ctx.handshakeCb then ctx.give .yes []
  else
    let r := ctx.newSessionCb a
    r.1.cacheClientSession running a (ctx.sslCall .shutdown :: r.2) (.shutdown a.rv)

def closeLua (ctx : TlsCtx) (running : Bool) (ret : CtxRet) : CtxStep :=
  let r := ctx.cleanupContext running
  r.1.give ret r.2

def getBioLua (ctx : TlsCtx) : CtxStep :=
  if ctx.bio then ctx.give .bio [] else ctx.give (.error "get_bio") []

def enter (ctx : TlsCtx) (running : Bool) (a : CtxAns) : CtxMethod → CtxStep
  | .handshake => ctx.handshakeLua running a
  | .read bufsiz => ctx.readLua bufsiz
  | .write len => ctx.writeLua len a
  | .shutdown => ctx.shutdownLua running a
  | .close => ctx.closeLua running .yes
  | .getBio => ctx.getBioLua
  | .gc => ctx.closeLua running .nothing

end TlsCtx

/-- `SSL_accept` is the one OpenSSL call during which foreign code runs. -/
def CtxFrame.inAccept : CtxFrame → Bool
  | .accept _ _ => true
  | _ => false

def CtxFrame.waits : CtxFrame → Bool
  | .accept _ .none => false
  | _ => true

/-- A Lua error leaves the method, except in the protected calls. -/
def ctxAct (ctx : TlsCtx) (fs : List CtxFrame) (f : CtxFrame) (a : CtxAns) : CtxStep :=
  let running := fs.any CtxFrame.inAccept
  match f with
  | .entry m => if a.raised then ctx.leave .raised else ctx.enter running a m
  | .accept p .none =>
    match a.hello with
    | some name => ctx.clientHelloCb p a name
    -- OpenSSL is done
    | none => ctx.acceptReturned running p a
  | .accept p phase => ctx.selectServerLua p a phase
  | .readBuf => if a.raised then ctx.leave .raised else ctx.readBuffered running a
  | .cachePcall k =>
    if a.raised then (ctx, some (.cacheErr k), [])
    else (ctx, some (.cachePut k), [ctx.readParent])
  | .cachePut k =>
    if a.raised then (ctx, some (.cacheErr k), [])
    else { ctx with clientSession := false }.afterCache running a [] k
  | .cacheErr k => ctx.afterCache running a [] k
  | .result ret => if a.raised then ctx.leave .raised else ctx.leave ret

/-- The collector takes a server or client that nothing refers to. A server that the SNI callback
has returned is on the Lua stack. -/
def ctxCollect (ctx : TlsCtx) (fs : List CtxFrame) (p : ParentId) : TlsCtx :=
  if ctx.parentRef = some p ∨ fs.any (fun f => match f with
      | .accept _ (.ref target) => target = p
      | _ => false) then ctx
  else { ctx with dead := p :: ctx.dead }

def ctxMachine : Reentrant TlsCtx CtxFrame CtxMethod ParentId CtxAns CtxEvent where
  start := .entry
  waits := CtxFrame.waits
  foreign := ctxCollect
  act := ctxAct

end LuaNet.Tls
