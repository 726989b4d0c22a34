import LuaNet.Tls.SessionKey

/-! The options of `new_lua` of `net.tls.client` and `net.tls.server`: how an options table is
checked, and what the options make of a new `SSL_CTX`. -/

namespace LuaNet.Tls

open LuaNet.Lib

/-- A string that `memchr` found no NUL in, as C code reads it. -/
structure CString where
  text : LuaString
  noNul : 0 ∉ text.bytes
deriving DecidableEq

structure LuaInteger where
  val : Int
  lower : -2 ^ 63 ≤ val
  upper : val < 2 ^ 63
deriving DecidableEq

structure UInt where
  val : Int
  lower : 0 ≤ val
  upper : val < 2 ^ 31
deriving DecidableEq

inductive TlsProtocol
  | default
  | tlsv1
  | tlsv1_0
  | tlsv1_1
  | tlsv1_2
  | tlsv1_3
deriving DecidableEq

inductive TlsCipherSuite
  | default
  | secure
  | legacy
  | all
deriving DecidableEq

inductive VerifyMode
  | none
  | request
  | require
deriving DecidableEq

structure CacheArg where
  id : Nat
  sessionCapacity : Nat
deriving DecidableEq

theorem push_fits {w p : Bytes} (h : w.length + (p.length + 1) ≤ 0xffff) :
    (w ++ UInt8.ofNat p.length :: p).length ≤ 0xffff := by
  rwa [List.length_append, List.length_cons]

structure AlpnWire where
  bytes : Bytes
  fits : bytes.length ≤ 0xffff
deriving DecidableEq

def AlpnWire.empty : AlpnWire := ⟨[], Nat.zero_le 0xffff⟩

def AlpnWire.push (w : AlpnWire) (p : Bytes) (h : w.bytes.length + (p.length + 1) ≤ 0xffff) :
    AlpnWire := ⟨w.bytes ++ UInt8.ofNat p.length :: p, push_fits h⟩

structure CtxOpts where
  cert : Option CString := none
  key : Option CString := none
  protocol : TlsProtocol := .default
  cipher : TlsCipherSuite := .default
  alpn : AlpnWire := .empty
  verifyDepth : Option UInt := none
  cafile : Option CString := none
  capath : Option CString := none
  crls : Option LuaString := none
  cache : Option CacheArg := none
deriving DecidableEq

def defaultSessTimeout : LuaInteger := ⟨300, by decide, by decide⟩

structure ServerOpts extends CtxOpts where
  sessTimeout : LuaInteger := defaultSessTimeout
  preferClientCiphers : Bool := false
  verifyMode : Option VerifyMode := none
  sniCallback : Bool := false
deriving DecidableEq

/-- A value of an options table. A number comes with its text, a table is what its elements are
(`none` is no string) and whether the stack has room for as many. -/
inductive OptVal
  | string (s : LuaString)
  | number (n : Rat) (text : String)
  | boolean (b : Bool)
  | table (elems : List (Option LuaString)) (room : Bool)
  | cache (c : CacheArg)
  | function
  | other (typename : String)

def OptVal.typename : OptVal → String
  | .string _ => "string"
  | .number _ _ => "number"
  | .boolean _ => "boolean"
  | .table _ _ => "table"
  | .cache _ => "userdata"
  | .function => "function"
  | .other typename => typename

inductive OptName
  | cert
  | key
  | protocol
  | cipher
  | sessionTimeout
  | cache
  | preferClientCiphers
  | verifyMode
  | verifyDepth
  | cafile
  | capath
  | crls
  | unknown
  | notString
deriving DecidableEq

/-- An options table: the pairs that `lua_next` goes through, in its order, and what
`lua_getfield` answers for the two options that are read by name. -/
structure OptTable where
  pairs : List (OptName × OptVal)
  alpn : Option OptVal := none
  sniCallback : Option OptVal := none

def ascii (s : String) : Bytes := s.toList.map fun c => UInt8.ofNat c.toNat

def printed (s : LuaString) : String :=
  String.ofList ((s.bytes.takeWhile (· != 0)).map fun b => Char.ofNat b.toNat)

def wrongType (name expected : String) (v : OptVal) : String :=
  "opts." ++ name ++ " must be " ++ expected ++ ", got " ++ v.typename

def checkString (name : String) : OptVal → Except String LuaString
  | .string s => .ok s
  | v => .error (wrongType name "string" v)

def checkPath (name : String) (v : OptVal) : Except String CString := do
  let s ← checkString name v
  if h : 0 ∉ s.bytes then .ok ⟨s, h⟩
  else .error ("opts." ++ name ++ " must not contain NUL")

/-- The checks of `protocol` and `cipher`. `lua_tolstring` turns a number into a string before
the type is looked at. -/
def checkName {α : Type} (name : String) (names : List (String × α)) : OptVal → Except String α
  | .string s =>
    match names.find? fun p => ascii p.1 = s.bytes with
    | some p => .ok p.2
    | none => .error ("opts." ++ name ++ "='" ++ printed s ++ "' is not recognized")
  -- no name of a protocol or a cipher suite reads as a number
  | .number _ text => .error ("opts." ++ name ++ "='" ++ text ++ "' is not recognized")
  | v => .error (wrongType name "string" v)

def tlsProtocols : List (String × TlsProtocol) :=
  [("default", .default), ("tlsv1", .tlsv1), ("tlsv1.0", .tlsv1_0), ("tlsv1.1", .tlsv1_1),
    ("tlsv1.2", .tlsv1_2), ("tlsv1.3", .tlsv1_3)]

def tlsCipherSuites : List (String × TlsCipherSuite) :=
  [("default", .default), ("secure", .secure), ("legacy", .legacy), ("all", .all)]

def checkInteger (name : String) : OptVal → Except String LuaInteger
  | .number n _ =>
    if n.den = 1 then
      if hlower : -2 ^ 63 ≤ n.num then
        if hupper : n.num < 2 ^ 63 then .ok ⟨n.num, hlower, hupper⟩
        else .error "integer expected"
      else .error "integer expected"
    else .error "integer expected"
  | v => .error (wrongType name "integer" v)

def checkUint (name : String) (v : OptVal) : Except String UInt := do
  let n ← checkInteger name v
  if hlower : 0 ≤ n.val then
    if hupper : n.val < 2 ^ 31 then .ok ⟨n.val, hlower, hupper⟩
    else .error ("opts." ++ name ++ " must be uint")
  else .error ("opts." ++ name ++ " must be uint")

def checkBoolean (name : String) : OptVal → Except String Bool
  | .boolean b => .ok b
  | v => .error (wrongType name "boolean" v)

def checkVerifyMode (name : String) (v : OptVal) : Except String VerifyMode := do
  let s ← checkString name v
  if s.bytes = ascii "none" then .ok .none
  else if s.bytes = ascii "request" then .ok .request
  else if s.bytes = ascii "require" then .ok .require
  else
    .error ("opts." ++ name ++ "='" ++ printed s ++ "' is not a recognized mode (must be " ++
      "one of \"none\", \"request\", \"require\")")

def checkCache : OptVal → Except String CacheArg
  | .cache c => .ok c
  | v => .error ("net.tls.cache expected, got " ++ v.typename)

abbrev OptSpecs (σ : Type) := List (OptName × (OptVal → σ → Except String σ))

/-- `optspec_check`. A spec is gone once its key has been seen, and unknown keys are ignored. -/
def optspecCheck {σ : Type} : OptSpecs σ → List (OptName × OptVal) → σ → Except String σ
  | _, [], opts => .ok opts
  | specs, (name, v) :: pairs, opts =>
    if name = .notString then .error "opts keys must be strings"
    else
      match specs.find? fun spec => spec.1 = name with
      | none => optspecCheck specs pairs opts
      | some spec => do
        let opts ← spec.2 v opts
        optspecCheck (specs.filter fun spec => spec.1 ≠ name) pairs opts

def alpnWire (i : Nat) : List (Option LuaString) → AlpnWire → Except String AlpnWire
  | [], w => .ok w
  | none :: _, _ => .error ("alpn protocol #" ++ toString i ++ " must be a string")
  | some p :: elems, w =>
    -- a protocol goes behind a byte that holds its length
    if 255 < p.bytes.length then
      .error ("alpn protocol #" ++ toString i ++ " exceeds 255 bytes")
    else if p.bytes.length = 0 then alpnWire (i + 1) elems w
    else if h : w.bytes.length + (p.bytes.length + 1) ≤ 0xffff then
      alpnWire (i + 1) elems (w.push p.bytes h)
    else .error "total length of alpn protocols exceeds 65535 bytes"

def tlsCheckAlpnTable (elems : List (Option LuaString)) (room : Bool) : Except String AlpnWire :=
  if elems = [] then .ok .empty
  else if !room then .error "too many alpn protocols, not enough stack space"
  else alpnWire 1 elems .empty

def checkAlpn : OptVal → Except String AlpnWire
  | .table elems room => tlsCheckAlpnTable elems room
  | v => .error (wrongType "alpn" "table" v)

def clientSpecs : OptSpecs CtxOpts :=
  [(.cert, fun v opts => do return { opts with cert := some (← checkPath "cert" v) }),
    (.key, fun v opts => do return { opts with key := some (← checkPath "key" v) }),
    (.protocol, fun v opts => do
      return { opts with protocol := ← checkName "protocol" tlsProtocols v }),
    (.cipher, fun v opts => do
      return { opts with cipher := ← checkName "cipher" tlsCipherSuites v }),
    (.cache, fun v opts => do return { opts with cache := some (← checkCache v) }),
    (.verifyDepth, fun v opts => do
      return { opts with verifyDepth := some (← checkUint "verify_depth" v) }),
    (.cafile, fun v opts => do return { opts with cafile := some (← checkPath "cafile" v) }),
    (.capath, fun v opts => do return { opts with capath := some (← checkPath "capath" v) }),
    (.crls, fun v opts => do return { opts with crls := some (← checkString "crls" v) })]

def clientOptions (t : OptTable) : Except String CtxOpts := do
  let opts ← optspecCheck clientSpecs t.pairs {}
  if opts.cert.isSome ≠ opts.key.isSome then
    .error "opts.cert and opts.key must be specified together"
  else
    -- `alpn` is read by name, when all other options are known
    match t.alpn with
    | none => .ok opts
    | some v => do return { opts with alpn := ← checkAlpn v }

def serverSpecs : OptSpecs ServerOpts :=
  [(.cert, fun v opts => do return { opts with cert := some (← checkPath "cert" v) }),
    (.key, fun v opts => do return { opts with key := some (← checkPath "key" v) }),
    (.protocol, fun v opts => do
      return { opts with protocol := ← checkName "protocol" tlsProtocols v }),
    (.cipher, fun v opts => do
      return { opts with cipher := ← checkName "cipher" tlsCipherSuites v }),
    (.sessionTimeout, fun v opts => do
      return { opts with sessTimeout := ← checkInteger "session_timeout" v }),
    (.cache, fun v opts => do return { opts with cache := some (← checkCache v) }),
    (.preferClientCiphers, fun v opts => do
      return { opts with preferClientCiphers := ← checkBoolean "prefer_client_ciphers" v }),
    (.verifyMode, fun v opts => do
      return { opts with verifyMode := some (← checkVerifyMode "verify_mode" v) }),
    (.verifyDepth, fun v opts => do
      return { opts with verifyDepth := some (← checkUint "verify_depth" v) }),
    (.cafile, fun v opts => do return { opts with cafile := some (← checkPath "cafile" v) }),
    (.capath, fun v opts => do return { opts with capath := some (← checkPath "capath" v) }),
    (.crls, fun v opts => do return { opts with crls := some (← checkString "crls" v) })]

def checkSniCallback : Option OptVal → Except String Bool
  | none => .ok false
  | some .function => .ok true
  | some v => .error (wrongType "sni_callback" "function" v)

def serverOptions (t : OptTable) : Except String ServerOpts := do
  let opts ← optspecCheck serverSpecs t.pairs {}
  if opts.cert.isNone then .error "opts.cert is required"
  else if opts.key.isNone then .error "opts.key is required"
  else
    let sniCallback ← checkSniCallback t.sniCallback
    match t.alpn with
    | none => .ok { opts with sniCallback := sniCallback }
    | some v => do return { opts with sniCallback := sniCallback, alpn := ← checkAlpn v }

/-- The versions of `tls_get_protocol_vers`, with 0 for no maximum. -/
def tlsGetProtocolVers : TlsProtocol → Nat × Nat
  | .default => (0x0303, 0)
  | .tlsv1 => (0x0301, 0)
  | .tlsv1_0 => (0x0301, 0x0301)
  | .tlsv1_1 => (0x0302, 0x0302)
  | .tlsv1_2 => (0x0303, 0x0303)
  | .tlsv1_3 => (0x0304, 0x0304)

def tlsCipherList : TlsCipherSuite → String
  | .default => "HIGH:!aNULL"
  | .secure => "ECDHE+AESGCM:ECDHE+CHACHA20:!aNULL:!SHA1:!kRSA"
  | .legacy => "HIGH:MEDIUM:!aNULL"
  | .all => "ALL:!aNULL:!eNULL"

def VerifyMode.flags : VerifyMode → Int
  | .none => 0
  | .request => 1
  | .require => 3

/-- How a context treats sessions: a client keeps them or not, a server issues tickets that last
for some seconds or none. -/
inductive Sessions
  | off
  | client
  | tickets (seconds : Int)
deriving DecidableEq

/-- What options can change in a new `SSL_CTX`. Where `new_lua` leaves it as `SSL_CTX_new` made it,
a field is `none`, and `verifyMode` is `SSL_VERIFY_NONE`. -/
structure SslCtx where
  certificate : Option (Bytes × Bytes)
  minVersion : Nat
  maxVersion : Nat
  cipherList : String
  sessions : Sessions
  serverPreference : Bool
  verifyLocations : Option (Option Bytes × Option Bytes)
  verifyDepth : Option Int
  verifyMode : Int
  crls : Option Bytes
  alpn : Option Bytes
deriving DecidableEq

def CString.bytes (s : CString) : Bytes := s.text.bytes

def CtxOpts.build (opts : CtxOpts) : SslCtx :=
  { certificate := opts.cert.map fun cert =>
      (cert.bytes, (opts.key.map CString.bytes).getD [])
    minVersion := (tlsGetProtocolVers opts.protocol).1
    maxVersion := (tlsGetProtocolVers opts.protocol).2
    cipherList := tlsCipherList opts.cipher
    sessions := .off
    serverPreference := false
    verifyLocations :=
      if opts.cafile.isSome || opts.capath.isSome then
        some (opts.cafile.map CString.bytes, opts.capath.map CString.bytes)
      else none
    verifyDepth := opts.verifyDepth.map UInt.val
    verifyMode := 0
    crls := opts.crls.map SizedBytes.bytes
    alpn := if opts.alpn.bytes = [] then none else some opts.alpn.bytes }

def buildClient (opts : CtxOpts) : SslCtx :=
  { opts.build with
    sessions :=
      match opts.cache with
      | none => .off
      | some cache => if 0 < cache.sessionCapacity then .client else .off }

def buildServer (opts : ServerOpts) : SslCtx :=
  { opts.build with
    sessions := if 0 < opts.sessTimeout.val then .tickets opts.sessTimeout.val else .off
    serverPreference := !opts.preferClientCiphers
    verifyMode := (opts.verifyMode.map VerifyMode.flags).getD 0 }

end LuaNet.Tls
