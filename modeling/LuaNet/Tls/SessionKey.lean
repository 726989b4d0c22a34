import LuaNet.Lib.Codec

/-! The options of `net.tls.client` and of `connect`, and the keys made from them: the key a
context is cached under, and the key a session is cached under within its context. -/

namespace LuaNet.Tls

open LuaNet.Lib

abbrev LuaString := SizedBytes

/-- The options of `new_lua`. Paths are C strings and end at a NUL byte; `verifyDepth` is -1 while
absent. -/
structure ClientOpts where
  cert : Option Bytes
  key : Option Bytes
  protocol : Nat
  cipher : Nat
  alpn : Bytes
  verifyDepth : Int
  cafile : Option Bytes
  capath : Option Bytes
  crls : Option Bytes

def keyAddOptional (value : Option Bytes) : Bytes :=
  (if value.isSome then 1 else 0) :: blob ((value.getD []).takeWhile (· != 0))

def clientTag : Bytes := [99, 108, 105, 101, 110, 116]

def pushCacheKey (opts : ClientOpts) : Bytes :=
  blob clientTag ++ keyAddOptional opts.cert ++ keyAddOptional opts.key ++
    blob (leBytes 4 opts.protocol) ++ blob (leBytes 4 opts.cipher) ++ blob opts.alpn ++
    blob (leBytes 8 (opts.verifyDepth % 2 ^ 64).toNat) ++ keyAddOptional opts.cafile ++
    keyAddOptional opts.capath ++ blob [if opts.crls.isSome then 1 else 0] ++
    blob (opts.crls.getD [])

inductive PortArg
  | absent
  | string (s : LuaString)
  | number (n : Rat)

structure ConnectArgs where
  host : Option LuaString
  port : PortArg
  servername : Option LuaString
  verifyName : Option Bool
  verifyTime : Option Bool
  verifyCert : Option Bool

structure ContextOpts where
  host : LuaString
  port : LuaString
  servername : LuaString
  verifyName : Bool
  verifyTime : Bool
  verifyCert : Bool
deriving DecidableEq

def emptyString : LuaString := ⟨[], Nat.two_pow_pos 64⟩

def portText (n : Nat) : LuaString :=
  ⟨((Nat.toDigits 10 n).map fun c => UInt8.ofNat c.toNat).take 5,
    Nat.lt_of_le_of_lt (List.length_take_le _ _) (by omega)⟩

def checkOptPort : PortArg → Except String LuaString
  | .absent => .ok emptyString
  | .string s => .ok s
  | .number n =>
    if 0 ≤ n ∧ n ≤ 65535 ∧ n.den = 1 then .ok (portText n.num.toNat)
    else .error "opts.port must be integer in range 0-65535"

def checkContextOpts (args : ConnectArgs) : Except String ContextOpts :=
  (checkOptPort args.port).map fun port =>
    { host := args.host.getD emptyString
      port := port
      servername := args.servername.getD emptyString
      verifyName := args.verifyName.getD true
      verifyTime := args.verifyTime.getD true
      verifyCert := args.verifyCert.getD true }

def pushSessionKey (opts : ContextOpts) : Bytes :=
  blob opts.host.bytes ++ (blob opts.port.bytes ++ (blob opts.servername.bytes ++
    (leBytes 4 opts.verifyName.toNat ++ (leBytes 4 opts.verifyTime.toNat ++
      leBytes 4 opts.verifyCert.toNat))))

theorem pushSessionKey_inj {a b : ContextOpts} (h : pushSessionKey a = pushSessionKey b) :
    a = b := by
  have hflag (x : Bool) : x.toNat < 256 ^ 4 := Nat.lt_of_le_of_lt (Bool.toNat_le x) (by omega)
  obtain ⟨hhost, h⟩ := blob_append_inj a.host.fits b.host.fits h
  obtain ⟨hport, h⟩ := blob_append_inj a.port.fits b.port.fits h
  obtain ⟨hserver, h⟩ := blob_append_inj a.servername.fits b.servername.fits h
  obtain ⟨hname, h⟩ := leBytes_append_inj (hflag _) (hflag _) h
  obtain ⟨htime, h⟩ := leBytes_append_inj (hflag _) (hflag _) h
  have hcert := leBytes_inj (hflag _) (hflag _) h
  have hbool {x y : Bool} (hxy : x.toNat = y.toNat) : x = y := by
    rw [Bool.eq_iff_iff, ← Bool.toNat_eq_one, ← Bool.toNat_eq_one, hxy]
  cases a
  cases b
  rw [ContextOpts.mk.injEq]
  exact ⟨SizedBytes.ext hhost, SizedBytes.ext hport, SizedBytes.ext hserver,
    hbool hname, hbool htime, hbool hcert⟩

end LuaNet.Tls
