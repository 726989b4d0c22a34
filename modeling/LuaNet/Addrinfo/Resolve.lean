import LuaNet.Addrinfo.ObjectCalls
import LuaNet.Lib.Protect
import LuaNet.Tls.CtxOptions

/-! `getaddrinfo_lua` of `addrinfo.c`. The resolver's list is freed on every way out of the protected
call that reads it, and the objects in the table are copies that outlive it. -/

namespace LuaNet.Addrinfo

open LuaNet.Lib LuaNet.Tls

inductive ServArg
  | absent
  | string (s : Bytes)
  | number (p : Rat)
  | other

def parseHost : Option Bytes → Except AddrError (Option Bytes)
  | none => .ok none
  | some host =>
    if host.length = 0 then .ok none
    else if 0 ∈ host then .error (.argError 1 "host must not contain NUL bytes")
    else .ok (some host)

def parsePort : ServArg → Except AddrError (Option (Option Bytes))
  | .absent => .ok (some none)
  | .string s =>
    if s.length = 0 then .ok (some none)
    else if 0 ∈ s then .error (.argError 2 "service must not contain NUL bytes")
    else .ok (some (some s))
  | .number p =>
    if p.den = 1 ∧ 0 ≤ p ∧ p ≤ 65535 then .ok (some (some (ascii (toString p.num.toNat))))
    else .ok none
  | .other => .ok none

def parseHostPort (host : Option Bytes) (port : ServArg) :
    Except AddrError (Option (Option Bytes × Option Bytes)) := do
  let host ← parseHost host
  let serv ← parsePort port
  return serv.map fun serv => (host, serv)

def eaiService : Int := -8

def eaiSystem : Int := -11

inductive GaiAnswer
  | list (entries : List AddrInfo)
  | failed (rc : Int) (errno : Nat)

abbrev Resolver := Option Bytes → Option Bytes → AddrHints → GaiAnswer

/-- `opts` is what `OPTSPEC_CHECK` makes of the third argument. -/
structure GaiArgs where
  host : Option Bytes
  port : ServArg
  opts : Except String AddrHints
  resolver : Resolver

inductive GaiError
  | eai (rc : Int) (op : String)
  | errno (code : Nat) (op : String)
deriving DecidableEq

inductive GaiReturn
  | table (objs : List Nat)
  | failed (e : GaiError)

abbrev ResolveM := Raising (Logged Nat AddrWorld) AddrError

def allocate : ResolveM Unit := do
  let _ ← Logged.inner alloc
  return ()

def storeList (entries : List AddrInfo) : ResolveM Nat := do
  let w ← Logged.inner Raising.state
  if entries.isEmpty then return w.lists
  else do
    Logged.acquire w.lists
    Logged.inner (Raising.update ({ · with list := some w.lists, lists := w.lists + 1 }))
    return w.lists

/-- The loop of `build_addrinfo_list`, from one entry of the list to the next. -/
def buildLoop (l : Nat) (table : List Nat) : List AddrInfo → ResolveM (List Nat)
  | [] => return table
  | ptr :: rest => do
    Logged.use l
    let i ← Logged.inner (netAddrinfoNewObject ptr)
    allocate
    Logged.use l
    buildLoop l (table ++ [i]) rest

def gaiError (rc : Int) (errno : Nat) : GaiError :=
  if rc = eaiSystem then .errno errno "getaddrinfo" else .eai rc "getaddrinfo"

def buildAddrinfoList (answer : GaiAnswer) : ResolveM GaiReturn :=
  match answer with
  | .failed rc errno => do
    allocate
    return .failed (gaiError rc errno)
  | .list entries => do
    let l ← storeList entries
    allocate
    let table ← buildLoop l [] entries
    return .table table

def freeList : ResolveM Unit := do
  let w ← Logged.inner Raising.state
  match w.list with
  | some l => do
    Logged.free l
    Logged.inner (Raising.update ({ · with list := none }))
  | none => pure ()

def doGetaddrinfo (answer : GaiAnswer) : ResolveM GaiReturn := do
  allocate
  Raising.finallyDo (buildAddrinfoList answer) freeList

def getaddrinfoLua (args : GaiArgs) : ResolveM GaiReturn :=
  match parseHostPort args.host args.port with
  | .error e => Raising.raise e
  | .ok none => do
    allocate
    return .failed (.eai eaiService "getaddrinfo")
  | .ok (some (host, serv)) =>
    match args.opts with
    | .error msg => Raising.raise (.raised msg)
    | .ok hints => doGetaddrinfo (args.resolver host serv hints)

/-! Calls of the module, one after the other, and the collector between them. `make` is any other
function that hands an address to `net_addrinfo_new`. -/

inductive AddrOp
  | make (src : AddrInfo)
  | getaddrinfo (args : GaiArgs)
  | collect (is : List Nat)

structure AddrCall where
  op : AddrOp
  memory : List AllocAns

inductive AddrRet
  | object (i : Nat)
  | resolved (r : GaiReturn)
  | raised (e : AddrError)
  | collected

def AddrOp.run : AddrOp → ResolveM AddrRet
  | .make src => do
    let i ← Logged.inner (netAddrinfoNewObject src)
    return .object i
  | .getaddrinfo args => do
    let r ← getaddrinfoLua args
    return .resolved r
  | .collect is => do
    Logged.inner (Raising.update (·.collect is))
    return .collected

def AddrWorld.enter (w : AddrWorld) (memory : List AllocAns) : AddrWorld :=
  { w with memory := memory, frame := w.objs.length }

def addrCall (call : AddrCall) (s : Logged Nat AddrWorld) : AddrRet × Logged Nat AddrWorld :=
  match call.op.run { s with rest := s.rest.enter call.memory } with
  | (.ok r, t) => (r, t)
  | (.error e, t) => (.raised e, t)

def addrRun : List AddrCall → Logged Nat AddrWorld → List (AddrCall × AddrRet) × Logged Nat AddrWorld
  | [], s => ([], s)
  | call :: calls, s =>
    let (r, t) := addrCall call s
    let (rest, u) := addrRun calls t
    ((call, r) :: rest, u)

end LuaNet.Addrinfo
