import LuaNet.Lib.Codec
import LuaNet.Lib.Failover
import LuaNet.Lib.Raising
import Mathlib.Data.PNat.Basic

/-! `new_net_socket` of `socket.c`: the addresses of a table are tried in turn, until a socket is
made for one of them and bound or connected. The C function works on a Lua stack, on which the
table, the key that `lua_next` goes on from and each socket have their places. -/

namespace LuaNet.Connect

open LuaNet.Lib

inductive SoOperation
  | newInet | newInet6 | bindInet | connectInet | newUnix | bindUnix | connectUnix
deriving DecidableEq

def soOperationToString : SoOperation → String
  | .newInet => "socket.new_inet"
  | .newInet6 => "socket.new_inet6"
  | .bindInet => "socket.bind_inet"
  | .connectInet => "socket.connect_inet"
  | .newUnix => "socket.new_unix"
  | .bindUnix => "socket.bind_unix"
  | .connectUnix => "socket.connect_unix"

def isUnixOp : SoOperation → Bool
  | .newUnix | .bindUnix | .connectUnix => true
  | _ => false

def afInet : Int := 2
def afInet6 : Int := 10
def ifnamsiz : Nat := 16

def enodev : ℕ+ := 19
def einval : ℕ+ := 22
def eafnosupport : ℕ+ := 97
def eaddrnotavail : ℕ+ := 99
def einprogress : ℕ+ := 115

structure AddrInfo where
  family : Int
  socktype : Int
  protocol : Int
  addr : Bytes

inductive SockOpt
  | broadcast | debug | dontroute | keepalive | oobinline | reuseaddr | timestamp | rcvbuf
  | rcvlowat | sndbuf | sndlowat | rcvtimeo | sndtimeo | linger | reuseport | tcpnodelay
  | tcpkeepintvl | tcpkeepcnt | tcpkeepalive | tcpcork | mcastloop | mcastif | mcastttl
deriving DecidableEq

def SockOpt.inOrder : List SockOpt :=
  [.broadcast, .debug, .dontroute, .keepalive, .oobinline, .reuseaddr, .timestamp, .rcvbuf,
    .rcvlowat, .sndbuf, .sndlowat, .rcvtimeo, .sndtimeo, .linger, .reuseport, .tcpnodelay,
    .tcpkeepintvl, .tcpkeepcnt, .tcpkeepalive, .tcpcork, .mcastloop, .mcastif, .mcastttl]

structure SockOpts where
  isSet : SockOpt → Bool := fun _ => false
  mcastif : Bytes := []

inductive FcntlCmd
  | getfd | setfd | getfl | setfl

/-- What the allocator and the kernel answer while one address is tried. An allocation and
`close` may leave any `errno`; the other calls set it when they fail. -/
structure Answers where
  memory : Bool := true
  allocErrno : Nat := 0
  socket : Except ℕ+ Nat
  fcntl : FcntlCmd → Option ℕ+ := fun _ => none
  setsockopt : SockOpt → Option ℕ+ := fun _ => none
  ifaddr : Option ℕ+ := none
  ifindex : Bool := true
  bind : Option ℕ+ := none
  connect : Option ℕ+ := none
  closeErrno : Nat := 0

inductive Entry
  | addrinfo (ai : AddrInfo) (a : Answers)
  | other

inductive Slot
  | nil
  | bool (b : Bool)
  | key (k : Nat)
  | entry (e : Entry)
  | table (entries : List Entry)
  | sock (i : Nat)
  | errno (code : Nat) (op : String)
  | error (text : String)

structure NetSocket where
  family : Int
  socktype : Int
  protocol : Int
  fd : Int
deriving DecidableEq

inductive FdEvent
  | created (fd : Int)
  | closed (fd : Int)
deriving DecidableEq

inductive LuaError
  | memory
  | invalidKey
  | thrown (text : String)
deriving DecidableEq

/-- `stack` has the top first; `socks` are the socket userdata and `visits` the table entries that
`lua_next` gave, in the order they came. -/
structure CallState where
  stack : List Slot
  errno : Nat := 0
  socks : List NetSocket := []
  events : List FdEvent := []
  visits : List Nat := []

abbrev CallM := Raising CallState LuaError

def push (x : Slot) : CallM Unit := Raising.update fun s => { s with stack := x :: s.stack }

def luaPop (n : Nat) : CallM Unit := Raising.update fun s => { s with stack := s.stack.drop n }

def luaSettop (n : Nat) : CallM Unit :=
  Raising.update fun s => { s with stack := s.stack.drop (s.stack.length - n) }

def getErrno : CallM Nat := do
  let s ← Raising.state
  return s.errno

def setErrno (e : Nat) : CallM Unit := Raising.update fun s => { s with errno := e }

def luaIndex (stack : List Slot) (index : Int) : Option Slot :=
  if index < 0 then stack[(-index - 1).toNat]? else stack.reverse[(index - 1).toNat]?

def isAddrinfo : Option Slot → Bool
  | some (.entry (.addrinfo _ _)) => true
  | _ => false

def keyNext : Slot → Option Nat
  | .nil => some 0
  | .key k => some (k + 1)
  | _ => none

def luaNext (tblindex : Nat) : CallM Bool := fun s =>
  match luaIndex s.stack tblindex, s.stack with
  | some (.table entries), key :: rest =>
    match keyNext key with
    | none => (.error .invalidKey, s)
    | some k =>
      match entries[k]? with
      | some e =>
        (.ok true, { s with stack := .entry e :: .key k :: rest, visits := s.visits ++ [k] })
      | none => (.ok false, { s with stack := rest })
  | _, _ => (.error .invalidKey, s)

/-- `net_socket_new`: the userdata is whole, with `fd` still -1, before it is returned. -/
def netSocketNew (ai : AddrInfo) (a : Answers) : CallM Nat := fun s =>
  if a.memory then
    (.ok s.socks.length,
      { s with
        stack := .sock s.socks.length :: s.stack
        socks := s.socks ++ [⟨ai.family, ai.socktype, ai.protocol, -1⟩]
        errno := a.allocErrno })
  else (.error .memory, { s with errno := a.allocErrno })

def setFd (i : Nat) (fd : Int) : CallM Unit :=
  Raising.update fun s => { s with socks := s.socks.modify i fun x => { x with fd := fd } }

def emit (e : FdEvent) : CallM Unit := Raising.update fun s => { s with events := s.events ++ [e] }

def closeFd (i : Nat) (a : Answers) : CallM Unit := do
  let s ← Raising.state
  emit (.closed ((s.socks[i]?.map NetSocket.fd).getD (-1)))
  setErrno a.closeErrno

def closeSocket (i : Nat) (a : Answers) : CallM Nat := do
  let err ← getErrno
  closeFd i a
  setFd i (-1)
  return err

def setFdFlag (a : Answers) (get set : FcntlCmd) : Option ℕ+ := (a.fcntl get).or (a.fcntl set)

def setCloexec (a : Answers) : Option ℕ+ := setFdFlag a .getfd .setfd

def setNonblock (a : Answers) : Option ℕ+ := setFdFlag a .getfl .setfl

def setCloexecNonblockNosigpipe (a : Answers) : Option ℕ+ := (setCloexec a).or (setNonblock a)

def sockoptsSetMcastif (family : Int) (opts : SockOpts) (a : Answers) : Option ℕ+ :=
  if ifnamsiz ≤ opts.mcastif.length ∨ opts.mcastif.contains 0 then some einval
  else if family = afInet then a.ifaddr.or (a.setsockopt .mcastif)
  else if family = afInet6 then if a.ifindex then a.setsockopt .mcastif else some enodev
  else some eafnosupport

def sockoptsSet (family : Int) (opts : SockOpts) (a : Answers) : SockOpt → Option ℕ+
  | .mcastif => sockoptsSetMcastif family opts a
  | .mcastloop =>
    if family = afInet ∨ family = afInet6 then a.setsockopt .mcastloop else some eafnosupport
  | .mcastttl =>
    if family = afInet ∨ family = afInet6 then a.setsockopt .mcastttl else some eafnosupport
  | o => a.setsockopt o

def sockoptsApply (family : Int) (opts : SockOpts) (a : Answers) : Option ℕ+ :=
  (SockOpt.inOrder.filter opts.isSet).findSome? (sockoptsSet family opts a)

def newSocket (ai : AddrInfo) (opts : SockOpts) (a : Answers) : CallM (Option Nat) := do
  let i ← netSocketNew ai a
  match a.socket with
  | .error e =>
    setErrno e
    luaPop 1
    return none
  | .ok fd =>
    emit (.created fd)
    setFd i fd
    match (setCloexecNonblockNosigpipe a).or (sockoptsApply ai.family opts a) with
    -- close(2) may change errno, which is put back
    | some e =>
      setErrno e
      let err ← closeSocket i a
      setErrno err
      luaPop 1
      return none
    | none => return some i

def startSocket (op : SoOperation) (a : Answers) : CallM (Option Nat) := do
  setErrno 0
  match op with
  | .newInet | .newUnix => return some 1
  | .bindInet | .bindUnix =>
    match a.bind with
    | none => return some 1
    | some e =>
      setErrno e
      return none
  | .connectInet | .connectUnix =>
    match a.connect with
    | none => return some 1
    | some e =>
      setErrno e
      -- the connection is still in progress, and it is the caller who waits for it
      if e = einprogress then
        push .nil
        push (.bool true)
        return some 3
      else return none
  | .newInet6 =>
    push .nil
    push (.error (soOperationToString op ++ ": unknown operation type"))
    return some 2

/-- An address is tried: the number of values to return, or else the error to keep. -/
def tryAddr (op : SoOperation) (opts : SockOpts) (ai : AddrInfo) (a : Answers) :
    CallM (Except Nat Nat) := do
  match ← newSocket ai opts a with
  | none =>
    let err ← getErrno
    return .error err
  | some i =>
    match ← startSocket op a with
    | some n => return .ok n
    | none =>
      let err ← closeSocket i a
      luaPop 1
      return .error err

def turn (op : SoOperation) (opts : SockOpts) (addrindex : Int) (err : Nat) :
    CallM (Except Nat Nat) := do
  let s ← Raising.state
  let r ← match luaIndex s.stack addrindex with
    | some (.entry (.addrinfo ai a)) => tryAddr op opts ai a
    -- what is no address is skipped, and the earlier error kept
    | _ => pure (.error err)
  match r with
  | .ok n => return .ok n
  | .error err =>
    luaPop 1
    return .error err

def luaErrnoNew (memory : Bool) (code : Nat) (op : String) : CallM Unit :=
  if memory then push (.errno code op) else Raising.raise .memory

def addrsFailed (op : SoOperation) (memory : Bool) (err : Nat) : CallM Nat := do
  luaSettop 0
  push .nil
  setErrno (if err ≠ 0 then err else eaddrnotavail)
  let code ← getErrno
  luaErrnoNew memory code (soOperationToString op)
  return 2

def checkNextAddr (op : SoOperation) (opts : SockOpts) (memory : Bool) (tblindex : Nat) :
    Nat → Nat → CallM (Option Nat)
  | 0, _ => return none
  | fuel + 1, err => do
    let more ← if tblindex = 0 then pure false else luaNext tblindex
    if more then
      match ← turn op opts (-1) err with
      | .ok n => return some n
      | .error err => checkNextAddr op opts memory tblindex fuel err
    else
      let n ← addrsFailed op memory err
      return some n

/-- `resolver` is what the resolver returns or raises, `options` what checking the options argument
comes to, and `memory` whether the error object of an unsuccessful call can be made. -/
structure NetCall where
  op : SoOperation
  resolver : Except LuaError (List Slot)
  options : Except LuaError SockOpts
  memory : Bool := true

def NetCall.optindex (call : NetCall) (direct : Bool) : Nat :=
  if direct || isUnixOp call.op then 2 else 3

def NetCall.checkOptions (call : NetCall) (direct : Bool) (top : Nat) : Except LuaError SockOpts :=
  if call.optindex direct ≤ top then call.options else .ok {}

def liftExcept {α : Type} : Except LuaError α → CallM α
  | .ok a => pure a
  | .error e => Raising.raise e

def resolverName (op : SoOperation) : String := if isUnixOp op then "unix" else "getaddrinfo"

def singleAddr (call : NetCall) (opts : SockOpts) (addrindex : Int) : CallM (Option Nat) := do
  match ← turn call.op opts addrindex 0 with
  | .ok n => return some n
  | .error err => checkNextAddr call.op opts call.memory 0 1 err

def failedCall (top : Nat) (text : String) : CallM (Option Nat) := do
  luaSettop top
  push .nil
  push (.error text)
  return some 2

/-- `new_net_socket`: how many values it returns from the top of the stack, with none when the
rounds of the loop do not suffice. -/
def newNetSocket (call : NetCall) (fuel : Nat) : CallM (Option Nat) := do
  let s ← Raising.state
  let top := s.stack.length
  if isAddrinfo (luaIndex s.stack 1) then
    let opts ← liftExcept (call.checkOptions true top)
    singleAddr call opts 1
  else
    match ← liftExcept call.resolver with
    | [.table entries] =>
      push (.table entries)
      let opts ← liftExcept (call.checkOptions false top)
      push .nil
      checkNextAddr call.op opts call.memory (top + 1) fuel 0
    | [x] =>
      push x
      let opts ← liftExcept (call.checkOptions false top)
      singleAddr call opts (top + 1)
    | [_, _] =>
      failedCall top (soOperationToString call.op ++
        ": failed to resolve arguments via net.addrinfo." ++ resolverName call.op)
    | _ =>
      failedCall top (soOperationToString call.op ++
        ": unexpected return value from " ++ resolverName call.op)

def CallState.returned (s : CallState) (n : Nat) : List Slot := (s.stack.take n).reverse

end LuaNet.Connect
