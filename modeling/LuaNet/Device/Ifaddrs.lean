import LuaNet.Lib.Codec
import LuaNet.Lib.Protect

/-! `getifaddrs` of `device.c`: the records of the system's list, of which an interface has several,
are put together to one table for each interface. -/

namespace LuaNet.Device

open LuaNet.Lib

structure IfaFlag where
  name : String
  value : Nat

def ifaFlags : List IfaFlag :=
  [⟨"up", 0x1⟩, ⟨"broadcast", 0x2⟩, ⟨"debug", 0x4⟩, ⟨"loopback", 0x8⟩, ⟨"pointtopoint", 0x10⟩,
    ⟨"notrailers", 0x20⟩, ⟨"running", 0x40⟩, ⟨"noarp", 0x80⟩, ⟨"promisc", 0x100⟩,
    ⟨"allmulti", 0x200⟩, ⟨"multicast", 0x1000⟩, ⟨"master", 0x400⟩, ⟨"slave", 0x800⟩,
    ⟨"portsel", 0x2000⟩, ⟨"automedia", 0x4000⟩, ⟨"dynamic", 0x8000⟩]

def iffBroadcast : Nat := 0x2

def iffPointopoint : Nat := 0x10

/-- `struct ifaddrs`, where `ifu` is both `ifa_broadaddr` and `ifa_dstaddr`. -/
structure IfAddr (A : Type) where
  name : Option Bytes
  flags : Nat
  addr : Option A
  netmask : Option A
  ifu : Option A

inductive AddrKind
  | inet
  | inet6
  | packet (addr : Bytes) (halen : Nat)
  | other

/-- What the system answers: the family of an address, `getnameinfo(3)` for so many bytes of it,
`if_nametoindex(3)`, and the `SIOCGIFMTU` ioctl for a name in `ifr_name`. -/
structure IfSystem (A : Type) where
  kind : A → AddrKind
  nameinfo : A → Nat → Option Bytes
  nametoindex : Bytes → Nat
  mtu : Bytes → Option Int

def sockaddrInSize : Nat := 16

def sockaddrIn6Size : Nat := 28

def ifnamsiz : Nat := 16

structure InetEntry where
  address : Option Bytes
  netmask : Option Bytes
  broadcast : Option Bytes
  point2point : Option Bytes

structure Iface where
  flags : List String := []
  index : Option Nat := none
  mtu : Option Int := none
  ether : Option Bytes := none
  inet : Option (List InetEntry) := none
  inet6 : Option (List InetEntry) := none

abbrev IfTable := Bytes → Option Iface

inductive IfResource
  | probe (fd : Nat)
  | list
deriving DecidableEq

inductive IfError
  | memory
deriving DecidableEq

/-- The state is what is answered to the allocations to come; behind them all are granted. -/
abbrev IfM := Raising (Logged IfResource (List Bool)) IfError

def ifAlloc : Raising (List Bool) IfError Unit := fun memory =>
  match memory with
  | [] => (.ok (), [])
  | true :: memory => (.ok (), memory)
  | false :: memory => (.error .memory, memory)

def push : IfM Unit := Logged.inner ifAlloc

def pushField {α : Type} : Option α → IfM (Option α)
  | some a => do
    push
    return some a
  | none => return none

def IfaFlag.isSet (flags : Nat) (flag : IfaFlag) : Bool := flags &&& flag.value != 0

def addIfaFlags (flags : Nat) : List IfaFlag → IfM (List String)
  | [] => return []
  | flag :: rest =>
    if flag.isSet flags then do
      push
      let names ← addIfaFlags flags rest
      return flag.name :: names
    else addIfaFlags flags rest

def positive (idx : Nat) : Option Nat := if idx ≠ 0 then some idx else none

section Code

variable {A : Type} (sys : IfSystem A)

def addIfaIndex (name : Bytes) : IfM (Option Nat) := pushField (positive (sys.nametoindex name))

def addIfaMtu (fd : Nat) (name : Bytes) : IfM (Option Int) := do
  Logged.use (.probe fd)
  pushField (sys.mtu (name.take (ifnamsiz - 1)))

def hexDigit (n : Nat) : UInt8 := UInt8.ofNat (if n < 10 then 48 + n else 87 + n)

def etherText (addr : Bytes) : Bytes :=
  ((addr.take 6).map fun b => [hexDigit (b.toNat / 16), hexDigit (b.toNat % 16)]).intersperse [58]
    |>.flatten

def etherOf (addr : Bytes) (len : Nat) : Option Bytes :=
  if 6 ≤ len then some (etherText addr) else none

def newIface (fd : Nat) (name : Bytes) (flags : Nat) : IfM Iface := do
  push
  let names ← addIfaFlags flags ifaFlags
  let index ← addIfaIndex sys name
  let mtu ← addIfaMtu sys fd name
  return { flags := names, index := index, mtu := mtu }

def getIface (fd : Nat) (table : IfTable) (name : Bytes) (flags : Nat) : IfM Iface := do
  push
  match table name with
  | some iface => return iface
  | none => newIface sys fd name flags

def pointsTo (a : Option A) (addrlen : Nat) : Option Bytes := a.bind fun a => sys.nameinfo a addrlen

def inetEntry (ifa : IfAddr A) (addr : A) (addrlen : Nat) : InetEntry where
  address := sys.nameinfo addr addrlen
  netmask := pointsTo sys ifa.netmask addrlen
  broadcast :=
    if ifa.flags &&& iffBroadcast ≠ 0 then pointsTo sys ifa.ifu addrlen else none
  point2point :=
    if ifa.flags &&& iffPointopoint ≠ 0 then pointsTo sys ifa.ifu addrlen else none

def addInet (entries : Option (List InetEntry)) (e : InetEntry) : IfM (Option (List InetEntry)) := do
  push
  let address ← pushField e.address
  let netmask ← pushField e.netmask
  let broadcast ← pushField e.broadcast
  let point2point ← pushField e.point2point
  push
  return some (entries.getD [] ++ [⟨address, netmask, broadcast, point2point⟩])

def addAddr (iface : Iface) (ifa : IfAddr A) (addr : A) : IfM Iface :=
  match sys.kind addr with
  | .inet => do
    let entries ← addInet iface.inet (inetEntry sys ifa addr sockaddrInSize)
    return { iface with inet := entries }
  | .inet6 => do
    let entries ← addInet iface.inet6 (inetEntry sys ifa addr sockaddrIn6Size)
    return { iface with inet6 := entries }
  | .packet ll halen => do
    match ← pushField (etherOf ll halen) with
    | some ether => return { iface with ether := some ether }
    | none => return iface
  | .other => return iface

def pushLoop (fd : Nat) (table : IfTable) : List (IfAddr A) → IfM IfTable
  | [] => return table
  | ifa :: rest => do
    Logged.use .list
    match ifa.name, ifa.addr with
    | some name, some addr => do
      let iface ← getIface sys fd table name ifa.flags
      let iface ← addAddr sys iface ifa addr
      pushLoop fd (Function.update table name (some iface)) rest
    | _, _ => pushLoop fd table rest

def pushIfaddrs (fd : Nat) (list : List (IfAddr A)) : IfM IfTable := do
  push
  pushLoop sys fd (fun _ => none) list

inductive IfReturn
  | table (t : IfTable)
  | failed (errno : Nat) (op : String)

structure IfCall (A : Type) where
  socket : Except Nat Nat
  getifaddrs : Except Nat (List (IfAddr A))

def releaseIfaddrs (fd : Nat) : IfM Unit := do
  Logged.free (.probe fd)
  Logged.free .list

def getifaddrsLua (call : IfCall A) : IfM IfReturn := do
  push
  match call.socket with
  | .error errno => do
    push
    return .failed errno "socket"
  | .ok fd => do
    Logged.acquire (.probe fd)
    match call.getifaddrs with
    | .error errno => do
      Logged.free (.probe fd)
      push
      return .failed errno "getifaddrs"
    | .ok list => do
      Logged.acquire .list
      let t ← Raising.finallyDo (pushIfaddrs sys fd list) (releaseIfaddrs fd)
      return .table t

end Code

/-! What a table should have. -/

section Meaning

variable {A : Type} (sys : IfSystem A)

def recordsOf (list : List (IfAddr A)) (name : Bytes) : List (IfAddr A × A) :=
  list.filterMap fun ifa =>
    if ifa.name = some name then ifa.addr.map fun addr => (ifa, addr) else none

def inetOf (r : IfAddr A × A) : Option InetEntry :=
  match sys.kind r.2 with
  | .inet => some (inetEntry sys r.1 r.2 sockaddrInSize)
  | _ => none

def inet6Of (r : IfAddr A × A) : Option InetEntry :=
  match sys.kind r.2 with
  | .inet6 => some (inetEntry sys r.1 r.2 sockaddrIn6Size)
  | _ => none

def etherOfRecord (r : IfAddr A × A) : Option Bytes :=
  match sys.kind r.2 with
  | .packet ll halen => etherOf ll halen
  | _ => none

def nonempty {α : Type} (l : List α) : Option (List α) := if l.isEmpty then none else some l

/-- The table of an interface from its records: the last link address that is long enough is
shown, and all addresses are listed. -/
def ifaceOf (name : Bytes) (flags : Nat) (records : List (IfAddr A × A)) : Iface where
  flags := (ifaFlags.filter (IfaFlag.isSet flags)).map IfaFlag.name
  index := positive (sys.nametoindex name)
  mtu := sys.mtu (name.take (ifnamsiz - 1))
  ether := (records.filterMap (etherOfRecord sys)).getLast?
  inet := nonempty (records.filterMap (inetOf sys))
  inet6 := nonempty (records.filterMap (inet6Of sys))

def summary (name : Bytes) : List (IfAddr A × A) → Option Iface
  | [] => none
  | first :: rest => some (ifaceOf sys name first.1.flags (first :: rest))

end Meaning

end LuaNet.Device
