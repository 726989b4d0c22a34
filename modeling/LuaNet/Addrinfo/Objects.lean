import LuaNet.Addrinfo.UnixAddr
import LuaNet.Lib.Raising

/-! `net.addrinfo` objects in memory. An object points to its socket address and its canonical name
and keeps both alive with references in the registry; its finalizer takes the references back. Any
allocation may be refused, and at any allocation the collector may run finalizers. -/

namespace LuaNet.Addrinfo

open LuaNet.Lib

inductive RefField
  | addr
  | canonname
deriving DecidableEq

/-- `net_addrinfo_t`: `ptr` are the pointers `ai.ai_addr` and `ai.ai_canonname`, `none` as long as
they are not to something of its own, and `ref` are `ai_addr_ref` and `ai_canonname_ref`. -/
structure InfoObject extends AddrHints where
  addrlen : Nat
  ptr : RefField → Option Nat := fun _ => none
  ref : RefField → Option Nat := fun _ => none
  gone : Bool := false

/-- What happens at an allocation: the finalizers that run, whether it is granted, and the free
number of the registry that a new reference gets, unless it gets one behind all of them. -/
structure AllocAns where
  granted : Bool
  collected : List Nat
  slot : Nat

/-- `blocks` are the userdata and strings that objects point to. From `frame` on `objs` are on the
stack of the running call. `list` is the variable of `do_getaddrinfo`, and `lists` is how many
lists the resolver has made. -/
structure AddrWorld where
  blocks : List Bytes := []
  registry : List (Option Nat) := []
  objs : List InfoObject := []
  frame : Nat := 0
  memory : List AllocAns := []
  list : Option Nat := none
  lists : Nat := 0

inductive AddrError
  | memory
  | raised (msg : String)
  | argError (arg : Nat) (msg : String)
  /-- A read behind the end of the source's address. -/
  | overread
  /-- A use of memory that nothing keeps alive. -/
  | dangling
deriving DecidableEq

abbrev AddrM := Raising AddrWorld AddrError

def AddrWorld.unref (w : AddrWorld) : Option Nat → AddrWorld
  | none => w
  | some r => { w with registry := w.registry.set r none }

def InfoObject.finalized (o : InfoObject) : InfoObject := { o with ref := fun _ => none, gone := true }

def gcLua (i : Nat) (w : AddrWorld) : AddrWorld :=
  match w.objs[i]? with
  | none => w
  | some o =>
    let w := (w.unref (o.ref .addr)).unref (o.ref .canonname)
    { w with objs := w.objs.set i o.finalized }

def AddrWorld.collect (w : AddrWorld) (is : List Nat) : AddrWorld :=
  is.foldl (fun w i => if i < w.frame then gcLua i w else w) w

/-- An allocation; the answer is the slot for a reference. -/
def alloc : AddrM Nat := fun w =>
  match w.memory with
  | [] => (.ok w.registry.length, w)
  | a :: memory =>
    let w := ({ w with memory := memory }).collect a.collected
    if a.granted then (.ok a.slot, w) else (.error .memory, w)

def InfoObject.point (field : RefField) (b : Nat) (o : InfoObject) : InfoObject :=
  { o with ptr := Function.update o.ptr field (some b) }

def InfoObject.keep (field : RefField) (r : Nat) (o : InfoObject) : InfoObject :=
  { o with ref := Function.update o.ref field (some r) }

def AddrWorld.addBlock (w : AddrWorld) (i : Nat) (field : RefField) (bytes : Bytes) : AddrWorld :=
  { w with
    blocks := w.blocks ++ [bytes]
    objs := w.objs.modify i (InfoObject.point field w.blocks.length) }

def AddrWorld.refSlot (w : AddrWorld) (slot : Nat) : Nat :=
  if w.registry[slot]? = some none then slot else w.registry.length

def AddrWorld.addRef (w : AddrWorld) (i : Nat) (field : RefField) (b slot : Nat) : AddrWorld :=
  { w with
    registry :=
      if w.registry[slot]? = some none then w.registry.set slot (some b)
      else w.registry ++ [some b]
    objs := w.objs.modify i (InfoObject.keep field (w.refSlot slot)) }

def anchor (i : Nat) (field : RefField) (bytes : Bytes) : AddrM Unit := do
  let _ ← alloc
  let w ← Raising.state
  Raising.update (·.addBlock i field bytes)
  let slot ← alloc
  Raising.update (·.addRef i field w.blocks.length slot)

def AddrWorld.deref (w : AddrWorld) (b : Nat) : Option Bytes :=
  if some b ∈ w.registry then w.blocks[b]? else none

def writeAddr (i : Nat) (bytes : Bytes) : AddrM Unit := do
  let w ← Raising.state
  match w.objs[i]?.bind fun o => o.ptr .addr with
  | some b =>
    if (w.deref b).isSome then Raising.update ({ · with blocks := w.blocks.set b bytes })
    else Raising.raise .dangling
  | none => Raising.raise .dangling

def copyAddr (addr : Bytes) (n : Nat) : AddrM Bytes :=
  if n ≤ addr.length then pure (addr.take n) else Raising.raise .overread

def AddrInfo.usable (src : AddrInfo) : Option Bytes :=
  if src.addrlen ≤ storageSize then src.addr else none

def newInfo (src : AddrInfo) : AddrM Nat := do
  let _ ← alloc
  let w ← Raising.state
  Raising.update fun w =>
    { w with objs := w.objs ++ [{ toAddrHints := src.toAddrHints, addrlen := src.addrlen }] }
  return w.objs.length

def copyCanonname (i : Nat) : Option Bytes → AddrM Unit
  | some name => anchor i .canonname (cString name)
  | none => pure ()

def netAddrinfoNewObject (src : AddrInfo) : AddrM Nat := do
  let i ← newInfo src
  -- nothing is known yet of the bytes of the storage
  anchor i .addr []
  match src.usable with
  | none => Raising.raise (.raised (oversizeText src.addrlen))
  | some addr => do
    let bytes ← copyAddr addr src.addrlen
    writeAddr i (storage bytes)
    copyCanonname i src.canonname
    return i

def AddrWorld.derefName (w : AddrWorld) : Option Nat → Option (Option Bytes)
  | some b => (w.deref b).map some
  | none => some none

def AddrWorld.view (w : AddrWorld) (o : InfoObject) : Option NetAddrinfo := do
  let addr ← (o.ptr .addr).bind w.deref
  let canonname ← w.derefName (o.ptr .canonname)
  if h : addr.length = storageSize ∧ o.addrlen ≤ storageSize then
    some {
      toAddrHints := o.toAddrHints
      addr := addr
      addrlen := o.addrlen
      canonname := canonname
      addr_length := h.1
      addrlen_le := h.2 }
  else none

end LuaNet.Addrinfo
