import LuaNet.Lib.BoundedStack
import LuaNet.Shared.OptCheck
import Mathlib.Data.PNat.Basic

/-! `net_pcall_ex` of `shared/pcall.c` in its two versions, for Lua 5.1 and for later ones, on a
model of the Lua API: frames with a bounded number of slots, protected calls, the registry, and
memory that may be refused at every allocation. -/

namespace LuaNet.Shared

open LuaNet.Lib

inductive LuaVersion
  | lua51
  | lua52
deriving DecidableEq

inductive LuaVal
  | nil
  | string (s : String)
  | other (typename : String) (id : Nat)
deriving DecidableEq

abbrev Thrown := ℕ+ × LuaVal

def luaErrrun : ℕ+ := 2

def luaErrmem : ℕ+ := 4

def memoryMessage : LuaVal := .string "not enough memory"

/-- What is called: `fn`, and `lauxh_tostr`, which may call a metamethod. Whatever else they read
and change is in `ω`. -/
structure Callees (ω : Type) where
  fn : ω → Except Thrown (List LuaVal) × ω
  tostr : LuaVal → ω → Except Thrown String × ω

structure PcallCtx where
  status : Nat := 0
  ref : Option Nat := none
  retvals : List LuaVal := []

/-- `frame` is the part of the stack that the running function sees, which begins behind `base`
slots, and `capacity` is how many slots the stack has for sure. `memory` are the answers to the
allocations to come, and `failed` says whether one has been refused. `refs` are the references in
the registry. -/
structure PcallState (ω : Type) where
  frame : BoundedStack LuaVal
  base : Nat
  capacity : Nat
  world : ω
  memory : List Bool
  failed : Bool
  refs : List Nat
  ctx : PcallCtx

abbrev PcallM (ω α : Type) := Raising (PcallState ω) (StackHalt Thrown) α

section Api

variable {ω α : Type}

def onFrame (m : StackM LuaVal Thrown α) : PcallM ω α := fun s =>
  ((m s.frame).1, { s with frame := (m s.frame).2 })

def luaThrow (e : Thrown) : PcallM ω α := Raising.raise (.raised e)

def alloc : PcallM ω Bool := fun s =>
  match s.memory with
  | [] => (.ok true, s)
  | true :: memory => (.ok true, { s with memory := memory })
  | false :: memory => (.ok false, { s with memory := memory, failed := true })

def allocate : PcallM ω Unit := do
  if ← alloc then pure () else luaThrow (luaErrmem, memoryMessage)

def PcallState.reserve (s : PcallState ω) (n : Nat) : PcallState ω :=
  { s with
    frame := s.frame.ensure n
    capacity := max s.capacity (s.base + s.frame.slots.length + n + 1) }

/-- Makes the stack larger. Up to Lua 5.1 the error is raised, from then on it is answered. -/
def growStack : LuaVersion → PcallM ω Bool
  | .lua51 => do
    allocate
    pure true
  | .lua52 => alloc

def reserveIf (n : Nat) (grown : Bool) : PcallM ω Bool := do
  if grown then
    Raising.update (·.reserve n)
    pure true
  else pure false

def luaCheckstack (v : LuaVersion) (n : Nat) : PcallM ω Bool := do
  let s ← Raising.state
  if s.frame.limit < s.frame.slots.length + n then
    Raising.update ({ · with failed := true })
    pure false
  else if s.base + s.frame.slots.length + n < s.capacity then reserveIf n true
  else growStack v >>= reserveIf n

def luaLCheckstack (v : LuaVersion) (n : Nat) (msg : String) : PcallM ω Unit := do
  if ← luaCheckstack v n then pure ()
  else
    allocate
    luaThrow (luaErrrun, .string ("stack overflow (" ++ msg ++ ")"))

def PcallState.enter (s : PcallState ω) (v : LuaVersion) (args : List LuaVal) : PcallState ω :=
  { s with
    frame :=
      { slots := args
        ensured := args.length + luaMinstack
        limit :=
          match v with
          | .lua51 => s.frame.limit
          -- the limit is one of the whole stack
          | .lua52 => s.frame.limit - (s.frame.slots.length + 1) }
    base := s.base + s.frame.slots.length + 1
    capacity := max s.capacity (s.base + s.frame.slots.length + 1 + (args.length + luaMinstack)) }

def PcallState.leave (t s : PcallState ω) : PcallState ω :=
  { t with frame := s.frame, base := s.base }

def results (n : Nat) : PcallM ω (List LuaVal) := do
  let s ← Raising.state
  if n ≤ s.frame.slots.length then pure (s.frame.slots.drop (s.frame.slots.length - n))
  else Raising.raise .misuse

def callC (v : LuaVersion) (args : List LuaVal) (body : PcallM ω Nat) :
    PcallM ω (List LuaVal) := do
  allocate
  let s ← Raising.state
  Raising.update (·.enter v args)
  let n ← body
  let vals ← results n
  Raising.update (·.leave s)
  pure vals

def pushAll : List LuaVal → PcallM ω Unit
  | [] => pure ()
  | v :: vals => do
    onFrame (StackM.push v)
    pushAll vals

def adjust (n : Nat) (vals : List LuaVal) : List LuaVal :=
  (vals ++ List.replicate n LuaVal.nil).take n

def protectedCall (nresults : Nat) (m : PcallM ω (List LuaVal)) : PcallM ω Nat := fun s =>
  match m s with
  | (.ok vals, t) => (pushAll (adjust nresults vals) >>= fun _ => pure 0) t
  | (.error (.raised (status, e)), t) =>
    (onFrame (StackM.push e) >>= fun _ => pure (status : Nat)) (t.leave s)
  | (.error halt, t) => (.error halt, t)

def popCall : PcallM ω LuaVal := do
  let arg ← onFrame StackM.top
  onFrame (StackM.pop 2)
  pure arg

def luaPcall (nresults : Nat) (call : LuaVal → PcallM ω (List LuaVal)) : PcallM ω Nat := do
  let arg ← popCall
  protectedCall nresults (call arg)

def lightuserdata : LuaVal := .other "userdata" 0

def cfunction : LuaVal := .other "function" 0

def thread : LuaVal := .other "thread" 0

def luaPushcfunction : LuaVersion → PcallM ω Unit
  | .lua51 => do
    allocate
    onFrame (StackM.push cfunction)
  | .lua52 => onFrame (StackM.push cfunction)

def luaCpcall (body : PcallM ω Nat) : PcallM ω Nat :=
  protectedCall 0 do
    luaPushcfunction .lua51
    onFrame (StackM.push lightuserdata)
    let arg ← popCall
    callC .lua51 [arg] body

def luaLRef : PcallM ω Nat := do
  allocate
  onFrame (StackM.pop 1)
  let s ← Raising.state
  Raising.update fun s => { s with refs := (s.refs.foldr max 0 + 1) :: s.refs }
  pure (s.refs.foldr max 0 + 1)

def luaLUnref (ref : Nat) : PcallM ω Unit :=
  Raising.update fun s => { s with refs := s.refs.erase ref }

/-- The thread is there as long as the registry refers to it. -/
def anchored : PcallM ω Unit := do
  let s ← Raising.state
  if (s.ctx.ref.any fun ref => ref ∈ s.refs) = true then pure () else Raising.raise .misuse

/-- `lua_xmove(L, ctx->retvals, n)`. A new thread has `LUA_MINSTACK` slots. -/
def xmoveToRetvals (n : Nat) : PcallM ω Unit := do
  anchored
  let vals ← results n
  onFrame (StackM.pop n)
  let s ← Raising.state
  if s.ctx.retvals.length + n ≤ luaMinstack then
    Raising.update fun s =>
      { s with ctx := { s.ctx with retvals := s.ctx.retvals ++ vals } }
  else Raising.raise .overflow

def xmoveFromRetvals (n : Nat) : PcallM ω Unit := do
  anchored
  let s ← Raising.state
  pushAll (s.ctx.retvals.drop (s.ctx.retvals.length - n))

end Api

section Code

variable {ω : Type} (callees : Callees ω) (nresults : Nat)

/-- The call of `fn`. While it runs, the stack may shrink to what the frames below have asked
for. -/
def callFn : PcallM ω (List LuaVal) := do
  allocate
  let s ← Raising.state
  Raising.update fun s =>
    { s with world := (callees.fn s.world).2, capacity := s.base + s.frame.ensured }
  match (callees.fn s.world).1 with
  | .ok vals => pure vals
  | .error e => luaThrow e

def lauxhTostr (v : LuaVal) : PcallM ω Unit := do
  let s ← Raising.state
  Raising.update fun s => { s with world := (callees.tostr v s.world).2 }
  match (callees.tostr v s.world).1 with
  | .ok text => onFrame (StackM.push (.string text))
  | .error e => luaThrow e

def stringify : PcallM ω Unit := do
  match ← onFrame StackM.top with
  | .string _ => pure ()
  | v => lauxhTostr callees v

def rethrow (status : Nat) : PcallM ω Nat := do
  stringify callees
  -- the status of `fn` is kept only when its error could be converted
  Raising.update fun s => { s with ctx := { s.ctx with status := status } }
  let e ← onFrame StackM.top
  luaThrow (luaErrrun, e)

def newRetvals : PcallM ω Unit := do
  allocate
  onFrame (StackM.push thread)
  let ref ← luaLRef
  Raising.update fun s => { s with ctx := { s.ctx with ref := some ref, retvals := [] } }

def anchorRetvals (v : LuaVersion) : PcallM ω Unit :=
  if v = .lua51 ∧ nresults ≠ 0 then newRetvals else pure ()

def returnResults : LuaVersion → PcallM ω Nat
  | .lua51 =>
    if nresults ≠ 0 then do
      xmoveToRetvals nresults
      pure 0
    else pure 0
  | .lua52 => pure nresults

def netPcallHook (v : LuaVersion) : PcallM ω Nat := do
  luaLCheckstack v (nresults + 2) "too many results"
  anchorRetvals nresults v
  luaPushcfunction v
  onFrame (StackM.push lightuserdata)
  let status ← luaPcall nresults fun _ => callFn callees
  if status ≠ 0 then rethrow callees status else returnResults nresults v

def memoryError : PcallM ω Nat := do
  onFrame (StackM.push memoryMessage)
  pure luaErrmem

def takeResults : PcallM ω Nat := do
  if ← luaCheckstack .lua51 nresults then
    xmoveFromRetvals nresults
    pure 0
  else memoryError

def finalStatus (status : Nat) : PcallM ω Nat := do
  let s ← Raising.state
  if s.ctx.status ≠ 0 then pure s.ctx.status
  else if status = 0 ∧ nresults ≠ 0 then takeResults nresults
  else pure status

def unrefRetvals : PcallM ω Unit := do
  let s ← Raising.state
  match s.ctx.ref with
  | some ref => luaLUnref ref
  | none => pure ()

def netPcallEx51 : PcallM ω Nat := do
  Raising.update ({ · with ctx := {} })
  let status ← luaCpcall (netPcallHook callees nresults .lua51)
  let status ← finalStatus nresults status
  unrefRetvals
  pure status

def pcallHook : PcallM ω Nat := do
  luaPushcfunction .lua52
  onFrame (StackM.push lightuserdata)
  let status ← luaPcall nresults fun arg =>
    callC .lua52 [arg] (netPcallHook callees nresults .lua52)
  let s ← Raising.state
  pure (if s.ctx.status ≠ 0 then s.ctx.status else status)

def netPcallEx52 : PcallM ω Nat := do
  Raising.update ({ · with ctx := {} })
  if ← luaCheckstack .lua52 (nresults + 2) then pcallHook callees nresults else memoryError

def netPcallEx : LuaVersion → PcallM ω Nat
  | .lua51 => netPcallEx51 callees nresults
  | .lua52 => netPcallEx52 callees nresults

def netPcall (v : LuaVersion) : PcallM ω Nat := netPcallEx callees 0 v

end Code

end LuaNet.Shared
