import LuaNet.Lib.Codec
import LuaNet.Lib.Raising
import LuaNet.Socket.Constants

/-! Control messages of `cmsghdr.c` and the descriptor queues of `scm_rights.c`, with the
`CMSG_*` macros of 64-bit Linux. A control buffer is its bytes, a header its offset. -/

namespace LuaNet.Socket

open LuaNet.Lib

/-! The macros. -/

def sizeofCmsghdr : Nat := 16

def cmsgAlign (len : Nat) : Nat := (len + 7) / 8 * 8

def cmsgLen (len : Nat) : Nat := cmsgAlign sizeofCmsghdr + len

def cmsgSpace (len : Nat) : Nat := cmsgAlign len + cmsgAlign sizeofCmsghdr

def cmsgPadding (len : Nat) : Nat := (8 - len % 8) % 8

def readNat (ctl : Bytes) (offset width : Nat) : Nat := leNat ((ctl.drop offset).take width)

def readInt (ctl : Bytes) (offset : Nat) : Int := toSigned 32 (readNat ctl offset 4)

def cmsgLenAt (ctl : Bytes) (cm : Nat) : Nat := readNat ctl cm 8

def cmsgLevelAt (ctl : Bytes) (cm : Nat) : Int := readInt ctl (cm + 8)

def cmsgTypeAt (ctl : Bytes) (cm : Nat) : Int := readInt ctl (cm + 12)

def cmsgData (cm : Nat) : Nat := cm + sizeofCmsghdr

def cmsgFirsthdr (ctl : Bytes) : Option Nat :=
  if sizeofCmsghdr ≤ ctl.length then some 0 else none

def cmsgNxthdr (ctl : Bytes) (cm : Nat) : Option Nat :=
  let len := cmsgLenAt ctl cm
  let needed := sizeofCmsghdr + cmsgPadding len
  if len < sizeofCmsghdr then none
  else if ctl.length - cm < needed ∨ ctl.length - cm - needed < len then none
  else some (cm + cmsgAlign len)

/-! Encoding. -/

def maxInt : Nat := 2 ^ 31 - 1

def netCmsgMaxFd : Nat := 256

def luaMaxSize : Nat := 2 ^ 63

def memoryError : LuaError := .error "not enough memory"

def pushCmsgBlock (level type : Nat) (payload : Bytes) : Except LuaError Bytes :=
  let space := cmsgSpace payload.length
  let block := leBytes 8 (cmsgLen payload.length) ++ leBytes 4 level ++ leBytes 4 type ++ payload
  if space < luaMaxSize then .ok (block ++ List.replicate (space - block.length) 0)
  else .error memoryError

inductive FdArg
  | integer (n : Int)
  | other
deriving DecidableEq

inductive CmsgData
  | integer (n : Int)
  | number
  | table (fds : List FdArg)
  | string (s : Bytes)
  | other
deriving DecidableEq

inductive CmsgName
  | string (s : String)
  | other
deriving DecidableEq

inductive CmsgArg
  | table (level type : CmsgName) (data : CmsgData)
  | other
deriving DecidableEq

def fdInRange (fd : Int) : Bool := 0 ≤ fd && fd ≤ maxInt

def checkFds (i j : Nat) : List FdArg → Except LuaError (List Nat)
  | [] => .ok []
  | .other :: _ => .error (.error s!"cmsg[{i}].data[{j}] must be integer fd")
  | .integer fd :: fds =>
    if fdInRange fd then (checkFds i (j + 1) fds).map (fd.toNat :: ·)
    else .error (.error s!"cmsg[{i}].data[{j}]: fd must be in the range 0..{maxInt}")

def pushScmRightsEntry (i level type : Nat) (data : CmsgData) : Except LuaError Bytes :=
  let fds : Except LuaError (List Nat) :=
    match data with
    | .number => .error (.error s!"cmsg[{i}].data must be integer fd")
    | .integer fd =>
      if fdInRange fd then .ok [fd.toNat]
      else .error (.error s!"cmsg[{i}].data: fd must be in the range 0..{maxInt}")
    | .table fds =>
      if fds.length > netCmsgMaxFd then
        .error (.error s!"cmsg[{i}].data: too many fds (max {netCmsgMaxFd})")
      else checkFds i 1 fds
    | _ =>
      .error (.error s!"cmsg[{i}].data: SCM_RIGHTS requires integer fd or table of integer fds")
  fds.bind fun fds => pushCmsgBlock level type (fds.flatMap (leBytes 4))

def pushRawCmsgEntry (i level type : Nat) (data : CmsgData) : Except LuaError Bytes :=
  match data with
  | .string s => pushCmsgBlock level type s
  | _ => .error (.error s!"cmsg[{i}].data: string expected for level={level} type={type}")

def pushCmsgEntry (i : Nat) : CmsgArg → Except LuaError Bytes
  | .other => .error (.error s!"cmsg[{i}] must be a table")
  | .table .other _ _ => .error (.error s!"cmsg[{i}].level must be a string")
  | .table (.string levelStr) typeArg data =>
    match netCmsgLevelValue levelStr, typeArg with
    | none, _ => .error (.error s!"cmsg[{i}].level: unknown level '{cString levelStr}'")
    | some _, .other => .error (.error s!"cmsg[{i}].type must be a string")
    | some level, .string typeStr =>
      match netCmsgTypeValue level typeStr with
      | none =>
        let unknown := s!"cmsg[{i}].type: unknown type '{cString typeStr}'"
        .error (.error (unknown ++ s!" for level '{cString levelStr}'"))
      | some type =>
        if level = solSocket ∧ type = scmRights then pushScmRightsEntry i level type data
        else pushRawCmsgEntry i level type data

def pushCmsgEntries (i : Nat) : List CmsgArg → Except LuaError (List Bytes)
  | [] => .ok []
  | arg :: args =>
    (pushCmsgEntry i arg).bind fun block => (pushCmsgEntries (i + 1) args).map (block :: ·)

/-- `net_cmsg_build_buffer`, with room for `room` more values on the Lua stack. -/
def netCmsgBuildBuffer (room : Nat) (args : List CmsgArg) : Except LuaError (Option Bytes) :=
  let n := args.length
  if n = 0 then .ok none
  else if n > maxInt / 2 then .error (.error s!"cmsg table too large: {n} entries")
  else if room < n + 4 then .error (.error "stack overflow (cmsg buffer build)")
  else
    (pushCmsgEntries 1 args).bind fun blocks =>
      if blocks.flatten.length < luaMaxSize then .ok (some blocks.flatten)
      else .error (.error "string length overflow")

/-! Decoding. -/

def netScmMaxFd : Nat := 253

def netCmsgLength (ctl : Bytes) (cm : Nat) : Nat :=
  if ctl.length < cm then 0
  else
    let available := ctl.length - cm
    if available < cmsgLen 0 ∨ cmsgLenAt ctl cm < cmsgLen 0 then 0
    else if cmsgLenAt ctl cm < available then cmsgLenAt ctl cm
    else available

/-- A `net_scm_rights_t` while it is filled: `fds[0..len)`, the descriptors closed for want of
room, and whether `err` is `EMSGSIZE`. -/
structure RightsFill where
  fds : List Int := []
  closed : List Int := []
  overflow : Bool := false
deriving DecidableEq

def RightsFill.add (q : RightsFill) (fd : Int) : RightsFill :=
  if q.fds.length < netScmMaxFd then { q with fds := q.fds ++ [fd] }
  else { q with closed := q.closed ++ [fd], overflow := true }

def isRights (ctl : Bytes) (cm : Nat) : Bool :=
  cmsgLevelAt ctl cm = solSocket && cmsgTypeAt ctl cm = scmRights

def rightsCount (len : Nat) : Nat := (len - cmsgLen 0) / 4

def swapFds (fds : List Int) (i j : Nat) : List Int :=
  (fds.set i (fds.getD j 0)).set j (fds.getD i 0)

def reverseRights (fds : List Int) : List Int :=
  (List.range (fds.length / 2)).foldl (fun fs i => swapFds fs i (fds.length - 1 - i)) fds

def fillRights (ctl : Bytes) : Nat → Option Nat → RightsFill → RightsFill
  | 0, _, q => q
  | _, none, q => q
  | fuel + 1, some cm, q =>
    let len := netCmsgLength ctl cm
    if len = 0 then q
    else
      let q :=
        if isRights ctl cm then
          (List.range (rightsCount len)).foldl
            (fun q i => q.add (readInt ctl (cmsgData cm + i * 4))) q
        else q
      if len < cmsgLenAt ctl cm then q else fillRights ctl fuel (cmsgNxthdr ctl cm) q

/-- A header takes at least a byte of the buffer, which bounds the number of turns. -/
def cmsgFuel (ctl : Bytes) : Nat := ctl.length + 1

def netScmRightsFill (ctl : Bytes) : RightsFill :=
  let q := fillRights ctl (cmsgFuel ctl) (cmsgFirsthdr ctl) {}
  { q with fds := reverseRights q.fds }

/-- The queues of descriptors, and how many Lua allocations still succeed, when not all do. -/
structure RightsState where
  queues : List (List Int)
  budget : Option Nat := none

def RightsState.fds (s : RightsState) (q : Nat) : List Int := s.queues.getD q []

def RightsState.setFds (s : RightsState) (q : Nat) (fds : List Int) : RightsState :=
  { s with queues := s.queues.set q fds }

abbrev RightsM := Raising RightsState LuaError

def RightsState.spend (s : RightsState) (n : Nat) : Option RightsState :=
  match s.budget with
  | none => some s
  | some b => if n ≤ b then some { s with budget := some (b - n) } else none

def alloc (n : Nat) : RightsM Unit := fun s =>
  match s.spend n with
  | some s => (.ok (), s)
  | none => (.error memoryError, s)

def netScmRightsNew : RightsM Nat := do
  alloc 1
  let s ← Raising.state
  Raising.update fun s => { s with queues := s.queues ++ [[]] }
  alloc 1
  pure s.queues.length

def splitRights (owner q : Nat) : Nat → RightsState → RightsState
  | 0, s => s
  | n + 1, s =>
    match (s.fds owner).getLast? with
    | none => s
    | some fd =>
      splitRights owner q n
        ((s.setFds q (s.fds q ++ [fd])).setFds owner (s.fds owner).dropLast)

def pushRightsData (nfd owner : Nat) : RightsM Nat := do
  let s ← Raising.state
  if nfd > (s.fds owner).length then
    Raising.raise (.error "SCM_RIGHTS queue does not match received data")
  else if nfd ≠ 0 ∧ nfd = (s.fds owner).length then pure owner
  else
    let q ← netScmRightsNew
    Raising.update (splitRights owner q nfd)
    Raising.update fun s => s.setFds q (reverseRights (s.fds q))
    pure q

inductive CmsgValue
  | rights (q : Nat)
  | timestamp (sec usec : Int)
  | nil
  | string (s : Bytes)
deriving DecidableEq

def sizeofTimeval : Nat := 16

def pushData (ctl : Bytes) (cm len : Nat) : RightsM CmsgValue :=
  if len < sizeofCmsghdr then do
    alloc 1
    pure (.string [])
  else
    let datalen := len - sizeofCmsghdr
    if cmsgLevelAt ctl cm = solSocket ∧ cmsgTypeAt ctl cm = scmTimestamp then
      if datalen < sizeofTimeval then pure .nil
      else do
        alloc 3
        pure (.timestamp (toSigned 64 (readNat ctl (cmsgData cm) 8))
          (toSigned 64 (readNat ctl (cmsgData cm + 8) 8)))
    else do
      alloc 1
      pure (.string ((ctl.drop (cmsgData cm)).take datalen))

inductive NameOrInt
  | name (s : String)
  | int (n : Int)
deriving DecidableEq

structure CmsgItem where
  level : NameOrInt
  type : NameOrInt
  data : CmsgValue
deriving DecidableEq

def nameOrInt (name : Option String) (n : Int) : NameOrInt := (name.map .name).getD (.int n)

def pushLevel2name (level : Int) : RightsM NameOrInt := do
  if (netCmsgLevelName level).isSome then alloc 1
  pure (nameOrInt (netCmsgLevelName level) level)

def pushType2name (level type : Int) : RightsM NameOrInt := do
  if (netCmsgTypeName level type).isSome then alloc 1
  pure (nameOrInt (netCmsgTypeName level type) type)

/-- An owning queue, a timestamp table, or a string. -/
def pushMessageData (ctl : Bytes) (owner cm len : Nat) : RightsM CmsgValue :=
  if isRights ctl cm then do
    let q ← pushRightsData (rightsCount len) owner
    pure (.rights q)
  else pushData ctl cm len

def pushMessage (ctl : Bytes) (owner cm len : Nat) : RightsM CmsgItem := do
  alloc 1
  let level ← pushLevel2name (cmsgLevelAt ctl cm)
  alloc 1
  let type ← pushType2name (cmsgLevelAt ctl cm) (cmsgTypeAt ctl cm)
  alloc 1
  let data ← pushMessageData ctl owner cm len
  alloc 2
  pure { level := level, type := type, data := data }

def pushTable (ctl : Bytes) (owner : Nat) :
    Nat → Option Nat → List CmsgItem → RightsM (List CmsgItem)
  | 0, _, items => pure items
  | _, none, items => pure items
  | fuel + 1, some cm, items =>
    let len := netCmsgLength ctl cm
    if len = 0 then pure items
    else do
      let item ← pushMessage ctl owner cm len
      if len < cmsgLenAt ctl cm then pure (items ++ [item])
      else pushTable ctl owner fuel (cmsgNxthdr ctl cm) (items ++ [item])

def netCmsgPushTable (ctl : Bytes) (owner : Nat) : RightsM (Option (List CmsgItem)) :=
  match cmsgFirsthdr ctl with
  | none => pure none
  | some cm => do
    alloc 1
    let items ← pushTable ctl owner (cmsgFuel ctl) (some cm) []
    pure (some items)

/-! The queue methods. -/

def peekLua (q : Nat) (s : RightsState) : Option Int := (s.fds q).getLast?

def getLua (q : Nat) (s : RightsState) : Option Int × RightsState :=
  match (s.fds q).getLast? with
  | none => (none, s)
  | some fd => (some fd, s.setFds q (s.fds q).dropLast)

def lenLua (q : Nat) (s : RightsState) : Nat := (s.fds q).length

end LuaNet.Socket
