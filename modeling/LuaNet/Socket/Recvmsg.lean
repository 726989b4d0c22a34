import LuaNet.Socket.Cmsg
import LuaNet.Socket.CmsgDecode
import LuaNet.Socket.Send

/-! Receiving descriptors: `recvmsg` and `recvfd` of `socket.c`, with the methods of the queues
that they make. -/

namespace LuaNet.Socket

open LuaNet.Lib

inductive RightsEvent
  | call (flags : Nat)
  | received (fds : List Int)
  | handed (q : Nat) (fd : Int)
  | closed (q : Nat) (fd : Int)
deriving DecidableEq

structure RecvState extends RightsState where
  events : List RightsEvent := []

abbrev RecvM := Raising RecvState LuaError

def onRights {α : Type} (m : RightsM α) : RecvM α := fun s =>
  ((m s.toRightsState).1, { s with toRightsState := (m s.toRightsState).2 })

def emit (es : List RightsEvent) : RecvM Unit :=
  Raising.update fun s => { s with events := s.events ++ es }

def ofExcept {α : Type} : Except LuaError α → RecvM α
  | .ok a => pure a
  | .error e => Raising.raise e

def luaErrnoNew (e : Tls.Errno) (op : String) : RecvM (Tls.Errno × String) := do
  onRights (alloc 1)
  pure (e, op)

def emsgsize : Tls.Errno := .other 90

def msgPeek : Nat := 0x2

def msgCmsgCloexec : Nat := 0x40000000

def sockDgram : Nat := 2

def sockRaw : Nat := 3

def netMsgflagOutputMap : List NetConstant :=
  [⟨"trunc", 0x20⟩, ⟨"ctrunc", 0x8⟩, ⟨"eor", 0x80⟩, ⟨"oob", 0x1⟩, ⟨"errqueue", 0x2000⟩,
    ⟨"cmsg_cloexec", msgCmsgCloexec⟩]

/-- What recvmsg(2) has written: the data, the control data, `msg_flags`, and the address. -/
structure Received where
  data : Bytes := []
  ctl : Bytes := []
  flags : Nat := 0
  name : Option Addrinfo := none

inductive RecvResult
  | received (r : Received)
  | failed (e : Tls.Errno)

structure RecvMessage where
  data : Option Bytes
  cmsgs : Option (List CmsgItem)
  flags : List String
  addr : Option Addrinfo

/-- What a receive returns; `raised` is an error object thrown by `lua_error`. -/
inductive RecvRet
  | eof
  | again
  | failed (err : Tls.Errno × String)
  | raised (err : Tls.Errno × String)
  | message (m : RecvMessage)
  | queue (q : Nat)

def scmRightsFill (q : Nat) (ctl : Bytes) : RecvM Bool := do
  let fill := netScmRightsFill ctl
  Raising.update fun s =>
    { s with
      queues := s.queues.set q fill.fds
      events := s.events ++ fill.closed.map (.closed q) }
  pure fill.overflow

def closeRights (q : Nat) :
    Nat → List (Option Tls.Errno) → Option Tls.Errno → RecvState → Option Tls.Errno × RecvState
  | 0, _, err, s => (err, s)
  | len + 1, answers, err, s =>
    match (s.fds q).getLast? with
    | none => (err, s)
    | some fd =>
      closeRights q len answers.tail (err.or (answers.head?.getD none))
        { s with
          queues := s.queues.set q (s.fds q).dropLast
          events := s.events ++ [.closed q fd] }

def netScmRightsClose (q : Nat) (answers : List (Option Tls.Errno)) :
    RecvM (Option Tls.Errno) := fun s =>
  let r := closeRights q (s.fds q).length answers none s
  (.ok r.1, r.2)

def isEof (socktype : Nat) (data : Bytes) : Bool :=
  data.isEmpty && socktype != sockDgram && socktype != sockRaw

def recvmsgError (e : Tls.Errno) : RecvM RecvRet :=
  if isAgain e then pure .again
  else do
    let err ← luaErrnoNew e "recvmsg"
    pure (.failed err)

def pushRecvMessage (bufsize : Int) (owner : Nat) (ctl : Bytes) (r : Received) : RecvM RecvRet := do
  let flags := netMsgflagOutputMap.filter fun entry => r.flags &&& entry.value = entry.value
  onRights (alloc (if 0 < bufsize then 3 else 1))
  let cmsgs ← onRights (netCmsgPushTable ctl owner)
  onRights (alloc (cmsgs.toList.length + flags.length + 2 + 2 * r.name.toList.length))
  pure (.message {
    data := if 0 < bufsize then some r.data else none
    cmsgs := cmsgs
    flags := flags.map (·.name)
    addr := r.name })

/-- The end of `recvmsg_lua`, once no descriptor is in the control data alone. -/
def finishRecvmsg (socktype : Nat) (bufsize : Int) (owner : Nat) (ctl : Bytes) (r : Received) :
    RecvM RecvRet :=
  if 0 < bufsize ∧ isEof socktype r.data ∧ ctl = [] then pure .eof
  else pushRecvMessage bufsize owner ctl r

def takeRights (socktype : Nat) (bufsize : Int) (q : Nat) (ctl : Bytes) (r : Received) :
    RecvM RecvRet := do
  let overflow ← scmRightsFill q ctl
  if overflow then do
    let err ← luaErrnoNew emsgsize "recvmsg"
    pure (.raised err)
  else finishRecvmsg socktype bufsize q ctl r

structure RecvmsgArgs where
  bufsize : Int
  cmsgbuf : Int
  flags : List FlagArg

def uint32Max : Int := 2 ^ 32 - 1

def recvmsgCall (socktype : Nat) (args : RecvmsgArgs) (flg : Nat) (ans : RecvResult) :
    RecvM RecvRet := do
  onRights (alloc (if 0 < args.bufsize then 1 else 0))
  if 0 < args.cmsgbuf then do
    onRights (alloc 1)
    let q ← onRights netScmRightsNew
    emit [.call (flg ||| msgCmsgCloexec)]
    match ans with
    | .failed e => recvmsgError e
    | .received r => do
      let ctl := r.ctl.take args.cmsgbuf.toNat
      emit [.received (receivedFds ctl)]
      takeRights socktype args.bufsize q ctl r
  else do
    emit [.call (flg ||| msgCmsgCloexec)]
    match ans with
    | .failed e => recvmsgError e
    | .received r => finishRecvmsg socktype args.bufsize 0 [] r

def recvmsgLua (socktype : Nat) (args : RecvmsgArgs) (ans : RecvResult) : RecvM RecvRet := do
  let flg ← ofExcept (netCheckMsgflags 4 args.flags)
  if args.bufsize < 0 then Raising.raise (.arg 2 "bufsize must be non-negative")
  else if args.cmsgbuf < 0 then Raising.raise (.arg 3 "cmsgbuf must be non-negative")
  else if args.cmsgbuf > uint32Max then
    Raising.raise (.arg 3 "cmsgbuf must be in the socklen_t range")
  else if args.bufsize = 0 ∧ args.cmsgbuf = 0 then do
    let err ← luaErrnoNew .einval "recvmsg"
    pure (.failed err)
  else recvmsgCall socktype args flg ans

def recvfdControl : Nat := cmsgSpace (4 * netScmMaxFd)

def takeQueue (socktype q : Nat) (ctl data : Bytes) : RecvM RecvRet := do
  let overflow ← scmRightsFill q ctl
  if overflow then do
    let _ ← netScmRightsClose q []
    let err ← luaErrnoNew emsgsize "recvmsg"
    pure (.failed err)
  else do
    let s ← Raising.state
    if s.fds q ≠ [] then pure (.queue q)
    else if isEof socktype data then pure .eof
    else pure .again

def recvfdLua (socktype : Nat) (flags : List FlagArg) (ans : RecvResult) : RecvM RecvRet := do
  let flg ← ofExcept (netCheckMsgflags 2 flags)
  let q ← onRights netScmRightsNew
  if flg &&& msgPeek ≠ 0 then Raising.raise (.arg 2 "peek is not supported by recvfd")
  else do
    emit [.call (flg ||| msgCmsgCloexec)]
    match ans with
    | .failed e => recvmsgError e
    | .received r => do
      let ctl := r.ctl.take recvfdControl
      emit [.received (receivedFds ctl)]
      takeQueue socktype q ctl r.data

def scmRightsCloseLua (q : Nat) (answers : List (Option Tls.Errno)) :
    RecvM (Option (Tls.Errno × String)) := do
  let err ← netScmRightsClose q answers
  match err with
  | none => pure none
  | some e => do
    let err ← luaErrnoNew e "close"
    pure (some err)

def scmRightsGcLua (q : Nat) : RecvM Unit := do
  let _ ← netScmRightsClose q []
  pure ()

end LuaNet.Socket
