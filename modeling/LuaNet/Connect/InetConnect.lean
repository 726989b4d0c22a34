import LuaNet.Connect.AddrSearch

/-! `inet_stream_connect` of `lib/stream/inet.lua`: a connection to the first resolved address that
answers, within one time budget for all of them. Times are Lua numbers, of which only the
operations that the function uses are known, and deadlines are objects of another library. -/

namespace LuaNet.Connect

open LuaNet.Lib

inductive ConnError
  | errno (code : Nat) (op : String)
  | other (text : String)
deriving DecidableEq

structure DeadlineLib (τ D T : Type) where
  new : τ → T → D
  isDone : D → T → Bool × τ
  remain : D → T → τ

/-- A resolved address with what is answered while it is tried: the instants at which the clock is
read, `socket_connect_inet`, `sock:sndtimeo()`, the wait for at most so long (`ok`, `err` and
`timeout`), `SO_ERROR`, and `sock:getpeername()`. -/
structure ConnAddr (τ T : Type) where
  ai : AddrInfo
  answers : Answers
  errnoMemory : Bool := true
  enterAt : T
  sndtimeo : Except ℕ+ τ
  remainAt : T
  newAt : T
  waitAt : T
  wait : τ → Bool × Option ConnError × Bool
  soError : Except ℕ+ (Option ℕ+)
  peer : Except ConnError AddrInfo

structure Budget (τ D : Type) where
  deadline : D
  sndtimeo : Option τ

structure ConnRet where
  sock : Option Nat := none
  err : Option ConnError := none
  timeout : Bool := false
  ai : Option (Except ConnError AddrInfo) := none

def sockArg : Option Slot → Option Nat
  | some (.sock i) => some i
  | _ => none

def errArg : Option Slot → Option ConnError
  | some (.errno code op) => some (.errno code op)
  | some (.error text) => some (.other text)
  | _ => none

def boolArg : Option Slot → Bool
  | some (.bool b) => b
  | _ => false

section Code

variable {τ D T : Type} [Sub τ] [LT τ] [DecidableLT τ] [OfNat τ 0] [OfNat τ 30]

def ConnAddr.call (c : ConnAddr τ T) : NetCall :=
  { op := .connectInet, resolver := .ok [], options := .ok {}, memory := c.errnoMemory }

def socketConnectInet (c : ConnAddr τ T) : CallM (Option Nat × Option ConnError × Bool) := fun s =>
  match newNetSocket c.call 1 { s with stack := [.entry (.addrinfo c.ai c.answers)] } with
  | (.ok n, t) =>
    let values := t.returned (n.getD 0)
    (.ok (sockArg values[0]?, errArg values[1]?, boolArg values[2]?), { t with stack := s.stack })
  | (.error e, t) => (.error e, { t with stack := s.stack })

def closeLua (i : Nat) (a : Answers) : CallM Unit := do
  let s ← Raising.state
  let fd := (s.socks[i]?.map NetSocket.fd).getD (-1)
  if fd = -1 then return ()
  else
    setFd i (-1)
    emit (.closed fd)
    setErrno a.closeErrno

def errorLua (c : ConnAddr τ T) : Option ConnError × Option ConnError :=
  match c.soError with
  | .ok none => (none, none)
  | .ok (some e) => (some (.errno e "error"), none)
  | .error e => (none, some (.errno e "error"))

def rebase (lib : DeadlineLib τ D T) (timeoutSec : τ) (b : Budget τ D) (c : ConnAddr τ T) :
    Budget τ D :=
  match b.sndtimeo, c.sndtimeo with
  | none, .ok t =>
    if 0 < t then
      let elapsed := timeoutSec - lib.remain b.deadline c.remainAt
      { deadline := lib.new (t - elapsed) c.newAt, sndtimeo := some t }
    else { b with sndtimeo := some t }
  | _, _ => b

def awaitConnect (lib : DeadlineLib τ D T) (b : Budget τ D) (c : ConnAddr τ T) (i : Nat)
    (err : Option ConnError) : CallM (ConnRet ⊕ Option ConnError) := do
  let (done, sec) := lib.isDone b.deadline c.waitAt
  if done then
    closeLua i c.answers
    return .inl { timeout := true }
  else
    match c.wait sec with
    | (_, _, true) =>
      closeLua i c.answers
      return .inl { timeout := true }
    -- the wait itself failed
    | (_, some cerr, false) =>
      closeLua i c.answers
      return .inr (some cerr)
    | (false, none, false) =>
      closeLua i c.answers
      return .inr err
    -- writable: SO_ERROR tells whether the connection is there
    | (true, none, false) =>
      match errorLua c with
      | (some cerr, _) =>
        closeLua i c.answers
        return .inr (some cerr)
      | (none, some err) =>
        closeLua i c.answers
        return .inr (some err)
      | (none, none) => return .inl { sock := some i, ai := some c.peer }

def connectAddr (lib : DeadlineLib τ D T) (timeoutSec : τ) (c : ConnAddr τ T) (b : Budget τ D)
    (err : Option ConnError) : CallM (ConnRet ⊕ Budget τ D × Option ConnError) := do
  if (lib.isDone b.deadline c.enterAt).1 then return .inl { timeout := true }
  else
    match ← socketConnectInet c with
    | (none, cerr, _) => return .inr (b, cerr)
    | (some i, _, false) => return .inl { sock := some i, ai := some c.peer }
    | (some i, _, true) =>
      match ← awaitConnect lib (rebase lib timeoutSec b c) c i err with
      | .inl ret => return .inl ret
      | .inr err => return .inr (rebase lib timeoutSec b c, err)

def connectNext (lib : DeadlineLib τ D T) (timeoutSec : τ) :
    List (ConnAddr τ T) → Budget τ D → Option ConnError → CallM ConnRet
  | [], _, err => return { err := err }
  | c :: cs, b, err => do
    match ← connectAddr lib timeoutSec c b err with
    | .inl ret => return ret
    | .inr (b, err) => connectNext lib timeoutSec cs b err

/-- `resolved` is what `getaddrinfo` returns, and `start` the time it is then. -/
def inetStreamConnect (lib : DeadlineLib τ D T)
    (resolved : Except ConnError (List (ConnAddr τ T))) (sec : Option τ) (start : T) :
    CallM ConnRet :=
  match resolved with
  | .error err => return { err := some err }
  | .ok addrs =>
    let timeoutSec := sec.getD 30
    connectNext lib timeoutSec addrs
      { deadline := lib.new timeoutSec start, sndtimeo := sec } none

end Code

end LuaNet.Connect
