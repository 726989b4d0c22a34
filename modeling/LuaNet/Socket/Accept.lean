import LuaNet.Lib.Coroutine
import LuaNet.Lib.Raising
import LuaNet.Socket.Send

/-! A listening server: `accept` and `acceptfd` of `socket.c` and the loops of `lib/stream.lua` over
them, called by any number of coroutines, with closes and collections in between. Every allocation
may fail, and may run the finalizers of what nobody refers to any more. -/

namespace LuaNet.Socket

open LuaNet.Lib LuaNet.Lib.Coroutine
open LuaNet.Tls (WaitResult)

inductive Referrer
  | stack
  | user
  | nobody
deriving DecidableEq

/-- What closes its descriptor when it is collected: a socket, or the context of `acceptfd`. -/
structure FdObject where
  fd : Option Nat
  ref : Referrer
deriving DecidableEq

inductive AcceptHandle
  | socket (obj : Nat)
  | fd (n : Nat)
deriving DecidableEq

inductive AcceptErr
  | errno (e : Tls.Errno) (op : String)
  | tls
  | wait (code : Nat)
  | noDeadline
deriving DecidableEq

structure AcceptRet where
  handle : Option AcceptHandle := none
  err : Option AcceptErr := none
  timeout : Bool := false
  ai : Bool := false
deriving DecidableEq

/-- A close(2) finds its descriptor open, or fails with `EBADF`. -/
inductive AcceptEvent
  | accepted (fd : Nat)
  | closed (fd : Nat) (found : Bool)
  | returned (r : AcceptRet)
  | raised
deriving DecidableEq

structure Allocation where
  granted : Bool
  collected : List Nat

/-- `server` is the listening descriptor, `opened` the accepted ones that are open, and `given`
those of them that `acceptfd` has returned. -/
structure AcceptWorld where
  server : Option Nat
  opened : List Nat
  objs : List FdObject
  given : List Nat
  memory : List Allocation
  events : List AcceptEvent

namespace AcceptWorld

def log (w : AcceptWorld) (e : AcceptEvent) : AcceptWorld := { w with events := w.events ++ [e] }

def setObj (w : AcceptWorld) (i : Nat) (o : FdObject) : AcceptWorld :=
  { w with objs := w.objs.set i o }

def closeFd (w : AcceptWorld) (fd : Nat) : AcceptWorld :=
  { w with opened := w.opened.erase fd }.log (.closed fd (decide (fd ∈ w.opened)))

def closeObj (w : AcceptWorld) (ref : Referrer) (i : Nat) : AcceptWorld :=
  match w.objs[i]? with
  | some { fd := some fd, ref := r } =>
    if r = ref then (w.setObj i { fd := none, ref := r }).closeFd fd else w
  | _ => w

def collect (w : AcceptWorld) (is : List Nat) : AcceptWorld := is.foldl (closeObj · .nobody) w

def leaveStack (w : AcceptWorld) : AcceptWorld :=
  { w with objs := w.objs.map fun o => if o.ref = .stack then { o with ref := .nobody } else o }

def freshFd (w : AcceptWorld) (pick : Nat) : Nat :=
  let used := w.server.toList ++ w.opened
  if pick ∈ used then used.foldr max 0 + 1 else pick

end AcceptWorld

/-- The error that is raised is not looked at. -/
abbrev AcceptM := Raising AcceptWorld Unit

def allocate : AcceptM Unit := fun w =>
  match w.memory with
  | [] => (.ok (), w)
  | a :: rest => (if a.granted then .ok () else .error (), { w with memory := rest }.collect a.collected)

def pushObject : AcceptM Nat := fun w =>
  (.ok w.objs.length, { w with objs := w.objs ++ [{ fd := none, ref := .stack }] })

inductive AcceptAnswer
  | made (pick : Nat)
  | failed (e : Tls.Errno)

def acceptEbadf : Tls.Errno := .other 9

def econnaborted : Tls.Errno := .other 103

/-- The static `acceptfd`, with what the caller stores the descriptor in. -/
def acceptInto (store : Nat → AcceptWorld → AcceptWorld) (ans : AcceptAnswer) :
    AcceptM (Except Tls.Errno Nat) := fun w =>
  if w.server.isNone then (.ok (.error acceptEbadf), w)
  else
    match ans with
    | .failed e => (.ok (.error e), w)
    | .made pick =>
      let fd := w.freshFd pick
      (.ok (.ok fd), store fd ({ w with opened := fd :: w.opened }.log (.accepted fd)))

def isAcceptAgain (e : Tls.Errno) : Bool := isAgain e || e = econnaborted

inductive AcceptStep
  | again
  | ret (r : AcceptRet)
deriving DecidableEq

def acceptFailed (e : Tls.Errno) : AcceptM AcceptStep :=
  if isAcceptAgain e then pure .again
  else do
    allocate
    pure (.ret { err := some (.errno e "acceptfd") })

def returnSocket (i : Nat) (ai : Bool) : AcceptM AcceptStep := fun w =>
  (.ok (.ret { handle := some (.socket i), ai := ai }),
    match w.objs[i]? with
    | some o => w.setObj i { o with ref := .user }
    | none => w)

def returnFd (ctx : Option Nat) (fd : Nat) (ai : Bool) : AcceptM AcceptStep := fun w =>
  (.ok (.ret { handle := some (.fd fd), ai := ai }),
    match ctx with
    | some i => { w.setObj i { fd := none, ref := .stack } with given := fd :: w.given }
    | none => w)

inductive ServerKind
  | plain
  | tls

structure AcceptTurn where
  ans : AcceptAnswer
  /-- whether `accept` of the TLS server makes a context -/
  tls : Bool
  expired : Bool
  wait : WaitResult

def newConnection (kind : ServerKind) (i : Nat) (tls : Bool) : AcceptM (Option AcceptErr) :=
  match kind with
  | .plain => do
    allocate
    pure none
  | .tls => do
    allocate
    if tls then do
      allocate
      pure none
    else do
      Raising.update (·.closeObj .stack i)
      pure (some .tls)

def accepted (withAi : Bool) (i : Nat) : Option AcceptErr → AcceptM AcceptStep
  | some err => pure (.ret { err := some err })
  | none => returnSocket i withAi

def acceptTurn (kind : ServerKind) (withAi : Bool) (t : AcceptTurn) : AcceptM AcceptStep := do
  allocate
  let i ← pushObject
  match ← acceptInto (fun fd w => w.setObj i { fd := some fd, ref := .stack }) t.ans with
  | .error e => acceptFailed e
  | .ok _ => do
    if withAi then allocate else pure ()
    let err ← newConnection kind i t.tls
    accepted withAi i err

/-- A turn of `Server:acceptfd` up to its wait. Without an address nothing is allocated behind
accept(2), and no context is needed. -/
def acceptfdTurn (withAi : Bool) (t : AcceptTurn) : AcceptM AcceptStep :=
  if withAi then do
    allocate
    let i ← pushObject
    match ← acceptInto (fun fd w => w.setObj i { fd := some fd, ref := .stack }) t.ans with
    | .error e => acceptFailed e
    | .ok fd => do
      allocate
      returnFd (some i) fd true
  else do
    match ← acceptInto (fun fd w => { w with given := fd :: w.given }) t.ans with
    | .error e => acceptFailed e
    | .ok fd => returnFd none fd false

abbrev ServerCoroutine := Coroutine AcceptWorld Empty

def acceptEnd : Except Unit AcceptStep × AcceptWorld → AcceptWorld
  | (.error _, w) => w.leaveStack.log .raised
  | (.ok (.ret r), w) => w.leaveStack.log (.returned r)
  | (.ok .again, w) => w.leaveStack

def acceptAct (m : AcceptM AcceptStep) : ServerCoroutine (Option AcceptStep) :=
  atomic fun w => (acceptEnd (m w), [], (m w).1.toOption)

def acceptReturn (r : AcceptRet) : ServerCoroutine Unit := do
  let _ ← acceptAct (pure (.ret r))

def acceptLoop (turn : AcceptTurn → AcceptM AcceptStep) (deadline : Bool) :
    List AcceptTurn → ServerCoroutine Unit
  | [] => .idle
  | t :: ts => do
    match ← acceptAct (turn t) with
    | none | some (.ret _) => pure ()
    | some .again =>
      if deadline && t.expired then acceptReturn { timeout := true }
      else do
        yield
        match t.wait with
        | .timeout =>
          acceptReturn (if deadline then { timeout := true } else { err := some .noDeadline })
        | .failed code => acceptReturn { err := some (.wait code) }
        | .ready => acceptLoop turn deadline ts

inductive SecArg
  | omitted
  | finite
  | other

def acceptCall (turn : AcceptTurn → AcceptM AcceptStep) (sec : SecArg) (ts : List AcceptTurn) :
    ServerCoroutine Unit :=
  match sec with
  | .omitted => acceptLoop turn false ts
  | .finite => acceptLoop turn true ts
  | .other => do
    let _ ← acceptAct (Raising.raise ())

/-- What is done with a server and with what it has accepted. The descriptor that `acceptfd` has
returned is the user's to close; `collect` is a collection outside of these calls. -/
inductive ServerCall
  | accept (withAi : Bool) (sec : SecArg) (turns : List AcceptTurn)
  | acceptfd (withAi : Bool) (sec : SecArg) (turns : List AcceptTurn)
  | closeServer
  | closeSocket (i : Nat)
  | dropSocket (i : Nat)
  | closeGiven (fd : Nat)
  | collect (is : List Nat)

namespace AcceptWorld

def closeSocket (w : AcceptWorld) (i : Nat) : AcceptWorld :=
  match w.objs[i]? with
  | some { fd := some fd, ref := .user } => (w.setObj i { fd := none, ref := .nobody }).closeFd fd
  | _ => w

def dropSocket (w : AcceptWorld) (i : Nat) : AcceptWorld :=
  match w.objs[i]? with
  | some { fd := fd, ref := .user } => w.setObj i { fd := fd, ref := .nobody }
  | _ => w

def closeGiven (w : AcceptWorld) (fd : Nat) : AcceptWorld :=
  if fd ∈ w.given then { w with given := w.given.erase fd }.closeFd fd else w

end AcceptWorld

def acceptUpdate (f : AcceptWorld → AcceptWorld) : ServerCoroutine Unit :=
  atomic fun w => (f w, [], ())

def ServerCall.body (kind : ServerKind) : ServerCall → ServerCoroutine Unit
  | .accept withAi sec turns => acceptCall (acceptTurn kind withAi) sec turns
  | .acceptfd withAi sec turns => acceptCall (acceptfdTurn withAi) sec turns
  | .closeServer => acceptUpdate ({ · with server := none })
  | .closeSocket i => acceptUpdate (·.closeSocket i)
  | .dropSocket i => acceptUpdate (·.dropSocket i)
  | .closeGiven fd => acceptUpdate (·.closeGiven fd)
  | .collect is => acceptUpdate (·.collect is)

def serverProgram (kind : ServerKind) : List ServerCall → ServerCoroutine Unit
  | [] => pure ()
  | c :: cs => do
    c.body kind
    yield
    serverProgram kind cs

def listening (server : Nat) (memory : List Allocation) : AcceptWorld where
  server := some server
  opened := []
  objs := []
  given := []
  memory := memory
  events := []

end LuaNet.Socket
