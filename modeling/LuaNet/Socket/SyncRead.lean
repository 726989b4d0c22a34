import LuaNet.Lib.Served
import LuaNet.Socket.Recvmsg
import LuaNet.Socket.SyncWrite

/-! Synchronized reads: `read`, `recv` and `recvfrom` of `socket.c`, the loops of `net.lua` and
`lib/dgram.lua` over them, and `Socket:syncread`, which runs them between `read_lock` and
`read_unlock`. What the kernel hands out goes to the calls in the order in which they get the
lock, each message to one call, and a call that fails or times out has taken none. -/

namespace LuaNet.Socket

open LuaNet.Lib
open LuaNet.Tls (WaitResult)

structure Delivery where
  data : Bytes
  src : Option Addrinfo
deriving DecidableEq

/-- A read(2), recv(2) or recvfrom(2), which asks for the source as well, and its answer. -/
structure RecvCall where
  len : Nat
  flags : Nat
  withSrc : Bool
  ans : RecvResult

def peekFlag (flags : Nat) : Bool := flags &&& msgPeek != 0

/-- What the kernel has handed out and does not hand out again. -/
def RecvCall.taken (socktype : Nat) (c : RecvCall) : Option Delivery :=
  match c.ans with
  | .failed _ => none
  | .received r =>
    if peekFlag c.flags || isEof socktype (r.data.take c.len) then none
    else some { data := r.data.take c.len, src := if c.withSrc then r.name else none }

inductive RecvErr
  | errno (e : Tls.Errno) (op : String)
  | wait (code : Nat)
deriving DecidableEq

structure NativeRecv where
  msg : Option Delivery := none
  err : Option RecvErr := none
  again : Bool := false

def defaultRecvsize : Int := 4096

def nativeRecv (op : String) (socktype : Nat) (withSrc : Bool) (bufsize : Option Int) (flg : Nat)
    (ans : RecvResult) : NativeRecv × List RecvCall :=
  let len := bufsize.getD defaultRecvsize
  if len ≤ 0 then ({ err := some (.errno .einval op) }, [])
  else
    let call : RecvCall := { len := len.toNat, flags := flg, withSrc := withSrc, ans := ans }
    match ans with
    | .failed e =>
      (if isAgain e then { again := true } else { err := some (.errno e op) }, [call])
    | .received r =>
      let data := r.data.take len.toNat
      (if isEof socktype data then {}
        else { msg := some { data := data, src := if withSrc then r.name else none } }, [call])

def readLua (socktype : Nat) (bufsize : Option Int) (ans : RecvResult) :
    Except LuaError NativeRecv × List RecvCall :=
  let r := nativeRecv "read" socktype false bufsize 0 ans
  (.ok r.1, r.2)

def recvLua (socktype : Nat) (bufsize : Option Int) (flags : List FlagArg) (ans : RecvResult) :
    Except LuaError NativeRecv × List RecvCall :=
  match netCheckMsgflags 3 flags with
  | .error e => (.error e, [])
  | .ok flg =>
    let r := nativeRecv "recv" socktype false bufsize flg ans
    (.ok r.1, r.2)

def recvfromLua (socktype : Nat) (bufsize : Option Int) (flags : List FlagArg)
    (ans : RecvResult) : Except LuaError NativeRecv × List RecvCall :=
  match netCheckMsgflags 3 flags with
  | .error e => (.error e, [])
  | .ok flg =>
    let r := nativeRecv "recvfrom" socktype true bufsize flg ans
    (.ok r.1, r.2)

inductive ReadCall
  | read (bufsize : Option Int)
  | recv (bufsize : Option Int) (flags : List FlagArg)
  | recvfrom (bufsize : Option Int) (flags : List FlagArg)

def ReadCall.native (socktype : Nat) :
    ReadCall → RecvResult → Except LuaError NativeRecv × List RecvCall
  | .read bufsize => readLua socktype bufsize
  | .recv bufsize flags => recvLua socktype bufsize flags
  | .recvfrom bufsize flags => recvfromLua socktype bufsize flags

structure ReadRet where
  msg : Option Delivery := none
  err : Option RecvErr := none
  timeout : Bool := false

structure RecvAnswer where
  ans : RecvResult
  expired : Bool

def recvLoop (socktype : Nat) :
    RetryLoop ReadCall (Except LuaError ReadRet) RecvAnswer WaitResult RecvCall where
  attempt c a :=
    let r := c.native socktype a.ans
    match r.1 with
    | .error e => (.returned (.error e), r.2)
    | .ok ret =>
      if !ret.again then (.returned (.ok { msg := ret.msg, err := ret.err }), r.2)
      else if a.expired then (.returned (.ok { timeout := true }), r.2)
      else (.waiting c, r.2)
  resume c
    | .ready => .ready c
    | .failed code => .returned (.ok { err := some (.wait code) })
    | .timeout => .returned (.ok { timeout := true })

structure SyncReadRet where
  msg : Option Delivery := none
  err : Option (SyncErr RecvErr) := none
  timeout : Bool := false

/-- `Socket:syncread`, given what `read_lock` answers and, if that is the lock, what `xpcall` makes of
the wrapped function. -/
def syncread : Except LockFailure (Except LuaError ReadRet) → SyncReadRet × List LockOp
  | .error (.failed code) => ({ err := some (.lock code) }, [.lock])
  | .error .timeout => ({ timeout := true }, [.lock])
  | .ok ran =>
    (match ran with
      | .error e => { err := some (.raised e) }
      | .ok ret => { msg := ret.msg, err := ret.err.map .loop, timeout := ret.timeout },
      [.lock, .unlock])

/-- Calls of `syncread` on one socket, each in a coroutine of its own; `holder` is who has the lock
of `gpoll`. -/
abbrev SyncReads (ι : Type*) := LockState ι ReadCall (Except LuaError ReadRet) LockFailure

variable {ι : Type*} [DecidableEq ι]

def syncreadRun (socktype : Nat) (calls : ι → ReadCall)
    (ls : List (LockLabel ι RecvAnswer WaitResult LockFailure)) :
    SyncReads ι × List (LockEvent ι RecvCall) :=
  (LockState.new : SyncReads ι).run (recvLoop socktype) calls ls

def ReadCall.peeks : ReadCall → Bool
  | .read _ => false
  | .recv _ flags | .recvfrom _ flags =>
    match netCheckMsgflags 3 flags with
    | .ok flg => peekFlag flg
    | .error _ => false

/-- What a call that has left the lock returns, if it has not only peeked at it. -/
def handed (c : ReadCall) : LockPhase ReadCall (Except LuaError ReadRet) LockFailure → Option Delivery
  | .left (.ok ret) => if c.peeks then none else ret.msg
  | _ => none

section Loop

variable {socktype : Nat}

structure Tells (socktype : Nat) (peeks : Bool) (ret : NativeRecv) (cs : List RecvCall) : Prop where
  taken : cs.filterMap (RecvCall.taken socktype) = if peeks then [] else ret.msg.toList
  again : ret.again = true → ret.msg = none
  err : ret.err.isSome = true → ret.msg = none

theorem nativeRecv_tells (op : String) (withSrc : Bool) (bufsize : Option Int) (flg : Nat)
    (ans : RecvResult) :
    Tells socktype (peekFlag flg) (nativeRecv op socktype withSrc bufsize flg ans).1
      (nativeRecv op socktype withSrc bufsize flg ans).2 := by
  have hnothing : ([] : List Delivery) = if peekFlag flg then [] else [] := (ite_self _).symm
  unfold nativeRecv
  dsimp only
  split
  · exact ⟨hnothing, nofun, fun _ => rfl⟩
  cases ans with
  | failed e =>
    dsimp only
    split
    · exact ⟨hnothing, fun _ => rfl, nofun⟩
    · exact ⟨hnothing, nofun, fun _ => rfl⟩
  | received r =>
    dsimp only
    split
    · next heof =>
      refine ⟨?_, nofun, nofun⟩
      have hnone : RecvCall.taken socktype ⟨(bufsize.getD defaultRecvsize).toNat, flg, withSrc,
          .received r⟩ = none := by
        simp only [RecvCall.taken, heof, Bool.or_true, if_true]
      rw [List.filterMap_cons_none hnone]
      exact hnothing
    · next heof =>
      refine ⟨?_, nofun, nofun⟩
      rw [List.filterMap_cons, RecvCall.taken]
      simp only [heof, Bool.or_false]
      cases peekFlag flg <;> rfl

variable (socktype) in
theorem ReadCall.native_tells (c : ReadCall) (ans : RecvResult) :
    (∃ e, c.native socktype ans = (.error e, [])) ∨
      ∃ ret cs, c.native socktype ans = (.ok ret, cs) ∧ Tells socktype c.peeks ret cs := by
  cases c with
  | read bufsize => exact .inr ⟨_, _, rfl, nativeRecv_tells "read" false bufsize 0 ans⟩
  | recv bufsize flags =>
    rw [ReadCall.native, recvLua, ReadCall.peeks]
    cases netCheckMsgflags 3 flags with
    | error e => exact .inl ⟨e, rfl⟩
    | ok flg => exact .inr ⟨_, _, rfl, nativeRecv_tells "recv" false bufsize flg ans⟩
  | recvfrom bufsize flags =>
    rw [ReadCall.native, recvfromLua, ReadCall.peeks]
    cases netCheckMsgflags 3 flags with
    | error e => exact .inl ⟨e, rfl⟩
    | ok flg => exact .inr ⟨_, _, rfl, nativeRecv_tells "recvfrom" true bufsize flg ans⟩

def RecvInv (socktype : Nat) (c : ReadCall) (p : LoopPhase ReadCall (Except LuaError ReadRet))
    (cs : List RecvCall) : Prop :=
  match p with
  | .ready c' | .waiting c' => c' = c ∧ cs.filterMap (RecvCall.taken socktype) = []
  | .returned (.error _) => cs.filterMap (RecvCall.taken socktype) = []
  | .returned (.ok ret) =>
    cs.filterMap (RecvCall.taken socktype) = (if c.peeks then [] else ret.msg.toList) ∧
      (ret.timeout = true ∨ ret.err.isSome = true → ret.msg = none)

theorem recvLoop_attempt (c : ReadCall) (a : RecvAnswer) (cs : List RecvCall)
    (h : cs.filterMap (RecvCall.taken socktype) = []) :
    RecvInv socktype c ((recvLoop socktype).attempt c a).1
      (cs ++ ((recvLoop socktype).attempt c a).2) := by
  have happend (ds : List RecvCall) : (cs ++ ds).filterMap (RecvCall.taken socktype) =
      ds.filterMap (RecvCall.taken socktype) := by
    rw [List.filterMap_append, h, List.nil_append]
  unfold recvLoop
  dsimp only
  obtain ⟨e, hnative⟩ | ⟨ret, ds, hnative, htells⟩ := ReadCall.native_tells socktype c a.ans
  · rw [hnative]
    exact happend []
  rw [hnative]
  dsimp only
  cases hagain : ret.again with
  | false =>
    simp only [Bool.not_false, if_true]
    refine ⟨(happend ds).trans htells.taken, ?_⟩
    rintro (htimeout | herr)
    · cases htimeout
    · exact htells.err herr
  | true =>
    have hnone : ds.filterMap (RecvCall.taken socktype) = [] := by
      rw [htells.taken, htells.again hagain]
      cases c.peeks <;> rfl
    simp only [Bool.not_true, Bool.false_eq_true, if_false]
    cases a.expired with
    | true =>
      refine ⟨(happend ds).trans (hnone.trans ?_), fun _ => rfl⟩
      cases c.peeks <;> rfl
    | false => exact ⟨rfl, (happend ds).trans hnone⟩

variable (socktype) in
theorem recvLoop_run (c : ReadCall) (ts : List (LoopTurn RecvAnswer WaitResult)) :
    RecvInv socktype c ((recvLoop socktype).run (.ready c) ts).1
      ((recvLoop socktype).run (.ready c) ts).2 := by
  apply RetryLoop.run_history (I := RecvInv socktype c)
  · rintro s a cs ⟨rfl, h⟩
    exact recvLoop_attempt s a cs h
  · rintro s w cs ⟨rfl, h⟩
    cases w with
    | ready => exact ⟨rfl, h⟩
    | failed code =>
      refine ⟨h.trans ?_, fun _ => rfl⟩
      cases s.peeks <;> rfl
    | timeout =>
      refine ⟨h.trans ?_, fun _ => rfl⟩
      cases s.peeks <;> rfl
  · exact ⟨rfl, rfl⟩

variable (socktype) in
theorem recvLoop_expired (c : ReadCall) (ans : RecvResult) :
    ∃ r, ((recvLoop socktype).attempt c { ans := ans, expired := true }).1 = .returned r := by
  simp only [recvLoop]
  split
  · exact ⟨_, rfl⟩
  · split <;> exact ⟨_, rfl⟩

theorem handed_of_ran {c : ReadCall}
    {p : LockPhase ReadCall (Except LuaError ReadRet) LockFailure} {cs : List RecvCall}
    (h : p.Ran (recvLoop socktype) c cs) (hinside : ∀ q, p = .inside q → ∀ r, q ≠ .returned r) :
    cs.filterMap (RecvCall.taken socktype) = (handed c p).toList := by
  match p with
  | .inside q =>
    obtain ⟨ts, hrun⟩ := h
    have hinv := recvLoop_run socktype c ts
    rw [hrun] at hinv
    match q with
    | .ready c' => exact hinv.2
    | .waiting c' => exact hinv.2
    | .returned r => exact absurd rfl (hinside _ rfl r)
  | .left r =>
    obtain ⟨ts, hrun⟩ := h
    have hinv := recvLoop_run socktype c ts
    rw [hrun] at hinv
    match r with
    | .error e => exact hinv
    | .ok ret =>
      refine hinv.1.trans ?_
      rw [handed]
      cases c.peeks <;> rfl
  | .idle => rw [show cs = [] from h]; rfl
  | .queued => rw [show cs = [] from h]; rfl
  | .refused f => rw [show cs = [] from h]; rfl

end Loop

/-- In every interleaving of synchronized reads, what the kernel hands out is what the calls
return, message by message, in the order in which they get the lock. A call that fails or times
out has taken nothing, what one call does is contiguous, and whoever waits can get the lock. -/
theorem syncReads_partition (socktype : Nat) (calls : ι → ReadCall)
    (ls : List (LockLabel ι RecvAnswer WaitResult LockFailure)) :
    let r := syncreadRun socktype calls ls
    ((shown r.2).filterMap (RecvCall.taken socktype) =
        (grants r.2).filterMap fun i => handed (calls i) (r.1.phase i)) ∧
      (grants r.2).Nodup ∧ (∀ i, i ∈ grants r.2 ↔ (r.1.phase i).hasLocked = true) ∧
      (∀ i ret, r.1.phase i = .left (.ok ret) → ret.timeout = true ∨ ret.err.isSome = true →
        ret.msg = none) ∧
      (∀ i, Contiguous i r.2) ∧
      ∀ i, r.1.phase i = .queued →
        ∃ ls', (r.1.run (recvLoop socktype) calls ls').1.holder = some i := by
  intro r
  obtain ⟨hinv, hserved⟩ : LockInv (recvLoop socktype) calls r.1 r.2 ∧ Served r.1 r.2 :=
    lockRuns_served (recvLoop socktype) calls ls
  refine ⟨?_, hserved.nodup, hserved.granted, fun i ret hi => ?_,
    fun i => (hinv.calls i).contiguous, fun i hi => ?_⟩
  · have heach : ∀ i ∈ grants r.2, (shownBy i r.2).filterMap (RecvCall.taken socktype) =
        (handed (calls i) (r.1.phase i)).toList := fun i _ =>
      handed_of_ran (hinv.calls i).ran fun q hq => (hinv.inside i q hq).2
    rw [hserved.order, List.filterMap_flatMap, List.flatMap_congr heach,
      ← List.filterMap_eq_flatMap_toList]
  · obtain ⟨ts, hrun⟩ : LockPhase.Ran (recvLoop socktype) (calls i) (shownBy i r.2)
        (.left (.ok ret)) := hi ▸ (hinv.calls i).ran
    have hloop := recvLoop_run socktype (calls i) ts
    rw [hrun] at hloop
    exact hloop.2
  · refine hinv.served (fun c => ?_) (fun c => ⟨.timeout, _, rfl⟩) hi
    obtain ⟨v, hv⟩ := recvLoop_expired socktype c (.failed .eagain)
    exact ⟨_, v, hv⟩

theorem syncread_unlocks (socktype : Nat) (calls : ι → ReadCall)
    (ls : List (LockLabel ι RecvAnswer WaitResult LockFailure)) (i : ι)
    {a : Except LockFailure (Except LuaError ReadRet)}
    (ha : ((syncreadRun socktype calls ls).1.phase i).answer = some a) :
    (syncreadRun socktype calls ls).2.countP (LockEvent.isGranted i) =
        (syncread a).2.count .unlock ∧
      (syncreadRun socktype calls ls).2.countP (LockEvent.isReleased i) =
        (syncread a).2.count .unlock := by
  have hinv := lockRuns_inv (φ := LockFailure) (recvLoop socktype) calls ls
  have hunlocks : (syncread a).2.count .unlock = a.isOk.toNat := by
    match a with
    | .error (.failed code) => rfl
    | .error .timeout => rfl
    | .ok ran => rfl
  rw [hunlocks]
  exact (hinv.calls i).answered ha

theorem syncread_msg (a : Except LockFailure (Except LuaError ReadRet)) (d : Delivery) :
    (syncread a).1.msg = some d ↔ ∃ ret, a = .ok (.ok ret) ∧ ret.msg = some d := by
  match a with
  | .error (.failed code) => simp [syncread]
  | .error .timeout => simp [syncread]
  | .ok (.error e) => simp [syncread]
  | .ok (.ok ret) => simp [syncread]

end LuaNet.Socket
