import LuaNet.Lib.Exclusive
import LuaNet.Socket.Sendmsg

/-! Synchronized writes: `Socket:syncwrite` runs a write loop between `write_lock` and
`write_unlock` of `gpoll`, whose lock is assumed to have one holder at a time. Here are the loop of
`Socket:sendfile` over the native `sendfile` of Linux, and the four loops as one. -/

namespace LuaNet.Socket

open LuaNet.Lib
open LuaNet.Tls (SendResult WaitResult)

structure FileCall where
  fd : Int
  size : Int
  offset : Int
  ans : SendResult
deriving DecidableEq

def netOffMax : Int := 2 ^ 63 - 1

def checkSendfileArgs (fd size off : Int) : Bool :=
  !(fd < 0 || fd > maxInt || size ≤ 0 || off < 0 || off > netOffMax)

def sendfileLua (fd size offset : Int) (ans : SendResult) : NativeSend × List FileCall :=
  if !checkSendfileArgs fd size offset then ({ err := some (.errno .einval "sendfile") }, [])
  else
    let call : FileCall := { fd := fd, size := size, offset := offset, ans := ans }
    match ans with
    | .accepted n =>
      let rv := min n size.toNat
      if rv = 0 then ({ len := some 0 }, [call])
      else if sizeSub size.toNat rv ≠ 0 then ({ len := some rv, again := true }, [call])
      else ({ len := some rv }, [call])
    | .failed e =>
      (if e = .eagain || e = .eintr then { len := some 0, again := true }
        else { err := some (.errno e "sendfile") }, [call])

structure SendfileLoop where
  bytes : Int
  offset : Int
  sent : Nat

/-- The loop of `Socket:sendfile`. The rest of the range is worked out before the wait, which does
not see it. -/
def sendfileLoop (fd : Int) :
    RetryLoop SendfileLoop (Except LuaError SendRet) SendAnswer WaitResult FileCall where
  attempt s a :=
    let r := sendfileLua fd s.bytes s.offset a.ans
    match r.1.len with
    | none => (.returned (.ok { sent := s.sent, err := r.1.err }), r.2)
    | some len =>
      if !r.1.again then (.returned (.ok { sent := s.sent + len, err := r.1.err }), r.2)
      else if a.expired then (.returned (.ok { sent := s.sent + len, timeout := true }), r.2)
      else
        (.waiting { bytes := s.bytes - len, offset := s.offset + len, sent := s.sent + len }, r.2)
  resume s w :=
    match waitFailure s.sent w with
    | none => .ready s
    | some ret => .returned (.ok ret)

inductive SyncCall
  | write (str : SizedBytes)
  | send (str : SizedBytes) (flags : List FlagArg)
  | sendmsg (msg : Option SizedBytes) (addr : Option Addrinfo) (cmsg : Option (List CmsgArg))
      (flags : List FlagArg)
  | sendfile (fd bytes : Int) (offset : Option Int)

inductive SyncState
  | write (s : SendLoop)
  | send (flags : List FlagArg) (s : SendLoop)
  | sendmsg (addr : Option Addrinfo) (flags : List FlagArg) (s : SendmsgLoop)
  | sendfile (fd : Int) (s : SendfileLoop)

inductive SyncEvent
  | send (c : SendCall)
  | file (c : FileCall)
deriving DecidableEq

def SyncCall.start : SyncCall → SyncState
  | .write str => .write { str := str, sent := 0 }
  | .send str flags => .send flags { str := str, sent := 0 }
  | .sendmsg msg addr cmsg flags => .sendmsg addr flags { msg := msg, cmsg := cmsg, sent := 0 }
  | .sendfile fd bytes offset =>
    .sendfile fd { bytes := bytes, offset := offset.getD 0, sent := 0 }

def syncLoop (room : Nat) :
    RetryLoop SyncState (Except LuaError SendRet) SendAnswer WaitResult SyncEvent where
  attempt
    | .write s, a =>
      let r := (sendLoop writeLua).attempt s a
      (r.1.map .write, r.2.map .send)
    | .send flags s, a =>
      let r := (sendLoop fun str => sendLua str flags).attempt s a
      (r.1.map (.send flags), r.2.map .send)
    | .sendmsg addr flags s, a =>
      let r := (sendmsgLoop room addr flags).attempt s a
      (r.1.map (.sendmsg addr flags), r.2.map .send)
    | .sendfile fd s, a =>
      let r := (sendfileLoop fd).attempt s a
      (r.1.map (.sendfile fd), r.2.map .file)
  resume
    | .write s, w => ((sendLoop writeLua).resume s w).map .write
    | .send flags s, w => ((sendLoop fun str => sendLua str flags).resume s w).map (.send flags)
    | .sendmsg addr flags s, w =>
      ((sendmsgLoop room addr flags).resume s w).map (.sendmsg addr flags)
    | .sendfile fd s, w => ((sendfileLoop fd).resume s w).map (.sendfile fd)

inductive LockFailure
  | failed (code : Nat)
  | timeout
deriving DecidableEq

inductive LockOp
  | lock
  | unlock
deriving DecidableEq

/-- What a synchronized call fails with: an error of its loop or of the lock, or what `traceback`
makes of one that was raised. -/
inductive SyncErr (ε : Type)
  | loop (e : ε)
  | lock (code : Nat)
  | raised (e : LuaError)

structure SyncSendRet where
  len : Option Nat := none
  err : Option (SyncErr SendErr) := none
  timeout : Bool := false

/-- `Socket:syncwrite`, given what `write_lock` answers and, if that is the lock, what `xpcall` makes
of the wrapped function. -/
def syncwrite : Except LockFailure (Except LuaError SendRet) → SyncSendRet × List LockOp
  | .error (.failed code) => ({ err := some (.lock code) }, [.lock])
  | .error .timeout => ({ timeout := true }, [.lock])
  | .ok ran =>
    -- it unlocks also when the function has raised an error
    (match ran with
      | .error e => { err := some (.raised e) }
      | .ok ret => { len := some ret.sent, err := ret.err.map .loop, timeout := ret.timeout },
      [.lock, .unlock])

/-- Calls of `syncwrite` on one socket, each in a coroutine of its own. Its `refused` and `left` are
the two answers that `syncwrite` goes on from; `holder` is who has the lock of `gpoll`. -/
abbrev SyncWorld (ι : Type*) := LockState ι SyncState (Except LuaError SendRet) LockFailure

abbrev SyncLabel (ι : Type*) := LockLabel ι SendAnswer WaitResult LockFailure

variable {ι : Type*} [DecidableEq ι]

def syncwriteRun (room : Nat) (calls : ι → SyncCall) (ls : List (SyncLabel ι)) :
    SyncWorld ι × List (LockEvent ι SyncEvent) :=
  (LockState.new : SyncWorld ι).run (syncLoop room) (fun i => (calls i).start) ls

/-! Alone in the lock a call does what its loop does. -/

theorem syncLoop_write (room : Nat) (p : LoopPhase SendLoop (Except LuaError SendRet))
    (ts : List (LoopTurn SendAnswer WaitResult)) :
    (syncLoop room).run (p.map .write) ts =
      (((sendLoop writeLua).run p ts).1.map .write, ((sendLoop writeLua).run p ts).2.map .send) :=
  RetryLoop.run_map _ (fun _ _ => rfl) (fun _ _ => rfl) p ts

theorem syncLoop_send (room : Nat) (flags : List FlagArg)
    (p : LoopPhase SendLoop (Except LuaError SendRet))
    (ts : List (LoopTurn SendAnswer WaitResult)) :
    (syncLoop room).run (p.map (.send flags)) ts =
      (((sendLoop fun str => sendLua str flags).run p ts).1.map (.send flags),
        ((sendLoop fun str => sendLua str flags).run p ts).2.map .send) :=
  RetryLoop.run_map _ (fun _ _ => rfl) (fun _ _ => rfl) p ts

theorem syncLoop_sendmsg (room : Nat) (addr : Option Addrinfo) (flags : List FlagArg)
    (p : LoopPhase SendmsgLoop (Except LuaError SendRet))
    (ts : List (LoopTurn SendAnswer WaitResult)) :
    (syncLoop room).run (p.map (.sendmsg addr flags)) ts =
      (((sendmsgLoop room addr flags).run p ts).1.map (.sendmsg addr flags),
        ((sendmsgLoop room addr flags).run p ts).2.map .send) :=
  RetryLoop.run_map _ (fun _ _ => rfl) (fun _ _ => rfl) p ts

theorem syncLoop_sendfile (room : Nat) (fd : Int)
    (p : LoopPhase SendfileLoop (Except LuaError SendRet))
    (ts : List (LoopTurn SendAnswer WaitResult)) :
    (syncLoop room).run (p.map (.sendfile fd)) ts =
      (((sendfileLoop fd).run p ts).1.map (.sendfile fd),
        ((sendfileLoop fd).run p ts).2.map .file) :=
  RetryLoop.run_map _ (fun _ _ => rfl) (fun _ _ => rfl) p ts

/-! With the deadline done, an attempt is the last one. -/

theorem sendLoop_expired
    (native : SizedBytes → SendResult → Except LuaError NativeSend × List SendCall)
    (s : SendLoop) (ans : SendResult) :
    ∃ r, ((sendLoop native).attempt s { ans := ans, expired := true }).1 = .returned r := by
  simp only [sendLoop]
  split
  · exact ⟨_, rfl⟩
  · split
    · exact ⟨_, rfl⟩
    · split <;> exact ⟨_, rfl⟩

theorem sendmsgLoop_expired (room : Nat) (addr : Option Addrinfo) (flags : List FlagArg)
    (s : SendmsgLoop) (ans : SendResult) :
    ∃ r, ((sendmsgLoop room addr flags).attempt s { ans := ans, expired := true }).1 =
      .returned r := by
  simp only [sendmsgLoop]
  split
  · exact ⟨_, rfl⟩
  · split
    · exact ⟨_, rfl⟩
    · split <;> exact ⟨_, rfl⟩

theorem sendfileLoop_expired (fd : Int) (s : SendfileLoop) (ans : SendResult) :
    ∃ r, ((sendfileLoop fd).attempt s { ans := ans, expired := true }).1 = .returned r := by
  simp only [sendfileLoop]
  split
  · exact ⟨_, rfl⟩
  · split <;> exact ⟨_, rfl⟩

theorem syncLoop_expired (room : Nat) (x : SyncState) (ans : SendResult) :
    ∃ r, ((syncLoop room).attempt x { ans := ans, expired := true }).1 = .returned r := by
  have hmap {σ : Type} {p : LoopPhase σ (Except LuaError SendRet)} (f : σ → SyncState)
      (h : ∃ r, p = .returned r) : ∃ r, p.map f = .returned r := by
    obtain ⟨r, rfl⟩ := h
    exact ⟨r, rfl⟩
  cases x with
  | write s => exact hmap _ (sendLoop_expired _ s ans)
  | send flags s => exact hmap _ (sendLoop_expired _ s ans)
  | sendmsg addr flags s => exact hmap _ (sendmsgLoop_expired room addr flags s ans)
  | sendfile fd s => exact hmap _ (sendfileLoop_expired fd s ans)

theorem syncLoop_timeout (room : Nat) (x : SyncState) :
    ∃ r, (syncLoop room).resume x .timeout = .returned r := by
  cases x <;> exact ⟨_, rfl⟩

/-- In every interleaving what one call does is contiguous, it gets the lock once and releases it
once, when it leaves, and whoever waits for the lock can get it, or fails on its own. -/
theorem syncWrites_exclusive (room : Nat) (calls : ι → SyncCall) (ls : List (SyncLabel ι)) :
    let r := syncwriteRun room calls ls
    (∀ i, Contiguous i r.2 ∧
      r.2.countP (LockEvent.isGranted i) = (r.1.phase i).hasLocked.toNat ∧
      r.2.countP (LockEvent.isReleased i) = (r.1.phase i).hasLeft.toNat) ∧
    (∀ i, r.1.holder = some i ↔ ∃ p, r.1.phase i = .inside p) ∧
    ∀ i, r.1.phase i = .queued →
      (∀ lab, (r.1.step (syncLoop room) (fun i => (calls i).start) lab).1.phase i = .queued ∨
        lab = .grant i ∨ ∃ f, lab = .refuse i f) ∧
      ∃ ls', (r.1.run (syncLoop room) (fun i => (calls i).start) ls').1.holder = some i := by
  have hinv := lockRuns_inv (φ := LockFailure) (syncLoop room) (fun i => (calls i).start) ls
  refine ⟨fun i => ⟨(hinv.calls i).contiguous, (hinv.calls i).counts⟩, fun i =>
    ⟨hinv.holder i, fun ⟨p, hp⟩ => (hinv.inside i p hp).1⟩, fun i hi => ⟨?_, ?_⟩⟩
  · exact LockState.queued_step _ _ hi
  · refine hinv.served (fun x => ?_) (fun x => ⟨.timeout, syncLoop_timeout room x⟩) hi
    obtain ⟨r, hr⟩ := syncLoop_expired room x (.accepted 0)
    exact ⟨_, r, hr⟩

theorem syncwrite_unlocks (room : Nat) (calls : ι → SyncCall) (ls : List (SyncLabel ι)) (i : ι)
    {a : Except LockFailure (Except LuaError SendRet)}
    (ha : ((syncwriteRun room calls ls).1.phase i).answer = some a) :
    (syncwriteRun room calls ls).2.countP (LockEvent.isGranted i) =
        (syncwrite a).2.count .unlock ∧
      (syncwriteRun room calls ls).2.countP (LockEvent.isReleased i) =
        (syncwrite a).2.count .unlock := by
  have hinv := lockRuns_inv (φ := LockFailure) (syncLoop room) (fun i => (calls i).start) ls
  have hunlocks : (syncwrite a).2.count .unlock = a.isOk.toNat := by
    match a with
    | .error (.failed code) => rfl
    | .error .timeout => rfl
    | .ok ran => rfl
  rw [hunlocks]
  exact (hinv.calls i).answered ha

end LuaNet.Socket
