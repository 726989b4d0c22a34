import LuaNet.Connect.InetConnect
import LuaNet.Lib.History
import LuaNet.Tls.SocketLoops

/-! The loops of `lib/tls.lua` with their deadlines: a call makes one when it starts, and the helpers
are handed it. Without the deadlines they are the loops of `SocketLoops`. -/

namespace LuaNet.Tls

open LuaNet.Lib LuaNet.Lib.Traced
open LuaNet.Connect (DeadlineLib)

inductive LoopTurn
  | native
  | drain
  | fill
deriving DecidableEq

/-- A deadline that is made, a deadline that is asked whether it is done and how much time is left,
the start of a turn of a loop, and a wait for at most so long. -/
inductive DeadlineEvent (τ D : Type)
  | made (d : D)
  | consulted (d : D) (done : Bool) (sec : τ)
  | turn (k : LoopTurn)
  | wait (sec : τ)

structure TimedDrain (T : Type) where
  doneAt : T
  sends : List SendResult
  expiredAt : T
  wait : WaitResult

structure TimedFill (T : Type) where
  doneAt : T
  reads : List ReadResult
  expiredAt : T
  wait : WaitResult

structure TimedHandshake (T : Type) where
  io : List SslIo
  ans : SslHandshake
  drain : List (TimedDrain T)
  fill : List (TimedFill T)

structure TimedRead (T : Type) where
  doneAt : T
  io : List SslIo
  ans : SslRead
  drain : List (TimedDrain T)
  fill : List (TimedFill T)

structure TimedWrite (T : Type) where
  doneAt : T
  io : List SslIo
  ans : SslWrite
  drain : List (TimedDrain T)
  fill : List (TimedFill T)

structure TimedShutdown (T : Type) where
  io : List SslIo
  ans : SslShutdown
  drain : List (TimedDrain T)
  fill : List (TimedFill T)

structure Timeouts (τ : Type) where
  rcvdeadl : Option τ
  snddeadl : Option τ

/-- A saved timeout of 0 or less means that there is none, and the default is taken. -/
def savedTimeout {τ : Type} [LE τ] [DecidableLE τ] [OfNat τ 0] (default : τ) : Option τ → τ
  | none => default
  | some sec => if sec ≤ 0 then default else sec

abbrev TimedLoop (τ D α : Type) := Traced TlsSocket (DeadlineEvent τ D) α

namespace Timed

variable {τ D T : Type}

section Loops

variable (lib : DeadlineLib τ D T)

def isDone (d : D) (now : T) : TimedLoop τ D (Bool × τ) := do
  emit (.consulted d (lib.isDone d now).1 (lib.isDone d now).2)
  pure (lib.isDone d now)

def wait (sec : τ) (w : WaitResult) : TimedLoop τ D (Option IoOutcome) := do
  emit (.wait sec)
  pure w.failure

def turn {α : Type} (k : LoopTurn) (m : Loop α) : TimedLoop τ D α := do
  emit (.turn k)
  quiet m

def drainAll (d : D) : List (TimedDrain T) → TimedLoop τ D IoOutcome
  | [] => waiting
  | t :: ts => do
    let (done, _) ← isDone lib d t.doneAt
    if done then pure expiredOutcome
    else do
      let ret ← turn .drain (Loops.callDrain t.sends)
      if ret.n.isSome && !ret.again then pure { ok := true }
      else if ret.n.isNone && !ret.again then pure { ok := false, err := ret.err.map .bio }
      else do
        let (done, sec) ← isDone lib d t.expiredAt
        if done then pure expiredOutcome
        else do
          match ← wait sec t.wait with
          | some out => pure out
          | none => drainAll d ts

def bioDrain (d : D) (ts : List (TimedDrain T)) : TimedLoop τ D IoOutcome := do
  let s ← state
  if s.bio.isNone then pure { ok := true } else drainAll lib d ts

def fillAll (d : D) : List (TimedFill T) → TimedLoop τ D IoOutcome
  | [] => waiting
  | t :: ts => do
    let (done, _) ← isDone lib d t.doneAt
    if done then pure expiredOutcome
    else do
      let ret ← turn .fill (Loops.callFill t.reads)
      if ret.n.isSome then pure { ok := true, eof := ret.eof }
      else if !ret.again then pure { ok := false, err := ret.err.map .bio, eof := ret.eof }
      else do
        let (done, sec) ← isDone lib d t.expiredAt
        if done then pure expiredOutcome
        else do
          match ← wait sec t.wait with
          | some out => pure out
          | none => fillAll d ts

def bioFill (d : D) (ts : List (TimedFill T)) : TimedLoop τ D IoOutcome := do
  let s ← state
  if s.bio.isNone then pure { ok := true } else fillAll lib d ts

def pollWait (d : D) (want : Int) (drain : List (TimedDrain T)) (fill : List (TimedFill T)) :
    TimedLoop τ D IoOutcome :=
  if want = wantRead then do
    let out ← bioDrain lib d drain
    if !out.ok then pure { ok := false, err := out.err, timeout := out.timeout }
    else bioFill lib d fill
  else if want = wantWrite then bioDrain lib d drain
  else pure { ok := false, err := some (.einval "unknown want type") }

def finishHandshake (d : D) (drain : List (TimedDrain T)) : TimedLoop τ D IoOutcome := do
  let out ← bioDrain lib d drain
  update ({ · with handshaked := out.ok })
  pure out

def handshakeAll (d : D) : List (TimedHandshake T) → TimedLoop τ D IoOutcome
  | [] => waiting
  | t :: ts => do
    let r ← turn .native (Loops.native t.io
      (fun s => ((handshakeLua s t.io t.ans).1, (handshakeLua s t.io t.ans).2.2))
      NativeHandshake.want)
    match r.want with
    | none => if !r.ok then pure { ok := false, err := r.err } else finishHandshake lib d t.drain
    | some want => do
      let out ← pollWait lib d want t.drain t.fill
      if !out.ok && !out.eof then pure { ok := false, err := out.err, timeout := out.timeout }
      else handshakeAll d ts

def handshake (d : D) (ts : List (TimedHandshake T)) : TimedLoop τ D IoOutcome := do
  let s ← state
  if s.handshaked then pure { ok := true } else handshakeAll lib d ts

def readAll (d : D) (bufsiz : Int) : List (TimedRead T) → TimedLoop τ D Loops.ReadRet
  | [] => waiting
  | t :: ts => do
    let (done, _) ← isDone lib d t.doneAt
    if done then pure { timeout := true }
    else do
      let r ← turn .native (Loops.native t.io (readLua · bufsiz t.io t.ans) NativeRead.want)
      match r.want with
      | none => pure { msg := r.str, err := r.err }
      | some want => do
        let out ← pollWait lib d want t.drain t.fill
        if !out.ok && !out.eof then pure { err := out.err, timeout := out.timeout }
        else readAll d bufsiz ts

def writeAll (d : D) (str : List Byte) (sent : Nat) : List (TimedWrite T) → TimedLoop τ D WriteRet
  | [] => waiting
  | t :: ts => do
    let (done, _) ← isDone lib d t.doneAt
    if done then pure { sent := sent, timeout := true }
    else do
      let r ← turn .native (Loops.native t.io
        (fun s => ((writeLua s str t.io t.ans).1, (writeLua s str t.io t.ans).2.2))
        NativeWrite.want)
      match r.len with
      | none => pure { sent := sent, err := r.err }
      | some len =>
        match r.want with
        | none => do
          let out ← bioDrain lib d t.drain
          if !out.ok then pure { sent := sent + len, err := out.err, timeout := out.timeout }
          else pure { sent := sent + len }
        | some want => do
          let out ← pollWait lib d want t.drain t.fill
          if !out.ok && !out.eof then
            pure { sent := sent + len, err := out.err, timeout := out.timeout }
          else writeAll d (str.drop len) (sent + len) ts

def shutdownAll (d : D) : List (TimedShutdown T) → TimedLoop τ D IoOutcome
  | [] => waiting
  | t :: ts => do
    let r ← turn .native (Loops.native t.io (shutdownLua · t.io t.ans) NativeHandshake.want)
    match r.want with
    | none => if !r.ok then pure { ok := false, err := r.err } else bioDrain lib d t.drain
    | some want => do
      let out ← pollWait lib d want t.drain t.fill
      if !out.ok && !out.eof then pure { ok := false, err := out.err, timeout := out.timeout }
      else shutdownAll d ts

end Loops

section Calls

variable [LE τ] [DecidableLE τ] [OfNat τ 0] [OfNat τ 330] [OfNat τ 960]
  (lib : DeadlineLib τ D T) (timeo : Timeouts τ)

def newDeadline (sec : τ) (now : T) : TimedLoop τ D D := do
  emit (.made (lib.new sec now))
  pure (lib.new sec now)

def getRecvDeadline (now : T) : TimedLoop τ D D := newDeadline lib (savedTimeout 330 timeo.rcvdeadl) now

def getSendDeadline (now : T) : TimedLoop τ D D := newDeadline lib (savedTimeout 960 timeo.snddeadl) now

def socketHandshake (start : T) (hs : List (TimedHandshake T)) : TimedLoop τ D IoOutcome := do
  let s ← state
  if s.handshaked then pure { ok := true }
  else do
    let d ← getSendDeadline lib timeo start
    handshake lib d hs

def read (start : T) (bufsiz : Int) (hs : List (TimedHandshake T)) (ts : List (TimedRead T)) :
    TimedLoop τ D Loops.ReadRet := do
  let d ← getRecvDeadline lib timeo start
  let out ← handshake lib d hs
  if !out.ok then pure { err := out.err, timeout := out.timeout } else readAll lib d bufsiz ts

def write (start : T) (str : List Byte) (hs : List (TimedHandshake T)) (ts : List (TimedWrite T)) :
    TimedLoop τ D WriteRet := do
  let d ← getSendDeadline lib timeo start
  let out ← handshake lib d hs
  if !out.ok then pure { sent := 0, err := out.err, timeout := out.timeout }
  else writeAll lib d str 0 ts

def tlsShutdown (start : T) (ts : List (TimedShutdown T)) : TimedLoop τ D IoOutcome := do
  let d ← getSendDeadline lib timeo start
  shutdownAll lib d ts

end Calls

/-! Without the deadlines. -/

section Erase

variable (lib : DeadlineLib τ D T) (d : D)

def plainDrain (t : TimedDrain T) : DrainTurn where
  done := (lib.isDone d t.doneAt).1
  sends := t.sends
  expired := (lib.isDone d t.expiredAt).1
  wait := t.wait

def plainFill (t : TimedFill T) : FillTurn where
  done := (lib.isDone d t.doneAt).1
  reads := t.reads
  expired := (lib.isDone d t.expiredAt).1
  wait := t.wait

def plainHandshake (t : TimedHandshake T) : HandshakeTurn where
  io := t.io
  ans := t.ans
  drain := t.drain.map (plainDrain lib d)
  fill := t.fill.map (plainFill lib d)

def plainRead (t : TimedRead T) : Loops.ReadTurn where
  done := (lib.isDone d t.doneAt).1
  io := t.io
  ans := t.ans
  drain := t.drain.map (plainDrain lib d)
  fill := t.fill.map (plainFill lib d)

def plainWrite (t : TimedWrite T) : WriteTurn where
  done := (lib.isDone d t.doneAt).1
  io := t.io
  ans := t.ans
  drain := t.drain.map (plainDrain lib d)
  fill := t.fill.map (plainFill lib d)

def plainShutdown (t : TimedShutdown T) : Loops.ShutdownTurn where
  io := t.io
  ans := t.ans
  drain := t.drain.map (plainDrain lib d)
  fill := t.fill.map (plainFill lib d)

theorem erase_isDone (now : T) (s : TlsSocket) :
    erase (isDone lib d now : TimedLoop τ D _) s = (s, some (lib.isDone d now)) := rfl

theorem erase_wait (sec : τ) (w : WaitResult) (s : TlsSocket) :
    erase (wait sec w : TimedLoop τ D _) s = (s, some w.failure) := rfl

theorem erase_turn {α : Type} (k : LoopTurn) (m : Loop α) (s : TlsSocket) :
    erase (turn k m : TimedLoop τ D α) s = erase m s := rfl

theorem erase_drainAll (ts : List (TimedDrain T)) (s : TlsSocket) :
    erase (drainAll lib d ts) s = erase (Loops.drainAll (ts.map (plainDrain lib d))) s := by
  induction ts generalizing s with
  | nil => rfl
  | cons t ts ih =>
    rw [List.map_cons, drainAll, Loops.drainAll, plainDrain, erase_bind, erase_isDone]
    simp only [erase_ite, erase_pure, erase_bind, erase_turn]
    split
    next => rfl
    cases (erase (Loops.callDrain t.sends) s).2 with
    | none => rfl
    | some ret =>
      simp only [Loops.erase_observe, erase_isDone]
      split
      next => rfl
      split
      next => rfl
      split
      next => rfl
      rw [erase_wait]
      cases t.wait.failure with
      | some out => rfl
      | none => exact ih _

theorem erase_fillAll (ts : List (TimedFill T)) (s : TlsSocket) :
    erase (fillAll lib d ts) s = erase (Loops.fillAll (ts.map (plainFill lib d))) s := by
  induction ts generalizing s with
  | nil => rfl
  | cons t ts ih =>
    rw [List.map_cons, fillAll, Loops.fillAll, plainFill, erase_bind, erase_isDone]
    simp only [erase_ite, erase_pure, erase_bind, erase_turn]
    split
    next => rfl
    cases (erase (Loops.callFill t.reads) s).2 with
    | none => rfl
    | some ret =>
      simp only [Loops.erase_observe, erase_isDone]
      split
      next => rfl
      split
      next => rfl
      split
      next => rfl
      rw [erase_wait]
      cases t.wait.failure with
      | some out => rfl
      | none => exact ih _

theorem erase_bioDrain (ts : List (TimedDrain T)) (s : TlsSocket) :
    erase (bioDrain lib d ts) s = erase (Loops.bioDrain (ts.map (plainDrain lib d))) s := by
  rw [bioDrain, Loops.bioDrain, erase_bind, erase_bind]
  simp only [erase_state, erase_ite, erase_pure, erase_drainAll]

theorem erase_bioFill (ts : List (TimedFill T)) (s : TlsSocket) :
    erase (bioFill lib d ts) s = erase (Loops.bioFill (ts.map (plainFill lib d))) s := by
  rw [bioFill, Loops.bioFill, erase_bind, erase_bind]
  simp only [erase_state, erase_ite, erase_pure, erase_fillAll]

theorem erase_pollWait (want : Int) (drain : List (TimedDrain T)) (fill : List (TimedFill T))
    (s : TlsSocket) :
    erase (pollWait lib d want drain fill) s =
      erase (Loops.pollWait want (drain.map (plainDrain lib d)) (fill.map (plainFill lib d))) s := by
  rw [pollWait, Loops.pollWait]
  simp only [erase_ite, erase_bind, erase_bioDrain, erase_bioFill, erase_pure]

theorem erase_finishHandshake (drain : List (TimedDrain T)) (s : TlsSocket) :
    erase (finishHandshake lib d drain) s =
      erase (Loops.finishHandshake (drain.map (plainDrain lib d))) s := by
  rw [finishHandshake, Loops.finishHandshake, erase_bind, erase_bind, erase_bioDrain]
  cases (erase (Loops.bioDrain (drain.map (plainDrain lib d))) s).2 with
  | none => rfl
  | some out =>
    simp only [erase_bind, erase_update, erase_ite, Loops.erase_observe, erase_pure]
    split <;> rfl

theorem erase_handshakeAll (ts : List (TimedHandshake T)) (s : TlsSocket) :
    erase (handshakeAll lib d ts) s =
      erase (Loops.handshakeAll (ts.map (plainHandshake lib d))) s := by
  induction ts generalizing s with
  | nil => rfl
  | cons t ts ih =>
    rw [List.map_cons, handshakeAll, Loops.handshakeAll, plainHandshake, erase_bind, erase_bind,
      erase_turn, Loops.erase_native]
    dsimp only
    cases (handshakeLua s t.io t.ans).2.2.want with
    | none => simp only [erase_ite, erase_pure, erase_finishHandshake]
    | some want => simp only [erase_bind, erase_pollWait, erase_ite, erase_pure, ih]

theorem erase_handshake (ts : List (TimedHandshake T)) (s : TlsSocket) :
    erase (handshake lib d ts) s =
      erase (Loops.handshake (ts.map (plainHandshake lib d))) s := by
  rw [handshake, Loops.handshake, erase_bind, erase_bind]
  simp only [erase_state, erase_ite, erase_pure, erase_handshakeAll]

theorem erase_readAll (bufsiz : Int) (ts : List (TimedRead T)) (s : TlsSocket) :
    erase (readAll lib d bufsiz ts) s =
      erase (Loops.readAll bufsiz (ts.map (plainRead lib d))) s := by
  induction ts generalizing s with
  | nil => rfl
  | cons t ts ih =>
    rw [List.map_cons, readAll, Loops.readAll, plainRead, erase_bind, erase_isDone]
    simp only [erase_ite, erase_pure, erase_bind, erase_turn, Loops.erase_native]
    split
    next => rfl
    cases (readLua s bufsiz t.io t.ans).2.want with
    | none => rfl
    | some want => simp only [erase_bind, erase_pollWait, erase_ite, erase_pure, ih]

theorem erase_writeAll (str : List Byte) (sent : Nat) (ts : List (TimedWrite T))
    (s : TlsSocket) :
    erase (writeAll lib d str sent ts) s =
      erase (Loops.writeAll str sent (ts.map (plainWrite lib d))) s := by
  induction ts generalizing s str sent with
  | nil => rfl
  | cons t ts ih =>
    rw [List.map_cons, writeAll, Loops.writeAll, plainWrite, erase_bind, erase_isDone]
    simp only [erase_ite, erase_pure, erase_bind, erase_turn, Loops.erase_native]
    split
    next => rfl
    cases (writeLua s str t.io t.ans).2.2.len with
    | none => rfl
    | some len =>
      cases (writeLua s str t.io t.ans).2.2.want with
      | none => simp only [erase_bind, erase_bioDrain, erase_ite, erase_pure]
      | some want => simp only [erase_bind, erase_pollWait, erase_ite, erase_pure, ih]

theorem erase_shutdownAll (ts : List (TimedShutdown T)) (s : TlsSocket) :
    erase (shutdownAll lib d ts) s =
      erase (Loops.tlsShutdown (ts.map (plainShutdown lib d))) s := by
  induction ts generalizing s with
  | nil => rfl
  | cons t ts ih =>
    rw [List.map_cons, shutdownAll, Loops.tlsShutdown, plainShutdown, erase_bind, erase_bind,
      erase_turn, Loops.erase_native]
    dsimp only
    cases (shutdownLua s t.io t.ans).2.want with
    | none => simp only [erase_ite, erase_pure, erase_bioDrain]
    | some want => simp only [erase_bind, erase_pollWait, erase_ite, erase_pure, ih]

theorem erase_socketHandshake [LE τ] [DecidableLE τ] [OfNat τ 0] [OfNat τ 960]
    (timeo : Timeouts τ) (start : T) (hs : List (TimedHandshake T)) (s : TlsSocket) :
    erase (socketHandshake lib timeo start hs) s =
      erase (Loops.handshake (hs.map (plainHandshake lib
        (lib.new (savedTimeout 960 timeo.snddeadl) start)))) s := by
  rw [socketHandshake, Loops.handshake, erase_bind, erase_bind]
  simp only [erase_state, erase_ite, erase_pure]
  split
  next => rfl
  next h =>
    refine (erase_handshake lib _ hs s).trans ?_
    rw [Loops.handshake, erase_bind]
    simp only [erase_state, if_neg h]

theorem erase_read [LE τ] [DecidableLE τ] [OfNat τ 0] [OfNat τ 330] (timeo : Timeouts τ)
    (start : T) (bufsiz : Int) (hs : List (TimedHandshake T)) (ts : List (TimedRead T))
    (s : TlsSocket) :
    erase (read lib timeo start bufsiz hs ts) s =
      erase (Loops.read bufsiz
        (hs.map (plainHandshake lib (lib.new (savedTimeout 330 timeo.rcvdeadl) start)))
        (ts.map (plainRead lib (lib.new (savedTimeout 330 timeo.rcvdeadl) start)))) s := by
  rw [read, Loops.read, getRecvDeadline, newDeadline, erase_bind, erase_bind]
  simp only [erase_bind, erase_emit, erase_pure, erase_handshake, erase_ite, erase_readAll]

theorem erase_write [LE τ] [DecidableLE τ] [OfNat τ 0] [OfNat τ 960] (timeo : Timeouts τ)
    (start : T) (str : List Byte) (hs : List (TimedHandshake T)) (ts : List (TimedWrite T))
    (s : TlsSocket) :
    erase (write lib timeo start str hs ts) s =
      erase (Loops.write str
        (hs.map (plainHandshake lib (lib.new (savedTimeout 960 timeo.snddeadl) start)))
        (ts.map (plainWrite lib (lib.new (savedTimeout 960 timeo.snddeadl) start)))) s := by
  rw [write, Loops.write, getSendDeadline, newDeadline, erase_bind, erase_bind]
  simp only [erase_bind, erase_emit, erase_pure, erase_handshake, erase_ite, erase_writeAll]

theorem erase_tlsShutdown [LE τ] [DecidableLE τ] [OfNat τ 0] [OfNat τ 960] (timeo : Timeouts τ)
    (start : T) (ts : List (TimedShutdown T)) (s : TlsSocket) :
    erase (tlsShutdown lib timeo start ts) s =
      erase (Loops.tlsShutdown
        (ts.map (plainShutdown lib (lib.new (savedTimeout 960 timeo.snddeadl) start)))) s := by
  rw [tlsShutdown, getSendDeadline, newDeadline, erase_bind]
  exact erase_shutdownAll lib _ ts s

end Erase

end Timed

end LuaNet.Tls
