import LuaNet.Lib.Traced
import LuaNet.Tls.SocketIo

/-! The loops of `lib/tls.lua` once more, with what they do on the way: the native calls and what
OpenSSL last read from the receive ring in them, the fills, and the waits. Without these
observations they are the loops of `SocketIo`. -/

namespace LuaNet.Tls

open LuaNet.Lib LuaNet.Lib.Traced

def TlsSocket.pending (s : TlsSocket) : List Byte :=
  match s.bio with
  | some bio => bio.tx.buf.contents
  | none => []

def TlsSocket.txSize (s : TlsSocket) : Nat :=
  match s.bio with
  | some bio => zringDataSize bio.tx.buf
  | none => 0

/-- `native` tells what the last `bio_rx_read` of the call answered and what the call wants,
`fill` has the receive side at the call of `bio:fill()`, and the others the unsent ciphertext. -/
inductive LoopEvent
  | native (last : Option BioRc) (want : Option Int)
  | fill (rx : TlsBioBuf)
  | waitReadable (pending : List Byte)
  | waitWritable (pending : List Byte)
  | drained (pending : List Byte)
  | handshaked (pending : List Byte)

/-- A call of OpenSSL on the BIO, and the answer of its last `bio_rx_read` so far. -/
def sslIoStep (p : TlsBio × Option BioRc) : SslIo → TlsBio × Option BioRc
  | .write buf => ((bioStep p.1 (.txWrite buf)).1, p.2)
  | .read len => ((bioStep p.1 (.rxRead len)).1, some (bioRxRead p.1.rx len).1)

def TlsSocket.lastRead (s : TlsSocket) (io : List SslIo) : Option BioRc :=
  s.bio.bind fun bio => (io.foldl sslIoStep (bio, none)).2

abbrev Loop := Traced TlsSocket LoopEvent

inductive SslRead
  | data (bs : List Byte)
  | want (w : SslWant)
  | closed
  | failed

structure NativeRead where
  str : Option (List Byte) := none
  err : Option TlsErr := none
  want : Option Int := none

def readLua (s : TlsSocket) (bufsiz : Int) (io : List SslIo) (ans : SslRead) :
    TlsSocket × NativeRead :=
  if !s.ssl then (s, { err := some (.einval "read") })
  else if bufsiz ≤ 0 then (s, { err := some (.einval "read") })
  else
    match ans with
    | .data bs => (s.sslIo io, { str := some (bs.take (min bufsiz.toNat intMax)) })
    | .want w => (s.sslIo io, { want := some w.code })
    | .closed => (s.sslIo io, {})
    | .failed => (s.sslIo io, { err := some (.ssl "read.SSL_read") })

inductive SslShutdown
  | done
  | sent
  | want (w : SslWant)
  | failed

def shutdownLua (s : TlsSocket) (io : List SslIo) (ans : SslShutdown) :
    TlsSocket × NativeHandshake :=
  if !s.ssl then (s, { ok := true })
  else if s.handshakeCb then (s, { ok := true })
  else
    match ans with
    | .done => ({ s.sslIo io with ssl := false }, { ok := true })
    | .sent => (s.sslIo io, { want := some wantWrite })
    | .want .write => (s.sslIo io, { want := some wantWrite })
    -- the close_notify of this side goes out before the one of the peer is waited for
    | .want .read =>
      (s.sslIo io, { want := some (if 0 < (s.sslIo io).txSize then wantWrite else wantRead) })
    | .failed => (s.sslIo io, { err := some (.ssl "shutdown.SSL_shutdown") })

namespace Loops

def native {ν : Type} (io : List SslIo) (f : TlsSocket → TlsSocket × ν) (want : ν → Option Int) :
    Loop ν := do
  let s ← state
  emit (.native (s.lastRead io) (want (f s).2))
  update fun s => (f s).1
  pure (f s).2

def callDrain (sends : List SendResult) : Loop IoRet := fun s =>
  match s.bio with
  | none => (s, [], none)
  | some bio => ({ s with bio := some (drainLua bio sends).1 }, [], (drainLua bio sends).2.2)

def callFill (reads : List ReadResult) : Loop IoRet := fun s =>
  match s.bio with
  | none => (s, [], none)
  | some bio =>
    ({ s with bio := some (fillLua bio reads).1 }, [.fill bio.rx], (fillLua bio reads).2.2)

def observe (e : List Byte → LoopEvent) : Loop Unit := do
  let s ← state
  emit (e s.pending)

def drainAll : List DrainTurn → Loop IoOutcome
  | [] => waiting
  | t :: ts =>
    if t.done then pure expiredOutcome
    else do
      let ret ← callDrain t.sends
      if ret.n.isSome && !ret.again then do
        observe .drained
        pure { ok := true }
      else if ret.n.isNone && !ret.again then pure { ok := false, err := ret.err.map .bio }
      else if t.expired then pure expiredOutcome
      else do
        observe .waitWritable
        match t.wait.failure with
        | some out => pure out
        | none => drainAll ts

def bioDrain (ts : List DrainTurn) : Loop IoOutcome := do
  let s ← state
  if s.bio.isNone then pure { ok := true } else drainAll ts

def fillAll : List FillTurn → Loop IoOutcome
  | [] => waiting
  | t :: ts =>
    if t.done then pure expiredOutcome
    else do
      let ret ← callFill t.reads
      if ret.n.isSome then pure { ok := true, eof := ret.eof }
      else if !ret.again then pure { ok := false, err := ret.err.map .bio, eof := ret.eof }
      else if t.expired then pure expiredOutcome
      else do
        observe .waitReadable
        match t.wait.failure with
        | some out => pure out
        | none => fillAll ts

def bioFill (ts : List FillTurn) : Loop IoOutcome := do
  let s ← state
  if s.bio.isNone then pure { ok := true } else fillAll ts

def pollWait (want : Int) (drain : List DrainTurn) (fill : List FillTurn) : Loop IoOutcome :=
  if want = wantRead then do
    let out ← bioDrain drain
    if !out.ok then pure { ok := false, err := out.err, timeout := out.timeout }
    else bioFill fill
  else if want = wantWrite then bioDrain drain
  else pure { ok := false, err := some (.einval "unknown want type") }

def finishHandshake (drain : List DrainTurn) : Loop IoOutcome := do
  let out ← bioDrain drain
  update ({ · with handshaked := out.ok })
  if out.ok then do
    observe .handshaked
    pure out
  else pure out

def handshakeAll : List HandshakeTurn → Loop IoOutcome
  | [] => waiting
  | t :: ts => do
    let r ← native t.io (fun s => ((handshakeLua s t.io t.ans).1, (handshakeLua s t.io t.ans).2.2))
      NativeHandshake.want
    match r.want with
    | none => if !r.ok then pure { ok := false, err := r.err } else finishHandshake t.drain
    | some want => do
      let out ← pollWait want t.drain t.fill
      if !out.ok && !out.eof then pure { ok := false, err := out.err, timeout := out.timeout }
      else handshakeAll ts

def handshake (ts : List HandshakeTurn) : Loop IoOutcome := do
  let s ← state
  if s.handshaked then pure { ok := true } else handshakeAll ts

structure ReadTurn where
  done : Bool
  io : List SslIo
  ans : SslRead
  drain : List DrainTurn
  fill : List FillTurn

structure ReadRet where
  msg : Option (List Byte) := none
  err : Option TlsErr := none
  timeout : Bool := false

def readAll (bufsiz : Int) : List ReadTurn → Loop ReadRet
  | [] => waiting
  | t :: ts =>
    if t.done then pure { timeout := true }
    else do
      let r ← native t.io (readLua · bufsiz t.io t.ans) NativeRead.want
      match r.want with
      | none => pure { msg := r.str, err := r.err }
      | some want => do
        let out ← pollWait want t.drain t.fill
        if !out.ok && !out.eof then pure { err := out.err, timeout := out.timeout }
        else readAll bufsiz ts

def read (bufsiz : Int) (hs : List HandshakeTurn) (ts : List ReadTurn) : Loop ReadRet := do
  let out ← handshake hs
  if !out.ok then pure { err := out.err, timeout := out.timeout } else readAll bufsiz ts

def writeAll (str : List Byte) (sent : Nat) : List WriteTurn → Loop WriteRet
  | [] => waiting
  | t :: ts =>
    if t.done then pure { sent := sent, timeout := true }
    else do
      let r ← native t.io
        (fun s => ((writeLua s str t.io t.ans).1, (writeLua s str t.io t.ans).2.2)) NativeWrite.want
      match r.len with
      | none => pure { sent := sent, err := r.err }
      | some len =>
        match r.want with
        | none => do
          let out ← bioDrain t.drain
          if !out.ok then pure { sent := sent + len, err := out.err, timeout := out.timeout }
          else pure { sent := sent + len }
        | some want => do
          let out ← pollWait want t.drain t.fill
          if !out.ok && !out.eof then
            pure { sent := sent + len, err := out.err, timeout := out.timeout }
          else writeAll (str.drop len) (sent + len) ts

def write (str : List Byte) (hs : List HandshakeTurn) (ts : List WriteTurn) : Loop WriteRet := do
  let out ← handshake hs
  if !out.ok then pure { sent := 0, err := out.err, timeout := out.timeout }
  else writeAll str 0 ts

structure ShutdownTurn where
  io : List SslIo
  ans : SslShutdown
  drain : List DrainTurn
  fill : List FillTurn

def tlsShutdown : List ShutdownTurn → Loop IoOutcome
  | [] => waiting
  | t :: ts => do
    let r ← native t.io (shutdownLua · t.io t.ans) NativeHandshake.want
    match r.want with
    | none => if !r.ok then pure { ok := false, err := r.err } else bioDrain t.drain
    | some want => do
      let out ← pollWait want t.drain t.fill
      if !out.ok && !out.eof then pure { ok := false, err := out.err, timeout := out.timeout }
      else tlsShutdown ts

inductive Call
  | handshake (hs : List HandshakeTurn)
  | read (bufsiz : Int) (hs : List HandshakeTurn) (ts : List ReadTurn)
  | write (str : List Byte) (hs : List HandshakeTurn) (ts : List WriteTurn)
  | shutdown (ts : List ShutdownTurn)

def call : Call → Loop Unit
  | .handshake hs => do
    let _ ← handshake hs
  | .read bufsiz hs ts => do
    let _ ← read bufsiz hs ts
  | .write str hs ts => do
    let _ ← write str hs ts
  | .shutdown ts => do
    let _ ← tlsShutdown ts

/-- One call after the other; one that is left waiting is the last. -/
def run : List Call → Loop Unit
  | [] => pure ()
  | c :: cs => do
    call c
    run cs

section Erase

variable {s : TlsSocket} {bio : TlsBio}

theorem erase_observe (e : List Byte → LoopEvent) : erase (observe e) s = (s, some ()) := rfl

theorem erase_native {ν : Type} (io : List SslIo) (f : TlsSocket → TlsSocket × ν)
    (want : ν → Option Int) : erase (native io f want) s = ((f s).1, some (f s).2) := rfl

theorem erase_callDrain (hbio : s.bio = some bio) (sends : List SendResult) :
    erase (callDrain sends) s =
      ({ s with bio := some (drainLua bio sends).1 }, (drainLua bio sends).2.2) := by
  simp [erase, callDrain, hbio]

theorem erase_callFill (hbio : s.bio = some bio) (reads : List ReadResult) :
    erase (callFill reads) s =
      ({ s with bio := some (fillLua bio reads).1 }, (fillLua bio reads).2.2) := by
  simp [erase, callFill, hbio]

theorem erase_drainAll (hbio : s.bio = some bio) (ts : List DrainTurn) :
    erase (drainAll ts) s =
      ({ s with bio := some (drainTurns bio ts).1 }, (drainTurns bio ts).2) := by
  induction ts generalizing s bio with
  | nil =>
    rw [drainTurns, ← hbio]
    rfl
  | cons t ts ih =>
    rw [drainAll, drainTurns, erase_ite, erase_pure, erase_bind, erase_callDrain hbio]
    split
    next => rw [← hbio]
    dsimp only
    cases hret : (drainLua bio t.sends).2.2 with
    | none => rfl
    | some ret =>
      simp only [erase_ite, erase_pure, erase_bind, erase_observe]
      split
      next => rfl
      split
      next => rfl
      split
      next => rfl
      cases hwait : t.wait.failure with
      | some out => rfl
      | none => exact ih rfl

theorem erase_fillAll (hbio : s.bio = some bio) (ts : List FillTurn) :
    erase (fillAll ts) s = ({ s with bio := some (fillTurns bio ts).1 }, (fillTurns bio ts).2) := by
  induction ts generalizing s bio with
  | nil =>
    rw [fillTurns, ← hbio]
    rfl
  | cons t ts ih =>
    rw [fillAll, fillTurns, erase_ite, erase_pure, erase_bind, erase_callFill hbio]
    split
    next => rw [← hbio]
    dsimp only
    cases hret : (fillLua bio t.reads).2.2 with
    | none => rfl
    | some ret =>
      simp only [erase_ite, erase_pure, erase_bind, erase_observe]
      split
      next => rfl
      split
      next => rfl
      split
      next => rfl
      cases hwait : t.wait.failure with
      | some out => rfl
      | none => exact ih rfl

theorem erase_bioDrain (s : TlsSocket) (ts : List DrainTurn) :
    erase (bioDrain ts) s = Tls.bioDrain s ts := by
  rw [bioDrain, Tls.bioDrain, erase_bind]
  simp only [erase_state, erase_ite, erase_pure]
  cases hbio : s.bio with
  | none => rfl
  | some bio => exact erase_drainAll hbio ts

theorem erase_bioFill (s : TlsSocket) (ts : List FillTurn) :
    erase (bioFill ts) s = Tls.bioFill s ts := by
  rw [bioFill, Tls.bioFill, erase_bind]
  simp only [erase_state, erase_ite, erase_pure]
  cases hbio : s.bio with
  | none => rfl
  | some bio => exact erase_fillAll hbio ts

theorem erase_pollWait (s : TlsSocket) (want : Int) (drain : List DrainTurn)
    (fill : List FillTurn) :
    erase (pollWait want drain fill) s = Tls.pollWait s want drain fill := by
  rw [pollWait, Tls.pollWait, erase_ite, erase_ite, erase_bind, erase_bioDrain]
  split
  next =>
    dsimp only
    cases hout : (Tls.bioDrain s drain).2 with
    | none => exact Prod.ext rfl hout.symm
    | some out =>
      simp only [erase_ite, erase_pure, erase_bioFill]
  next => rfl

theorem bioDrain_handshaked (s : TlsSocket) (ts : List DrainTurn) :
    (Tls.bioDrain s ts).1.handshaked = s.handshaked := by
  unfold Tls.bioDrain
  split <;> rfl

theorem bioFill_handshaked (s : TlsSocket) (ts : List FillTurn) :
    (Tls.bioFill s ts).1.handshaked = s.handshaked := by
  unfold Tls.bioFill
  split <;> rfl

theorem pollWait_handshaked (s : TlsSocket) (want : Int) (drain : List DrainTurn)
    (fill : List FillTurn) : (Tls.pollWait s want drain fill).1.handshaked = s.handshaked := by
  unfold Tls.pollWait
  dsimp only
  split
  · split
    · exact bioDrain_handshaked s drain
    · split
      · exact bioDrain_handshaked s drain
      · exact (bioFill_handshaked _ fill).trans (bioDrain_handshaked s drain)
  · split
    · exact bioDrain_handshaked s drain
    · rfl

theorem handshakeLua_handshaked (s : TlsSocket) (io : List SslIo) (ans : SslHandshake) :
    (handshakeLua s io ans).1.handshaked = s.handshaked := by
  unfold handshakeLua
  split
  · rfl
  · split
    · rfl
    · cases ans <;> rfl

theorem erase_handshakeAll (hs : s.handshaked = false) (ts : List HandshakeTurn) :
    erase (handshakeAll ts) s = ((handshakeTurns s ts).1, (handshakeTurns s ts).2.2) := by
  induction ts generalizing s with
  | nil => rfl
  | cons t ts ih =>
    have hnative := (handshakeLua_handshaked s t.io t.ans).trans hs
    rw [handshakeAll, handshakeTurns, erase_bind, erase_native]
    dsimp only
    generalize handshakeLua s t.io t.ans = r at hnative ⊢
    cases r.2.2.want with
    | none =>
      simp only [erase_ite, erase_pure]
      split
      next => rfl
      have hdrain := (bioDrain_handshaked r.1 t.drain).trans hnative
      rw [finishHandshake, erase_bind, erase_bioDrain]
      dsimp only
      generalize Tls.bioDrain r.1 t.drain = d at hdrain ⊢
      cases hout : d.2 with
      | none =>
        dsimp only [Option.any]
        rw [← hdrain]
      | some out =>
        simp only [erase_bind, erase_update, erase_ite, erase_observe, erase_pure, Option.any]
        split <;> rfl
    | some want =>
      have hpoll := (pollWait_handshaked r.1 want t.drain t.fill).trans hnative
      simp only [erase_bind, erase_pollWait]
      generalize Tls.pollWait r.1 want t.drain t.fill = p at hpoll ⊢
      cases p.2 with
      | none => rfl
      | some out =>
        simp only [erase_ite, erase_pure, ih hpoll]
        split <;> rfl

theorem erase_writeAll (s : TlsSocket) (str : List Byte) (sent : Nat) (ts : List WriteTurn) :
    erase (writeAll str sent ts) s =
      ((writeTurns s str sent ts).1, (writeTurns s str sent ts).2.2) := by
  induction ts generalizing s str sent with
  | nil => rfl
  | cons t ts ih =>
    rw [writeAll, writeTurns, erase_ite, erase_pure, erase_bind, erase_native]
    split
    next => rfl
    dsimp only
    generalize writeLua s str t.io t.ans = r
    cases r.2.2.len with
    | none => rfl
    | some len =>
      dsimp only
      cases r.2.2.want with
      | none =>
        simp only [erase_bind, erase_bioDrain]
        generalize Tls.bioDrain r.1 t.drain = d
        cases d.2 with
        | none => rfl
        | some out =>
          simp only [erase_ite, erase_pure, Option.map]
          split <;> rfl
      | some want =>
        simp only [erase_bind, erase_pollWait]
        generalize Tls.pollWait r.1 want t.drain t.fill = p
        cases p.2 with
        | none => rfl
        | some out =>
          simp only [erase_ite, erase_pure, ih]
          split <;> rfl

theorem erase_write (s : TlsSocket) (str : List Byte) (hs : List HandshakeTurn)
    (ts : List WriteTurn) :
    erase (write str hs ts) s = ((socketWrite s str hs ts).1, (socketWrite s str hs ts).2.2) := by
  rw [write, handshake, socketWrite, erase_bind, erase_bind]
  simp only [erase_state, erase_ite, erase_pure, erase_writeAll]
  cases hmarked : s.handshaked with
  | true => rfl
  | false =>
    simp only [Bool.false_eq_true, if_false, erase_handshakeAll hmarked]
    generalize handshakeTurns s hs = h
    cases h.2.2 with
    | none => rfl
    | some out =>
      dsimp only
      split <;> rfl

end Erase

end Loops

def tlsSocketNew (client : Bool) (fd : Nat) (cap : RingCap) : TlsSocket where
  client := client
  ssl := true
  handshakeCb := true
  bio := some (tlsBioNew fd cap)
  handshaked := false

end LuaNet.Tls
