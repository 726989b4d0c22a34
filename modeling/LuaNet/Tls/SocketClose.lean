import LuaNet.Lib.Coroutine
import LuaNet.Tls.SocketTiming

/-! The calls of a TLS socket as coroutines: handshake, read, write, shutdown and close of
`lib/tls.lua`, suspended at every wait, with other coroutines calling the same socket meanwhile.
A call keeps the BIO it has found; `tls_close` drops it from the socket and disposes of it, and
then closes the descriptor. -/

namespace LuaNet.Tls

open LuaNet.Lib LuaNet.Lib.Coroutine

/-- `sock.bio` is the BIO userdata, which a suspended call may hold longer than the socket; `tlsBio`
tells that the socket still has it, and `fd` is the descriptor of the native socket. -/
structure TlsConn where
  sock : TlsSocket
  tlsBio : Bool
  fd : Option Nat

/-- Calls of OpenSSL, of send(2) and read(2) by the BIO, and of `gpoll`; the disposal of the
context with the ciphertext it drops and whether the shutdown had succeeded; close(2); and the
return of `Socket:close`. -/
inductive ConnEvent
  | ssl
  | drain (fd : Int)
  | fill (fd : Int)
  | wait (fd : Nat) (readable : Bool)
  | dispose (pending : List Byte) (ok : Bool)
  | close (fd : Nat)
  | returned (ok : Bool)

abbrev ConnCall (α : Type) := Coroutine TlsConn ConnEvent α

def ebadf : Nat := 9

inductive ConnErr
  | tls (e : TlsErr)
  | close (code : Nat)

structure CloseRet where
  ok : Bool
  err : Option ConnErr := none
  timeout : Bool := false

namespace ConnCall

def native {ν : Type} (f : TlsSocket → TlsSocket × ν) : ConnCall ν :=
  atomic fun c =>
    ({ c with sock := (f c.sock).1 }, if c.sock.ssl then [.ssl] else [], (f c.sock).2)

def callDrain (sends : List SendResult) : ConnCall (Option IoRet) :=
  atomic fun c =>
    match c.sock.bio with
    | none => (c, [], none)
    | some bio =>
      ({ c with sock := { c.sock with bio := some (drainLua bio sends).1 } },
        if bio.fd < 0 then [] else [.drain bio.fd], (drainLua bio sends).2.2)

def callFill (reads : List ReadResult) : ConnCall (Option IoRet) :=
  atomic fun c =>
    match c.sock.bio with
    | none => (c, [], none)
    | some bio =>
      ({ c with sock := { c.sock with bio := some (fillLua bio reads).1 } },
        if bio.fd < 0 then [] else [.fill bio.fd], (fillLua bio reads).2.2)

/-- `wait_readable` and `wait_writable` of `net.lua`: the poller is not handed a disposed
descriptor. -/
def waitFd (readable : Bool) (w : WaitResult) : ConnCall (Option IoOutcome) := do
  let c ← look
  match c.fd with
  | none => pure (some { ok := false, err := some (.wait ebadf) })
  | some fd => do
    emit (.wait fd readable)
    yield
    pure w.failure

def drainAll : List DrainTurn → ConnCall IoOutcome
  | [] => .idle
  | t :: ts =>
    if t.done then pure expiredOutcome
    else do
      match ← callDrain t.sends with
      | none => .idle
      | some ret =>
        if ret.n.isSome && !ret.again then pure { ok := true }
        else if ret.n.isNone && !ret.again then pure { ok := false, err := ret.err.map .bio }
        else if t.expired then pure expiredOutcome
        else do
          match ← waitFd false t.wait with
          | some out => pure out
          | none => drainAll ts

def bioDrain (ts : List DrainTurn) : ConnCall IoOutcome := do
  let c ← look
  if !c.tlsBio then pure { ok := true } else drainAll ts

def fillAll : List FillTurn → ConnCall IoOutcome
  | [] => .idle
  | t :: ts =>
    if t.done then pure expiredOutcome
    else do
      match ← callFill t.reads with
      | none => .idle
      | some ret =>
        if ret.n.isSome then pure { ok := true, eof := ret.eof }
        else if !ret.again then pure { ok := false, err := ret.err.map .bio, eof := ret.eof }
        else if t.expired then pure expiredOutcome
        else do
          match ← waitFd true t.wait with
          | some out => pure out
          | none => fillAll ts

def bioFill (ts : List FillTurn) : ConnCall IoOutcome := do
  let c ← look
  if !c.tlsBio then pure { ok := true } else fillAll ts

def pollWait (want : Int) (drain : List DrainTurn) (fill : List FillTurn) : ConnCall IoOutcome :=
  if want = wantRead then do
    let out ← bioDrain drain
    if !out.ok then pure { ok := false, err := out.err, timeout := out.timeout }
    else bioFill fill
  else if want = wantWrite then bioDrain drain
  else pure { ok := false, err := some (.einval "unknown want type") }

def finishHandshake (drain : List DrainTurn) : ConnCall IoOutcome := do
  let out ← bioDrain drain
  atomic fun c => ({ c with sock := { c.sock with handshaked := out.ok } }, [], ())
  pure out

def handshakeAll : List HandshakeTurn → ConnCall IoOutcome
  | [] => .idle
  | t :: ts => do
    let r ← native fun s => ((handshakeLua s t.io t.ans).1, (handshakeLua s t.io t.ans).2.2)
    match r.want with
    | none => if !r.ok then pure { ok := false, err := r.err } else finishHandshake t.drain
    | some want => do
      let out ← pollWait want t.drain t.fill
      if !out.ok && !out.eof then pure { ok := false, err := out.err, timeout := out.timeout }
      else handshakeAll ts

def handshake (ts : List HandshakeTurn) : ConnCall IoOutcome := do
  let c ← look
  if c.sock.handshaked then pure { ok := true } else handshakeAll ts

def readAll (bufsiz : Int) : List Loops.ReadTurn → ConnCall Loops.ReadRet
  | [] => .idle
  | t :: ts =>
    if t.done then pure { timeout := true }
    else do
      let r ← native (readLua · bufsiz t.io t.ans)
      match r.want with
      | none => pure { msg := r.str, err := r.err }
      | some want => do
        let out ← pollWait want t.drain t.fill
        if !out.ok && !out.eof then pure { err := out.err, timeout := out.timeout }
        else readAll bufsiz ts

def read (bufsiz : Int) (hs : List HandshakeTurn) (ts : List Loops.ReadTurn) :
    ConnCall Loops.ReadRet := do
  let out ← handshake hs
  if !out.ok then pure { err := out.err, timeout := out.timeout } else readAll bufsiz ts

def writeAll (str : List Byte) (sent : Nat) : List WriteTurn → ConnCall WriteRet
  | [] => .idle
  | t :: ts =>
    if t.done then pure { sent := sent, timeout := true }
    else do
      let r ← native fun s => ((writeLua s str t.io t.ans).1, (writeLua s str t.io t.ans).2.2)
      match r.len with
      | none => pure { sent := sent, err := r.err }
      | some len =>
        match r.want with
        | none => do
          let out ← bioDrain t.drain
          if !out.ok then pure { sent := sent + len, err := out.err, timeout := out.timeout }
          else pure { sent := sent + len }
        | some want => do
          let out ← pollWait want t.drain t.fill
          if !out.ok && !out.eof then
            pure { sent := sent + len, err := out.err, timeout := out.timeout }
          else writeAll (str.drop len) (sent + len) ts

def write (str : List Byte) (hs : List HandshakeTurn) (ts : List WriteTurn) : ConnCall WriteRet := do
  let out ← handshake hs
  if !out.ok then pure { sent := 0, err := out.err, timeout := out.timeout }
  else writeAll str 0 ts

def tlsShutdown : List Loops.ShutdownTurn → ConnCall IoOutcome
  | [] => .idle
  | t :: ts => do
    let r ← native (shutdownLua · t.io t.ans)
    match r.want with
    | none => if !r.ok then pure { ok := false, err := r.err } else bioDrain t.drain
    | some want => do
      let out ← pollWait want t.drain t.fill
      if !out.ok && !out.eof then pure { ok := false, err := out.err, timeout := out.timeout }
      else tlsShutdown ts

/-- `self.tls_bio = nil` and the native `close`, which frees the SSL object and the BIO. -/
def dispose (ok : Bool) : ConnCall Unit :=
  atomic fun c =>
    ({ c with
        sock := { c.sock with ssl := false, handshakeCb := false, bio := c.sock.bio.map tlsBioFree }
        tlsBio := false },
      [.dispose c.sock.pending ok], ())

def tlsClose (ts : List Loops.ShutdownTurn) : ConnCall IoOutcome := do
  let out ← tlsShutdown ts
  dispose out.ok
  pure out

def sockClose (e : Option Nat) : ConnCall CloseRet :=
  atomic fun c =>
    match c.fd with
    | none => (c, [], { ok := true })
    | some fd =>
      ({ c with fd := none }, [.close fd],
        match e with
        | none => { ok := true }
        | some code => { ok := false, err := some (.close code) })

def close (ts : List Loops.ShutdownTurn) (e : Option Nat) : ConnCall CloseRet := do
  let out ← tlsClose ts
  let r ← sockClose e
  let ret : CloseRet :=
    if !out.ok then { ok := out.ok, err := out.err.map .tls, timeout := out.timeout } else r
  emit (.returned ret.ok)
  pure ret

end ConnCall

namespace ConnCall

structure Opened (c : TlsConn) : Prop where
  tlsBio : c.tlsBio = true
  fd : c.fd.isSome = true
  bio : c.sock.bio.isSome = true

/-- On an open socket, and with nothing else happening, a call does what the loop does. -/
def Lifts {α : Type} (m : ConnCall α) (l : Loop α) : Prop :=
  ∀ c, Opened c → (Traced.erase l c.sock).1.bio.isSome = true ∧
    Traced.erase (solo m) c =
      ({ c with sock := (Traced.erase l c.sock).1 }, (Traced.erase l c.sock).2)

section Alone

variable {α β : Type}

theorem lifts_pure (a : α) : Lifts (Pure.pure a) (Pure.pure a) := fun _ h => ⟨h.bio, rfl⟩

theorem lifts_waiting : Lifts (.idle : ConnCall α) Traced.waiting := fun _ h => ⟨h.bio, rfl⟩

theorem Lifts.bind {m : ConnCall α} {l : Loop α} {f : α → ConnCall β} {g : α → Loop β}
    (hm : Lifts m l) (hf : ∀ a, Lifts (f a) (g a)) : Lifts (m >>= f) (l >>= g) := by
  intro c h
  obtain ⟨hbio, heq⟩ := hm c h
  rw [solo_bind, Traced.erase_bind l, Traced.erase_bind (solo m), heq]
  dsimp only
  cases (Traced.erase l c.sock).2 with
  | none => exact ⟨hbio, rfl⟩
  | some a => exact hf a { c with sock := (Traced.erase l c.sock).1 } ⟨h.tlsBio, h.fd, hbio⟩

theorem Lifts.ite {b : Prop} [Decidable b] {m n : ConnCall α} {l k : Loop α} (hm : Lifts m l)
    (hn : Lifts n k) : Lifts (if b then m else n) (if b then l else k) := by
  split
  · exact hm
  · exact hn

theorem lifts_native {ν : Type} {io : List SslIo} {f : TlsSocket → TlsSocket × ν}
    {want : ν → Option Int} (hf : Loops.CallsSsl io f want) :
    Lifts (native f) (Loops.native io f want) := by
  intro c h
  refine ⟨?_, rfl⟩
  rw [Loops.erase_native]
  rcases hf c.sock with hcalled | ⟨hsame, -⟩
  · rw [hcalled, TlsSocket.sslIo, Option.isSome_map]
    exact h.bio
  · rw [hsame]
    exact h.bio

theorem lifts_look {f : TlsConn → ConnCall α} {g : TlsSocket → Loop α}
    (h : ∀ c, Opened c → Lifts (f c) (g c.sock)) :
    Lifts (look >>= f) (Traced.state >>= g) := by
  intro c hc
  rw [solo_bind, Traced.erase_bind Traced.state, Traced.erase_bind (solo look)]
  exact h c hc c hc

theorem lifts_answer {m : ConnCall (Option IoRet)} {l : Loop IoRet}
    (hm : ∀ c, Opened c → (Traced.erase l c.sock).1.bio.isSome = true ∧
      Traced.erase (solo m) c =
        ({ c with sock := (Traced.erase l c.sock).1 }, some (Traced.erase l c.sock).2))
    {f : IoRet → ConnCall α} {g : IoRet → Loop α} (h : ∀ ret, Lifts (f ret) (g ret)) :
    Lifts (m >>= fun r => match r with
      | none => .idle
      | some ret => f ret) (l >>= g) := by
  intro c hc
  obtain ⟨hbio, heq⟩ := hm c hc
  rw [solo_bind, Traced.erase_bind l, Traced.erase_bind (solo m), heq]
  dsimp only
  cases (Traced.erase l c.sock).2 with
  | none => exact ⟨hbio, rfl⟩
  | some ret =>
    exact h ret { c with sock := (Traced.erase l c.sock).1 } ⟨hc.tlsBio, hc.fd, hbio⟩

theorem solo_callDrain (sends : List SendResult) (c : TlsConn) (h : Opened c) :
    (Traced.erase (Loops.callDrain sends) c.sock).1.bio.isSome = true ∧
      Traced.erase (solo (callDrain sends)) c =
        ({ c with sock := (Traced.erase (Loops.callDrain sends) c.sock).1 },
          some (Traced.erase (Loops.callDrain sends) c.sock).2) := by
  obtain ⟨bio, hbio⟩ := Option.isSome_iff_exists.mp h.bio
  rw [Loops.erase_callDrain hbio, callDrain, erase_solo_atomic, hbio]
  exact ⟨rfl, rfl⟩

theorem solo_callFill (reads : List ReadResult) (c : TlsConn) (h : Opened c) :
    (Traced.erase (Loops.callFill reads) c.sock).1.bio.isSome = true ∧
      Traced.erase (solo (callFill reads)) c =
        ({ c with sock := (Traced.erase (Loops.callFill reads) c.sock).1 },
          some (Traced.erase (Loops.callFill reads) c.sock).2) := by
  obtain ⟨bio, hbio⟩ := Option.isSome_iff_exists.mp h.bio
  rw [Loops.erase_callFill hbio, callFill, erase_solo_atomic, hbio]
  exact ⟨rfl, rfl⟩

theorem lifts_wait (readable : Bool) (w : WaitResult) (e : List Byte → LoopEvent)
    {f : Option IoOutcome → ConnCall α} {g : Loop α} (h : Lifts (f w.failure) g) :
    Lifts (waitFd readable w >>= f) (Loops.observe e >>= fun _ => g) := by
  intro c hc
  obtain ⟨fd, hfd⟩ := Option.isSome_iff_exists.mp hc.fd
  have hwait : Traced.erase (solo (waitFd readable w)) c = (c, some w.failure) := by
    rw [waitFd, solo_bind, Traced.erase_bind]
    show Traced.erase (solo (match c.fd with
      | none => _
      | some fd => _)) c = _
    rw [hfd]
    rfl
  rw [solo_bind, Traced.erase_bind (Loops.observe e), Loops.erase_observe,
    Traced.erase_bind (solo _), hwait]
  exact h c hc

theorem lifts_drainAll (ts : List DrainTurn) : Lifts (drainAll ts) (Loops.drainAll ts) := by
  induction ts with
  | nil => exact lifts_waiting
  | cons t ts ih =>
    apply Lifts.ite
    · exact lifts_pure _
    apply lifts_answer (solo_callDrain t.sends)
    intro ret
    apply Lifts.ite
    · intro c h
      rw [Traced.erase_bind, Loops.erase_observe]
      exact ⟨h.bio, rfl⟩
    apply Lifts.ite
    · exact lifts_pure _
    apply Lifts.ite
    · exact lifts_pure _
    apply lifts_wait
    cases t.wait.failure with
    | none => exact ih
    | some out => exact lifts_pure out

theorem lifts_fillAll (ts : List FillTurn) : Lifts (fillAll ts) (Loops.fillAll ts) := by
  induction ts with
  | nil => exact lifts_waiting
  | cons t ts ih =>
    apply Lifts.ite
    · exact lifts_pure _
    apply lifts_answer (solo_callFill t.reads)
    intro ret
    apply Lifts.ite
    · exact lifts_pure _
    apply Lifts.ite
    · exact lifts_pure _
    apply Lifts.ite
    · exact lifts_pure _
    apply lifts_wait
    cases t.wait.failure with
    | none => exact ih
    | some out => exact lifts_pure out

theorem lifts_bio {m : ConnCall IoOutcome} {l : Loop IoOutcome} (h : Lifts m l) :
    Lifts (look >>= fun c => if (!c.tlsBio) = true then Pure.pure { ok := true } else m)
      (Traced.state >>= fun s => if s.bio.isNone = true then Pure.pure { ok := true } else l) := by
  apply lifts_look
  intro c hc
  have hsome : c.sock.bio.isNone = false := by
    rw [← Option.not_isSome, hc.bio]
    rfl
  rw [hc.tlsBio, hsome]
  exact h

theorem lifts_bioDrain (ts : List DrainTurn) : Lifts (bioDrain ts) (Loops.bioDrain ts) :=
  lifts_bio (lifts_drainAll ts)

theorem lifts_bioFill (ts : List FillTurn) : Lifts (bioFill ts) (Loops.bioFill ts) :=
  lifts_bio (lifts_fillAll ts)

theorem lifts_pollWait (want : Int) (drain : List DrainTurn) (fill : List FillTurn) :
    Lifts (pollWait want drain fill) (Loops.pollWait want drain fill) := by
  apply Lifts.ite
  · apply Lifts.bind (lifts_bioDrain drain)
    intro out
    apply Lifts.ite
    · exact lifts_pure _
    · exact lifts_bioFill fill
  apply Lifts.ite
  · exact lifts_bioDrain drain
  · exact lifts_pure _

theorem lifts_finishHandshake (ts : List DrainTurn) :
    Lifts (finishHandshake ts) (Loops.finishHandshake ts) := by
  apply Lifts.bind (lifts_bioDrain ts)
  intro out c h
  rw [solo_bind, Traced.erase_bind (Traced.update _), Traced.erase_update,
    Traced.erase_bind (solo _), erase_solo_atomic]
  dsimp only
  rw [Traced.erase_ite, Traced.erase_bind (Loops.observe _), Loops.erase_observe]
  split
  · exact ⟨h.bio, rfl⟩
  · exact ⟨h.bio, rfl⟩

theorem lifts_handshakeAll (ts : List HandshakeTurn) :
    Lifts (handshakeAll ts) (Loops.handshakeAll ts) := by
  induction ts with
  | nil => exact lifts_waiting
  | cons t ts ih =>
    apply Lifts.bind (lifts_native (Loops.handshakeLua_calls t.io t.ans))
    intro r
    cases r.want with
    | none =>
      apply Lifts.ite
      · exact lifts_pure _
      · exact lifts_finishHandshake t.drain
    | some want =>
      apply Lifts.bind (lifts_pollWait want t.drain t.fill)
      intro out
      apply Lifts.ite
      · exact lifts_pure _
      · exact ih

theorem lifts_handshake (ts : List HandshakeTurn) :
    Lifts (handshake ts) (Loops.handshake ts) := by
  apply lifts_look
  intro c _
  apply Lifts.ite
  · exact lifts_pure _
  · exact lifts_handshakeAll ts

theorem lifts_readAll (bufsiz : Int) (ts : List Loops.ReadTurn) :
    Lifts (readAll bufsiz ts) (Loops.readAll bufsiz ts) := by
  induction ts with
  | nil => exact lifts_waiting
  | cons t ts ih =>
    apply Lifts.ite
    · exact lifts_pure _
    apply Lifts.bind (lifts_native (Loops.readLua_calls bufsiz t.io t.ans))
    intro r
    cases r.want with
    | none => exact lifts_pure _
    | some want =>
      apply Lifts.bind (lifts_pollWait want t.drain t.fill)
      intro out
      apply Lifts.ite
      · exact lifts_pure _
      · exact ih

theorem lifts_read (bufsiz : Int) (hs : List HandshakeTurn) (ts : List Loops.ReadTurn) :
    Lifts (read bufsiz hs ts) (Loops.read bufsiz hs ts) := by
  apply Lifts.bind (lifts_handshake hs)
  intro out
  apply Lifts.ite
  · exact lifts_pure _
  · exact lifts_readAll bufsiz ts

theorem lifts_writeAll (str : List Byte) (sent : Nat) (ts : List WriteTurn) :
    Lifts (writeAll str sent ts) (Loops.writeAll str sent ts) := by
  induction ts generalizing str sent with
  | nil => exact lifts_waiting
  | cons t ts ih =>
    apply Lifts.ite
    · exact lifts_pure _
    apply Lifts.bind (lifts_native (Loops.writeLua_calls str t.io t.ans))
    intro r
    cases r.len with
    | none => exact lifts_pure _
    | some len =>
      cases r.want with
      | none =>
        apply Lifts.bind (lifts_bioDrain t.drain)
        intro out
        apply Lifts.ite
        · exact lifts_pure _
        · exact lifts_pure _
      | some want =>
        apply Lifts.bind (lifts_pollWait want t.drain t.fill)
        intro out
        apply Lifts.ite
        · exact lifts_pure _
        · exact ih _ _

theorem lifts_write (str : List Byte) (hs : List HandshakeTurn) (ts : List WriteTurn) :
    Lifts (write str hs ts) (Loops.write str hs ts) := by
  apply Lifts.bind (lifts_handshake hs)
  intro out
  apply Lifts.ite
  · exact lifts_pure _
  · exact lifts_writeAll str 0 ts

theorem lifts_tlsShutdown (ts : List Loops.ShutdownTurn) :
    Lifts (tlsShutdown ts) (Loops.tlsShutdown ts) := by
  induction ts with
  | nil => exact lifts_waiting
  | cons t ts ih =>
    apply Lifts.bind (lifts_native (Loops.shutdownLua_calls t.io t.ans))
    intro r
    cases r.want with
    | none =>
      apply Lifts.ite
      · exact lifts_pure _
      · exact lifts_bioDrain t.drain
    | some want =>
      apply Lifts.bind (lifts_pollWait want t.drain t.fill)
      intro out
      apply Lifts.ite
      · exact lifts_pure _
      · exact ih

end Alone

end ConnCall

inductive SocketCall
  | handshake (hs : List HandshakeTurn)
  | read (bufsiz : Int) (hs : List HandshakeTurn) (ts : List Loops.ReadTurn)
  | write (str : List Byte) (hs : List HandshakeTurn) (ts : List WriteTurn)
  | shutdown (ts : List Loops.ShutdownTurn)
  | close (ts : List Loops.ShutdownTurn) (e : Option Nat)

def SocketCall.body : SocketCall → ConnCall Unit
  | .handshake hs => do
    let _ ← ConnCall.handshake hs
  | .read bufsiz hs ts => do
    let _ ← ConnCall.read bufsiz hs ts
  | .write str hs ts => do
    let _ ← ConnCall.write str hs ts
  | .shutdown ts => do
    let _ ← ConnCall.tlsShutdown ts
  | .close ts e => do
    let _ ← ConnCall.close ts e

def program : List SocketCall → ConnCall Unit
  | [] => pure ()
  | c :: cs => do
    c.body
    program cs

def tlsConnNew (client : Bool) (fd : Nat) (cap : RingCap) : TlsConn where
  sock := tlsSocketNew client fd cap
  tlsBio := true
  fd := some fd

end LuaNet.Tls
