import LuaNet.Tls.BioTx

/-! The TLS socket of `lib/tls.lua`: its calls drive OpenSSL and move ciphertext between the rings
of the BIO and the transport. A loop is driven by a list of turns, the answers that it gets from
the deadline, the kernel, OpenSSL and `gpoll`; a loop that has used up its turns is still
waiting. -/

namespace LuaNet.Tls

open LuaNet.Lib

inductive TlsErr
  | bio (e : Errno × String)
  | wait (code : Nat)
  | ssl (op : String)
  | einval (op : String)
deriving DecidableEq

structure IoOutcome where
  ok : Bool
  err : Option TlsErr := none
  timeout : Bool := false
  eof : Bool := false
deriving DecidableEq

inductive WaitResult
  | ready
  | failed (code : Nat)
  | timeout

def WaitResult.failure : WaitResult → Option IoOutcome
  | .ready => none
  | .failed code => some { ok := false, err := some (.wait code) }
  | .timeout => some { ok := false, timeout := true }

structure DrainTurn where
  done : Bool
  sends : List SendResult
  expired : Bool
  wait : WaitResult

structure FillTurn where
  done : Bool
  reads : List ReadResult
  expired : Bool
  wait : WaitResult

def expiredOutcome : IoOutcome := { ok := false, timeout := true }

def drainTurns (bio : TlsBio) : List DrainTurn → TlsBio × Option IoOutcome
  | [] => (bio, none)
  | t :: ts =>
    if t.done then (bio, some expiredOutcome)
    else
      let r := drainLua bio t.sends
      match r.2.2 with
      | none => (r.1, none)
      | some ret =>
        if ret.n.isSome && !ret.again then (r.1, some { ok := true })
        else if ret.n.isNone && !ret.again then
          (r.1, some { ok := false, err := ret.err.map .bio })
        -- a partial drain waits too, so that the rest of the ciphertext is flushed
        else if t.expired then (r.1, some expiredOutcome)
        else
          match t.wait.failure with
          | some out => (r.1, some out)
          | none => drainTurns r.1 ts

def fillTurns (bio : TlsBio) : List FillTurn → TlsBio × Option IoOutcome
  | [] => (bio, none)
  | t :: ts =>
    if t.done then (bio, some expiredOutcome)
    else
      let r := fillLua bio t.reads
      match r.2.2 with
      | none => (r.1, none)
      | some ret =>
        if ret.n.isSome then (r.1, some { ok := true, eof := ret.eof })
        else if !ret.again then
          (r.1, some { ok := false, err := ret.err.map .bio, eof := ret.eof })
        else if t.expired then (r.1, some expiredOutcome)
        else
          match t.wait.failure with
          | some out => (r.1, some out)
          | none => fillTurns r.1 ts

/-- `client`, `ssl` and `handshakeCb` are the role, `ctx->ssl` and `ctx->handshake_cb` of the
native context; `bio` is `tls_bio`, which `tls_close` drops. -/
structure TlsSocket where
  client : Bool
  ssl : Bool
  handshakeCb : Bool
  bio : Option TlsBio
  handshaked : Bool

def bioDrain (s : TlsSocket) (ts : List DrainTurn) : TlsSocket × Option IoOutcome :=
  match s.bio with
  | none => (s, some { ok := true })
  | some bio => ({ s with bio := some (drainTurns bio ts).1 }, (drainTurns bio ts).2)

def bioFill (s : TlsSocket) (ts : List FillTurn) : TlsSocket × Option IoOutcome :=
  match s.bio with
  | none => (s, some { ok := true })
  | some bio => ({ s with bio := some (fillTurns bio ts).1 }, (fillTurns bio ts).2)

def wantRead : Int := 2

def wantWrite : Int := 3

def pollWait (s : TlsSocket) (want : Int) (drain : List DrainTurn) (fill : List FillTurn) :
    TlsSocket × Option IoOutcome :=
  if want = wantRead then
    -- the peer may be waiting for what is still in the ring
    let r := bioDrain s drain
    match r.2 with
    | none => r
    | some out =>
      if !out.ok then (r.1, some { ok := false, err := out.err, timeout := out.timeout })
      else bioFill r.1 fill
  else if want = wantWrite then bioDrain s drain
  else (s, some { ok := false, err := some (.einval "unknown want type") })

inductive SslIo
  | write (buf : List Byte)
  | read (len : Int)

def SslIo.op : SslIo → BioOp
  | .write buf => .txWrite buf
  | .read len => .rxRead len

def TlsSocket.sslIo (s : TlsSocket) (io : List SslIo) : TlsSocket :=
  { s with bio := s.bio.map fun bio => (runs bioStep bio (io.map SslIo.op)).1 }

inductive SslWant
  | read
  | write
deriving DecidableEq

def SslWant.code : SslWant → Int
  | .read => wantRead
  | .write => wantWrite

/-- What is seen of the connection: plaintext that OpenSSL accepts, and a handshake or a write
that it answers with `SSL_ERROR_ZERO_RETURN`. -/
inductive TlsEvent
  | accepted (bs : List Byte)
  | closed
deriving DecidableEq

/-- The result of `SSL_write`; a positive count is clamped to what was offered. -/
inductive SslWrite
  | wrote (n : Nat) (pos : 0 < n)
  | want (w : SslWant)
  | closed
  | failed

structure NativeWrite where
  len : Option Nat := none
  err : Option TlsErr := none
  want : Option Int := none

def intMax : Nat := 2 ^ 31 - 1

/-- `write_lua`. The branch for a closed connection returns no values. -/
def writeLua (s : TlsSocket) (buf : List Byte) (io : List SslIo) (ans : SslWrite) :
    TlsSocket × List TlsEvent × NativeWrite :=
  if !s.ssl then (s, [], { err := some (.einval "write") })
  else if buf.length = 0 then (s, [], { err := some (.einval "write") })
  else
    match ans with
    | .wrote n _ =>
      let rv := min n (min buf.length intMax)
      (s.sslIo io, [.accepted (buf.take rv)],
        if rv = buf.length then { len := some rv } else { len := some rv, want := some wantWrite })
    | .want w => (s.sslIo io, [], { len := some 0, want := some w.code })
    | .closed => (s.sslIo io, [.closed], {})
    | .failed => (s.sslIo io, [], { err := some (.ssl "write.SSL_write") })

inductive SslHandshake
  | done
  | want (w : SslWant)
  | closed
  | failed

structure NativeHandshake where
  ok : Bool := false
  err : Option TlsErr := none
  want : Option Int := none

def handshakeLua (s : TlsSocket) (io : List SslIo) (ans : SslHandshake) :
    TlsSocket × List TlsEvent × NativeHandshake :=
  if !s.ssl then (s, [], { err := some (.einval "handshake") })
  else if !s.handshakeCb then (s, [], { ok := true })
  else
    match ans with
    | .done => ({ s.sslIo io with handshakeCb := false }, [], { ok := true })
    | .want w => (s.sslIo io, [], { want := some w.code })
    | .closed => (s.sslIo io, [.closed], {})
    | .failed =>
      (s.sslIo io, [],
        { err := some (.ssl (if s.client then "handshake.SSL_connect" else "handshake.SSL_accept")) })

structure HandshakeTurn where
  io : List SslIo
  ans : SslHandshake
  drain : List DrainTurn
  fill : List FillTurn

def handshakeTurns (s : TlsSocket) :
    List HandshakeTurn → TlsSocket × List TlsEvent × Option IoOutcome
  | [] => (s, [], none)
  | t :: ts =>
    let r := handshakeLua s t.io t.ans
    match r.2.2.want with
    | none =>
      if !r.2.2.ok then (r.1, r.2.1, some { ok := false, err := r.2.2.err })
      else
        let d := bioDrain r.1 t.drain
        ({ d.1 with handshaked := d.2.any (·.ok) }, r.2.1, d.2)
    | some want =>
      let p := pollWait r.1 want t.drain t.fill
      match p.2 with
      | none => (p.1, r.2.1, none)
      | some out =>
        if !out.ok && !out.eof then
          (p.1, r.2.1, some { ok := false, err := out.err, timeout := out.timeout })
        else
          -- the end of input is for OpenSSL to judge
          let q := handshakeTurns p.1 ts
          (q.1, r.2.1 ++ q.2.1, q.2.2)

structure WriteRet where
  sent : Nat
  err : Option TlsErr := none
  timeout : Bool := false
deriving DecidableEq

structure WriteTurn where
  done : Bool
  io : List SslIo
  ans : SslWrite
  drain : List DrainTurn
  fill : List FillTurn

def writeTurns (s : TlsSocket) (str : List Byte) (sent : Nat) :
    List WriteTurn → TlsSocket × List TlsEvent × Option WriteRet
  | [] => (s, [], none)
  | t :: ts =>
    if t.done then (s, [], some { sent := sent, timeout := true })
    else
      let r := writeLua s str t.io t.ans
      match r.2.2.len with
      | none => (r.1, r.2.1, some { sent := sent, err := r.2.2.err })
      | some len =>
        match r.2.2.want with
        | none =>
          -- all of `str` is accepted
          let d := bioDrain r.1 t.drain
          (d.1, r.2.1, d.2.map fun out =>
            if !out.ok then { sent := sent + len, err := out.err, timeout := out.timeout }
            else { sent := sent + len })
        | some want =>
          let p := pollWait r.1 want t.drain t.fill
          match p.2 with
          | none => (p.1, r.2.1, none)
          | some out =>
            if !out.ok && !out.eof then
              (p.1, r.2.1,
                some { sent := sent + len, err := out.err, timeout := out.timeout })
            else
              let q := writeTurns p.1 (str.drop len) (sent + len) ts
              (q.1, r.2.1 ++ q.2.1, q.2.2)

def socketWrite (s : TlsSocket) (str : List Byte) (hs : List HandshakeTurn)
    (ws : List WriteTurn) : TlsSocket × List TlsEvent × Option WriteRet :=
  if s.handshaked then writeTurns s str 0 ws
  else
    let h := handshakeTurns s hs
    match h.2.2 with
    | none => (h.1, h.2.1, none)
    | some out =>
      if !out.ok then
        (h.1, h.2.1, some { sent := 0, err := out.err, timeout := out.timeout })
      else
        let q := writeTurns h.1 str 0 ws
        (q.1, h.2.1 ++ q.2.1, q.2.2)

end LuaNet.Tls
