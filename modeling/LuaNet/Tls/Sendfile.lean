import Mathlib.Data.List.Count
import LuaNet.Lib.Turns
import LuaNet.Tls.SocketWrite

/-! `sendfile` of `lib/tls/stream.lua`. The bytes of the file are of an arbitrary type, for the
call never looks into them. -/

namespace LuaNet.Tls

open LuaNet.Lib

variable {α : Type*}

inductive SendfileErr
  | tofile (code : Nat)
  | einval (msg : String)
  | fstat (code : Nat)
  | sndbuf (code : Nat)
  | pread (code : Nat)
  | send (e : TlsErr)

structure SendfileRet where
  len : Option Nat := none
  err : Option SendfileErr := none
  timeout : Bool := false

inductive LuaArg
  | nil
  | uint (n : Nat)
  | other

/-- `tofile`: the argument is a file already, or the call opens one. -/
inductive Tofile
  | file (opened : Bool)
  | failed (code : Nat)

inductive Sndbuf
  | size (n : Nat) (pos : 0 < n)
  | failed (code : Nat)

structure SendfileCall (α : Type*) where
  file : List α
  tofile : Tofile
  offset : LuaArg
  bytes : LuaArg
  fstat : Option Nat
  sndbuf : Sndbuf

inductive Pread
  | failed (code : Nat)
  | data (n : Nat) (pos : 0 < n)

structure SendTurn where
  pread : Pread
  send : WriteRet

inductive SendfileEvent (α : Type*)
  | handed (bs : List α)
  | close

def defaultSendBufsiz : Nat := 4096 * 4

def closeFile (opened : Bool) : List (SendfileEvent α) := if opened then [.close] else []

def SendfileCall.offsetArg (c : SendfileCall α) : Except SendfileErr Nat :=
  match c.offset with
  | .nil => .ok 0
  | .uint n => .ok n
  | .other => .error (.einval "offset must be an nil or uint")

def SendfileCall.bytesArg (c : SendfileCall α) (offset : Nat) : Except SendfileErr Nat :=
  match c.bytes with
  | .nil =>
    match c.fstat with
    | some code => .error (.fstat code)
    | none => .ok (c.file.length - offset)
  | .uint n => .ok n
  | .other => .error (.einval "bytes must be an nil or uint")

def refill (file : List α) (bufsiz offset : Nat) (remain : Int) (sent : Nat) (data : List α)
    (p : Pread) : Except SendfileRet (List α) :=
  if 0 < remain then
    match p with
    | .failed code => .error { len := some sent, err := some (.pread code) }
    | .data n _ =>
      -- the position counts what was sent: what is left in `data` is read again
      match (file.drop (offset + sent)).take (min n (min remain.toNat bufsiz)) with
      | [] => .error { len := some sent }
      | s => .ok (data ++ s)
  else .ok data

def sendLoop (file : List α) (opened : Bool) (bufsiz offset : Nat) :
    Int → Nat → List α → List SendTurn → List (SendfileEvent α) × Option SendfileRet
  | _, _, _, [] => ([], none)
  | remain, sent, data, t :: ts =>
    match refill file bufsiz offset remain sent data t.pread with
    | .error ret => (closeFile opened, some ret)
    | .ok data =>
      let len := min t.send.sent data.length
      let sent := sent + len
      match t.send.err with
      | some e =>
        (.handed (data.take len) :: closeFile opened,
          some { len := some sent, err := some (.send e) })
      | none =>
        if t.send.timeout then
          (.handed (data.take len) :: closeFile opened, some { len := some sent, timeout := true })
        else if remain - len = 0 ∧ (data.drop len).length = 0 then
          (.handed (data.take len) :: closeFile opened, some { len := some sent })
        else
          let r := sendLoop file opened bufsiz offset (remain - len) sent (data.drop len) ts
          (.handed (data.take len) :: r.1, r.2)

/-- What a call is about to send once its arguments are accepted. -/
structure SendfilePlan where
  opened : Bool
  offset : Nat
  bytes : Nat
  bufsiz : Nat

/-- Everything before the loop: a plan, or a return after closing the file that was opened. -/
def sendfilePlan (c : SendfileCall α) : Except (Bool × SendfileRet) SendfilePlan :=
  match c.tofile with
  | .failed code => .error (false, { err := some (.tofile code) })
  | .file opened =>
    match c.offsetArg with
    | .error e => .error (opened, { err := some e })
    | .ok offset =>
      match c.bytesArg offset with
      | .error e => .error (opened, { err := some e })
      | .ok bytes =>
        if bytes = 0 then .error (opened, { len := some 0 })
        else
          match c.sndbuf with
          | .failed code => .error (opened, { err := some (.sndbuf code) })
          | .size n _ => .ok ⟨opened, offset, bytes, min n defaultSendBufsiz⟩

def sendfile (c : SendfileCall α) (ts : List SendTurn) :
    List (SendfileEvent α) × Option SendfileRet :=
  match sendfilePlan c with
  | .error (opened, ret) => (closeFile opened, some ret)
  | .ok p => sendLoop c.file p.opened p.bufsiz p.offset p.bytes 0 [] ts

end LuaNet.Tls
