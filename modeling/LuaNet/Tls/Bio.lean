import LuaNet.Lib.Run
import LuaNet.Tls.Zring

/-! The ring-buffer BIO of `tls_bio.c`: a receive ring and a transmit ring over one descriptor.
OpenSSL reads and writes the rings through the BIO callbacks, Lua drives them through
`fill`/`space`/`commit` and `drain`/`peek`/`consume`. The kernel is a list of answers; a call
that has used up its list is still waiting for the next answer. -/

namespace LuaNet.Tls

open LuaNet.Lib

inductive Errno
  | eintr | eagain | ewouldblock | einval | enobufs | other (code : Nat)
deriving DecidableEq, Repr

structure IoRet where
  n : Option Nat := none
  err : Option (Errno × String) := none
  again : Bool := false
  eof : Bool := false
deriving DecidableEq

/-- An answer of send(2): it accepts at most what it was offered. -/
inductive SendResult
  | accepted (n : Nat)
  | failed (e : Errno)
deriving DecidableEq

/-- An answer of read(2): it delivers at most what there is room for, and no data is EOF. -/
inductive ReadResult
  | data (bs : List Byte)
  | failed (e : Errno)
deriving DecidableEq

/-- What happens at the borders of the BIO: bytes handed over by `bio_tx_write`, accepted by
send(2) or consumed by Lua; calls of read(2), bytes committed by Lua or given to OpenSSL. -/
inductive BioEvent
  | written (bs : List Byte)
  | sent (bs : List Byte)
  | consumed (bs : List Byte)
  | read (r : ReadResult)
  | committed (bs : List Byte)
  | delivered (bs : List Byte)
deriving DecidableEq

structure TlsBioBuf where
  buf : Zring
  mem : Bool
  rxEof : Bool

structure TlsBio where
  fd : Int
  rx : TlsBioBuf
  tx : TlsBioBuf

structure RingCap extends SizeT where
  pos : 0 < val

def bioBufInit (cap : RingCap) : TlsBioBuf :=
  { buf := zringInit (fun _ => 0) cap.val, mem := true, rxEof := false }

def tlsBioNew (fd : Nat) (cap : RingCap) : TlsBio :=
  { fd := fd, rx := bioBufInit cap, tx := bioBufInit cap }

structure BioRc where
  rc : Int
  retry : Bool := false
deriving DecidableEq

def bioTxWrite (b : TlsBioBuf) (buf : List Byte) : BioRc × TlsBioBuf :=
  if buf.length = 0 then ({ rc := 0 }, b)
  else
    match zringSpace b.buf with
    | none => ({ rc := -1, retry := true }, b)
    | some (dst, space) =>
      let n := if buf.length < space then buf.length else space
      ({ rc := n }, { b with buf := (zringCommit (b.buf.store dst (buf.take n)) n).1 })

def bioRxRead (b : TlsBioBuf) (len : Int) : BioRc × List Byte × TlsBioBuf :=
  if len ≤ 0 then ({ rc := 0 }, [], b)
  else
    match zringData b.buf with
    | none =>
      if b.rxEof then ({ rc := 0 }, [], b)
      else ({ rc := -1, retry := true }, [], b)
    | some (data, avail) =>
      let n := if len.toNat < avail then len.toNat else avail
      ({ rc := n }, b.buf.load data n, { b with buf := (zringConsume b.buf n).1 })

def peekLua (bio : TlsBio) : Except (Errno × String) (Option Nat × Nat) :=
  if bio.fd < 0 then .error (.einval, "peek")
  else
    match zringData bio.tx.buf with
    | none => .ok (none, 0)
    | some (ptr, len) => .ok (some ptr, len)

def consumeLua (bio : TlsBio) (n : Int) : Except String IoRet × TlsBio :=
  if bio.fd < 0 then (.ok { err := some (.einval, "consume") }, bio)
  else if n < 0 ∨ (zringConsume bio.tx.buf n.toNat).2 ≠ 0 then
    (.error s!"consume({n}): out of range", bio)
  else
    (.ok {}, { bio with tx := { bio.tx with buf := (zringConsume bio.tx.buf n.toNat).1 } })

def drainLoop (b : TlsBioBuf) (total : Nat) :
    List SendResult → TlsBioBuf × List BioEvent × Option IoRet
  | [] =>
    match zringData b.buf with
    | none => (b, [], some { n := some total })
    | some _ => (b, [], none)
  | r :: rs =>
    match zringData b.buf with
    | none => (b, [], some { n := some total })
    | some (data, len) =>
      match r with
      | .failed e =>
        if e = .eintr then drainLoop b total rs
        else if e = .eagain ∨ e = .ewouldblock then
          (b, [], some { n := some total, again := true })
        else (b, [], some { err := some (e, "drain") })
      | .accepted n =>
        let n := min n len
        if n = 0 then (b, [], some { n := some total, again := true })
        else
          -- a short send is tried again with what is left
          let (b', es, ret) :=
            drainLoop { b with buf := (zringConsume b.buf n).1 } (total + n) rs
          (b', .sent (b.buf.load data n) :: es, ret)

def drainLua (bio : TlsBio) (rs : List SendResult) : TlsBio × List BioEvent × Option IoRet :=
  if bio.fd < 0 then (bio, [], some { err := some (.einval, "drain") })
  else
    let (tx, es, ret) := drainLoop bio.tx 0 rs
    ({ bio with tx := tx }, es, ret)

def spaceLua (bio : TlsBio) : Except (Errno × String) (Option Nat × Nat) :=
  if bio.fd < 0 then .error (.einval, "space")
  else
    match zringSpace bio.rx.buf with
    | none => .ok (none, 0)
    | some (ptr, len) => .ok (some ptr, len)

def commitLua (bio : TlsBio) (n : Int) : Except String IoRet × TlsBio :=
  if bio.fd < 0 then (.ok { err := some (.einval, "commit") }, bio)
  else if n < 0 ∨ (zringCommit bio.rx.buf n.toNat).2 ≠ 0 then
    (.error s!"commit({n}): out of range", bio)
  else
    (.ok {}, { bio with rx := { bio.rx with buf := (zringCommit bio.rx.buf n.toNat).1 } })

def fillLoop (b : TlsBioBuf) (total space len : Nat) :
    List ReadResult → TlsBioBuf × List BioEvent × Option IoRet
  | [] => (b, [], none)
  | .failed e :: rs =>
    if e = .eintr then
      let (b', es, ret) := fillLoop b total space len rs
      (b', .read (.failed e) :: es, ret)
    else if e = .eagain ∨ e = .ewouldblock then
      (b, [.read (.failed e)],
        some (if total = 0 then { again := true } else { n := some total }))
    else (b, [.read (.failed e)], some { err := some (e, "fill") })
  | .data bs :: rs =>
    let bs := bs.take len
    if bs.length = 0 then
      ({ b with rxEof := true }, [.read (.data [])],
        some { n := if total = 0 then none else some total, eof := true })
    else
      let buf := (zringCommit (b.buf.store space bs) bs.length).1
      match zringSpace buf with
      -- the room may go on at the other end of the ring
      | some (space', len') =>
        let (b', es, ret) := fillLoop { b with buf := buf } (total + bs.length) space' len' rs
        (b', .read (.data bs) :: es, ret)
      | none => ({ b with buf := buf }, [.read (.data bs)], some { n := some (total + bs.length) })

def fillLua (bio : TlsBio) (rs : List ReadResult) : TlsBio × List BioEvent × Option IoRet :=
  if bio.fd < 0 then (bio, [], some { err := some (.einval, "fill") })
  else if bio.rx.rxEof then (bio, [], some { eof := true })
  else
    match zringSpace bio.rx.buf with
    | none => (bio, [], some { err := some (.enobufs, "fill") })
    | some (space, len) =>
      let (rx, es, ret) := fillLoop bio.rx 0 space len rs
      ({ bio with rx := rx }, es, ret)

def tlsBioFree (bio : TlsBio) : TlsBio :=
  { fd := -1
    rx := { bio.rx with buf := zringInit (fun _ => 0) 0, mem := false }
    tx := { bio.tx with buf := zringInit (fun _ => 0) 0, mem := false } }

/-! The BIO as a machine: OpenSSL and Lua call it in any order. -/

inductive BioOp
  | txWrite (buf : List Byte)
  | drain (rs : List SendResult)
  | peek
  | consume (n : Int)
  | rxRead (len : Int)
  | fill (rs : List ReadResult)
  | space
  /-- Lua fills the segment that `space` reports. -/
  | poke (bs : List Byte)
  | commit (n : Int)

def bioStep (bio : TlsBio) : BioOp → TlsBio × List BioEvent
  | .txWrite buf =>
    let (ret, tx) := bioTxWrite bio.tx buf
    ({ bio with tx := tx }, [.written (buf.take ret.rc.toNat)])
  | .drain rs =>
    let (bio', es, _) := drainLua bio rs
    (bio', es)
  | .peek => (bio, [])
  | .consume n =>
    match consumeLua bio n with
    | (.ok _, bio') => (bio', [.consumed (bio.tx.buf.load bio.tx.buf.head n.toNat)])
    | (.error _, bio') => (bio', [])
  | .rxRead len =>
    let (_, bs, rx) := bioRxRead bio.rx len
    ({ bio with rx := rx }, [.delivered bs])
  | .fill rs =>
    let (bio', es, _) := fillLua bio rs
    (bio', es)
  | .space => (bio, [])
  | .poke bs =>
    match zringSpace bio.rx.buf with
    | none => (bio, [])
    | some (ptr, len) =>
      ({ bio with rx := { bio.rx with buf := bio.rx.buf.store ptr (bs.take len) } }, [])
  | .commit n =>
    match commitLua bio n with
    | (.ok _, bio') => (bio', [.committed (bio.rx.buf.load bio.rx.buf.tail n.toNat)])
    | (.error _, bio') => (bio', [])

/-- A BIO that has not been freed: an open descriptor, and a valid ring on the given side. -/
structure TlsBio.Live (side : TlsBio → TlsBioBuf) (bio : TlsBio) : Prop where
  fd_nonneg : 0 ≤ bio.fd
  valid : (side bio).buf.Valid

theorem tlsBioNew_live_tx (fd : Nat) (cap : RingCap) : (tlsBioNew fd cap).Live TlsBio.tx :=
  ⟨Int.natCast_nonneg fd, zringInit_valid _ cap.pos cap.fits⟩

theorem tlsBioNew_live_rx (fd : Nat) (cap : RingCap) : (tlsBioNew fd cap).Live TlsBio.rx :=
  ⟨Int.natCast_nonneg fd, zringInit_valid _ cap.pos cap.fits⟩

theorem TlsBio.Live.not_freed {side : TlsBio → TlsBioBuf} {bio : TlsBio} (h : bio.Live side) :
    ¬ bio.fd < 0 :=
  Int.not_lt.mpr h.fd_nonneg

section Frames

theorem drainLoop_sent (b : TlsBioBuf) (total : Nat) (rs : List SendResult) :
    ∀ e ∈ (drainLoop b total rs).2.1, ∃ bs, e = .sent bs := by
  have hnil : ∀ e ∈ ([] : List BioEvent), ∃ bs, e = .sent bs :=
    fun e he => absurd he List.not_mem_nil
  induction rs generalizing b total with
  | nil =>
    unfold drainLoop
    split
    · exact hnil
    · exact hnil
  | cons r rs ih =>
    unfold drainLoop
    split
    · exact hnil
    · cases r with
      | failed e =>
        simp only
        split
        · exact ih _ _
        · split
          · exact hnil
          · exact hnil
      | accepted n =>
        simp only
        split
        · exact hnil
        · exact List.forall_mem_cons.mpr ⟨⟨_, rfl⟩, ih _ _⟩

theorem drainLua_frame (bio : TlsBio) (rs : List SendResult) :
    (drainLua bio rs).1.rx = bio.rx ∧ (drainLua bio rs).1.fd = bio.fd ∧
      ∀ e ∈ (drainLua bio rs).2.1, ∃ bs, e = .sent bs := by
  unfold drainLua
  split
  · exact ⟨rfl, rfl, fun e he => absurd he List.not_mem_nil⟩
  · exact ⟨rfl, rfl, drainLoop_sent _ _ _⟩

theorem consumeLua_frame (bio : TlsBio) (n : Int) :
    (consumeLua bio n).2.rx = bio.rx ∧ (consumeLua bio n).2.fd = bio.fd := by
  unfold consumeLua
  split
  · exact ⟨rfl, rfl⟩
  · split
    · exact ⟨rfl, rfl⟩
    · exact ⟨rfl, rfl⟩

theorem fillLoop_reads (b : TlsBioBuf) (total space len : Nat) (rs : List ReadResult) :
    ∀ e ∈ (fillLoop b total space len rs).2.1, ∃ r, e = .read r := by
  induction rs generalizing b total space len with
  | nil => exact fun e he => absurd he List.not_mem_nil
  | cons r rs ih =>
    have hone (r' : ReadResult) : ∀ e ∈ [BioEvent.read r'], ∃ r, e = .read r :=
      fun e he => ⟨r', List.mem_singleton.mp he⟩
    have hcons (r' : ReadResult) {es : List BioEvent} (h : ∀ e ∈ es, ∃ r, e = .read r) :
        ∀ e ∈ BioEvent.read r' :: es, ∃ r, e = .read r :=
      List.forall_mem_cons.mpr ⟨⟨r', rfl⟩, h⟩
    cases r with
    | failed e =>
      unfold fillLoop
      split
      · exact hcons _ (ih _ _ _ _)
      · split
        · exact hone _
        · exact hone _
    | data bs =>
      unfold fillLoop
      simp only
      split
      · exact hone _
      · split
        · exact hcons _ (ih _ _ _ _)
        · exact hone _

theorem fillLua_frame (bio : TlsBio) (rs : List ReadResult) :
    (fillLua bio rs).1.tx = bio.tx ∧ (fillLua bio rs).1.fd = bio.fd ∧
      ∀ e ∈ (fillLua bio rs).2.1, ∃ r, e = .read r := by
  have hnil : ∀ e ∈ ([] : List BioEvent), ∃ r, e = .read r := fun e he => absurd he List.not_mem_nil
  unfold fillLua
  split
  · exact ⟨rfl, rfl, hnil⟩
  · split
    · exact ⟨rfl, rfl, hnil⟩
    · split
      · exact ⟨rfl, rfl, hnil⟩
      · exact ⟨rfl, rfl, fillLoop_reads _ _ _ _ _⟩

theorem commitLua_frame (bio : TlsBio) (n : Int) :
    (commitLua bio n).2.tx = bio.tx ∧ (commitLua bio n).2.fd = bio.fd := by
  unfold commitLua
  split
  · exact ⟨rfl, rfl⟩
  · split
    · exact ⟨rfl, rfl⟩
    · exact ⟨rfl, rfl⟩

end Frames
end LuaNet.Tls
