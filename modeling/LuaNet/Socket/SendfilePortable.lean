import LuaNet.Lib.Run
import LuaNet.Lib.Slice
import LuaNet.Lib.Turns
import LuaNet.Socket.SyncWrite
import LuaNet.Tls.Sendfile

/-! `sendfile_lua` of platforms without a sendfile(2): the file is copied through a staging buffer,
with pread(2) and send(2). -/

namespace LuaNet.Socket

open LuaNet.Lib
open LuaNet.Tls (SendResult)

inductive PreadResult
  | data (n : Nat)
  | failed (e : Tls.Errno)
deriving DecidableEq

structure CopyTurn where
  pread : PreadResult
  send : SendResult

/-- The locals of `sendfile_lua`. `buf` is what the last pread(2) has left in the staging buffer,
which has room for `room` bytes; `chunk` points into it. -/
structure CopyState where
  len : Nat
  offset : Nat
  room : Nat
  bufsize : Nat
  buf : Bytes := []
  chunk : Nat := 0
  nread : Nat := 0
  sent : Nat := 0

inductive CopyPhase
  | readAgain (s : CopyState)
  | sendAgain (s : CopyState)
  | returned (r : Except LuaError NativeSend)

/-- A pread(2) of `count` bytes into the buffer, and a send(2) of `count` bytes from `chunk` on, of
which the socket took some. -/
inductive CopyEvent
  | pread (count room : Nat)
  | send (chunk count filled room : Nat) (took : Bytes)
deriving DecidableEq

/-- The arguments of a call, and what fstat(2) and the socket option tell: the size of the file and
that of the send buffer. -/
structure CopyCall where
  fd : Int
  size : Int
  offset : Int
  stat : Except Tls.Errno Nat
  sndbuf : Tls.Sndbuf
  allocated : Bool

def sendfileError (e : Tls.Errno) (sent : Nat) : NativeSend :=
  { len := if 0 < sent then some sent else none, err := some (.errno e "sendfile") }

def CopyCall.start (c : CopyCall) : CopyPhase :=
  if !checkSendfileArgs c.fd c.size c.offset then
    .returned (.ok { err := some (.errno .einval "sendfile") })
  else
    match c.stat with
    | .error e => .returned (.ok (sendfileError e 0))
    | .ok tail =>
      let offset := c.offset.toNat
      if tail ≤ offset then .returned (.ok { len := some 0 })
      else
        let len := if tail - offset < c.size.toNat then tail - offset else c.size.toNat
        -- no more is staged than the socket can take at once
        let bufsize := match c.sndbuf with
          | .failed _ => len
          | .size sndbuf _ => if sndbuf < len then sndbuf else len
        if !c.allocated then .returned (.error memoryError)
        else .readAgain { len := len, offset := offset, room := bufsize, bufsize := bufsize }

def readAgain (file : Bytes) (s : CopyState) (ans : PreadResult) : CopyPhase × List CopyEvent :=
  let event := CopyEvent.pread s.bufsize s.room
  match ans with
  | .failed e =>
    (.returned (.ok (if e = .eagain || e = .eintr then { len := some s.sent, again := true }
      else sendfileError e s.sent)), [event])
  | .data n =>
    let data := slice file s.offset (min n s.bufsize)
    if data.length = 0 then (.returned (.ok { len := some s.sent }), [event])
    else
      (.sendAgain { s with
        offset := s.offset + data.length, buf := data, chunk := 0, nread := data.length }, [event])

def sendAgain (s : CopyState) (ans : SendResult) : CopyPhase × List CopyEvent :=
  let event (took : Nat) :=
    CopyEvent.send s.chunk s.nread s.buf.length s.room (slice s.buf s.chunk took)
  match ans with
  | .failed e =>
    (.returned (.ok (if isAgain e then { len := some s.sent, again := true }
      else sendfileError e s.sent)), [event 0])
  | .accepted n =>
    let nsent := min n s.nread
    let s' := { s with sent := s.sent + nsent }
    if nsent < s.nread then
      (.sendAgain { s' with chunk := s.chunk + nsent, nread := s.nread - nsent }, [event nsent])
    else if s'.sent < s.len then
      let bufsize := if s.len - s'.sent < s.bufsize then s.len - s'.sent else s.bufsize
      (.readAgain { s' with bufsize := bufsize }, [event nsent])
    else (.returned (.ok { len := some s'.sent }), [event nsent])

def copyStep (file : Bytes) : CopyPhase → CopyTurn → CopyPhase × List CopyEvent
  | .readAgain s, t => readAgain file s t.pread
  | .sendAgain s, t => sendAgain s t.send
  | .returned r, _ => (.returned r, [])

def portableSendfile (file : Bytes) (c : CopyCall) (ts : List CopyTurn) :
    CopyPhase × List CopyEvent :=
  runs (copyStep file) c.start ts

def CopyEvent.took : CopyEvent → Bytes
  | .pread _ _ => []
  | .send _ _ _ _ took => took

def tookBytes (es : List CopyEvent) : Bytes := es.flatMap CopyEvent.took

def CopyEvent.InBuffer : CopyEvent → Prop
  | .pread count room => 0 < count ∧ count ≤ room
  | .send chunk count filled room took =>
    0 < count ∧ chunk + count ≤ filled ∧ filled ≤ room ∧ took.length ≤ count

/-- What an event tells is what its turn has answered. -/
def CopyEvent.Answered : CopyEvent → CopyTurn → Prop
  | .pread _ _, _ => True
  | .send _ count _ _ took, t =>
    match t.send with
    | .accepted n => took.length = min n count
    | .failed _ => took = []

def CopyPhase.sent : CopyPhase → Nat
  | .readAgain s => s.sent
  | .sendAgain s => s.sent
  | .returned (.ok r) => r.len.getD 0
  | .returned (.error _) => 0

def CopyPhase.isReturned : CopyPhase → Bool
  | .returned _ => true
  | _ => false

/-- What has happened so far is a copy of the first `n` bytes from `offset` on. -/
structure Copied (file : Bytes) (offset size n : Nat) (es : List CopyEvent) : Prop where
  took : tookBytes es = slice file offset n
  length : (tookBytes es).length = n
  le : n ≤ size
  inBuffer : ∀ e ∈ es, e.InBuffer

structure Reading (offset size : Nat) (s : CopyState) : Prop where
  position : s.offset = offset + s.sent
  bufsize : 0 < s.bufsize
  rest : s.bufsize ≤ s.len - s.sent
  room : s.bufsize ≤ s.room
  len : s.len ≤ size

structure Sending (file : Bytes) (offset size : Nat) (s : CopyState) : Prop where
  position : s.offset = offset + s.sent + s.nread
  chunk : slice s.buf s.chunk s.nread = slice file (offset + s.sent) s.nread
  filled : s.chunk + s.nread = s.buf.length
  nread : 0 < s.nread
  rest : s.nread ≤ s.len - s.sent
  buffer : s.buf.length ≤ s.room
  bufsize : 0 < s.bufsize
  room : s.bufsize ≤ s.room
  len : s.len ≤ size

def CopyInv (file : Bytes) (offset size : Nat) (p : CopyPhase) (es : List CopyEvent) : Prop :=
  Copied file offset size p.sent es ∧
    match p with
    | .readAgain s => Reading offset size s
    | .sendAgain s => Sending file offset size s
    | .returned _ => True

section Steps

variable {file : Bytes} {offset size : Nat} {s : CopyState} {es : List CopyEvent}

theorem tookBytes_concat (es : List CopyEvent) (e : CopyEvent) :
    tookBytes (es ++ [e]) = tookBytes es ++ e.took := by
  simp only [tookBytes, List.flatMap_append, List.flatMap_cons, List.flatMap_nil, List.append_nil]

theorem Copied.concat {n k : Nat} {e : CopyEvent} (h : Copied file offset size n es)
    (htook : e.took = slice file (offset + n) k) (hlength : e.took.length = k)
    (hle : n + k ≤ size) (he : e.InBuffer) : Copied file offset size (n + k) (es ++ [e]) where
  took := by
    rw [tookBytes_concat, h.took, htook, slice_add]
  length := by
    rw [tookBytes_concat, List.length_append, h.length, hlength]
  le := hle
  inBuffer := by
    intro e' he'
    rcases List.mem_append.1 he' with hold | hnew
    · exact h.inBuffer e' hold
    · rw [List.mem_singleton.1 hnew]
      exact he

theorem Copied.quiet {n : Nat} {e : CopyEvent} (h : Copied file offset size n es)
    (htook : e.took = []) (he : e.InBuffer) : Copied file offset size n (es ++ [e]) := by
  have hlength : e.took.length = 0 := by rw [htook]; rfl
  exact h.concat (by rw [htook, slice_zero]) hlength h.le he

theorem sendfileError_sent (e : Tls.Errno) (n : Nat) : (sendfileError e n).len.getD 0 = n := by
  unfold sendfileError
  rcases Nat.eq_zero_or_pos n with rfl | hpos
  · rfl
  · simp only [hpos, if_true]
    rfl

theorem copyInv_readAgain (hcopied : Copied file offset size s.sent es)
    (h : Reading offset size s) (ans : PreadResult) :
    CopyInv file offset size (readAgain file s ans).1 (es ++ (readAgain file s ans).2) := by
  have hread : Copied file offset size s.sent (es ++ [.pread s.bufsize s.room]) :=
    hcopied.quiet rfl ⟨h.bufsize, h.room⟩
  cases ans with
  | failed e =>
    refine ⟨?_, trivial⟩
    unfold readAgain
    simp only [CopyPhase.sent]
    split
    · exact hread
    · rw [sendfileError_sent]
      exact hread
  | data n =>
    unfold readAgain
    simp only
    split
    · exact ⟨hread, trivial⟩
    next hdata =>
      have hcount : (slice file s.offset (min n s.bufsize)).length ≤ s.bufsize := by
        rw [slice_length]
        exact (Nat.min_le_left _ _).trans (Nat.min_le_right _ _)
      have hwhole : slice file s.offset (slice file s.offset (min n s.bufsize)).length =
          slice file s.offset (min n s.bufsize) := by
        rw [slice_length, slice_min]
      refine ⟨hread, ?_, ?_, ?_, Nat.pos_of_ne_zero hdata, hcount.trans h.rest,
        hcount.trans h.room, h.bufsize, h.room, h.len⟩
      · show s.offset + _ = _
        rw [h.position]
      · show slice (slice file s.offset (min n s.bufsize)) 0 _ = slice file (offset + s.sent) _
        rw [← h.position, hwhole, slice, List.drop_zero, List.take_length]
      · exact Nat.zero_add _

theorem Sending.took (h : Sending file offset size s) {k : Nat} (hk : k ≤ s.nread) :
    slice s.buf s.chunk k = slice file (offset + s.sent) k ∧
      (slice s.buf s.chunk k).length = k := by
  have hfilled := h.filled
  constructor
  · have hfront := congrArg (List.take k) h.chunk
    rwa [take_slice, take_slice, Nat.min_eq_left hk] at hfront
  · rw [slice_length_of_le (by omega)]

theorem copyInv_sendAgain (hcopied : Copied file offset size s.sent es)
    (h : Sending file offset size s) (ans : SendResult) :
    CopyInv file offset size (sendAgain s ans).1 (es ++ (sendAgain s ans).2) := by
  have hrest := h.rest
  have hnread := h.nread
  have hlen := h.len
  have hsend {k : Nat} (hk : k ≤ s.nread) : Copied file offset size (s.sent + k)
      (es ++ [.send s.chunk s.nread s.buf.length s.room (slice s.buf s.chunk k)]) := by
    obtain ⟨htook, hlength⟩ := h.took hk
    refine hcopied.concat htook hlength (by omega) ⟨hnread, Nat.le_of_eq h.filled, h.buffer, ?_⟩
    rw [hlength]
    exact hk
  cases ans with
  | failed e =>
    refine ⟨?_, trivial⟩
    have hnone := hsend (Nat.zero_le _)
    unfold sendAgain
    simp only [CopyPhase.sent]
    split
    · exact hnone
    · rw [sendfileError_sent]
      exact hnone
  | accepted n =>
    have hk : min n s.nread ≤ s.nread := Nat.min_le_right _ _
    unfold sendAgain
    simp only
    split
    -- a part of the chunk was taken: the rest is sent from where it lies
    next hpart =>
      have hfilled := h.filled
      refine ⟨hsend hk, ?_, ?_, ?_, ?_, ?_, h.buffer, h.bufsize, h.room, hlen⟩
      · show s.offset = offset + (s.sent + min n s.nread) + (s.nread - min n s.nread)
        rw [h.position]
        omega
      · have hback := congrArg (List.drop (min n s.nread)) h.chunk
        rwa [drop_slice, drop_slice, Nat.add_assoc] at hback
      · show s.chunk + min n s.nread + (s.nread - min n s.nread) = s.buf.length
        omega
      · show 0 < s.nread - min n s.nread
        omega
      · show s.nread - min n s.nread ≤ s.len - (s.sent + min n s.nread)
        omega
    next hall =>
      -- the chunk is through, and the next one is read unless it was the last
      have heq : min n s.nread = s.nread := by omega
      split
      next hmore =>
        have hbufsize := h.bufsize
        have hroom := h.room
        refine ⟨hsend hk, ?_, ?_, ?_, ?_, hlen⟩
        · show s.offset = offset + (s.sent + min n s.nread)
          rw [h.position, heq, Nat.add_assoc]
        · simp only
          split <;> omega
        · simp only
          split <;> omega
        · simp only
          split <;> omega
      · exact ⟨hsend hk, trivial⟩

theorem checkSendfileArgs_pos {fd size off : Int} (h : checkSendfileArgs fd size off = true) :
    0 < size ∧ 0 ≤ off := by
  simp only [checkSendfileArgs, Bool.not_eq_true', Bool.or_eq_false_iff, decide_eq_false_iff_not]
    at h
  omega

theorem reading_start {offset size len : Nat} (sndbuf : Tls.Sndbuf) (hpos : 0 < len)
    (hlen : len ≤ size) :
    let bufsize := match sndbuf with
      | .failed _ => len
      | .size sndbuf _ => if sndbuf < len then sndbuf else len
    Reading offset size { len := len, offset := offset, room := bufsize, bufsize := bufsize } := by
  cases sndbuf with
  | failed code => exact ⟨rfl, hpos, Nat.le_refl _, Nat.le_refl _, hlen⟩
  | size n hn =>
    refine ⟨rfl, ?_, ?_, Nat.le_refl _, hlen⟩
    · simp only
      split
      · exact hn
      · exact hpos
    · simp only [Nat.sub_zero]
      split <;> omega

theorem copyInv_start (file : Bytes) (c : CopyCall) :
    CopyInv file c.offset.toNat c.size.toNat c.start [] := by
  have hnothing (n : Nat) : Copied file n c.size.toNat 0 [] :=
    ⟨(slice_zero file n).symm, rfl, Nat.zero_le _, fun e he => absurd he List.not_mem_nil⟩
  unfold CopyCall.start
  split
  · exact ⟨hnothing _, trivial⟩
  next hargs =>
    rw [Bool.not_eq_true', Bool.not_eq_false] at hargs
    have hsize : 0 < c.size.toNat := Int.pos_iff_toNat_pos.1 (checkSendfileArgs_pos hargs).1
    split
    · exact ⟨hnothing _, trivial⟩
    simp only
    split
    · exact ⟨hnothing _, trivial⟩
    next tail _ hbefore =>
      split
      · exact ⟨hnothing _, trivial⟩
      · have hlen : 0 < (if tail - c.offset.toNat < c.size.toNat then tail - c.offset.toNat
              else c.size.toNat) ∧
            (if tail - c.offset.toNat < c.size.toNat then tail - c.offset.toNat
              else c.size.toNat) ≤ c.size.toNat := by
          split <;> omega
        exact ⟨hnothing _, reading_start c.sndbuf hlen.1 hlen.2⟩

theorem copyInv_step (p : CopyPhase) (t : CopyTurn) (h : CopyInv file offset size p es) :
    CopyInv file offset size (copyStep file p t).1 (es ++ (copyStep file p t).2) := by
  cases p with
  | readAgain s => exact copyInv_readAgain h.1 h.2 t.pread
  | sendAgain s => exact copyInv_sendAgain h.1 h.2 t.send
  | returned r =>
    show CopyInv file offset size (.returned r) (es ++ [])
    rw [List.append_nil]
    exact h

theorem copyStep_answered {p : CopyPhase} (h : CopyInv file offset size p es)
    (hgoing : p.isReturned = false) (t : CopyTurn) :
    ∃ e, (copyStep file p t).2 = [e] ∧ e.Answered t := by
  cases p with
  | returned r => cases hgoing
  | readAgain s =>
    refine ⟨.pread s.bufsize s.room, ?_, trivial⟩
    show (readAgain file s t.pread).2 = _
    unfold readAgain
    split
    · rfl
    · simp only
      split <;> rfl
  | sendAgain s =>
    obtain ⟨-, hsending⟩ := h
    show ∃ e, (sendAgain s t.send).2 = [e] ∧ e.Answered t
    cases hans : t.send with
    | failed e =>
      refine ⟨_, rfl, ?_⟩
      rw [CopyEvent.Answered, hans]
      exact slice_zero _ _
    | accepted n =>
      refine ⟨.send s.chunk s.nread s.buf.length s.room (slice s.buf s.chunk (min n s.nread)),
        ?_, ?_⟩
      · unfold sendAgain
        simp only
        split
        · rfl
        · split <;> rfl
      · rw [CopyEvent.Answered, hans]
        exact (hsending.took (Nat.min_le_right _ _)).2

theorem copyRuns_returned (file : Bytes) {p : CopyPhase} (h : p.isReturned = true)
    (ts : List CopyTurn) : (runs (copyStep file) p ts).1 = p ∧ (runs (copyStep file) p ts).2 = [] := by
  cases p with
  | readAgain s => cases h
  | sendAgain s => cases h
  | returned r =>
    induction ts with
    | nil => exact ⟨rfl, rfl⟩
    | cons t ts ih => exact ih

theorem copyRuns_answered {p : CopyPhase} (h : CopyInv file offset size p es)
    (ts : List CopyTurn) :
    ∃ used rest, ts = used ++ rest ∧
      List.Forall₂ CopyEvent.Answered (runs (copyStep file) p ts).2 used ∧
      (rest ≠ [] → (runs (copyStep file) p ts).1.isReturned = true) := by
  induction ts generalizing p es with
  | nil => exact ⟨[], [], rfl, .nil, fun hne => absurd rfl hne⟩
  | cons t ts ih =>
    cases hgoing : p.isReturned with
    | true =>
      obtain ⟨hsame, hquiet⟩ := copyRuns_returned file hgoing (t :: ts)
      exact ⟨[], t :: ts, rfl, by rw [hquiet]; exact .nil, fun _ => by rw [hsame]; exact hgoing⟩
    | false =>
      obtain ⟨e, hevent, hanswered⟩ := copyStep_answered h hgoing t
      obtain ⟨used, rest, rfl, hall, hrest⟩ := ih (copyInv_step p t h)
      refine ⟨t :: used, rest, rfl, ?_, hrest⟩
      rw [runs, hevent]
      exact .cons hanswered hall

theorem copyInv_run (file : Bytes) (c : CopyCall) (ts : List CopyTurn) :
    CopyInv file c.offset.toNat c.size.toNat (portableSendfile file c ts).1
      ([] ++ (portableSendfile file c ts).2) :=
  runs_history (fun p _ t h => copyInv_step p t h) (copyInv_start file c) ts

/-- What the socket took, call by call, is what the answers of send(2) say, and the call goes on
until it returns. -/
theorem portableSendfile_answered (file : Bytes) (c : CopyCall) (ts : List CopyTurn) :
    ∃ used rest, ts = used ++ rest ∧
      List.Forall₂ CopyEvent.Answered (portableSendfile file c ts).2 used ∧
      (rest ≠ [] → (portableSendfile file c ts).1.isReturned = true) :=
  copyRuns_answered (copyInv_start file c) ts

end Steps

/-! Termination. -/

def CopyPhase.turnsLeft : CopyPhase → Nat
  | .readAgain s => 2 * (s.len - s.sent)
  | .sendAgain s => 2 * (s.len - s.sent) - 1
  | .returned _ => 0

def CopyTurn.Progresses (t : CopyTurn) : Prop := ∀ n, t.send = .accepted n → 0 < n

theorem turnsLeft_step {file : Bytes} {offset size : Nat} {p : CopyPhase} {es : List CopyEvent}
    (h : CopyInv file offset size p es) (hgoing : p.isReturned = false) {t : CopyTurn}
    (ht : t.Progresses) : (copyStep file p t).1.turnsLeft < p.turnsLeft := by
  cases p with
  | returned r => exact absurd hgoing nofun
  | readAgain s =>
    obtain ⟨-, hreading⟩ := h
    have hbufsize := hreading.bufsize
    have hrest := hreading.rest
    have hpos : 0 < 2 * (s.len - s.sent) := by omega
    show (readAgain file s t.pread).1.turnsLeft < 2 * (s.len - s.sent)
    unfold readAgain
    split
    · exact hpos
    · simp only
      split
      · exact hpos
      · show 2 * (s.len - s.sent) - 1 < 2 * (s.len - s.sent)
        omega
  | sendAgain s =>
    obtain ⟨-, hsending⟩ := h
    have hnread := hsending.nread
    have hrest := hsending.rest
    have hpos : 0 < 2 * (s.len - s.sent) - 1 := by omega
    show (sendAgain s t.send).1.turnsLeft < 2 * (s.len - s.sent) - 1
    cases hans : t.send with
    | failed e => exact hpos
    | accepted n =>
      have hn := ht n hans
      unfold sendAgain
      simp only
      split
      · show 2 * (s.len - (s.sent + min n s.nread)) - 1 < _
        omega
      · split
        · show 2 * (s.len - (s.sent + min n s.nread)) < _
          omega
        · exact hpos

theorem portableSendfile_returns (file : Bytes) (c : CopyCall) {turns : Nat → CopyTurn}
    (hturns : ∀ i, (turns i).Progresses) (k : Nat) :
    (portableSendfile file c (firstTurns turns k)).1.turnsLeft + k ≤ c.start.turnsLeft ∨
      (portableSendfile file c (firstTurns turns k)).1.isReturned = true := by
  -- each turn takes one from the bound, or the call has returned
  induction k with
  | zero => exact Or.inl (Nat.le_refl _)
  | succ k ih =>
    have hsucc : firstTurns turns (k + 1) = firstTurns turns k ++ [turns k] := by
      rw [firstTurns, List.range_succ, List.map_append]
      rfl
    have hrun : (portableSendfile file c (firstTurns turns (k + 1))).1 =
        (copyStep file (portableSendfile file c (firstTurns turns k)).1 (turns k)).1 := by
      rw [hsucc, portableSendfile, runs_append]
      rfl
    rw [hrun]
    cases hreturned : (portableSendfile file c (firstTurns turns k)).1.isReturned with
    | true =>
      right
      cases hphase : (portableSendfile file c (firstTurns turns k)).1 with
      | returned r => rfl
      | readAgain s => rw [hphase] at hreturned; exact absurd hreturned nofun
      | sendAgain s => rw [hphase] at hreturned; exact absurd hreturned nofun
    | false =>
      left
      have hless := turnsLeft_step (copyInv_run file c (firstTurns turns k)) hreturned (hturns k)
      have hbound := ih.resolve_right (by rw [hreturned]; exact nofun)
      omega

theorem start_turnsLeft (c : CopyCall) : c.start.turnsLeft ≤ 2 * c.size.toNat := by
  have hinv := copyInv_start [] c
  cases hstart : c.start with
  | readAgain s =>
    rw [hstart] at hinv
    have hlen := hinv.2.len
    show 2 * (s.len - s.sent) ≤ _
    omega
  | sendAgain s =>
    rw [hstart] at hinv
    have hlen := hinv.2.len
    show 2 * (s.len - s.sent) - 1 ≤ _
    omega
  | returned r => exact Nat.zero_le _

theorem portableSendfile_returned (file : Bytes) (c : CopyCall) (turns : Nat → CopyTurn)
    (hturns : ∀ i, (turns i).Progresses) :
    (portableSendfile file c (firstTurns turns (2 * c.size.toNat + 1))).1.isReturned = true := by
  have hstart := start_turnsLeft c
  exact (portableSendfile_returns file c hturns _).resolve_left (by omega)

/-- The portable sendfile hands the socket the range of the file that it counts, never more than
was asked for, stays inside of its staging buffer, and returns unless send(2) keeps taking
nothing. -/
theorem portableSendfile_copies (file : Bytes) (c : CopyCall) (turns : Nat → CopyTurn) :
    (∀ k, Copied file c.offset.toNat c.size.toNat
      (portableSendfile file c (firstTurns turns k)).1.sent
      (portableSendfile file c (firstTurns turns k)).2) ∧
    ((∀ i, (turns i).Progresses) → ∃ k ≤ 2 * c.size.toNat + 1,
      (portableSendfile file c (firstTurns turns k)).1.isReturned = true) := by
  refine ⟨fun k => (copyInv_run file c (firstTurns turns k)).1, fun hturns => ?_⟩
  exact ⟨2 * c.size.toNat + 1, Nat.le_refl _, portableSendfile_returned file c turns hturns⟩

def shortCopy : CopyCall where
  fd := 3
  size := 10
  offset := 1
  stat := .ok 5
  sndbuf := .size 3 (Nat.succ_pos 2)
  allocated := true

theorem portableSendfile_copies_short :
    ∃ k ≤ 21, (portableSendfile [1, 2, 3, 4, 5] shortCopy
      (firstTurns (fun _ => { pread := .data 3, send := .accepted 2 }) k)).1.isReturned = true :=
  (portableSendfile_copies [1, 2, 3, 4, 5] shortCopy
    (fun _ => { pread := .data 3, send := .accepted 2 })).2 fun _ n hn => by
      cases hn
      exact Nat.succ_pos 1

end LuaNet.Socket
