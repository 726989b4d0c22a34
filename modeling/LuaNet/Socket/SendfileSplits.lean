import LuaNet.Socket.SendfilePortable

/-! `Socket:sendfile` over the sendfile(2) of Linux and over the portable loop. Whichever way the
kernel cuts the transfer into pieces, both send the same range of a regular file. -/

namespace LuaNet.Socket

open LuaNet.Lib
open LuaNet.Tls (SendResult WaitResult)

structure RegularFile where
  bytes : Bytes
  fits : (bytes.length : Int) ≤ netOffMax

def isRetry (e : Tls.Errno) : Bool := e = .eagain || e = .eintr

/-- What the kernel makes of a transfer in which nothing fails: one byte and `more` others are moved
as far as there are any, or it is to be tried again. -/
inductive KernelSplit (again : Tls.Errno → Bool)
  | take (more : Nat)
  | retry (e : Tls.Errno) (h : again e = true)

def KernelSplit.isTake {again : Tls.Errno → Bool} : KernelSplit again → Bool
  | .take _ => true
  | .retry _ _ => false

def sendfileAnswer (file : RegularFile) (offset size : Nat) : KernelSplit isRetry → SendResult
  | .take more => .accepted (min (more + 1) (min size (file.bytes.length - offset)))
  | .retry e _ => .failed e

structure CopySplit where
  pread : KernelSplit isRetry
  send : KernelSplit isAgain

def CopySplit.turn (t : CopySplit) : CopyTurn where
  pread := match t.pread with
    | .take more => .data (more + 1)
    | .retry e _ => .failed e
  send := match t.send with
    | .take more => .accepted (more + 1)
    | .retry e _ => .failed e

/-- How a call of the portable `sendfile_lua` goes: the send buffer, and its turns. -/
structure CopySplits where
  sndbuf : Tls.Sndbuf
  splits : Nat → CopySplit

def CopySplits.moves (a : CopySplits) : Bool :=
  (a.splits 0).pread.isTake && (a.splits 1).send.isTake

structure FileAnswer (A : Type) where
  ans : A
  expired : Bool

/-- The loop of `Socket:sendfile` over any native `sendfile`. -/
def sendfileLoopOver {A ε : Type}
    (native : SendfileLoop → A → Except LuaError NativeSend × List ε) :
    RetryLoop SendfileLoop (Except LuaError SendRet) (FileAnswer A) WaitResult ε where
  attempt s a :=
    let r := native s a.ans
    match r.1 with
    | .error e => (.returned (.error e), r.2)
    | .ok ret =>
      match ret.len with
      | none => (.returned (.ok { sent := s.sent, err := ret.err }), r.2)
      | some len =>
        if !ret.again then (.returned (.ok { sent := s.sent + len, err := ret.err }), r.2)
        else if a.expired then (.returned (.ok { sent := s.sent + len, timeout := true }), r.2)
        else
          (.waiting { bytes := s.bytes - len, offset := s.offset + len, sent := s.sent + len },
            r.2)
  resume s w :=
    match waitFailure s.sent w with
    | none => .ready s
    | some ret => .returned (.ok ret)

def linuxSendfile (file : RegularFile) (fd : Int) (s : SendfileLoop) (split : KernelSplit isRetry) :
    Except LuaError NativeSend × List FileCall :=
  let r := sendfileLua fd s.bytes s.offset
    (sendfileAnswer file s.offset.toNat s.bytes.toNat split)
  (.ok r.1, r.2)

def copyCall (file : RegularFile) (fd : Int) (s : SendfileLoop) (a : CopySplits) : CopyCall where
  fd := fd
  size := s.bytes
  offset := s.offset
  stat := .ok file.bytes.length
  sndbuf := a.sndbuf
  allocated := true

def fallbackSendfile (file : RegularFile) (fd : Int) (s : SendfileLoop) (a : CopySplits) :
    Except LuaError NativeSend × List CopyEvent :=
  let r := portableSendfile file.bytes (copyCall file fd s a)
    (firstTurns (fun i => (a.splits i).turn) (2 * s.bytes.toNat + 1))
  match r.1 with
  | .returned ret => (ret, r.2)
  | _ => (.error memoryError, r.2)

def FileCall.took (file : RegularFile) (c : FileCall) : Bytes :=
  match c.ans with
  | .accepted n => slice file.bytes c.offset.toNat (min n c.size.toNat)
  | .failed _ => []

def undisturbed {A : Type} (as : List A) : List (LoopTurn (FileAnswer A) WaitResult) :=
  as.flatMap fun a => [.answer { ans := a, expired := false }, .wake .ready]

theorem sendfileLoop_attempt (fd : Int) (s : SendfileLoop) (a : SendAnswer) :
    (sendfileLoop fd).attempt s a =
      (sendfileLoopOver fun s ans => (.ok (sendfileLua fd s.bytes s.offset ans).1,
        (sendfileLua fd s.bytes s.offset ans).2)).attempt s
          { ans := a.ans, expired := a.expired } := rfl

theorem sendfileLoop_resume (fd : Int) (s : SendfileLoop) (w : WaitResult) :
    (sendfileLoop fd).resume s w =
      (sendfileLoopOver fun s ans => (.ok (sendfileLua fd s.bytes s.offset ans).1,
        (sendfileLua fd s.bytes s.offset ans).2)).resume s w := rfl

/-! What a native call has to do. -/

def SendfileLoop.left (file : RegularFile) (s : SendfileLoop) : Nat :=
  min s.bytes.toNat (file.bytes.length - s.offset.toNat)

/-- A native call sends the next `k` bytes. It ends the loop with the last of them, and else has
been asked for more; when something `moves` that is at least a byte. -/
def Transfers (file : RegularFile) (s : SendfileLoop) (moves : Bool)
    (r : Except LuaError NativeSend) (took : Bytes) : Prop :=
  ∃ k ≤ s.left file, took = slice file.bytes s.offset.toNat k ∧
    (r = .ok { len := some k } ∧ k = s.left file ∨
      r = .ok { len := some k, again := true } ∧ k < s.bytes.toNat ∧ (moves = true → 0 < k))

structure SendfileLoop.Admissible (fd : Int) (s : SendfileLoop) : Prop where
  args : checkSendfileArgs fd s.bytes s.offset = true
  integer : s.bytes < 2 ^ 63

theorem SendfileLoop.Admissible.pos {fd : Int} {s : SendfileLoop} (h : s.Admissible fd) :
    0 < s.bytes.toNat := Int.pos_iff_toNat_pos.1 (checkSendfileArgs_pos h.args).1

section Loop

variable {A ε : Type} {file : RegularFile} {fd : Int}
  {native : SendfileLoop → A → Except LuaError NativeSend × List ε} {moves : A → Bool}
  {took : List ε → Bytes}

theorem SendfileLoop.Admissible.rest {s : SendfileLoop} {k : Nat} (h : s.Admissible fd)
    (hk : k ≤ s.left file) (hlt : k < s.bytes.toNat) :
    SendfileLoop.Admissible fd
      { bytes := s.bytes - k, offset := s.offset + k, sent := s.sent + k } := by
  obtain ⟨hargs, hinteger⟩ := h
  have hfits := file.fits
  unfold SendfileLoop.left at hk
  simp only [checkSendfileArgs, Bool.not_eq_true', Bool.or_eq_false_iff, decide_eq_false_iff_not]
    at hargs
  constructor
  · simp only [checkSendfileArgs, Bool.not_eq_true', Bool.or_eq_false_iff,
      decide_eq_false_iff_not]
    omega
  · show s.bytes - k < 2 ^ 63
    omega

theorem sendfileLoopOver_run (htook : ∀ es fs, took (es ++ fs) = took es ++ took fs)
    (hnative : ∀ (s : SendfileLoop) a, s.Admissible fd →
      Transfers file s (moves a) (native s a).1 (took (native s a).2))
    (as : List A) {s : SendfileLoop} (hs : s.Admissible fd) :
    let run := (sendfileLoopOver native).run (.ready s) (undisturbed as)
    run.1 = .returned (.ok { sent := s.sent + s.left file }) ∧
        took run.2 = slice file.bytes s.offset.toNat (s.left file) ∨
      (∃ s', run.1 = .ready s') ∧ as.countP moves ≤ s.left file := by
  induction as generalizing s with
  | nil => exact Or.inr ⟨⟨s, rfl⟩, Nat.zero_le _⟩
  | cons a as ih =>
    have hturns : undisturbed (a :: as) =
        .answer { ans := a, expired := false } :: .wake .ready :: undisturbed as := rfl
    intro run
    have hrun : run = (sendfileLoopOver native).run (.ready s) (undisturbed (a :: as)) := rfl
    rw [hturns] at hrun
    obtain ⟨k, hk, htaken, ⟨hret, hall⟩ | ⟨hret, hlt, hmoves⟩⟩ := hnative s a hs
    · have hattempt : (sendfileLoopOver native).attempt s { ans := a, expired := false } =
          (.returned (.ok { sent := s.sent + k }), (native s a).2) := by
        simp only [sendfileLoopOver, hret]
        rfl
      rw [RetryLoop.run_of_returned _ (congrArg Prod.fst hattempt), hattempt] at hrun
      rw [hrun, ← hall]
      exact Or.inl ⟨rfl, htaken⟩
    · let rest : SendfileLoop :=
        { bytes := s.bytes - k, offset := s.offset + k, sent := s.sent + k }
      have hattempt : (sendfileLoopOver native).attempt s { ans := a, expired := false } =
          (.waiting rest, (native s a).2) := by
        simp only [sendfileLoopOver, hret]
        rfl
      have hresume : (sendfileLoopOver native).resume rest .ready = .ready rest := rfl
      rw [RetryLoop.run_of_waiting _ (congrArg Prod.fst hattempt), hattempt, hresume] at hrun
      have hrest : rest.Admissible fd := hs.rest hk hlt
      have hoffset : rest.offset.toNat = s.offset.toNat + k := by
        have hpos := (checkSendfileArgs_pos hs.args).2
        show (s.offset + k).toNat = _
        omega
      have hleft : s.left file = k + rest.left file := by
        have hbytes : rest.bytes.toNat = s.bytes.toNat - k := by
          show (s.bytes - k).toNat = _
          omega
        unfold SendfileLoop.left at *
        rw [hoffset, hbytes]
        omega
      rw [hrun]
      rcases ih hrest with ⟨hreturned, hcopied⟩ | ⟨⟨s', hready⟩, hcount⟩
      · left
        refine ⟨?_, ?_⟩
        · rw [hreturned, hleft, ← Nat.add_assoc]
        · rw [htook, htaken, hcopied, hleft, slice_add, hoffset]
      · right
        refine ⟨⟨s', hready⟩, ?_⟩
        rw [List.countP_cons, hleft]
        split
        next hmove =>
          have hpos := hmoves hmove
          omega
        · omega

end Loop

/-! The native call of Linux. -/

theorem linuxSendfile_transfers (file : RegularFile) {fd : Int} (s : SendfileLoop)
    (split : KernelSplit isRetry) (hs : s.Admissible fd) :
    Transfers file s split.isTake (linuxSendfile file fd s split).1
      ((linuxSendfile file fd s split).2.flatMap (FileCall.took file)) := by
  have hbytes := hs.pos
  have hinteger := hs.integer
  have hfits : s.bytes.toNat < 2 ^ 64 := by omega
  unfold linuxSendfile sendfileLua
  simp only [hs.args, Bool.not_true, Bool.false_eq_true, if_false]
  cases split with
  | retry e he =>
    have hagain : (e = .eagain || e = .eintr) = true := he
    refine ⟨0, Nat.zero_le _, ?_, Or.inr ⟨?_, hbytes, nofun⟩⟩
    · rw [slice_zero]
      rfl
    · simp only [sendfileAnswer, hagain, if_true]
  | take more =>
    have hleft : min s.bytes.toNat (file.bytes.length - s.offset.toNat) = s.left file := rfl
    simp only [sendfileAnswer, hleft]
    have hsize : min (min (more + 1) (s.left file)) s.bytes.toNat =
        min (more + 1) (s.left file) := by
      unfold SendfileLoop.left
      omega
    refine ⟨min (more + 1) (s.left file), Nat.min_le_right _ _, ?_, ?_⟩
    · simp only [hsize]
      split
      · simp only [List.flatMap_cons, List.flatMap_nil, List.append_nil, FileCall.took, hsize]
      · split <;>
          simp only [List.flatMap_cons, List.flatMap_nil, List.append_nil, FileCall.took, hsize]
    · simp only [hsize]
      split
      next hend => exact Or.inl ⟨by rw [hend], by omega⟩
      next hsome =>
        have hle : min (more + 1) (s.left file) ≤ s.bytes.toNat := by
          unfold SendfileLoop.left
          omega
        rw [sizeSub_eq hfits hle]
        split
        · exact Or.inr ⟨rfl, by omega, fun _ => Nat.pos_of_ne_zero hsome⟩
        · refine Or.inl ⟨rfl, ?_⟩
          have hmost : s.left file ≤ s.bytes.toNat := Nat.min_le_left _ _
          omega

/-! The portable native call. -/

/-- On a regular file nothing but the end of the request and a retry ends the copy. -/
def CopyPhase.Sound (left : Nat) : CopyPhase → Prop
  | .readAgain s => s.len = left
  | .sendAgain s => s.len = left
  | .returned r => r = .ok { len := some left } ∨
      ∃ k < left, r = .ok { len := some k, again := true }

section Copy

variable {file : Bytes} {offset size left : Nat} {p : CopyPhase} {es : List CopyEvent}

theorem sound_readAgain {s : CopyState} (hleft : left ≤ file.length - offset)
    (h : Reading offset size s) (hlen : s.len = left) (split : CopySplit) :
    (readAgain file s split.turn.pread).1.Sound left ∧
      (readAgain file s split.turn.pread).1.sent = s.sent ∧
      (split.pread.isTake = true → ∃ s', (readAgain file s split.turn.pread).1 = .sendAgain s') := by
  have hposition := h.position
  have hbufsize := h.bufsize
  have hrest := h.rest
  obtain ⟨pread, send⟩ := split
  cases pread with
  | retry e he =>
    have hagain : (e = .eagain || e = .eintr) = true := he
    simp only [readAgain, CopySplit.turn, hagain, if_true]
    exact ⟨Or.inr ⟨s.sent, by omega, rfl⟩, rfl, nofun⟩
  | take more =>
    have hdata : ¬(slice file s.offset (min (more + 1) s.bufsize)).length = 0 := by
      rw [slice_length]
      omega
    simp only [readAgain, CopySplit.turn, hdata, if_false]
    exact ⟨hlen, rfl, fun _ => ⟨_, rfl⟩⟩

theorem sound_sendAgain {s : CopyState} (h : Sending file offset size s) (hlen : s.len = left)
    (split : CopySplit) :
    (sendAgain s split.turn.send).1.Sound left ∧
      s.sent ≤ (sendAgain s split.turn.send).1.sent ∧
      (split.send.isTake = true → s.sent < (sendAgain s split.turn.send).1.sent) := by
  have hnread := h.nread
  have hrest := h.rest
  obtain ⟨pread, send⟩ := split
  cases send with
  | retry e he =>
    simp only [sendAgain, CopySplit.turn, he, if_true]
    exact ⟨Or.inr ⟨s.sent, by omega, rfl⟩, Nat.le_refl _, nofun⟩
  | take more =>
    simp only [sendAgain, CopySplit.turn]
    split
    · refine ⟨hlen, Nat.le_add_right _ _, fun _ => ?_⟩
      show s.sent < s.sent + min (more + 1) s.nread
      omega
    · split
      · refine ⟨hlen, Nat.le_add_right _ _, fun _ => ?_⟩
        show s.sent < s.sent + min (more + 1) s.nread
        omega
      next hall hdone =>
        have hend : s.sent + min (more + 1) s.nread = left := by omega
        rw [hend]
        refine ⟨Or.inl rfl, ?_, fun _ => ?_⟩
        · show s.sent ≤ left
          omega
        · show s.sent < left
          omega

structure CopyGoing (file : Bytes) (offset size left least : Nat) (p : CopyPhase)
    (es : List CopyEvent) : Prop where
  inv : CopyInv file offset size p es
  sound : p.Sound left
  least : least ≤ p.sent

theorem CopyGoing.step {least : Nat} (hleft : left ≤ file.length - offset)
    (h : CopyGoing file offset size left least p es) (split : CopySplit) :
    CopyGoing file offset size left least (copyStep file p split.turn).1
      (es ++ (copyStep file p split.turn).2) := by
  obtain ⟨hinv, hsound, hleast⟩ := h
  refine ⟨copyInv_step p split.turn hinv, ?_, ?_⟩
  · cases p with
    | readAgain s => exact (sound_readAgain hleft hinv.2 hsound split).1
    | sendAgain s => exact (sound_sendAgain hinv.2 hsound split).1
    | returned r => exact hsound
  · cases p with
    | readAgain s =>
      have hsent := (sound_readAgain hleft hinv.2 hsound split).2.1
      exact hleast.trans (Nat.le_of_eq hsent.symm)
    | sendAgain s => exact hleast.trans (sound_sendAgain hinv.2 hsound split).2.1
    | returned r => exact hleast

theorem CopyGoing.run {least : Nat} (hleft : left ≤ file.length - offset)
    (h : CopyGoing file offset size left least p es) (splits : Nat → CopySplit) (n : Nat) :
    CopyGoing file offset size left least
      (runs (copyStep file) p (firstTurns (fun i => (splits i).turn) n)).1
      (es ++ (runs (copyStep file) p (firstTurns (fun i => (splits i).turn) n)).2) := by
  apply runs_history_along (P := fun _ t => ∃ split : CopySplit, t = split.turn)
  · rintro p es t ⟨split, rfl⟩ h
    exact h.step hleft split
  · exact h
  · apply along_of_forall_mem
    intro t ht
    obtain ⟨i, -, rfl⟩ := List.mem_map.1 ht
    exact ⟨splits i, rfl⟩

end Copy

theorem copyCall_start (file : RegularFile) {fd : Int} {s : SendfileLoop} (a : CopySplits)
    (hs : s.Admissible fd) :
    CopyGoing file.bytes s.offset.toNat s.bytes.toNat (s.left file) 0
      (copyCall file fd s a).start [] ∧
    ((∃ s', (copyCall file fd s a).start = .readAgain s') ∨
      (copyCall file fd s a).start = .returned (.ok { len := some 0 }) ∧ s.left file = 0) := by
  have hargs : checkSendfileArgs (copyCall file fd s a).fd (copyCall file fd s a).size
      (copyCall file fd s a).offset = true := hs.args
  have hinv := copyInv_start file.bytes (copyCall file fd s a)
  have hstart : (∃ s', (copyCall file fd s a).start = .readAgain s' ∧ s'.len = s.left file) ∨
      (copyCall file fd s a).start = .returned (.ok { len := some 0 }) ∧ s.left file = 0 := by
    unfold CopyCall.start
    simp only [hargs, Bool.not_true, Bool.false_eq_true, if_false]
    simp only [copyCall, Bool.not_true, Bool.false_eq_true, if_false]
    split
    next hend =>
      refine Or.inr ⟨rfl, ?_⟩
      unfold SendfileLoop.left
      omega
    · refine Or.inl ⟨_, rfl, ?_⟩
      show (if file.bytes.length - s.offset.toNat < s.bytes.toNat then
        file.bytes.length - s.offset.toNat else s.bytes.toNat) = s.left file
      unfold SendfileLoop.left
      split <;> omega
  rcases hstart with ⟨s', hread, hlen⟩ | ⟨hreturned, hnone⟩
  · refine ⟨⟨hinv, ?_, Nat.zero_le _⟩, Or.inl ⟨s', hread⟩⟩
    rw [hread]
    exact hlen
  · refine ⟨⟨hinv, ?_, Nat.zero_le _⟩, Or.inr ⟨hreturned, hnone⟩⟩
    rw [hreturned, hnone]
    exact Or.inl rfl

theorem CopySplit.progresses (t : CopySplit) : t.turn.Progresses := by
  obtain ⟨pread, send⟩ := t
  intro n hn
  cases send with
  | take more =>
    cases hn
    exact Nat.succ_pos more
  | retry e he => exact absurd hn nofun

theorem copyCall_moves (file : RegularFile) {fd : Int} {s : SendfileLoop} {a : CopySplits}
    (hs : s.Admissible fd) (hleft : 0 < s.left file) (hmoves : a.moves = true) (n : Nat) :
    0 < (portableSendfile file.bytes (copyCall file fd s a)
      (firstTurns (fun i => (a.splits i).turn) (n + 2))).1.sent := by
  have hfile : s.left file ≤ file.bytes.length - s.offset.toNat := Nat.min_le_right _ _
  -- the first pread(2) fills the buffer and the first send(2) takes of it; the count never shrinks
  obtain ⟨hgoing, hstart⟩ := copyCall_start file a hs
  simp only [CopySplits.moves, Bool.and_eq_true] at hmoves
  rcases hstart with ⟨s₀, hread⟩ | ⟨-, hnone⟩
  swap
  · omega
  rw [hread] at hgoing
  have hfirst := hgoing.step hfile (a.splits 0)
  obtain ⟨s₁, hsend⟩ := (sound_readAgain hfile hgoing.inv.2 hgoing.sound (a.splits 0)).2.2 hmoves.1
  have hstep : (copyStep file.bytes (.readAgain s₀) (a.splits 0).turn).1 = .sendAgain s₁ := hsend
  rw [hstep] at hfirst
  have hsecond := hfirst.step hfile (a.splits 1)
  have hmoved := (sound_sendAgain hfirst.inv.2 hfirst.sound (a.splits 1)).2.2 hmoves.2
  have hleast : CopyGoing file.bytes s.offset.toNat s.bytes.toNat (s.left file) 1
      (copyStep file.bytes (.sendAgain s₁) (a.splits 1).turn).1 _ :=
    ⟨hsecond.inv, hsecond.sound, Nat.lt_of_le_of_lt (Nat.zero_le _) hmoved⟩
  have hall := (hleast.run hfile (fun i => a.splits (i + 1 + 1)) n).least
  rw [portableSendfile, hread, firstTurns_succ, firstTurns_succ, runs, runs, hstep]
  exact hall

theorem fallbackSendfile_transfers (file : RegularFile) {fd : Int} (s : SendfileLoop)
    (a : CopySplits) (hs : s.Admissible fd) :
    Transfers file s a.moves (fallbackSendfile file fd s a).1
      (tookBytes (fallbackSendfile file fd s a).2) := by
  have hfile : s.left file ≤ file.bytes.length - s.offset.toNat := Nat.min_le_right _ _
  have hbytes : s.left file ≤ s.bytes.toNat := Nat.min_le_left _ _
  have hreturned := portableSendfile_returned file.bytes (copyCall file fd s a)
    (fun i => (a.splits i).turn) fun i => (a.splits i).progresses
  have hgoing := (copyCall_start file a hs).1.run hfile a.splits (2 * s.bytes.toNat + 1)
  have hmoves (hleft : 0 < s.left file) (hmoves : a.moves = true) :=
    copyCall_moves file hs hleft hmoves (2 * s.bytes.toNat - 1)
  have hpos := hs.pos
  rw [show 2 * s.bytes.toNat - 1 + 2 = 2 * s.bytes.toNat + 1 by omega] at hmoves
  unfold fallbackSendfile
  change (portableSendfile file.bytes (copyCall file fd s a) (firstTurns
    (fun i => (a.splits i).turn) (2 * s.bytes.toNat + 1))).1.isReturned = true at hreturned
  obtain ⟨hinv, hsound, -⟩ := hgoing
  change CopyInv _ _ _ (portableSendfile file.bytes (copyCall file fd s a) (firstTurns
    (fun i => (a.splits i).turn) (2 * s.bytes.toNat + 1))).1 _ at hinv
  change CopyPhase.Sound _ (portableSendfile file.bytes (copyCall file fd s a) (firstTurns
    (fun i => (a.splits i).turn) (2 * s.bytes.toNat + 1))).1 at hsound
  cases hphase : (portableSendfile file.bytes (copyCall file fd s a) (firstTurns
      (fun i => (a.splits i).turn) (2 * s.bytes.toNat + 1))).1 with
  | readAgain s' => rw [hphase] at hreturned; exact absurd hreturned nofun
  | sendAgain s' => rw [hphase] at hreturned; exact absurd hreturned nofun
  | returned r =>
    rw [hphase] at hinv hsound hmoves
    simp only [hphase]
    rcases hsound with rfl | ⟨k, hk, rfl⟩
    · exact ⟨s.left file, Nat.le_refl _, hinv.1.took, Or.inl ⟨rfl, rfl⟩⟩
    · exact ⟨k, Nat.le_of_lt hk, hinv.1.took,
        Or.inr ⟨rfl, by omega, hmoves (by omega)⟩⟩

/-- A run of `Socket:sendfile` sends the `n` bytes from `offset` on, if it ends, and has ended when
more than `n` native calls have moved anything. -/
def SendsRange {ε : Type} (file : RegularFile) (offset n moved : Nat) (took : List ε → Bytes)
    (run : LoopPhase SendfileLoop (Except LuaError SendRet) × List ε) : Prop :=
  (∀ ret, run.1 = .returned ret →
    ret = .ok { sent := n } ∧ took run.2 = slice file.bytes offset n) ∧
  (n < moved → ∃ ret, run.1 = .returned ret)

theorem sendsRange_of_run {A ε : Type} {file : RegularFile} {fd : Int}
    {native : SendfileLoop → A → Except LuaError NativeSend × List ε} {moves : A → Bool}
    {took : List ε → Bytes} (htook : ∀ es fs, took (es ++ fs) = took es ++ took fs)
    (hnative : ∀ (s : SendfileLoop) a, s.Admissible fd →
      Transfers file s (moves a) (native s a).1 (took (native s a).2))
    (as : List A) {s : SendfileLoop} (hs : s.Admissible fd) (hstart : s.sent = 0) :
    SendsRange file s.offset.toNat (s.left file) (as.countP moves) took
      ((sendfileLoopOver native).run (.ready s) (undisturbed as)) := by
  rcases sendfileLoopOver_run htook hnative as hs with ⟨hreturned, hcopied⟩ | ⟨⟨s', hready⟩, hcount⟩
  · rw [hstart, Nat.zero_add] at hreturned
    refine ⟨fun ret hret => ?_, fun _ => ⟨_, hreturned⟩⟩
    rw [hreturned] at hret
    exact ⟨(LoopPhase.returned.inj hret).symm, hcopied⟩
  · refine ⟨fun ret hret => ?_, fun hmoved => ?_⟩
    · rw [hready] at hret
      exact absurd hret nofun
    · omega

/-- The two native `sendfile` are interchangeable: however the kernel splits the transfers,
`Socket:sendfile` sends and returns the same over the one and the other. -/
theorem sendfile_interchangeable (file : RegularFile) {fd bytes offset : Int}
    (hargs : checkSendfileArgs fd bytes offset = true) (hinteger : bytes < 2 ^ 63)
    (splits : List (KernelSplit isRetry)) (copies : List CopySplits) :
    let n := min bytes.toNat (file.bytes.length - offset.toNat)
    let start : LoopPhase SendfileLoop (Except LuaError SendRet) :=
      .ready { bytes := bytes, offset := offset, sent := 0 }
    SendsRange file offset.toNat n (splits.countP KernelSplit.isTake)
        (fun cs => cs.flatMap (FileCall.took file))
        ((sendfileLoopOver (linuxSendfile file fd)).run start (undisturbed splits)) ∧
      SendsRange file offset.toNat n (copies.countP CopySplits.moves) tookBytes
        ((sendfileLoopOver (fallbackSendfile file fd)).run start (undisturbed copies)) := by
  have hs : SendfileLoop.Admissible fd { bytes := bytes, offset := offset, sent := 0 } :=
    ⟨hargs, hinteger⟩
  constructor
  · exact sendsRange_of_run (fun _ _ => List.flatMap_append) (linuxSendfile_transfers file)
      splits hs rfl
  · exact sendsRange_of_run (fun _ _ => List.flatMap_append) (fallbackSendfile_transfers file)
      copies hs rfl

def shortFile : RegularFile := ⟨[1, 2, 3, 4, 5], of_decide_eq_true rfl⟩

theorem sendfile_interchangeable_short :
    SendsRange shortFile 1 4 3 (fun cs => cs.flatMap (FileCall.took shortFile))
      ((sendfileLoopOver (linuxSendfile shortFile 3)).run
        (.ready { bytes := 10, offset := 1, sent := 0 })
        (undisturbed [.take 1, .retry .eagain rfl, .take 8, .take 0])) ∧
      SendsRange shortFile 1 4 0 tookBytes
        ((sendfileLoopOver (fallbackSendfile shortFile 3)).run
          (.ready { bytes := 10, offset := 1, sent := 0 }) (undisturbed [])) :=
  sendfile_interchangeable shortFile (of_decide_eq_true rfl) (of_decide_eq_true rfl) _ []

end LuaNet.Socket
