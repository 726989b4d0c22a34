import LuaNet.Lib.Codec
import LuaNet.Lib.Retry
import LuaNet.Lib.SizeT
import LuaNet.Socket.Constants
import LuaNet.Tls.SocketIo
import Mathlib.Algebra.GroupWithZero.Nat

/-! Plain writes: `write`, `send` and `sendto` of `socket.c`, and the loops of `net.lua` that call
the first two until all of a string is accepted. -/

namespace LuaNet.Socket

open LuaNet.Lib
open LuaNet.Tls (SendResult WaitResult)

def msgNosignal : Nat := 0x4000

structure Addrinfo where
  addr : Bytes
deriving DecidableEq

/-- A send(2), sendto(2) or sendmsg(2): what is handed to the kernel, and its answer. -/
structure SendCall where
  payload : Option Bytes
  addr : Option Addrinfo := none
  control : Bytes := []
  flags : Nat
  ans : SendResult
deriving DecidableEq

/-- The kernel accepts at most what it was offered. -/
def SendCall.accepted (c : SendCall) : Bytes :=
  match c.ans with
  | .accepted n => (c.payload.getD []).take n
  | .failed _ => []

def acceptedBytes (cs : List SendCall) : Bytes := cs.flatMap SendCall.accepted

inductive SendErr
  | errno (e : Tls.Errno) (op : String)
  | wait (code : Nat)
deriving DecidableEq

structure NativeSend where
  len : Option Nat := none
  err : Option SendErr := none
  again : Bool := false
deriving DecidableEq

def isAgain (e : Tls.Errno) : Bool := e = .eagain || e = .ewouldblock || e = .eintr

/-- `lua_pushboolean` of a `size_t`: the parameter is an `int`. -/
def pushboolean (b : Nat) : Bool := b % 2 ^ 32 != 0

def nativeSend (op : String) (str : SizedBytes) (addr : Option Addrinfo) (flg : Nat)
    (ans : SendResult) : NativeSend × List SendCall :=
  let len := str.bytes.length
  if len = 0 then ({ err := some (.errno .einval op) }, [])
  else
    let call : SendCall :=
      { payload := some str.bytes, addr := addr, flags := flg ||| msgNosignal, ans := ans }
    match ans with
    | .failed e =>
      (if isAgain e then { len := some 0, again := true } else { err := some (.errno e op) },
        [call])
    | .accepted n =>
      let rv := min n len
      ({ len := some rv, again := pushboolean (sizeSub len rv) }, [call])

def writeLua (str : SizedBytes) (ans : SendResult) : Except LuaError NativeSend × List SendCall :=
  let r := nativeSend "write" str none 0 ans
  (.ok r.1, r.2)

def sendLua (str : SizedBytes) (flags : List FlagArg) (ans : SendResult) :
    Except LuaError NativeSend × List SendCall :=
  match netCheckMsgflags 3 flags with
  | .error e => (.error e, [])
  | .ok flg =>
    let r := nativeSend "send" str none flg ans
    (.ok r.1, r.2)

def sendtoLua (str : SizedBytes) (info : Addrinfo) (flags : List FlagArg) (ans : SendResult) :
    Except LuaError NativeSend × List SendCall :=
  match netCheckMsgflags 4 flags with
  | .error e => (.error e, [])
  | .ok flg =>
    let r := nativeSend "sendto" str (some info) flg ans
    (.ok r.1, r.2)

structure SendRet where
  sent : Nat
  err : Option SendErr := none
  timeout : Bool := false
deriving DecidableEq

structure SendAnswer where
  ans : SendResult
  expired : Bool

def waitFailure (sent : Nat) : WaitResult → Option SendRet
  | .ready => none
  | .failed code => some { sent := sent, err := some (.wait code) }
  | .timeout => some { sent := sent, timeout := true }

structure SendLoop where
  str : SizedBytes
  sent : Nat

/-- The loop of `Socket:write` and `Socket:send` over their native call. What is left of `str` is
cut off before the wait, which does not see it. -/
def sendLoop (native : SizedBytes → SendResult → Except LuaError NativeSend × List SendCall) :
    RetryLoop SendLoop (Except LuaError SendRet) SendAnswer WaitResult SendCall where
  attempt s a :=
    let r := native s.str a.ans
    match r.1 with
    | .error e => (.returned (.error e), r.2)
    | .ok ret =>
      match ret.len with
      | none => (.returned (.ok { sent := s.sent, err := ret.err }), r.2)
      | some len =>
        if !ret.again then (.returned (.ok { sent := s.sent + len }), r.2)
        else if a.expired then (.returned (.ok { sent := s.sent + len, timeout := true }), r.2)
        else (.waiting { str := s.str.drop len, sent := s.sent + len }, r.2)
  resume s w :=
    match waitFailure s.sent w with
    | none => .ready s
    | some ret => .returned (.ok ret)

structure SendTurn extends SendAnswer where
  wait : WaitResult

def SendTurn.turns (t : SendTurn) : List (LoopTurn SendAnswer WaitResult) :=
  [.answer t.toSendAnswer, .wake t.wait]

def socketWrite (str : SizedBytes) (ts : List SendTurn) :
    LoopPhase SendLoop (Except LuaError SendRet) × List SendCall :=
  (sendLoop writeLua).run (.ready { str := str, sent := 0 }) (ts.flatMap SendTurn.turns)

def socketSend (str : SizedBytes) (flags : List FlagArg) (ts : List SendTurn) :
    LoopPhase SendLoop (Except LuaError SendRet) × List SendCall :=
  (sendLoop fun str => sendLua str flags).run (.ready { str := str, sent := 0 })
    (ts.flatMap SendTurn.turns)

def Honest (str : Bytes)
    (r : LoopPhase SendLoop (Except LuaError SendRet) × List SendCall) : Prop :=
  (∀ e, r.1 = .returned (.error e) → acceptedBytes r.2 = []) ∧
    ∀ ret, r.1 = .returned (.ok ret) →
      ret.sent ≤ str.length ∧ acceptedBytes r.2 = str.take ret.sent ∧
        (ret.sent < str.length → ret.err.isSome = true ∨ ret.timeout = true)

/-- A short count that `pushboolean` takes for a full one. -/
def LeavesWords (len n : Nat) : Prop := n < len ∧ 2 ^ 32 ∣ len - n

def SendAnswer.count (a : SendAnswer) : Nat :=
  match a.ans with
  | .accepted n => n
  | .failed _ => 0

def SendTurn.GoesOn (t : SendTurn) : Prop :=
  (∀ e, t.ans = .failed e → isAgain e = true) ∧ t.expired = false ∧ t.wait = .ready

/-- No call that is reached leaves a nonzero multiple of 2^32 bytes. -/
def Spared (len : Nat) (ts : List SendTurn) : Prop :=
  Each (fun before t => (∀ u ∈ before, u.GoesOn) → ∀ n, t.ans = .accepted n →
    ¬LeavesWords (len - (before.map (·.count)).sum) n) ts

theorem spared_cons {len : Nat} {t : SendTurn} {ts : List SendTurn} :
    Spared len (t :: ts) ↔ (∀ n, t.ans = .accepted n → ¬LeavesWords len n) ∧
      (t.GoesOn → Spared (len - t.count) ts) := by
  unfold Spared
  rw [Each.cons_iff]
  simp only [List.not_mem_nil, false_imp_iff, implies_true, forall_const, List.map_nil,
    List.sum_nil, Nat.sub_zero, List.mem_cons, forall_eq_or_imp, List.map_cons, List.sum_cons,
    ← Nat.sub_sub]
  constructor
  · rintro ⟨ht, hts⟩
    exact ⟨ht, fun hgo before u after heq hbefore => hts before u after heq ⟨hgo, hbefore⟩⟩
  · rintro ⟨ht, hts⟩
    exact ⟨ht, fun before u after heq hgo => hts hgo.1 before u after heq hgo.2⟩

theorem spared_zero (ts : List SendTurn) : Spared 0 ts := by
  intro before t after _ _ n _ hleaves
  have hlt := hleaves.1
  rw [Nat.zero_sub] at hlt
  exact Nat.not_lt_zero _ hlt

theorem spared_of_refused {len : Nat} {t : SendTurn} {ts : List SendTurn} {e : Tls.Errno}
    (hans : t.ans = .failed e) (he : isAgain e = false) : Spared len (t :: ts) := by
  refine spared_cons.2 ⟨fun n hn => ?_, fun hgo => ?_⟩
  · rw [hans] at hn
    cases hn
  · rw [hgo.1 e hans] at he
    cases he

theorem spared_of_all {len n : Nat} {t : SendTurn} {ts : List SendTurn}
    (hans : t.ans = .accepted n) (hge : len ≤ n) : Spared len (t :: ts) := by
  have hcount : len - t.count = 0 := by
    rw [SendAnswer.count, hans]
    exact Nat.sub_eq_zero_of_le hge
  refine spared_cons.2 ⟨fun m hm hleaves => ?_, fun _ => ?_⟩
  · rw [hans] at hm
    cases hm
    exact Nat.not_lt.2 hge hleaves.1
  · rw [hcount]
    exact spared_zero ts

theorem pushboolean_eq_true {b : Nat} : pushboolean b = true ↔ ¬2 ^ 32 ∣ b := by
  rw [pushboolean, bne_iff_ne, Ne, Nat.dvd_iff_mod_eq_zero]

theorem acceptedBytes_append (cs ds : List SendCall) :
    acceptedBytes (cs ++ ds) = acceptedBytes cs ++ acceptedBytes ds :=
  List.flatMap_append

section Loop

variable (op : String) (addr : Option Addrinfo) (flg : Nat)

def checkedSend (str : SizedBytes) (ans : SendResult) :
    Except LuaError NativeSend × List SendCall :=
  (.ok (nativeSend op str addr flg ans).1, (nativeSend op str addr flg ans).2)

variable {op addr flg}

variable (op addr flg) in
theorem nativeSend_cases (str : SizedBytes) (ans : SendResult) :
    (∃ err, (nativeSend op str addr flg ans).1 = { err := some err } ∧
      acceptedBytes (nativeSend op str addr flg ans).2 = [] ∧
      (str.bytes = [] ∨ ∃ e, ans = .failed e ∧ isAgain e = false)) ∨
    (∃ n, ans = .accepted n ∧ 2 ^ 32 ∣ str.bytes.length - min n str.bytes.length ∧
      (nativeSend op str addr flg ans).1 = { len := some (min n str.bytes.length) } ∧
      acceptedBytes (nativeSend op str addr flg ans).2 =
        str.bytes.take (min n str.bytes.length)) ∨
    ∃ k ≤ str.bytes.length,
      (nativeSend op str addr flg ans).1 = { len := some k, again := true } ∧
      acceptedBytes (nativeSend op str addr flg ans).2 = str.bytes.take k ∧
      (∀ n, ans = .accepted n → k = min n str.bytes.length ∧ ¬2 ^ 32 ∣ str.bytes.length - k) ∧
      ∀ e, ans = .failed e → k = 0 ∧ isAgain e = true := by
  by_cases hne : str.bytes = []
  · have hret : nativeSend op str addr flg ans = ({ err := some (.errno .einval op) }, []) := by
      rw [nativeSend, if_pos (List.length_eq_zero_iff.2 hne)]
    exact Or.inl ⟨_, by rw [hret], by rw [hret]; rfl, Or.inl hne⟩
  have hlen : ¬str.bytes.length = 0 := mt List.length_eq_zero_iff.1 hne
  cases ans with
  | failed e =>
    have hret : nativeSend op str addr flg (.failed e) =
        (if isAgain e then { len := some 0, again := true } else { err := some (.errno e op) },
          [{ payload := some str.bytes, addr := addr, flags := flg ||| msgNosignal,
             ans := .failed e }]) := by
      rw [nativeSend, if_neg hlen]
    rw [hret]
    cases he : isAgain e with
    | false => exact Or.inl ⟨_, rfl, rfl, Or.inr ⟨e, rfl, he⟩⟩
    | true =>
      refine Or.inr (Or.inr ⟨0, Nat.zero_le _, rfl, rfl, fun _ hn => (nomatch hn), ?_⟩)
      intro e' he'
      cases he'
      exact ⟨rfl, he⟩
  | accepted n =>
    have hret : (nativeSend op str addr flg (.accepted n)).1 =
        { len := some (min n str.bytes.length),
          again := pushboolean (str.bytes.length - min n str.bytes.length) } := by
      rw [nativeSend, if_neg hlen, ← sizeSub_eq str.fits (Nat.min_le_right _ _)]
    have hacc : acceptedBytes (nativeSend op str addr flg (.accepted n)).2 =
        str.bytes.take (min n str.bytes.length) := by
      rw [nativeSend, if_neg hlen, ← List.take_eq_take_min]
      exact List.append_nil _
    rw [hret, hacc]
    by_cases hwords : 2 ^ 32 ∣ str.bytes.length - min n str.bytes.length
    · have hpush := mt pushboolean_eq_true.1 (not_not.2 hwords)
      rw [Bool.not_eq_true] at hpush
      exact Or.inr (Or.inl ⟨n, rfl, hwords, by rw [hpush], rfl⟩)
    · refine Or.inr (Or.inr ⟨_, Nat.min_le_right _ _, ?_, rfl, ?_, fun _ he => (nomatch he)⟩)
      · rw [pushboolean_eq_true.2 hwords]
      · intro m hm
        cases hm
        exact ⟨rfl, hwords⟩

def HonestFrom (s : SendLoop)
    (r : LoopPhase SendLoop (Except LuaError SendRet) × List SendCall) : Prop :=
  ∀ ret, r.1 = .returned (.ok ret) →
    ∃ k ≤ s.str.bytes.length, ret.sent = s.sent + k ∧ acceptedBytes r.2 = s.str.bytes.take k ∧
      (k < s.str.bytes.length → ret.err.isSome = true ∨ ret.timeout = true)

theorem honestFrom_returned {s : SendLoop} {ret : SendRet} {cs : List SendCall} {k : Nat}
    (hk : k ≤ s.str.bytes.length) (hsent : ret.sent = s.sent + k)
    (hcs : acceptedBytes cs = s.str.bytes.take k)
    (htold : k < s.str.bytes.length → ret.err.isSome = true ∨ ret.timeout = true) :
    HonestFrom s (.returned (.ok ret), cs) := by
  intro ret' hret
  cases hret
  exact ⟨k, hk, hsent, hcs, htold⟩

theorem honestFrom_gaveUp {s : SendLoop} {ret : SendRet} (hsent : ret.sent = s.sent)
    (htold : ret.err.isSome = true ∨ ret.timeout = true)
    (ts : List (LoopTurn SendAnswer WaitResult)) :
    HonestFrom s ((sendLoop (checkedSend op addr flg)).run (.returned (.ok ret)) ts) := by
  rw [RetryLoop.run_returned]
  exact honestFrom_returned (Nat.zero_le _) hsent rfl fun _ => htold

theorem honestFrom_append {s : SendLoop} {k : Nat} (hk : k ≤ s.str.bytes.length)
    {p : LoopPhase SendLoop (Except LuaError SendRet)} {cs ds : List SendCall}
    (hcs : acceptedBytes cs = s.str.bytes.take k) :
    HonestFrom s (p, cs ++ ds) ↔
      HonestFrom { str := s.str.drop k, sent := s.sent + k } (p, ds) := by
  have hlen : (s.str.drop k).bytes.length = s.str.bytes.length - k := List.length_drop
  refine forall_congr' fun ret => imp_congr_right fun _ => ?_
  rw [acceptedBytes_append, hcs, hlen]
  constructor
  · rintro ⟨n, hn, hsent, hacc, htold⟩
    have hkn : k ≤ n := by
      have hlens := congrArg List.length hacc
      rw [List.length_append, List.length_take_of_le hk, List.length_take_of_le hn] at hlens
      omega
    obtain ⟨m, rfl⟩ := Nat.exists_eq_add_of_le hkn
    refine ⟨m, by omega, by rw [hsent, Nat.add_assoc], ?_, fun hm => htold (by omega)⟩
    rw [List.take_add] at hacc
    exact List.append_cancel_left hacc
  · rintro ⟨m, hm, hsent, hacc, htold⟩
    refine ⟨k + m, by omega, by rw [hsent, Nat.add_assoc], ?_, fun hn => htold (by omega)⟩
    rw [hacc, List.take_add]
    rfl

theorem honestFrom_goesOn {s : SendLoop} {t : SendTurn} {k : Nat}
    (hnat : (nativeSend op s.str addr flg t.ans).1 = { len := some k, again := true })
    (hacc : acceptedBytes (nativeSend op s.str addr flg t.ans).2 = s.str.bytes.take k)
    (hk : k ≤ s.str.bytes.length) (ts : List (LoopTurn SendAnswer WaitResult)) :
    HonestFrom s ((sendLoop (checkedSend op addr flg)).run (.ready s) (t.turns ++ ts)) ↔
      (t.expired = false → t.wait = .ready →
        HonestFrom { str := s.str.drop k, sent := s.sent + k }
          ((sendLoop (checkedSend op addr flg)).run
            (.ready { str := s.str.drop k, sent := s.sent + k }) ts)) := by
  have hcalls : ((sendLoop (checkedSend op addr flg)).attempt s t.toSendAnswer).2 =
      (nativeSend op s.str addr flg t.ans).2 := by
    simp only [sendLoop, checkedSend, hnat, Bool.not_true, Bool.false_eq_true, if_false]
    split <;> rfl
  have hphase : ((sendLoop (checkedSend op addr flg)).attempt s t.toSendAnswer).1 =
      if t.expired then .returned (.ok { sent := s.sent + k, timeout := true })
      else .waiting { str := s.str.drop k, sent := s.sent + k } := by
    simp only [sendLoop, checkedSend, hnat, Bool.not_true, Bool.false_eq_true, if_false]
    split <;> rfl
  rw [SendTurn.turns, List.cons_append, List.cons_append, List.nil_append]
  cases hexp : t.expired with
  | true =>
    rw [hexp, if_pos rfl] at hphase
    rw [RetryLoop.run_of_returned _ hphase, hcalls]
    have hret : HonestFrom s (.returned (.ok { sent := s.sent + k, timeout := true }),
        (nativeSend op s.str addr flg t.ans).2) :=
      honestFrom_returned hk rfl hacc fun _ => Or.inr rfl
    exact iff_of_true hret fun h => absurd h Bool.noConfusion
  | false =>
    rw [hexp, if_neg Bool.false_ne_true] at hphase
    rw [RetryLoop.run_of_waiting _ hphase, hcalls, honestFrom_append hk hacc]
    cases hwait : t.wait with
    | ready => exact ⟨fun h _ _ => h, fun h => h rfl rfl⟩
    | failed code => exact iff_of_true (honestFrom_gaveUp rfl (Or.inl rfl) ts) fun _ => nofun
    | timeout => exact iff_of_true (honestFrom_gaveUp rfl (Or.inr rfl) ts) fun _ => nofun

theorem sendLoop_stops {s : SendLoop} {t : SendTurn} {ret : NativeSend}
    (hnat : (nativeSend op s.str addr flg t.ans).1 = ret) (hagain : ret.again = false)
    (ts : List (LoopTurn SendAnswer WaitResult)) :
    (sendLoop (checkedSend op addr flg)).run (.ready s) (t.turns ++ ts) =
      (.returned (.ok (match ret.len with
        | none => { sent := s.sent, err := ret.err }
        | some len => { sent := s.sent + len })), (nativeSend op s.str addr flg t.ans).2) := by
  subst hnat
  have hphase : ∃ r, ((sendLoop (checkedSend op addr flg)).attempt s t.toSendAnswer) =
      (.returned (.ok r), (nativeSend op s.str addr flg t.ans).2) ∧
        r = match (nativeSend op s.str addr flg t.ans).1.len with
          | none => { sent := s.sent, err := (nativeSend op s.str addr flg t.ans).1.err }
          | some len => { sent := s.sent + len } := by
    cases hlen : (nativeSend op s.str addr flg t.ans).1.len with
    | none => exact ⟨_, by simp only [sendLoop, checkedSend, hlen], rfl⟩
    | some len =>
      exact ⟨_, by simp only [sendLoop, checkedSend, hlen, hagain, Bool.not_false, if_true], rfl⟩
  obtain ⟨r, hattempt, rfl⟩ := hphase
  exact (RetryLoop.run_of_returned _ (congrArg Prod.fst hattempt) _).trans
    (congrArg (Prod.mk _) (congrArg Prod.snd hattempt))

variable (op addr flg) in
theorem honestFrom_iff (s : SendLoop) (ts : List SendTurn) :
    HonestFrom s ((sendLoop (checkedSend op addr flg)).run (.ready s)
      (ts.flatMap SendTurn.turns)) ↔ Spared s.str.bytes.length ts := by
  induction ts generalizing s with
  | nil =>
    refine iff_of_true (fun ret hret => ?_) (Each.nil _)
    cases hret
  | cons t ts ih =>
    rw [List.flatMap_cons]
    obtain ⟨err, hret, hacc, hwhy⟩ | ⟨n, hans, hwords, hret, hacc⟩ | ⟨k, hk, hret, hacc, hn, he⟩ :=
      nativeSend_cases op addr flg s.str t.ans
    · rw [sendLoop_stops hret rfl]
      refine iff_of_true (honestFrom_returned (Nat.zero_le _) rfl hacc fun _ => Or.inl rfl) ?_
      obtain hnil | ⟨e, hans, he⟩ := hwhy
      · rw [hnil]
        exact spared_zero _
      · exact spared_of_refused hans he
    · rw [sendLoop_stops hret rfl]
      rcases Nat.lt_or_ge n s.str.bytes.length with hlt | hge
      · -- the call has left whole multiples of 2^32 bytes, and the loop reports it as complete
        rw [Nat.min_eq_left hlt.le] at hwords hacc ⊢
        refine iff_of_false (fun hhonest => ?_)
          fun hspared => (spared_cons.1 hspared).1 n hans ⟨hlt, hwords⟩
        obtain ⟨m, -, hsent, -, htold⟩ := hhonest _ rfl
        obtain rfl : n = m := Nat.add_left_cancel hsent
        obtain herr | htimeout := htold hlt
        · exact Bool.false_ne_true herr
        · exact Bool.false_ne_true htimeout
      · rw [Nat.min_eq_right hge] at hacc ⊢
        exact iff_of_true (honestFrom_returned le_rfl rfl hacc fun h => absurd h (lt_irrefl _))
          (spared_of_all hans hge)
    · rw [honestFrom_goesOn hret hacc hk, ih, spared_cons]
      have hrest : (s.str.drop k).bytes.length = s.str.bytes.length - t.count := by
        show (s.str.bytes.drop k).length = _
        rw [List.length_drop, SendAnswer.count]
        cases hans : t.ans with
        | accepted n =>
          rw [(hn n hans).1]
          show _ = s.str.bytes.length - n
          omega
        | failed e => rw [(he e hans).1]
      rw [hrest]
      constructor
      · refine fun h => ⟨fun n hans hleaves => ?_, fun hgo => h hgo.2.1 hgo.2.2⟩
        obtain ⟨rfl, hwords⟩ := hn n hans
        rw [Nat.min_eq_left hleaves.1.le] at hwords
        exact hwords hleaves.2
      · exact fun h hexp hwait => h.2 ⟨fun e hans => (he e hans).2, hexp, hwait⟩

variable (op addr flg) in
theorem nativeSend_again_iff (str : SizedBytes) (n : Nat) :
    (n < str.bytes.length → (nativeSend op str addr flg (.accepted n)).1.again = true) ↔
      ¬LeavesWords str.bytes.length n := by
  unfold LeavesWords
  rw [not_and]
  refine imp_congr_right fun hlt => ?_
  obtain ⟨_, _, _, hnil | ⟨_, he, _⟩⟩ | ⟨m, hm, hwords, hret, _⟩ | ⟨k, _, hret, _, hn, _⟩ :=
    nativeSend_cases op addr flg str (.accepted n)
  · rw [hnil] at hlt
    exact absurd hlt (Nat.not_lt_zero n)
  · cases he
  · cases hm
    rw [Nat.min_eq_left hlt.le] at hwords
    rw [hret]
    exact iff_of_false Bool.false_ne_true (not_not.2 hwords)
  · obtain ⟨rfl, hwords⟩ := hn n rfl
    rw [Nat.min_eq_left hlt.le] at hwords
    rw [hret]
    exact iff_of_true rfl hwords

theorem sendLoop_not_raised (s : SendLoop) (ts : List (LoopTurn SendAnswer WaitResult))
    (e : LuaError) :
    ((sendLoop (checkedSend op addr flg)).run (.ready s) ts).1 ≠ .returned (.error e) := by
  have hattempt (s : SendLoop) (a : SendAnswer) :
      ((sendLoop (checkedSend op addr flg)).attempt s a).1 ≠ .returned (.error e) := by
    simp only [sendLoop, checkedSend]
    split
    · exact nofun
    · split_ifs <;> exact nofun
  have hresume (s : SendLoop) (w : WaitResult) :
      (sendLoop (checkedSend op addr flg)).resume s w ≠ .returned (.error e) := by
    simp only [sendLoop]
    split <;> exact nofun
  have hready : (LoopPhase.ready s : LoopPhase SendLoop (Except LuaError SendRet)) ≠
      .returned (.error e) := nofun
  exact RetryLoop.run_history (l := sendLoop (checkedSend op addr flg))
    (I := fun p _ => p ≠ .returned (Except.error e)) (fun s a _ _ => hattempt s a)
    (fun s w _ _ => hresume s w) hready ts

variable (op addr flg) in
theorem honest_iff (str : SizedBytes) (ts : List SendTurn) :
    Honest str.bytes ((sendLoop (checkedSend op addr flg)).run (.ready { str := str, sent := 0 })
      (ts.flatMap SendTurn.turns)) ↔ Spared str.bytes.length ts := by
  rw [← honestFrom_iff op addr flg { str := str, sent := 0 } ts]
  constructor
  · rintro ⟨-, hok⟩ ret hret
    obtain ⟨hle, hacc, htold⟩ := hok ret hret
    exact ⟨ret.sent, hle, (Nat.zero_add _).symm, hacc, htold⟩
  · intro hok
    refine ⟨fun e he => absurd he (sendLoop_not_raised _ _ e), fun ret hret => ?_⟩
    obtain ⟨k, hle, hsent, hacc, htold⟩ := hok ret hret
    rw [Nat.zero_add] at hsent
    rw [hsent]
    exact ⟨hle, hacc, htold⟩

end Loop

def AgainWhenShort (r : Except LuaError NativeSend) (len n : Nat) : Prop :=
  ∀ ret, r = .ok ret → n < len → ret.again = true

theorem againWhenShort_error (e : LuaError) (len n : Nat) (p : Prop) :
    AgainWhenShort (.error e) len n ↔ ((Except.error e : Except LuaError Nat).isOk → p) := by
  refine iff_of_true ?_ ?_
  · rintro ret ⟨⟩
  · rintro ⟨⟩

theorem againWhenShort_iff {op : String} {addr : Option Addrinfo} {flg : Nat} {str : SizedBytes}
    {n : Nat} :
    AgainWhenShort (.ok (nativeSend op str addr flg (.accepted n)).1) str.bytes.length n ↔
      ¬LeavesWords str.bytes.length n := by
  rw [← nativeSend_again_iff op addr flg]
  constructor
  · exact fun h => h _ rfl
  · intro h ret hret
    cases hret
    exact h

theorem sendLua_of_ok {flags : List FlagArg} {flg : Nat} (h : netCheckMsgflags 3 flags = .ok flg) :
    (fun str => sendLua str flags) = checkedSend "send" none flg := by
  funext str ans
  rw [sendLua, h]
  rfl

theorem socketSend_of_error {flags : List FlagArg} {e : LuaError}
    (h : netCheckMsgflags 3 flags = .error e) (str : SizedBytes) (ts : List SendTurn) :
    Honest str.bytes (socketSend str flags ts) := by
  have hattempt (s : SendLoop) (a : SendAnswer) :
      (sendLoop fun str => sendLua str flags).attempt s a = (.returned (.error e), []) := by
    simp only [sendLoop, sendLua, h]
  cases ts with
  | nil => exact ⟨nofun, nofun⟩
  | cons t ts =>
    have hrun : socketSend str flags (t :: ts) = (.returned (.error e), []) :=
      (RetryLoop.run_of_returned _ (congrArg Prod.fst (hattempt _ _)) _).trans
        (congrArg (Prod.mk _) (congrArg Prod.snd (hattempt _ _)))
    rw [hrun]
    exact ⟨fun _ _ => rfl, nofun⟩

/-- Plain writes are honest just where no short count is taken for a full one. -/
theorem plainWrites_honest_iff (str : SizedBytes) :
    (∀ n : Nat,
      (AgainWhenShort (writeLua str (.accepted n)).1 str.bytes.length n ↔
        ¬LeavesWords str.bytes.length n) ∧
      (∀ flags, AgainWhenShort (sendLua str flags (.accepted n)).1 str.bytes.length n ↔
        ((netCheckMsgflags 3 flags).isOk → ¬LeavesWords str.bytes.length n)) ∧
      ∀ info flags, AgainWhenShort (sendtoLua str info flags (.accepted n)).1 str.bytes.length n ↔
        ((netCheckMsgflags 4 flags).isOk → ¬LeavesWords str.bytes.length n)) ∧
    ∀ ts : List SendTurn,
      (Honest str.bytes (socketWrite str ts) ↔ Spared str.bytes.length ts) ∧
      ∀ flags, Honest str.bytes (socketSend str flags ts) ↔
        ((netCheckMsgflags 3 flags).isOk → Spared str.bytes.length ts) := by
  constructor
  · intro n
    refine ⟨againWhenShort_iff, fun flags => ?_, fun info flags => ?_⟩
    · unfold sendLua
      cases h : netCheckMsgflags 3 flags with
      | error e => exact againWhenShort_error ..
      | ok flg => exact againWhenShort_iff.trans (imp_iff_right rfl).symm
    · unfold sendtoLua
      cases h : netCheckMsgflags 4 flags with
      | error e => exact againWhenShort_error ..
      | ok flg => exact againWhenShort_iff.trans (imp_iff_right rfl).symm
  · intro ts
    refine ⟨honest_iff "write" none 0 str ts, fun flags => ?_⟩
    cases h : netCheckMsgflags 3 flags with
    | error e =>
      refine iff_of_true (socketSend_of_error h str ts) ?_
      rintro ⟨⟩
    | ok flg =>
      rw [socketSend, sendLua_of_ok h]
      exact (honest_iff _ _ _ str ts).trans (imp_iff_right rfl).symm

def longString : SizedBytes where
  bytes := List.replicate (2 ^ 32 + 1) 0
  fits := by
    rw [List.length_replicate]
    decide

theorem socketWrite_longString :
    ¬Honest longString.bytes
      (socketWrite longString [{ ans := .accepted 1, expired := false, wait := .ready }]) := by
  intro h
  have hlen : longString.bytes.length = 2 ^ 32 + 1 := List.length_replicate
  have hspared := (honest_iff "write" none 0 longString _).1 h
  rw [hlen, spared_cons] at hspared
  exact hspared.1 1 rfl ⟨by decide, by decide⟩

end LuaNet.Socket
