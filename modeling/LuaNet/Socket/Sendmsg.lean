import LuaNet.Socket.Cmsg
import LuaNet.Socket.Send

/-! `sendmsg` of `socket.c` and the loop of `Socket:sendmsg`. The control data goes out with the
first call that succeeds, the payload with as many as it takes. -/

namespace LuaNet.Socket

open LuaNet.Lib
open LuaNet.Tls (SendResult WaitResult)

structure NativeSendmsg extends NativeSend where
  succeeded : Bool := false
deriving DecidableEq

def sendmsgControl (room : Nat) (cmsg : Option (List CmsgArg)) : Except LuaError Bytes :=
  match cmsg with
  | none => .ok []
  | some args => (netCmsgBuildBuffer room args).map (·.getD [])

def payloadOf (msg : Option SizedBytes) : Bytes := (msg.map (·.bytes)).getD []

def sendmsgLua (room : Nat) (msg : Option SizedBytes) (addr : Option Addrinfo)
    (cmsg : Option (List CmsgArg)) (flags : List FlagArg) (ans : SendResult) :
    Except LuaError NativeSendmsg × List SendCall :=
  match netCheckMsgflags 5 flags with
  | .error e => (.error e, [])
  | .ok flgs =>
    match sendmsgControl room cmsg with
    | .error e => (.error e, [])
    | .ok control =>
      if msg.isNone ∧ control.length = 0 then
        (.ok { err := some (.errno .einval "sendmsg") }, [])
      else
        let call : SendCall :=
          { payload := msg.map (·.bytes), addr := addr, control := control,
            flags := flgs ||| msgNosignal, ans := ans }
        match ans with
        | .failed e =>
          (.ok (if isAgain e then { len := some 0, again := true }
            else { err := some (.errno e "sendmsg") }), [call])
        | .accepted n =>
          let msglen := (payloadOf msg).length
          let rv := min n msglen
          (.ok { len := some rv, again := msg.isSome && decide (msglen > rv), succeeded := true },
            [call])

structure SendmsgLoop where
  msg : Option SizedBytes
  cmsg : Option (List CmsgArg)
  sent : Nat

def sendmsgLoop (room : Nat) (addr : Option Addrinfo) (flags : List FlagArg) :
    RetryLoop SendmsgLoop (Except LuaError SendRet) SendAnswer WaitResult SendCall where
  attempt s a :=
    let r := sendmsgLua room s.msg addr s.cmsg flags a.ans
    match r.1 with
    | .error e => (.returned (.error e), r.2)
    | .ok ret =>
      match ret.len with
      | none => (.returned (.ok { sent := s.sent, err := ret.err }), r.2)
      | some len =>
        if !ret.again then (.returned (.ok { sent := s.sent + len }), r.2)
        else if a.expired then (.returned (.ok { sent := s.sent + len, timeout := true }), r.2)
        else
          (.waiting { msg := s.msg.map (·.drop len), sent := s.sent + len,
                      cmsg := if ret.succeeded then none else s.cmsg }, r.2)
  resume s w :=
    match waitFailure s.sent w with
    | none => .ready s
    | some ret => .returned (.ok ret)

def socketSendmsg (room : Nat) (msg : Option SizedBytes) (addr : Option Addrinfo)
    (cmsg : Option (List CmsgArg)) (flags : List FlagArg)
    (ts : List (LoopTurn SendAnswer WaitResult)) :
    LoopPhase SendmsgLoop (Except LuaError SendRet) × List SendCall :=
  (sendmsgLoop room addr flags).run (.ready { msg := msg, cmsg := cmsg, sent := 0 }) ts

def SendCall.succeeded (c : SendCall) : Bool :=
  match c.ans with
  | .accepted _ => true
  | .failed _ => false

/-- A call after the calls `before` offers what they have left of the payload, to the one
address, with the control data as long as none of them has succeeded. -/
def Attempted (msg : Option SizedBytes) (addr : Option Addrinfo) (control : Bytes)
    (before : List SendCall) (c : SendCall) : Prop :=
  c.payload = msg.map (fun s => s.bytes.drop (acceptedBytes before).length) ∧ c.addr = addr ∧
    c.control = if before.any SendCall.succeeded then [] else control

theorem sendmsgLua_cases (room : Nat) (msg : Option SizedBytes) (addr : Option Addrinfo)
    (cmsg : Option (List CmsgArg)) (flags : List FlagArg) (ans : SendResult) :
    (∃ e, sendmsgLua room msg addr cmsg flags ans = (.error e, [])) ∨
    (∃ err, sendmsgLua room msg addr cmsg flags ans = (.ok { err := some err }, [])) ∨
    ∃ control call, sendmsgControl room cmsg = .ok control ∧
      call.payload = msg.map (·.bytes) ∧ call.addr = addr ∧ call.control = control ∧
      call.ans = ans ∧
      ((∃ e err, ans = .failed e ∧
        sendmsgLua room msg addr cmsg flags ans = (.ok { err := some err }, [call])) ∨
      ∃ k ≤ (payloadOf msg).length, call.accepted = (payloadOf msg).take k ∧
        (call.succeeded = false → k = 0) ∧
        sendmsgLua room msg addr cmsg flags ans =
          (.ok { len := some k, succeeded := call.succeeded,
                 again := !call.succeeded || decide (k < (payloadOf msg).length) }, [call])) := by
  unfold sendmsgLua
  cases netCheckMsgflags 5 flags with
  | error e => exact Or.inl ⟨e, rfl⟩
  | ok flgs =>
    cases hcontrol : sendmsgControl room cmsg with
    | error e => exact Or.inl ⟨e, rfl⟩
    | ok control =>
      by_cases hnothing : msg.isNone = true ∧ control.length = 0
      · simp only [hnothing, and_self, if_true]
        exact Or.inr (Or.inl ⟨_, rfl⟩)
      simp only [hnothing, if_false]
      refine Or.inr (Or.inr ⟨control, ⟨msg.map (·.bytes), addr, control, flgs ||| msgNosignal, ans⟩,
        rfl, rfl, rfl, rfl, rfl, ?_⟩)
      cases ans with
      | failed e =>
        cases he : isAgain e with
        | false => exact Or.inl ⟨e, _, rfl, by simp only [he]; rfl⟩
        | true =>
          refine Or.inr ⟨0, Nat.zero_le _, rfl, fun _ => rfl, ?_⟩
          simp only [he]
          rfl
      | accepted n =>
        refine Or.inr ⟨min n (payloadOf msg).length, Nat.min_le_right _ _, ?_, nofun, ?_⟩
        · exact List.take_eq_take_min
        · have hagain :
              (msg.isSome && decide ((payloadOf msg).length > min n (payloadOf msg).length)) =
                decide (min n (payloadOf msg).length < (payloadOf msg).length) := by
            cases msg with
            | none => rfl
            | some s => rfl
          simp only [hagain]
          rfl

section Loop

variable {room : Nat} {msg : Option SizedBytes} {addr : Option Addrinfo}
  {cmsg : Option (List CmsgArg)} {flags : List FlagArg} {control : Bytes}

theorem payloadOf_drop (msg : Option SizedBytes) (n : Nat) :
    payloadOf (msg.map (·.drop n)) = (payloadOf msg).drop n := by
  cases msg with
  | none => exact List.drop_nil.symm
  | some s => rfl

/-- What the calls made so far have left of the arguments. -/
structure SendmsgLoop.Left (msg : Option SizedBytes) (cmsg : Option (List CmsgArg))
    (s : SendmsgLoop) (cs : List SendCall) : Prop where
  sent : s.sent = (acceptedBytes cs).length
  msg_eq : s.msg = msg.map (·.drop s.sent)
  cmsg_eq : s.cmsg = if cs.any SendCall.succeeded then none else cmsg

def SendmsgInv (room : Nat) (msg : Option SizedBytes) (addr : Option Addrinfo)
    (cmsg : Option (List CmsgArg)) (control : Bytes)
    (p : LoopPhase SendmsgLoop (Except LuaError SendRet)) (cs : List SendCall) : Prop :=
  Each (Attempted msg addr control) cs ∧ acceptedBytes cs <+: payloadOf msg ∧
    (cs ≠ [] → sendmsgControl room cmsg = .ok control) ∧
    match p with
    | .ready s => s.Left msg cmsg cs
    | .waiting s => s.Left msg cmsg cs
    | .returned (.ok ret) => ret.sent = (acceptedBytes cs).length ∧
        (ret.sent < (payloadOf msg).length → ret.err.isSome = true ∨ ret.timeout = true) ∧
        (ret.err = none → ret.timeout = false → cs.any SendCall.succeeded = true)
    | .returned (.error _) => True

theorem acceptedBytes_singleton (c : SendCall) : acceptedBytes [c] = c.accepted :=
  List.append_nil _

theorem SendmsgInv.snoc {s : SendmsgLoop} {cs : List SendCall} {c : SendCall} {k : Nat}
    (h : SendmsgInv room msg addr cmsg control (.ready s) cs)
    (hpayload : c.payload = s.msg.map (·.bytes)) (haddr : c.addr = addr)
    (hcontrol : c.control = if cs.any SendCall.succeeded then [] else control)
    (hk : k ≤ (payloadOf s.msg).length) (haccepted : c.accepted = (payloadOf s.msg).take k) :
    Each (Attempted msg addr control) (cs ++ [c]) ∧
      acceptedBytes (cs ++ [c]) <+: payloadOf msg ∧
      (acceptedBytes (cs ++ [c])).length = s.sent + k ∧
      (payloadOf msg).length = s.sent + (payloadOf s.msg).length := by
  obtain ⟨heach, hprefix, -, hsent, hmsg, -⟩ := h
  have hlen : (payloadOf msg).length = s.sent + (payloadOf s.msg).length := by
    have hle := hprefix.length_le
    rw [hmsg, payloadOf_drop, List.length_drop]
    omega
  have hall : acceptedBytes (cs ++ [c]) = (payloadOf msg).take (s.sent + k) := by
    rw [acceptedBytes_append, acceptedBytes_singleton, haccepted, hmsg, payloadOf_drop,
      List.take_add, hsent, ← List.prefix_iff_eq_take.1 hprefix]
  refine ⟨heach.snoc ⟨?_, haddr, hcontrol⟩, hall ▸ List.take_prefix _ _, ?_, hlen⟩
  · rw [hpayload, hmsg, Option.map_map, hsent]
    rfl
  · rw [hall, List.length_take_of_le (by omega)]

theorem control_eq {s : SendmsgLoop} {cs : List SendCall} {control' : Bytes}
    (hleft : s.Left msg cmsg cs) (hcontrol : sendmsgControl room s.cmsg = .ok control')
    (h : ∀ c, sendmsgControl room cmsg = .ok c → c = control) :
    control' = if cs.any SendCall.succeeded then [] else control := by
  rw [hleft.cmsg_eq] at hcontrol
  split
  next hany =>
    rw [if_pos hany] at hcontrol
    exact (Except.ok.inj hcontrol).symm
  next hany =>
    rw [if_neg hany] at hcontrol
    exact h _ hcontrol

theorem SendmsgLoop.Left.next {s : SendmsgLoop} {cs : List SendCall} {c : SendCall} {k : Nat}
    (h : s.Left msg cmsg cs) (hlen : (acceptedBytes (cs ++ [c])).length = s.sent + k) :
    SendmsgLoop.Left msg cmsg { msg := s.msg.map (·.drop k), sent := s.sent + k,
                                cmsg := if c.succeeded then none else s.cmsg } (cs ++ [c]) := by
  refine ⟨hlen.symm, ?_, ?_⟩
  · show s.msg.map (·.drop k) = msg.map (·.drop (s.sent + k))
    rw [h.msg_eq, Option.map_map]
    refine congrArg (Option.map · msg) (funext fun t => SizedBytes.ext ?_)
    exact List.drop_drop
  · show (if c.succeeded = true then none else s.cmsg) = _
    have hsnoc : (cs ++ [c]).any SendCall.succeeded =
        (cs.any SendCall.succeeded || c.succeeded) := by
      rw [List.any_append, List.any_cons, List.any_nil, Bool.or_false]
    rw [hsnoc, h.cmsg_eq]
    cases hs : c.succeeded with
    | true => rw [Bool.or_true, if_pos rfl, if_pos rfl]
    | false => rw [Bool.or_false, if_neg Bool.false_ne_true]

theorem SendmsgInv.built {s : SendmsgLoop} {cs : List SendCall} {control' : Bytes}
    (h : SendmsgInv room msg addr cmsg control (.ready s) cs)
    (hcontrol : sendmsgControl room s.cmsg = .ok control')
    (hctl : ∀ c, sendmsgControl room cmsg = .ok c → c = control) :
    sendmsgControl room cmsg = .ok control := by
  obtain ⟨-, -, hbuilt, hleft⟩ := h
  cases cs with
  | cons c cs => exact hbuilt (List.cons_ne_nil c cs)
  | nil =>
    rw [hleft.cmsg_eq, List.any_nil, if_neg Bool.false_ne_true] at hcontrol
    rw [hcontrol, hctl _ hcontrol]

theorem sendmsgLoop_attempt (hctl : ∀ c, sendmsgControl room cmsg = .ok c → c = control)
    (s : SendmsgLoop) (a : SendAnswer) (cs : List SendCall)
    (h : SendmsgInv room msg addr cmsg control (.ready s) cs) :
    SendmsgInv room msg addr cmsg control ((sendmsgLoop room addr flags).attempt s a).1
      (cs ++ ((sendmsgLoop room addr flags).attempt s a).2) := by
  have hinv := h
  obtain ⟨heach, hprefix, hbuilt, hleft⟩ := h
  simp only [sendmsgLoop]
  obtain ⟨e, hret⟩ | ⟨err, hret⟩ | ⟨control', c, hcontrol, hpayload, haddr, hc, hans, hcase⟩ :=
    sendmsgLua_cases room s.msg addr s.cmsg flags a.ans
  · simp only [hret, List.append_nil]
    exact ⟨heach, hprefix, hbuilt, trivial⟩
  · simp only [hret, List.append_nil]
    exact ⟨heach, hprefix, hbuilt, hleft.sent, fun _ => Or.inl rfl, nofun⟩
  -- from here on the call is made, with the control data that is due
  have hc' := hc.trans (control_eq hleft hcontrol hctl)
  have hbuilt' : cs ++ [c] ≠ [] → sendmsgControl room cmsg = .ok control :=
    fun _ => hinv.built hcontrol hctl
  obtain ⟨e, err, he, hret⟩ | ⟨k, hk, haccepted, hfailed, hret⟩ := hcase
  · have hnone : c.accepted = (payloadOf s.msg).take 0 := by
      rw [SendCall.accepted, hans, he]
      rfl
    obtain ⟨heach', hprefix', hlen, -⟩ := hinv.snoc hpayload haddr hc' (Nat.zero_le _) hnone
    simp only [hret]
    exact ⟨heach', hprefix', hbuilt', hlen.symm, fun _ => Or.inl rfl, nofun⟩
  · obtain ⟨heach', hprefix', hlen, htotal⟩ := hinv.snoc hpayload haddr hc' hk haccepted
    simp only [hret]
    cases hagain : (!c.succeeded || decide (k < (payloadOf s.msg).length)) with
    | false =>
      simp only [Bool.not_false, if_true]
      rw [Bool.or_eq_false_iff, decide_eq_false_iff_not, Bool.not_eq_eq_eq_not, Bool.not_false]
        at hagain
      refine ⟨heach', hprefix', hbuilt', hlen.symm, fun hshort => ?_, fun _ _ => ?_⟩
      · have hlt : s.sent + k < (payloadOf msg).length := hshort
        exact absurd hlt (by omega)
      · exact List.any_eq_true.mpr ⟨c, List.mem_append_right cs (List.mem_singleton_self c),
          hagain.1⟩
    | true =>
      simp only [Bool.not_true, Bool.false_eq_true, if_false]
      split
      · exact ⟨heach', hprefix', hbuilt', hlen.symm, fun _ => Or.inr rfl, nofun⟩
      · exact ⟨heach', hprefix', hbuilt', hleft.next hlen⟩

theorem sendmsgLoop_resume (s : SendmsgLoop) (w : WaitResult) (cs : List SendCall)
    (h : SendmsgInv room msg addr cmsg control (.waiting s) cs) :
    SendmsgInv room msg addr cmsg control ((sendmsgLoop room addr flags).resume s w) cs := by
  obtain ⟨heach, hprefix, hbuilt, hleft⟩ := h
  cases w with
  | ready => exact ⟨heach, hprefix, hbuilt, hleft⟩
  | failed code => exact ⟨heach, hprefix, hbuilt, hleft.sent, fun _ => Or.inl rfl, nofun⟩
  | timeout => exact ⟨heach, hprefix, hbuilt, hleft.sent, fun _ => Or.inr rfl, nofun⟩

theorem sendmsgLoop_answered (s : SendmsgLoop) (a : SendAnswer) :
    let r := (sendmsgLoop room addr flags).attempt s a
    (∃ c, r.2 = [c] ∧ c.ans = a.ans) ∨
      r.2 = [] ∧ ((∃ e, r.1 = .returned (.error e)) ∨
        ∃ ret, r.1 = .returned (.ok ret) ∧ ret.err.isSome = true) := by
  simp only [sendmsgLoop]
  obtain ⟨e, hret⟩ | ⟨err, hret⟩ | ⟨control', c, hcontrol, hpayload, haddr, hc, hans, hcase⟩ :=
    sendmsgLua_cases room s.msg addr s.cmsg flags a.ans
  · rw [hret]
    exact Or.inr ⟨rfl, Or.inl ⟨e, rfl⟩⟩
  · rw [hret]
    exact Or.inr ⟨rfl, Or.inr ⟨_, rfl, rfl⟩⟩
  · refine Or.inl ⟨c, ?_, hans⟩
    obtain ⟨e, err, he, hret⟩ | ⟨k, hk, haccepted, hfailed, hret⟩ := hcase
    · rw [hret]
    · simp only [hret]
      split
      · rfl
      · split
        · rfl
        · rfl

end Loop

/-- The control data is on its way with the first call that succeeds: every call before that one
has failed with it, and none after it has it. -/
def ControlSentOnce (control : Bytes) (cs : List SendCall) : Prop :=
  ∃ before c after, cs = before ++ c :: after ∧
    (∀ d ∈ before, d.succeeded = false ∧ d.control = control) ∧
    (c.succeeded = true ∧ c.control = control) ∧ ∀ d ∈ after, d.control = []

theorem controlSentOnce {msg : Option SizedBytes} {addr : Option Addrinfo} {control : Bytes}
    {cs : List SendCall} (h : Each (Attempted msg addr control) cs)
    (hany : cs.any SendCall.succeeded = true) : ControlSentOnce control cs := by
  -- the first call that succeeds
  have hsome : (cs.find? SendCall.succeeded).isSome = true :=
    List.find?_isSome.mpr (List.any_eq_true.mp hany)
  obtain ⟨c, hfind⟩ := Option.isSome_iff_exists.mp hsome
  obtain ⟨hc, before, after, rfl, hbefore⟩ := List.find?_eq_some_iff_append.mp hfind
  have hfailed : ∀ d ∈ before, d.succeeded = false := fun d hd =>
    (Bool.not_eq_true' _).mp (hbefore d hd)
  refine ⟨before, c, after, rfl, fun d hd => ⟨hfailed d hd, ?_⟩, ⟨hc, ?_⟩, fun d hd => ?_⟩
  · obtain ⟨pre, post, rfl⟩ := List.append_of_mem hd
    refine (h pre d (post ++ c :: after) ?_).2.2.trans (if_neg fun hpre => ?_)
    · rw [List.append_assoc, List.cons_append]
    · obtain ⟨e, he, hsucceeded⟩ := List.any_eq_true.mp hpre
      rw [hfailed e (List.mem_append_left _ he)] at hsucceeded
      cases hsucceeded
  · refine (h before c after rfl).2.2.trans (if_neg fun hpre => ?_)
    obtain ⟨e, he, hsucceeded⟩ := List.any_eq_true.mp hpre
    rw [hfailed e he] at hsucceeded
    cases hsucceeded
  · obtain ⟨pre, post, rfl⟩ := List.append_of_mem hd
    refine (h (before ++ c :: pre) d post ?_).2.2.trans (if_pos ?_)
    · rw [List.append_assoc, List.cons_append]
    · exact List.any_eq_true.mpr ⟨c, List.mem_append_right _ List.mem_cons_self, hc⟩

/-- Each byte of the payload goes out once and in order, the control data with every call up to
the first that succeeds, and a short count is told. A return that tells neither an error nor a
timeout comes after a call that succeeded, and each attempt makes its call or ends with an
error. -/
theorem sendmsg_exactlyOnce (room : Nat) (msg : Option SizedBytes) (addr : Option Addrinfo)
    (cmsg : Option (List CmsgArg)) (flags : List FlagArg)
    (ts : List (LoopTurn SendAnswer WaitResult)) :
    let r := socketSendmsg room msg addr cmsg flags ts
    Each (Attempted msg addr ((sendmsgControl room cmsg).toOption.getD [])) r.2 ∧
      (∀ ret, r.1 = .returned (.ok ret) →
        ret.sent ≤ (payloadOf msg).length ∧ acceptedBytes r.2 = (payloadOf msg).take ret.sent ∧
          (ret.sent < (payloadOf msg).length → ret.err.isSome = true ∨ ret.timeout = true) ∧
          (ret.err = none → ret.timeout = false →
            ∃ control, sendmsgControl room cmsg = .ok control ∧ ControlSentOnce control r.2)) ∧
      ∀ s a, r.1 = .ready s →
        let r' := socketSendmsg room msg addr cmsg flags (ts ++ [.answer a])
        (∃ c, r'.2 = r.2 ++ [c] ∧ c.ans = a.ans) ∨
          r'.2 = r.2 ∧ ((∃ e, r'.1 = .returned (.error e)) ∨
            ∃ ret, r'.1 = .returned (.ok ret) ∧ ret.err.isSome = true) := by
  have hctl : ∀ c, sendmsgControl room cmsg = .ok c →
      c = (sendmsgControl room cmsg).toOption.getD [] := by
    intro c hc
    rw [hc]
    rfl
  have hstart : SendmsgInv room msg addr cmsg ((sendmsgControl room cmsg).toOption.getD [])
      (.ready { msg := msg, cmsg := cmsg, sent := 0 }) [] := by
    refine ⟨Each.nil _, List.nil_prefix, fun hne => absurd rfl hne, rfl, ?_, rfl⟩
    cases msg <;> rfl
  have hrun := RetryLoop.run_history (l := sendmsgLoop room addr flags)
    (fun s a cs h => sendmsgLoop_attempt hctl s a cs h)
    (fun s w cs h => sendmsgLoop_resume s w cs h) hstart ts
  obtain ⟨heach, hprefix, hbuilt, hphase⟩ := hrun
  refine ⟨heach, fun ret hret => ?_, fun s a hready => ?_⟩
  · have hret' : ((sendmsgLoop room addr flags).run
      (.ready { msg := msg, cmsg := cmsg, sent := 0 }) ts).1 = .returned (.ok ret) := hret
    rw [hret'] at hphase
    obtain ⟨hsent, htold, hsucceeded⟩ := hphase
    refine ⟨hsent ▸ hprefix.length_le, ?_, htold, fun herr htimeout => ?_⟩
    · rw [hsent]
      exact List.prefix_iff_eq_take.1 hprefix
    · have hany := hsucceeded herr htimeout
      refine ⟨_, hbuilt fun hnil => ?_, controlSentOnce heach hany⟩
      rw [hnil] at hany
      cases hany
  · have hready' : ((sendmsgLoop room addr flags).run
      (.ready { msg := msg, cmsg := cmsg, sent := 0 }) ts).1 = .ready s := hready
    simp only [socketSendmsg, RetryLoop.run_snoc, hready', RetryLoop.step]
    obtain ⟨c, hc, hans⟩ | ⟨hnone, hends⟩ := @sendmsgLoop_answered room addr flags s a
    · exact Or.inl ⟨c, by rw [hc], hans⟩
    · exact Or.inr ⟨by rw [hnone, List.append_nil], hends⟩

end LuaNet.Socket
