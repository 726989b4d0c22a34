import LuaNet.Connect.InetConnect

/-! The failover of `inet_stream_connect`: each address takes its turn until one is connected or
the time is up, and a socket that is not returned is closed. -/

namespace LuaNet.Connect

open LuaNet.Lib

inductive ConnEnd
  | connected (fd : Nat)
  | timedOut
  | raised

/-- What a connection in progress comes to: it is made once the socket is writable with a clear
`SO_ERROR`, and given up when the time is up. -/
def pendingEnd {τ D T : Type} (lib : DeadlineLib τ D T) (b : Budget τ D) (c : ConnAddr τ T) :
    Tried ConnError Bool :=
  if (lib.isDone b.deadline c.waitAt).1 then .ended false
  else
    match c.wait (lib.isDone b.deadline c.waitAt).2, c.soError with
    | (_, _, true), _ => .ended false
    | (_, some e, false), _ => .failed (some e)
    | (false, none, false), _ => .failed none
    | (true, none, false), .ok none => .ended true
    | (true, none, false), .ok (some e) => .failed (some (.errno e "error"))
    | (true, none, false), .error e => .failed (some (.errno e "error"))

def connectError (e : ℕ+) : ConnError := .errno e (soOperationToString .connectInet)

section SocketConnectInet

variable {τ T : Type} {c : ConnAddr τ T} {es : List FdEvent}

theorem newNetSocket_direct (c : ConnAddr τ T) (s : CallState) :
    newNetSocket c.call 1 { s with stack := [.entry (.addrinfo c.ai c.answers)] } =
      singleAddr c.call {} 1 { s with stack := [.entry (.addrinfo c.ai c.answers)] } := by
  simp [newNetSocket, luaIndex, isAddrinfo, liftExcept, NetCall.checkOptions, NetCall.optindex]

theorem luaIndex_direct (e : Entry) : luaIndex [.entry e] 1 = some (.entry e) := rfl

theorem socketConnectInet_noMemory
    (h : tryEntry .connectInet {} (.addrinfo c.ai c.answers) = (es, .ended .noMemory))
    (s : CallState) : ∃ t, socketConnectInet c s = (.error .memory, t) ∧ Passed s t es [] := by
  have hop : c.call.op = .connectInet := rfl
  obtain ⟨rfl, errno, hturn⟩ := turn_noMemory (s :=
    { s with stack := [.entry (.addrinfo c.ai c.answers)] }) (luaIndex_direct _) h 0
  refine ⟨{ s with errno := errno }, ?_, (List.append_nil _).symm, (List.append_nil _).symm, [],
    (List.append_nil _).symm, nofun⟩
  simp [socketConnectInet, newNetSocket_direct, singleAddr, hop, hturn]

theorem socketConnectInet_failed {e : Option ℕ+}
    (h : tryEntry .connectInet {} (.addrinfo c.ai c.answers) = (es, .failed e)) (s : CallState) :
    ∃ t, Passed s t es [] ∧ if c.errnoMemory then
      socketConnectInet c s =
        (.ok (none, e.map connectError, false), t)
      else socketConnectInet c s = (.error .memory, t) := by
  have hop : c.call.op = .connectInet := rfl
  have hmemory : c.call.memory = c.errnoMemory := rfl
  obtain ⟨-, -, hsome, -⟩ := tryEntry_failed h
  obtain ⟨code, rfl⟩ := Option.isSome_iff_exists.1 hsome
  obtain ⟨t, hturn, -, hpassed⟩ := turn_failed (s :=
    { s with stack := [.entry (.addrinfo c.ai c.answers)] }) (luaIndex_direct _) h none
  obtain ⟨ret, t', hfailed, hpassed', hret⟩ :=
    addrsFailed_run .connectInet c.errnoMemory (some code) t
  have hrounds : checkNextAddr .connectInet {} c.errnoMemory 0 1 (errCode (some code)) t =
      (addrsFailed .connectInet c.errnoMemory (errCode (some code)) >>= fun n =>
        pure (some n)) t := by
    simp [checkNextAddr]
  have hall := hpassed.trans hpassed'
  rw [List.append_nil, List.append_nil] at hall
  have hnext : errCode none = 0 := rfl
  rw [hnext, Option.some_or] at hturn
  refine ⟨{ t' with stack := s.stack }, ⟨hall.events, hall.visits, hall.socks⟩, ?_⟩
  rcases hret with ⟨hnone, rfl⟩ | ⟨hroom, rfl, hvalues⟩
  · rw [hnone, if_neg Bool.false_ne_true]
    simp [socketConnectInet, newNetSocket_direct, singleAddr, hop, hmemory, hturn, hrounds, hfailed]
  · rw [hroom, if_pos rfl]
    simp [socketConnectInet, newNetSocket_direct, singleAddr, hop, hmemory, hturn, hrounds, hfailed,
      hvalues, sockArg, errArg, boolArg, connectError]

theorem socketConnectInet_made {ai : AddrInfo} {fd : Nat} {again : Bool}
    (h : tryEntry .connectInet {} (.addrinfo c.ai c.answers) = (es, .ended (.made ai fd again)))
    (s : CallState) : ∃ errno, socketConnectInet c s = (.ok (some s.socks.length, none, again),
      { s with
        socks := s.socks ++ [⟨ai.family, ai.socktype, ai.protocol, fd⟩]
        errno := errno
        events := s.events ++ es }) := by
  have hop : c.call.op = .connectInet := rfl
  have hknown : SoOperation.connectInet ≠ .newInet6 := SoOperation.noConfusion
  obtain ⟨errno, hturn⟩ := turn_made (s :=
    { s with stack := [.entry (.addrinfo c.ai c.answers)] }) hknown (luaIndex_direct _) h 0
  refine ⟨errno, ?_⟩
  cases again <;>
    simp [socketConnectInet, newNetSocket_direct, singleAddr, hop, hturn, CallState.returned,
      againValues, sockArg, errArg, boolArg]

end SocketConnectInet

section Await

variable {τ D T : Type} {s : CallState}

theorem closeLua_run {xs : List NetSocket} {x : NetSocket} (hs : s.socks = xs ++ [x])
    (hfd : x.fd ≠ -1) (a : Answers) : closeLua xs.length a s = (.ok (),
      { s with
        socks := xs ++ [{ x with fd := -1 }]
        errno := a.closeErrno
        events := s.events ++ [.closed x.fd] }) := by
  simp [closeLua, hs, hfd, setFd, emit, setErrno, modify_last]

theorem awaitConnect_eq (lib : DeadlineLib τ D T) (b : Budget τ D) (c : ConnAddr τ T) (i : Nat)
    (err : Option ConnError) : awaitConnect lib b c i err =
      match pendingEnd lib b c with
      | .ended true => pure (.inl { sock := some i, ai := some c.peer })
      | .ended false => closeLua i c.answers >>= fun _ => pure (.inl { timeout := true })
      | .failed e => closeLua i c.answers >>= fun _ => pure (.inr (e.or err)) := by
  unfold awaitConnect pendingEnd errorLua
  cases hdone : (lib.isDone b.deadline c.waitAt).1 with
  | true => simp [hdone]
  | false =>
    rcases hwait : c.wait (lib.isDone b.deadline c.waitAt).2 with ⟨ok, cerr, timeout⟩
    cases timeout with
    | true => simp [hdone, hwait]
    | false =>
      cases cerr with
      | some e => simp [hdone, hwait]
      | none =>
        cases ok with
        | false => simp [hdone, hwait]
        | true => rcases c.soError with e | (- | e) <;> simp [hdone, hwait]

def pendingAttempt {τ D T : Type} (lib : DeadlineLib τ D T) (b : Budget τ D) (c : ConnAddr τ T)
    (es : List FdEvent) (fd : Nat) : Budget τ D × List FdEvent × Tried ConnError ConnEnd :=
  match pendingEnd lib b c with
  | .ended true => (b, es, .ended (.connected fd))
  | .ended false => (b, es ++ [.closed fd], .ended .timedOut)
  | .failed e => (b, es ++ [.closed fd], .failed e)

def AddrDone (c : ConnAddr τ T) (err : Option ConnError) (s : CallState)
    (run : Except LuaError (ConnRet ⊕ Budget τ D × Option ConnError) × CallState) :
    Budget τ D × List FdEvent × Tried ConnError ConnEnd → Prop
  | (b, es, .failed e) => ∃ t, run = (.ok (.inr (b, e.or err)), t) ∧ Passed s t es []
  | (_, es, .ended .timedOut) => ∃ t, run = (.ok (.inl { timeout := true }), t) ∧ Passed s t es []
  | (_, es, .ended .raised) => ∃ t, run = (.error .memory, t) ∧ Passed s t es []
  | (_, es, .ended (.connected fd)) => ∃ t,
    run = (.ok (.inl { sock := some s.socks.length, ai := some c.peer }), t) ∧
    t.events = s.events ++ es ∧
    t.socks = s.socks ++ [⟨c.ai.family, c.ai.socktype, c.ai.protocol, fd⟩]

theorem passed_of_closed {x : NetSocket} (hx : x.fd = -1) (errno : Nat) (s : CallState)
    (es : List FdEvent) : Passed s
      { s with socks := s.socks ++ [x], errno := errno, events := s.events ++ es } es [] :=
  ⟨rfl, (List.append_nil _).symm, [x], rfl, fun y hy => by rw [List.mem_singleton.1 hy, hx]⟩

theorem awaitConnect_done (lib : DeadlineLib τ D T) (b : Budget τ D) (c : ConnAddr τ T) (fd : Nat)
    (err : Option ConnError) (errno : Nat) (s : CallState) : AddrDone c err s
      ((awaitConnect lib b c s.socks.length err >>= fun r =>
          match r with
          | .inl ret => pure (.inl ret)
          | .inr err => pure (.inr (b, err)))
        { s with
          socks := s.socks ++ [⟨c.ai.family, c.ai.socktype, c.ai.protocol, fd⟩]
          errno := errno
          events := s.events ++ [.created fd] })
      (pendingAttempt lib b c [.created fd] fd) := by
  have hfd : ((fd : Nat) : Int) ≠ -1 := by omega
  have hclose := closeLua_run (s := { s with
    socks := s.socks ++ [⟨c.ai.family, c.ai.socktype, c.ai.protocol, fd⟩]
    errno := errno
    events := s.events ++ [.created fd] }) rfl hfd c.answers
  have hpassed := passed_of_closed (x := ⟨c.ai.family, c.ai.socktype, c.ai.protocol, -1⟩) rfl
    c.answers.closeErrno s ([.created fd] ++ [.closed fd])
  rw [awaitConnect_eq]
  unfold pendingAttempt
  rcases hpending : pendingEnd lib b c with e | (- | -)
  · refine ⟨_, ?_, hpassed⟩
    simp [hclose]
  · refine ⟨_, ?_, hpassed⟩
    simp [hclose]
  · exact ⟨_, rfl, rfl, rfl⟩

def ConnAddr.dropped (c : ConnAddr τ T) : List FdEvent := (Entry.addrinfo c.ai c.answers).dropped

theorem ConnAddr.dropped_of_made {c : ConnAddr τ T} {fd : Nat} (h : c.answers.socket = .ok fd) :
    c.dropped = [.created fd] ++ [.closed fd] := dropped_of_ok h

theorem pendingEnd_connected {lib : DeadlineLib τ D T} {b : Budget τ D} {c : ConnAddr τ T}
    (h : pendingEnd lib b c = .ended true) : ∃ sec,
      lib.isDone b.deadline c.waitAt = (false, sec) ∧ c.wait sec = (true, none, false) ∧
        c.soError = .ok none := by
  unfold pendingEnd at h
  rcases hdone : lib.isDone b.deadline c.waitAt with ⟨- | -, sec⟩
  · rcases hwait : c.wait sec with ⟨- | -, - | e, - | -⟩ <;>
      rcases hso : c.soError with e | (- | e) <;> simp [hdone, hwait, hso] at h
    exact ⟨sec, rfl, hwait, rfl⟩
  · simp [hdone] at h

theorem connect_of_made {ai ai' : AddrInfo} {fd : Nat} {again : Bool} {a : Answers}
    {es : List FdEvent}
    (h : tryEntry .connectInet {} (.addrinfo ai a) = (es, .ended (.made ai' fd again))) :
    a.connect = if again then some einprogress else none := by
  obtain ⟨-, hsocket, hstep, -, rfl, -⟩ := tryEntry_made h
  rw [failingStep_of_ok hsocket, Option.or_eq_none_iff] at hstep
  have hstart : (if a.connect = some einprogress then none else a.connect) = none := hstep.2
  by_cases hagain : a.connect = some einprogress
  · simp [inProgress, isConnectOp, hagain]
  · rw [if_neg hagain] at hstart
    simp [inProgress, isConnectOp, hstart]

theorem ConnAddr.dropped_snoc {before : List (ConnAddr τ T)} {c : ConnAddr τ T} {es : List FdEvent}
    (h : es = [] ∨ es = c.dropped) :
    before.flatMap ConnAddr.dropped ++ es = before.flatMap ConnAddr.dropped ∨
      before.flatMap ConnAddr.dropped ++ es = (before ++ [c]).flatMap ConnAddr.dropped := by
  rw [List.flatMap_append, List.flatMap_singleton]
  rcases h with rfl | rfl
  · exact Or.inl (List.append_nil _)
  · exact Or.inr rfl

end Await

section Steps

variable {τ D T : Type} [Sub τ] [LT τ] [DecidableLT τ] [OfNat τ 0]

def connAttempt (lib : DeadlineLib τ D T) (timeoutSec : τ) (b : Budget τ D) (c : ConnAddr τ T) :
    Budget τ D × List FdEvent × Tried ConnError ConnEnd :=
  if (lib.isDone b.deadline c.enterAt).1 then (b, [], .ended .timedOut)
  else
    match tryEntry .connectInet {} (.addrinfo c.ai c.answers) with
    | (es, .ended .noMemory) => (b, es, .ended .raised)
    | (es, .failed e) =>
      if c.errnoMemory then (b, es, .failed (e.map connectError)) else (b, es, .ended .raised)
    | (es, .ended (.made _ fd false)) => (b, es, .ended (.connected fd))
    | (es, .ended (.made _ fd true)) => pendingAttempt lib (rebase lib timeoutSec b c) c es fd


theorem connectAddr_done (lib : DeadlineLib τ D T) (timeoutSec : τ) (c : ConnAddr τ T)
    (b : Budget τ D) (err : Option ConnError) (s : CallState) :
    AddrDone c err s (connectAddr lib timeoutSec c b err s) (connAttempt lib timeoutSec b c) := by
  unfold connAttempt connectAddr
  cases hdone : (lib.isDone b.deadline c.enterAt).1 with
  | true => exact ⟨s, rfl, Passed.refl s⟩
  | false =>
    rcases htry : tryEntry .connectInet {} (.addrinfo c.ai c.answers) with
      ⟨fs, e | (- | ⟨ai, fd, again⟩)⟩
    · obtain ⟨t, hpassed, hrun⟩ := socketConnectInet_failed htry s
      cases hmemory : c.errnoMemory with
      | false =>
        rw [hmemory, if_neg Bool.false_ne_true] at hrun
        exact ⟨t, by simp [hrun], hpassed⟩
      | true =>
        rw [hmemory, if_pos rfl] at hrun
        obtain ⟨-, -, hsome, -⟩ := tryEntry_failed htry
        obtain ⟨code, rfl⟩ := Option.isSome_iff_exists.1 hsome
        exact ⟨t, by simp [hrun], hpassed⟩
    · obtain ⟨t, hrun, hpassed⟩ := socketConnectInet_noMemory htry s
      exact ⟨t, by simp [hrun], hpassed⟩
    · obtain ⟨errno, hrun⟩ := socketConnectInet_made htry s
      obtain ⟨-, -, -, rfl, -, rfl⟩ := tryEntry_made htry
      cases again with
      | false => exact ⟨_, by simp [hrun]; rfl, rfl, rfl⟩
      | true =>
        have hdone := awaitConnect_done lib (rebase lib timeoutSec b c) c fd err errno s
        show AddrDone c err s ((socketConnectInet c >>= _) s) _
        rw [Raising.bind_of_ok hrun]
        exact hdone

def Expired (lib : DeadlineLib τ D T) (timeoutSec : τ) (b : Budget τ D) (c : ConnAddr τ T) :
    Prop :=
  (lib.isDone b.deadline c.enterAt).1 = true ∨
    (c.answers.connect = some einprogress ∧
      pendingEnd lib (rebase lib timeoutSec b c) c = .ended false)

def Connected (lib : DeadlineLib τ D T) (timeoutSec : τ) (b : Budget τ D) (c : ConnAddr τ T) :
    Prop :=
  c.answers.connect = none ∨
    (c.answers.connect = some einprogress ∧
      ∃ sec, lib.isDone (rebase lib timeoutSec b c).deadline c.waitAt = (false, sec) ∧
        c.wait sec = (true, none, false) ∧ c.soError = .ok none)

def AttemptFacts (lib : DeadlineLib τ D T) (timeoutSec : τ) (b : Budget τ D) (c : ConnAddr τ T)
    (es : List FdEvent) : Tried ConnError ConnEnd → Prop
  | .failed _ => es = c.dropped
  | .ended .timedOut => (es = [] ∨ es = c.dropped) ∧ Expired lib timeoutSec b c
  | .ended .raised => es = [] ∨ es = c.dropped
  | .ended (.connected fd) => es = [.created fd] ∧ c.answers.socket = .ok fd ∧
    failingStep .connectInet {} c.ai c.answers = none ∧
    (lib.isDone b.deadline c.enterAt).1 = false ∧ Connected lib timeoutSec b c

theorem connAttempt_facts (lib : DeadlineLib τ D T) (timeoutSec : τ) (b : Budget τ D)
    (c : ConnAddr τ T) : AttemptFacts lib timeoutSec b c (connAttempt lib timeoutSec b c).2.1
      (connAttempt lib timeoutSec b c).2.2 := by
  cases hdone : (lib.isDone b.deadline c.enterAt).1 with
  | true =>
    have hattempt : connAttempt lib timeoutSec b c = (b, [], .ended .timedOut) := if_pos hdone
    rw [hattempt]
    exact ⟨Or.inl rfl, Or.inl hdone⟩
  | false =>
    rcases htry : tryEntry .connectInet {} (.addrinfo c.ai c.answers) with
      ⟨fs, e | (- | ⟨ai, fd, again⟩)⟩
    · obtain ⟨-, -, -, rfl⟩ := tryEntry_failed htry
      cases hmemory : c.errnoMemory with
      | false =>
        have hattempt : connAttempt lib timeoutSec b c = (b, c.dropped, .ended .raised) := by
          simp [connAttempt, hdone, htry, hmemory, ConnAddr.dropped]
        rw [hattempt]
        exact Or.inr rfl
      | true =>
        have hattempt : connAttempt lib timeoutSec b c =
            (b, c.dropped, .failed (e.map connectError)) := by
          simp [connAttempt, hdone, htry, hmemory, ConnAddr.dropped]
        rw [hattempt]
        rfl
    · obtain ⟨-, rfl⟩ := tryEntry_noMemory htry
      have hattempt : connAttempt lib timeoutSec b c = (b, [], .ended .raised) := by
        simp [connAttempt, hdone, htry]
      rw [hattempt]
      exact Or.inl rfl
    · have hconnect := connect_of_made htry
      obtain ⟨-, hsocket, hstep, -, -, rfl⟩ := tryEntry_made htry
      cases again with
      | false =>
        have hattempt : connAttempt lib timeoutSec b c =
            (b, [.created fd], .ended (.connected fd)) := by
          simp [connAttempt, hdone, htry]
        rw [hattempt]
        exact ⟨rfl, hsocket, hstep, hdone, Or.inl hconnect⟩
      | true =>
        have hattempt : connAttempt lib timeoutSec b c =
            pendingAttempt lib (rebase lib timeoutSec b c) c [.created fd] fd := by
          simp [connAttempt, hdone, htry]
        rw [hattempt]
        unfold pendingAttempt
        rcases hpending : pendingEnd lib (rebase lib timeoutSec b c) c with e | (- | -)
        · exact (ConnAddr.dropped_of_made hsocket).symm
        · exact ⟨Or.inr (ConnAddr.dropped_of_made hsocket).symm, Or.inr ⟨hconnect, hpending⟩⟩
        · exact ⟨rfl, hsocket, hstep, hdone,
            Or.inr ⟨hconnect, pendingEnd_connected hpending⟩⟩

variable {lib : DeadlineLib τ D T} {timeoutSec : τ} {b b' : Budget τ D} {c : ConnAddr τ T}
  {before : List (ConnAddr τ T)} {es : List FdEvent} {errs : List ConnError}

theorem Exhausts.dropped (h : Exhausts (connAttempt lib timeoutSec) b before b' es errs) :
    es = before.flatMap ConnAddr.dropped := by
  induction h with
  | nil => rfl
  | @cons b b' b'' c before es fs e errs now later ih =>
    have hfacts := connAttempt_facts lib timeoutSec b c
    rw [now] at hfacts
    rw [List.flatMap_cons, ← ih]
    exact congrArg (· ++ fs) hfacts

theorem connAttempt_shared (h : b.sndtimeo.isSome = true) :
    (connAttempt lib timeoutSec b c).1 = b := by
  obtain ⟨t, ht⟩ := Option.isSome_iff_exists.1 h
  have hrebase : rebase lib timeoutSec b c = b := by
    unfold rebase
    rw [ht]
  unfold connAttempt pendingAttempt
  rw [hrebase]
  repeat' split
  all_goals rfl

theorem Exhausts.shared (h : Exhausts (connAttempt lib timeoutSec) b before b' es errs)
    (hset : b.sndtimeo.isSome = true) : b' = b := by
  induction h with
  | nil => rfl
  | @cons b b' b'' c before es fs e errs now later ih =>
    have hshared : (connAttempt lib timeoutSec b c).1 = b := connAttempt_shared hset
    rw [now] at hshared
    subst hshared
    exact ih hset

theorem connectNext_passes (h : Exhausts (connAttempt lib timeoutSec) b before b' es errs)
    (after : List (ConnAddr τ T)) (err : Option ConnError) (s : CallState) : ∃ t,
      Passed s t es [] ∧ connectNext lib timeoutSec (before ++ after) b err s =
        connectNext lib timeoutSec after b' (errs.getLast?.or err) t := by
  induction h generalizing err s with
  | nil => exact ⟨s, Passed.refl s, rfl⟩
  | @cons b b' b'' c before es fs e errs now later ih =>
    have hdone := connectAddr_done lib timeoutSec c b err s
    rw [now] at hdone
    obtain ⟨t, hrun, hpassed⟩ := hdone
    obtain ⟨t', hpassed', hnext⟩ := ih (e.or err) t
    refine ⟨t', hpassed.trans hpassed', ?_⟩
    rw [List.cons_append, connectNext, Raising.bind_of_ok hrun, lastError_cons]
    exact hnext

end Steps

section Outcome

variable {τ D T : Type} [Sub τ] [LT τ] [DecidableLT τ] [OfNat τ 0]

/-- What the loop over the resolved addresses comes to, and the state it leaves. The addresses
`before` were tried and failed, with the budget as it was then. -/
inductive ConnectOutcome (lib : DeadlineLib τ D T) (timeoutSec : τ) (start : Budget τ D)
    (addrs : List (ConnAddr τ T)) (ret : Except LuaError ConnRet) (t : CallState) : Prop
  /-- The first address with a connection before the budget is used up has the socket. -/
  | connected (before : List (ConnAddr τ T)) (c : ConnAddr τ T) (after : List (ConnAddr τ T))
      (b : Budget τ D) (es : List FdEvent) (errs : List ConnError) (fd i : Nat)
      (order : addrs = before ++ c :: after)
      (earlier : Exhausts (connAttempt lib timeoutSec) start before b es errs)
      (shared : start.sndtimeo.isSome = true → b = start)
      (inTime : (lib.isDone b.deadline c.enterAt).1 = false)
      (created : c.answers.socket = .ok fd)
      (steps : failingStep .connectInet {} c.ai c.answers = none)
      (connected : Connected lib timeoutSec b c)
      (returns : ret = .ok { sock := some i, ai := some c.peer })
      (sock : t.socks[i]? = some ⟨c.ai.family, c.ai.socktype, c.ai.protocol, fd⟩)
      (others : ∀ j ≠ i, ∀ x, t.socks[j]? = some x → x.fd = -1)
      (events : t.events = before.flatMap ConnAddr.dropped ++ [.created fd])
  /-- The budget is used up first. -/
  | timedOut (before : List (ConnAddr τ T)) (c : ConnAddr τ T) (after : List (ConnAddr τ T))
      (b : Budget τ D) (es : List FdEvent) (errs : List ConnError)
      (order : addrs = before ++ c :: after)
      (earlier : Exhausts (connAttempt lib timeoutSec) start before b es errs)
      (shared : start.sndtimeo.isSome = true → b = start)
      (expired : Expired lib timeoutSec b c)
      (returns : ret = .ok { timeout := true })
      (socks : ∀ x ∈ t.socks, x.fd = -1)
      (events : t.events = before.flatMap ConnAddr.dropped ∨
        t.events = (before ++ [c]).flatMap ConnAddr.dropped)
  /-- Every address fails. -/
  | failed (b : Budget τ D) (es : List FdEvent) (errs : List ConnError)
      (all : Exhausts (connAttempt lib timeoutSec) start addrs b es errs)
      (returns : ret = .ok { err := errs.getLast? })
      (socks : ∀ x ∈ t.socks, x.fd = -1)
      (events : t.events = addrs.flatMap ConnAddr.dropped)
  /-- `socket_connect_inet` raises an error for want of memory. -/
  | raised (before : List (ConnAddr τ T)) (c : ConnAddr τ T) (after : List (ConnAddr τ T))
      (b : Budget τ D) (es fs : List FdEvent) (errs : List ConnError)
      (order : addrs = before ++ c :: after)
      (earlier : Exhausts (connAttempt lib timeoutSec) start before b es errs)
      (cause : (connAttempt lib timeoutSec b c).2 = (fs, .ended .raised))
      (returns : ret = .error .memory)
      (socks : ∀ x ∈ t.socks, x.fd = -1)
      (events : t.events = before.flatMap ConnAddr.dropped ∨
        t.events = (before ++ [c]).flatMap ConnAddr.dropped)

theorem connectNext_outcome (lib : DeadlineLib τ D T) (timeoutSec : τ) (start : Budget τ D)
    (addrs : List (ConnAddr τ T)) (s : CallState) (hsocks : s.socks = []) (hevents : s.events = []) :
    ∃ ret t, connectNext lib timeoutSec addrs start none s = (ret, t) ∧
      ConnectOutcome lib timeoutSec start addrs ret t := by
  -- the search of the library says where the loop ends, the steps what it has done by then
  rcases failover_cases (connAttempt lib timeoutSec) addrs start none with
    ⟨b, es, errs, hall, -⟩ |
    ⟨before, c, after, b, es, errs, b', fs, found, rfl, hall, hlast, -⟩
  · obtain ⟨t, hpassed, hrun⟩ := connectNext_passes hall [] none s
    obtain ⟨hevents', hgone⟩ := hpassed.ofStart hsocks hevents
    rw [List.append_nil, Option.or_none] at hrun
    rw [Exhausts.dropped hall] at hevents'
    exact ⟨_, t, hrun, .failed b es errs hall rfl hgone hevents'⟩
  · obtain ⟨t, hpassed, hrun⟩ := connectNext_passes hall (c :: after) none s
    have hdone := connectAddr_done lib timeoutSec c b (errs.getLast?.or none) t
    have hfacts := connAttempt_facts lib timeoutSec b c
    have hes := Exhausts.dropped hall
    have hcause : (connAttempt lib timeoutSec b c).2 = (fs, .ended found) := by rw [hlast]
    rw [hlast] at hdone hfacts
    rw [connectNext] at hrun
    cases found with
    | connected fd =>
    -- the socket made last is returned, and all before it are closed
      obtain ⟨t', hturn, hevents', hsocks'⟩ := hdone
      obtain ⟨rfl, hsocket, hstep, hinTime, hconnected⟩ := hfacts
      obtain ⟨hpassedEvents, hgone⟩ := hpassed.ofStart hsocks hevents
      rw [Raising.bind_of_ok hturn] at hrun
      rw [hpassedEvents, hes] at hevents'
      refine ⟨_, t', hrun, .connected before c after b es errs fd t.socks.length rfl hall
        (Exhausts.shared hall) hinTime hsocket hstep hconnected rfl ?_ ?_ hevents'⟩
      · rw [hsocks', List.getElem?_concat_length]
      · intro j hj x hx
        rw [hsocks'] at hx
        exact hgone x (mem_of_getElem?_concat hj hx)
    | timedOut =>
      obtain ⟨t', hturn, hpassed'⟩ := hdone
      obtain ⟨hevents', hgone⟩ := (hpassed.trans hpassed').ofStart hsocks hevents
      rw [Raising.bind_of_ok hturn] at hrun
      rw [hes] at hevents'
      refine ⟨_, t', hrun, .timedOut before c after b es errs rfl hall (Exhausts.shared hall)
        hfacts.2 rfl hgone ?_⟩
      rw [hevents']
      exact ConnAddr.dropped_snoc hfacts.1
    | raised =>
      obtain ⟨t', hturn, hpassed'⟩ := hdone
      obtain ⟨hevents', hgone⟩ := (hpassed.trans hpassed').ofStart hsocks hevents
      rw [Raising.bind_of_error hturn] at hrun
      rw [hes] at hevents'
      refine ⟨_, t', hrun, .raised before c after b es fs errs rfl hall hcause rfl hgone ?_⟩
      rw [hevents']
      exact ConnAddr.dropped_snoc hfacts

/-- For every list of resolved addresses, whatever is answered for each and whatever the budget
is: a socket that is not returned is closed once, the one returned is connected and belongs to the
first address that had a connection in time, and else the last error or the timeout is
returned. -/
theorem inetStreamConnect_failover [OfNat τ 30] (lib : DeadlineLib τ D T)
    (addrs : List (ConnAddr τ T)) (sec : Option τ) (start : T) (errno : Nat) :
    ∃ ret t, inetStreamConnect lib (.ok addrs) sec start { stack := [], errno := errno } =
        (ret, t) ∧
      ConnectOutcome lib (sec.getD 30) { deadline := lib.new (sec.getD 30) start, sndtimeo := sec }
        addrs ret t :=
  connectNext_outcome lib (sec.getD 30) _ addrs _ rfl rfl

end Outcome

end LuaNet.Connect
