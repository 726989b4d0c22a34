import LuaNet.Connect.AddrTable

/-! What `new_net_socket` does with a table of addresses: each address takes its steps up to the
first that fails, and the first address without a failing step has the socket. -/

namespace LuaNet.Connect

open LuaNet.Lib

section Steps

variable (op : SoOperation) (opts : SockOpts) (ai : AddrInfo) (a : Answers)

def isConnectOp : SoOperation → Bool
  | .connectInet | .connectUnix => true
  | _ => false

def inProgress : Bool := isConnectOp op && decide (a.connect = some einprogress)

def socketStep : Option ℕ+ :=
  match a.socket with
  | .ok _ => none
  | .error e => some e

def startStep : Option ℕ+ :=
  match op with
  | .bindInet | .bindUnix => a.bind
  | .connectInet | .connectUnix => if a.connect = some einprogress then none else a.connect
  | _ => none

def steps : List (Option ℕ+) :=
  [socketStep a, a.fcntl .getfd, a.fcntl .setfd, a.fcntl .getfl, a.fcntl .setfl] ++
    ((SockOpt.inOrder.filter opts.isSet).map (sockoptsSet ai.family opts a) ++ [startStep op a])

def failingStep : Option ℕ+ := (steps op opts ai a).findSome? id

theorem findSome_id_cons (x : Option ℕ+) (xs : List (Option ℕ+)) :
    (x :: xs).findSome? id = x.or (xs.findSome? id) := by
  cases x <;> rfl

theorem failingStep_eq : failingStep op opts ai a =
    (socketStep a).or (((setCloexecNonblockNosigpipe a).or (sockoptsApply ai.family opts a)).or
      (startStep op a)) := by
  have hopts : ((SockOpt.inOrder.filter opts.isSet).map
      (sockoptsSet ai.family opts a)).findSome? id = sockoptsApply ai.family opts a := by
    rw [List.findSome?_map]
    rfl
  unfold failingStep steps
  rw [List.findSome?_append, List.findSome?_append, hopts]
  simp only [findSome_id_cons, List.findSome?_nil, Option.or_none, Option.or_assoc,
    setCloexecNonblockNosigpipe, setCloexec, setNonblock, setFdFlag]

end Steps

section Entries

variable (op : SoOperation) (opts : SockOpts)

def Entry.succeeds : Entry → Bool
  | .addrinfo ai a => (failingStep op opts ai a).isNone
  | .other => false

def Entry.error : Entry → Option ℕ+
  | .addrinfo ai a => failingStep op opts ai a
  | .other => none

def Entry.dropped : Entry → List FdEvent
  | .addrinfo _ a =>
    match a.socket with
    | .ok fd => [.created fd, .closed fd]
    | .error _ => []
  | .other => []

inductive Found
  | noMemory
  | made (ai : AddrInfo) (fd : Nat) (again : Bool)

def tryEntry : Entry → List FdEvent × Tried ℕ+ Found
  | .other => ([], .failed none)
  | .addrinfo ai a =>
    if a.memory then
      match a.socket, failingStep op opts ai a with
      | .ok fd, none => ([.created fd], .ended (.made ai fd (inProgress op a)))
      | .ok fd, some e => ([.created fd, .closed fd], .failed (some e))
      | .error e, _ => ([], .failed (some e))
    else ([], .ended .noMemory)

end Entries

/-- What a part of the call did to the state, apart from the Lua stack and `errno`: the sockets it
made have no descriptor any more. -/
structure Passed (s t : CallState) (es : List FdEvent) (ks : List Nat) : Prop where
  events : t.events = s.events ++ es
  visits : t.visits = s.visits ++ ks
  socks : ∃ more, t.socks = s.socks ++ more ∧ ∀ x ∈ more, x.fd = -1

theorem Passed.trans {s t u : CallState} {es fs : List FdEvent} {ks ls : List Nat}
    (h : Passed s t es ks) (h' : Passed t u fs ls) : Passed s u (es ++ fs) (ks ++ ls) := by
  obtain ⟨more, hmore, hnone⟩ := h.socks
  obtain ⟨more', hmore', hnone'⟩ := h'.socks
  refine ⟨?_, ?_, more ++ more', ?_, ?_⟩
  · rw [h'.events, h.events, List.append_assoc]
  · rw [h'.visits, h.visits, List.append_assoc]
  · rw [hmore', hmore, List.append_assoc]
  · intro x hx
    rcases List.mem_append.1 hx with hx | hx
    · exact hnone x hx
    · exact hnone' x hx

theorem Passed.ofStart {s t : CallState} {es : List FdEvent} {ks : List Nat} (h : Passed s t es ks)
    (hsocks : s.socks = []) (hevents : s.events = []) :
    t.events = es ∧ ∀ x ∈ t.socks, x.fd = -1 := by
  obtain ⟨more, hmore, hgone⟩ := h.socks
  have hevents' := h.events
  rw [hevents, List.nil_append] at hevents'
  rw [hsocks, List.nil_append] at hmore
  rw [hmore]
  exact ⟨hevents', hgone⟩

section Calls

variable {op : SoOperation} {opts : SockOpts} {ai : AddrInfo} {a : Answers} {s : CallState}

theorem modify_last {α : Type} (xs : List α) (x : α) (f : α → α) :
    (xs ++ [x]).modify xs.length f = xs ++ [f x] := by
  induction xs with
  | nil => rfl
  | cons y ys ih => exact congrArg (y :: ·) ih

theorem netSocketNew_ok (ai : AddrInfo) (h : a.memory = true) (s : CallState) :
    netSocketNew ai a s = (.ok s.socks.length,
      { s with
        stack := .sock s.socks.length :: s.stack
        socks := s.socks ++ [⟨ai.family, ai.socktype, ai.protocol, -1⟩]
        errno := a.allocErrno }) := if_pos h

theorem closeSocket_run {xs : List NetSocket} {x : NetSocket} (hs : s.socks = xs ++ [x])
    (a : Answers) : closeSocket xs.length a s = (.ok s.errno,
      { s with
        socks := xs ++ [{ x with fd := -1 }]
        errno := a.closeErrno
        events := s.events ++ [.closed x.fd] }) := by
  simp [closeSocket, closeFd, getErrno, setErrno, emit, setFd, hs, modify_last]

theorem newSocket_noMemory (h : a.memory = false) (s : CallState) :
    newSocket ai opts a s = (.error .memory, { s with errno := a.allocErrno }) := by
  simp [newSocket, netSocketNew, h]

theorem newSocket_refused {e : ℕ+} (hmemory : a.memory = true) (h : a.socket = .error e)
    (s : CallState) : newSocket ai opts a s = (.ok none,
      { s with
        socks := s.socks ++ [⟨ai.family, ai.socktype, ai.protocol, -1⟩]
        errno := e }) := by
  simp [newSocket, netSocketNew_ok, hmemory, h, setErrno, luaPop]

theorem newSocket_dropped {fd : Nat} {e : ℕ+} (hmemory : a.memory = true) (h : a.socket = .ok fd)
    (hset : (setCloexecNonblockNosigpipe a).or (sockoptsApply ai.family opts a) = some e)
    (s : CallState) : newSocket ai opts a s = (.ok none,
      { s with
        socks := s.socks ++ [⟨ai.family, ai.socktype, ai.protocol, -1⟩]
        errno := e
        events := s.events ++ [.created fd, .closed fd] }) := by
  simp only [newSocket, Raising.bind_run, netSocketNew_ok ai hmemory, h, hset, emit, setFd,
    setErrno, Raising.update_run, modify_last]
  rw [closeSocket_run rfl]
  simp [luaPop]

theorem newSocket_made {fd : Nat} (hmemory : a.memory = true) (h : a.socket = .ok fd)
    (hset : (setCloexecNonblockNosigpipe a).or (sockoptsApply ai.family opts a) = none)
    (s : CallState) : newSocket ai opts a s = (.ok (some s.socks.length),
      { s with
        stack := .sock s.socks.length :: s.stack
        socks := s.socks ++ [⟨ai.family, ai.socktype, ai.protocol, fd⟩]
        errno := a.allocErrno
        events := s.events ++ [.created fd] }) := by
  simp [newSocket, netSocketNew_ok ai hmemory, h, hset, emit, setFd, modify_last]

def againValues (again : Bool) : List Slot := if again then [.bool true, .nil] else []

theorem startSocket_started (hop : op ≠ .newInet6) (h : startStep op a = none) (s : CallState) :
    ∃ errno, startSocket op a s = (.ok (some ((againValues (inProgress op a)).length + 1)),
      { s with stack := againValues (inProgress op a) ++ s.stack, errno := errno }) := by
  cases op with
  | newInet6 => exact absurd rfl hop
  | newInet | newUnix => exact ⟨0, rfl⟩
  | bindInet | bindUnix =>
    have hbind : a.bind = none := h
    exact ⟨0, by simp [startSocket, setErrno, hbind, inProgress, isConnectOp, againValues]⟩
  | connectInet | connectUnix =>
    by_cases hagain : a.connect = some einprogress
    · exact ⟨einprogress, by
        simp [startSocket, setErrno, push, hagain, inProgress, isConnectOp, againValues]⟩
    · have hconnect : a.connect = none := by
        simpa only [startStep, if_neg hagain] using h
      exact ⟨0, by
        simp [startSocket, setErrno, hconnect, inProgress, isConnectOp, againValues]⟩

theorem startSocket_failed {e : ℕ+} (h : startStep op a = some e) (s : CallState) :
    startSocket op a s = (.ok none, { s with errno := e }) := by
  cases op with
  | newInet6 | newInet | newUnix => exact absurd h nofun
  | bindInet | bindUnix =>
    have hbind : a.bind = some e := h
    simp [startSocket, setErrno, hbind]
  | connectInet | connectUnix =>
    have hagain : a.connect ≠ some einprogress := by
      intro hagain
      simp [startStep, hagain] at h
    have hconnect : a.connect = some e := by
      simpa only [startStep, if_neg hagain] using h
    have he : e ≠ einprogress := fun he => hagain (by rw [hconnect, he])
    simp [startSocket, setErrno, hconnect, he]

theorem tryAddr_noMemory (h : a.memory = false) (s : CallState) :
    tryAddr op opts ai a s = (.error .memory, { s with errno := a.allocErrno }) := by
  simp [tryAddr, newSocket_noMemory h]

theorem failingStep_of_error {e : ℕ+} (h : a.socket = .error e) :
    failingStep op opts ai a = some e := by
  rw [failingStep_eq, socketStep, h]
  rfl

theorem failingStep_of_ok {fd : Nat} (h : a.socket = .ok fd) : failingStep op opts ai a =
    ((setCloexecNonblockNosigpipe a).or (sockoptsApply ai.family opts a)).or
      (startStep op a) := by
  rw [failingStep_eq, socketStep, h]
  rfl

theorem dropped_of_error {e : ℕ+} (h : a.socket = .error e) :
    (Entry.addrinfo ai a).dropped = [] := by
  rw [Entry.dropped, h]

theorem dropped_of_ok {fd : Nat} (h : a.socket = .ok fd) :
    (Entry.addrinfo ai a).dropped = [.created fd, .closed fd] := by
  rw [Entry.dropped, h]

theorem tryEntry_failed {es : List FdEvent} {e : Option ℕ+}
    (h : tryEntry op opts (.addrinfo ai a) = (es, .failed e)) :
    a.memory = true ∧ e = failingStep op opts ai a ∧ e.isSome = true ∧
      es = Entry.dropped (.addrinfo ai a) := by
  unfold tryEntry at h
  cases hmemory : a.memory with
  | false => simp [hmemory] at h
  | true =>
    cases hsocket : a.socket with
    | error c =>
      simp only [hmemory, hsocket, if_true, Prod.mk.injEq, Tried.failed.injEq] at h
      obtain ⟨rfl, rfl⟩ := h
      exact ⟨rfl, (failingStep_of_error hsocket).symm, rfl, (dropped_of_error hsocket).symm⟩
    | ok fd =>
      cases hstep : failingStep op opts ai a with
      | none => simp [hmemory, hsocket, hstep] at h
      | some c =>
        simp only [hmemory, hsocket, hstep, if_true, Prod.mk.injEq, Tried.failed.injEq] at h
        obtain ⟨rfl, rfl⟩ := h
        exact ⟨rfl, rfl, rfl, (dropped_of_ok hsocket).symm⟩

theorem tryEntry_made {es : List FdEvent} {ai' : AddrInfo} {fd : Nat} {again : Bool}
    (h : tryEntry op opts (.addrinfo ai a) = (es, .ended (.made ai' fd again))) :
    a.memory = true ∧ a.socket = .ok fd ∧ failingStep op opts ai a = none ∧ ai' = ai ∧
      again = inProgress op a ∧ es = [.created fd] := by
  unfold tryEntry at h
  cases hmemory : a.memory with
  | false => simp [hmemory] at h
  | true =>
    cases hsocket : a.socket with
    | error c => simp [hmemory, hsocket] at h
    | ok fd' =>
      cases hstep : failingStep op opts ai a with
      | some c => simp [hmemory, hsocket, hstep] at h
      | none =>
        simp only [hmemory, hsocket, hstep, if_true, Prod.mk.injEq, Tried.ended.injEq,
          Found.made.injEq] at h
        obtain ⟨rfl, rfl, rfl, rfl⟩ := h
        exact ⟨rfl, rfl, rfl, rfl, rfl, rfl⟩

theorem tryEntry_noMemory {es : List FdEvent}
    (h : tryEntry op opts (.addrinfo ai a) = (es, .ended .noMemory)) :
    a.memory = false ∧ es = [] := by
  cases hmemory : a.memory with
  | true =>
    simp only [tryEntry, hmemory, if_true] at h
    split at h <;> cases h
  | false =>
    simp only [tryEntry, hmemory, if_false, Bool.false_eq_true] at h
    cases h
    exact ⟨rfl, rfl⟩

theorem tryAddr_failed {es : List FdEvent} {e : Option ℕ+}
    (h : tryEntry op opts (.addrinfo ai a) = (es, .failed e)) (s : CallState) :
    ∃ (c : ℕ+) (errno : Nat), e = some c ∧ tryAddr op opts ai a s = (.ok (.error c),
      { s with
        socks := s.socks ++ [⟨ai.family, ai.socktype, ai.protocol, -1⟩]
        errno := errno
        events := s.events ++ es }) := by
  obtain ⟨hmemory, he, hsome, rfl⟩ := tryEntry_failed h
  obtain ⟨c, rfl⟩ := Option.isSome_iff_exists.1 hsome
  cases hsocket : a.socket with
  | error c' =>
    rw [failingStep_of_error hsocket] at he
    cases he
    refine ⟨c, c, rfl, ?_⟩
    simp [tryAddr, newSocket_refused hmemory hsocket, getErrno, dropped_of_error hsocket]
  | ok fd =>
    rw [failingStep_of_ok hsocket] at he
    rw [dropped_of_ok hsocket]
    cases hset : (setCloexecNonblockNosigpipe a).or (sockoptsApply ai.family opts a) with
    | some c' =>
      rw [hset] at he
      cases he
      exact ⟨c, c, rfl, by simp [tryAddr, newSocket_dropped hmemory hsocket hset, getErrno]⟩
    | none =>
      rw [hset, Option.none_or] at he
      refine ⟨c, a.closeErrno, rfl, ?_⟩
      simp only [tryAddr, Raising.bind_run, newSocket_made hmemory hsocket hset,
        startSocket_failed he.symm]
      rw [closeSocket_run rfl]
      simp [luaPop]

theorem tryAddr_made {es : List FdEvent} {fd : Nat} {again : Bool} {ai' : AddrInfo}
    (hop : op ≠ .newInet6)
    (h : tryEntry op opts (.addrinfo ai a) = (es, .ended (.made ai' fd again)))
    (s : CallState) : ∃ errno, tryAddr op opts ai a s = (.ok (.ok ((againValues again).length + 1)),
      { s with
        stack := againValues again ++ .sock s.socks.length :: s.stack
        socks := s.socks ++ [⟨ai'.family, ai'.socktype, ai'.protocol, fd⟩]
        errno := errno
        events := s.events ++ es }) := by
  obtain ⟨hmemory, hsocket, hstep, rfl, rfl, rfl⟩ := tryEntry_made h
  rw [failingStep_of_ok hsocket, Option.or_eq_none_iff] at hstep
  obtain ⟨errno, hstart⟩ := startSocket_started hop hstep.2 _
  refine ⟨errno, ?_⟩
  simp only [tryAddr, Raising.bind_run, newSocket_made hmemory hsocket hstep.1]
  rw [hstart]
  rfl

def errCode (err : Option ℕ+) : Nat := (err.map PNat.val).getD 0

theorem turn_failed {index : Int} {e : Entry} {es : List FdEvent} {c : Option ℕ+}
    (hindex : luaIndex s.stack index = some (.entry e)) (h : tryEntry op opts e = (es, .failed c))
    (err : Option ℕ+) : ∃ t, turn op opts index (errCode err) s =
      (.ok (.error (errCode (c.or err))), t) ∧ t.stack = s.stack.drop 1 ∧ Passed s t es [] := by
  have hvisits : s.visits = s.visits ++ [] := (List.append_nil _).symm
  cases e with
  | other =>
    cases h
    refine ⟨{ s with stack := s.stack.drop 1 }, ?_, rfl, ?_⟩
    · simp [turn, hindex, luaPop]
    · exact ⟨(List.append_nil _).symm, hvisits, [], (List.append_nil _).symm, nofun⟩
  | addrinfo ai a =>
    obtain ⟨c, errno, rfl, hrun⟩ := tryAddr_failed h s
    have hgone : ∀ x ∈ [NetSocket.mk ai.family ai.socktype ai.protocol (-1)], x.fd = -1 := by
      intro x hx
      rw [List.mem_singleton.1 hx]
    refine ⟨{ s with
      stack := s.stack.drop 1
      socks := s.socks ++ [⟨ai.family, ai.socktype, ai.protocol, -1⟩]
      errno := errno
      events := s.events ++ es }, ?_, rfl, rfl, hvisits, _, rfl, hgone⟩
    simp [turn, hindex, hrun, luaPop, errCode]

theorem turn_noMemory {index : Int} {e : Entry} {es : List FdEvent}
    (hindex : luaIndex s.stack index = some (.entry e))
    (h : tryEntry op opts e = (es, .ended .noMemory)) (err : Nat) :
    es = [] ∧ ∃ errno, turn op opts index err s = (.error .memory, { s with errno := errno }) := by
  cases e with
  | other => cases h
  | addrinfo ai a =>
    obtain ⟨hmemory, rfl⟩ := tryEntry_noMemory h
    exact ⟨rfl, a.allocErrno, by simp [turn, hindex, tryAddr_noMemory hmemory]⟩

theorem turn_made {index : Int} {e : Entry} {es : List FdEvent} {ai : AddrInfo} {fd : Nat}
    {again : Bool} (hop : op ≠ .newInet6) (hindex : luaIndex s.stack index = some (.entry e))
    (h : tryEntry op opts e = (es, .ended (.made ai fd again))) (err : Nat) :
    ∃ errno, turn op opts index err s = (.ok (.ok ((againValues again).length + 1)),
      { s with
        stack := againValues again ++ .sock s.socks.length :: s.stack
        socks := s.socks ++ [⟨ai.family, ai.socktype, ai.protocol, fd⟩]
        errno := errno
        events := s.events ++ es }) := by
  cases e with
  | other => cases h
  | addrinfo ai' a =>
    obtain ⟨errno, hrun⟩ := tryAddr_made hop h s
    exact ⟨errno, by simp [turn, hindex, hrun]⟩

theorem luaIndex_below (xs : List Slot) (x : Slot) (args : List Slot) :
    luaIndex (xs ++ x :: args) (args.length + 1 : Nat) = some x := by
  have hpos : ¬((args.length + 1 : Nat) : Int) < 0 := Int.not_lt.2 (Int.natCast_nonneg _)
  rw [luaIndex, if_neg hpos]
  simp

theorem luaNext_some {entries done after : List Entry} {e : Entry} {key : Slot} {args : List Slot}
    (hentries : entries = done ++ e :: after) (hkey : keyNext key = some done.length)
    (hs : s.stack = key :: .table entries :: args) : luaNext (args.length + 1) s = (.ok true,
      { s with
        stack := .entry e :: .key done.length :: .table entries :: args
        visits := s.visits ++ [done.length] }) := by
  have htable := luaIndex_below [key] (.table entries) args
  have he : entries[done.length]? = some e := by simp [hentries]
  rw [List.singleton_append] at htable
  simp only [luaNext, htable, hs, hkey, he]

theorem luaNext_none {entries : List Entry} {key : Slot} {args : List Slot}
    (hkey : keyNext key = some entries.length) (hs : s.stack = key :: .table entries :: args) :
    luaNext (args.length + 1) s = (.ok false, { s with stack := .table entries :: args }) := by
  have htable := luaIndex_below [key] (.table entries) args
  rw [List.singleton_append] at htable
  simp only [luaNext, htable, hs, hkey, List.getElem?_length]

end Calls

section Loop

variable {op : SoOperation} {opts : SockOpts} {memory : Bool} {entries done after : List Entry}
  {args : List Slot} {key : Slot} {s : CallState}

/-- The addresses of a table as candidates of a search. -/
def tableAttempt (op : SoOperation) (opts : SockOpts) (u : Unit) (e : Entry) :
    Unit × List FdEvent × Tried ℕ+ Found := (u, tryEntry op opts e)

theorem Passed.refl (s : CallState) : Passed s s [] [] :=
  ⟨(List.append_nil _).symm, (List.append_nil _).symm, [], (List.append_nil _).symm, nofun⟩

theorem checkNextAddr_next (op : SoOperation) (opts : SockOpts) (memory : Bool) {e : Entry}
    (hentries : entries = done ++ e :: after) (hkey : keyNext key = some done.length)
    (hs : s.stack = key :: .table entries :: args) (fuel err : Nat) : ∃ t,
      t.stack = .entry e :: .key done.length :: .table entries :: args ∧
      Passed s t [] [done.length] ∧ t.socks = s.socks ∧
      checkNextAddr op opts memory (args.length + 1) (fuel + 1) err s =
        (turn op opts (-1) err >>= fun r =>
          match r with
          | .ok n => pure (some n)
          | .error err => checkNextAddr op opts memory (args.length + 1) fuel err) t := by
  refine ⟨{ s with
    stack := .entry e :: .key done.length :: .table entries :: args
    visits := s.visits ++ [done.length] }, rfl, ?_, rfl, ?_⟩
  · exact ⟨(List.append_nil _).symm, rfl, [], (List.append_nil _).symm, nofun⟩
  · simp only [checkNextAddr, Raising.bind_run, if_neg (Nat.succ_ne_zero _),
      luaNext_some hentries hkey hs]
    rfl

theorem checkNextAddr_passes (memory : Bool) {before : List Entry} {u v : Unit}
    {es : List FdEvent} {errs : List ℕ+} (h : Exhausts (tableAttempt op opts) u before v es errs)
    (hentries : entries = done ++ (before ++ after)) (hkey : keyNext key = some done.length)
    (hs : s.stack = key :: .table entries :: args) (fuel : Nat) (err : Option ℕ+) :
    ∃ t key', keyNext key' = some (done.length + before.length) ∧
      t.stack = key' :: .table entries :: args ∧
      Passed s t es (List.range' done.length before.length) ∧
      checkNextAddr op opts memory (args.length + 1) (fuel + before.length) (errCode err) s =
        checkNextAddr op opts memory (args.length + 1) fuel (errCode (errs.getLast?.or err)) t := by
  induction h generalizing done key s err with
  | nil => exact ⟨s, key, hkey, hs, Passed.refl s, rfl⟩
  | @cons u v w e before es fs c errs now later ih =>
    have htry : tryEntry op opts e = (es, .failed c) := congrArg Prod.snd now
    obtain ⟨t, ht, hpassed, -, hround⟩ := checkNextAddr_next op opts memory hentries hkey hs
      (fuel + before.length) (errCode err)
    have hindex : luaIndex t.stack (-1) = some (.entry e) := by rw [ht]; rfl
    obtain ⟨t', hturn, ht', hpassed'⟩ := turn_failed hindex htry err
    have hstack : t'.stack = .key done.length :: .table entries :: args := by
      rw [ht', ht, List.drop_one, List.tail_cons]
    have hdone : entries = (done ++ [e]) ++ (before ++ after) := by
      rw [hentries, List.append_assoc, List.cons_append, List.singleton_append]
    have hnext : keyNext (.key done.length) = some (done ++ [e]).length := by
      rw [List.length_append, List.length_singleton]
      rfl
    obtain ⟨t'', key', hkey', hstack', hpassed'', hrest⟩ := ih hdone hnext hstack (c.or err)
    rw [List.length_append, List.length_singleton] at hkey' hpassed''
    refine ⟨t'', key', ?_, hstack', ?_, ?_⟩
    · rw [hkey', List.length_cons, Nat.add_assoc, Nat.add_comm 1]
    · have hall := (hpassed.trans hpassed').trans hpassed''
      rwa [List.nil_append, List.append_nil, List.singleton_append, ← List.range'_succ] at hall
    · rw [List.length_cons, ← Nat.add_assoc, hround, Raising.bind_of_ok hturn, lastError_cons]
      exact hrest

theorem checkNextAddr_noMemory (memory : Bool) {e : Entry} {es : List FdEvent}
    (hentries : entries = done ++ e :: after) (hkey : keyNext key = some done.length)
    (hs : s.stack = key :: .table entries :: args)
    (h : tryEntry op opts e = (es, .ended .noMemory)) (fuel err : Nat) : ∃ t,
      checkNextAddr op opts memory (args.length + 1) (fuel + 1) err s = (.error .memory, t) ∧
      Passed s t es [done.length] := by
  obtain ⟨t, ht, hpassed, -, hround⟩ := checkNextAddr_next op opts memory hentries hkey hs
    fuel err
  have hindex : luaIndex t.stack (-1) = some (.entry e) := by rw [ht]; rfl
  obtain ⟨rfl, errno, hturn⟩ := turn_noMemory hindex h err
  refine ⟨{ t with errno := errno }, ?_, hpassed.events, hpassed.visits, hpassed.socks⟩
  rw [hround, Raising.bind_of_error hturn]

theorem checkNextAddr_made (memory : Bool) {e : Entry} {es : List FdEvent} {ai : AddrInfo}
    {fd : Nat} {again : Bool} (hop : op ≠ .newInet6) (hentries : entries = done ++ e :: after)
    (hkey : keyNext key = some done.length) (hs : s.stack = key :: .table entries :: args)
    (h : tryEntry op opts e = (es, .ended (.made ai fd again))) (fuel err : Nat) : ∃ n t,
      checkNextAddr op opts memory (args.length + 1) (fuel + 1) err s = (.ok (some n), t) ∧
      t.returned n = .sock s.socks.length :: (againValues again).reverse ∧
      t.socks = s.socks ++ [⟨ai.family, ai.socktype, ai.protocol, fd⟩] ∧
      t.events = s.events ++ es ∧ t.visits = s.visits ++ [done.length] := by
  obtain ⟨t, ht, hpassed, hsocks, hround⟩ := checkNextAddr_next op opts memory hentries hkey hs
    fuel err
  have hindex : luaIndex t.stack (-1) = some (.entry e) := by rw [ht]; rfl
  obtain ⟨errno, hturn⟩ := turn_made hop hindex h err
  rw [hround, Raising.bind_of_ok hturn]
  refine ⟨_, _, rfl, ?_, ?_, ?_, hpassed.visits⟩
  · cases again <;> simp [CallState.returned, againValues, hsocks]
  · rw [← hsocks]
  · rw [← hpassed.events.trans (List.append_nil _)]

theorem addrsFailed_run (op : SoOperation) (memory : Bool) (err : Option ℕ+) (s : CallState) :
    ∃ ret t, addrsFailed op memory (errCode err) s = (ret, t) ∧ Passed s t [] [] ∧
      ((memory = false ∧ ret = .error .memory) ∨ (memory = true ∧ ret = .ok 2 ∧
        t.returned 2 = [.nil, .errno (err.getD eaddrnotavail) (soOperationToString op)])) := by
  have hcode : (if errCode err ≠ 0 then errCode err else eaddrnotavail) =
      ((err.getD eaddrnotavail : ℕ+) : Nat) := by
    cases err with
    | none => rfl
    | some e => exact if_pos e.ne_zero
  have hpassed (stack : List Slot) (errno : Nat) :
      Passed s { s with stack := stack, errno := errno } [] [] :=
    ⟨(List.append_nil _).symm, (List.append_nil _).symm, [], (List.append_nil _).symm, nofun⟩
  simp only [addrsFailed, luaSettop, push, setErrno, getErrno, Raising.bind_run,
    Raising.update_run, Raising.state_run, Raising.pure_run, hcode]
  cases memory with
  | false => exact ⟨_, _, rfl, hpassed _ _, Or.inl ⟨rfl, rfl⟩⟩
  | true => exact ⟨_, _, rfl, hpassed _ _, Or.inr ⟨rfl, rfl, rfl⟩⟩

theorem checkNextAddr_exhausted (op : SoOperation) (opts : SockOpts) (memory : Bool)
    (hkey : keyNext key = some entries.length) (hs : s.stack = key :: .table entries :: args)
    (fuel : Nat) (err : Option ℕ+) : ∃ ret t,
      checkNextAddr op opts memory (args.length + 1) (fuel + 1) (errCode err) s = (ret, t) ∧
      Passed s t [] [] ∧
      ((memory = false ∧ ret = .error .memory) ∨ (ret = .ok (some 2) ∧
        t.returned 2 = [.nil, .errno (err.getD eaddrnotavail) (soOperationToString op)])) := by
  obtain ⟨ret, t, hfailed, hpassed, hret⟩ :=
    addrsFailed_run op memory err { s with stack := .table entries :: args }
  simp only [checkNextAddr, Raising.bind_run, if_neg (Nat.succ_ne_zero _),
    luaNext_none hkey hs, Bool.false_eq_true, if_false, hfailed]
  rcases hret with ⟨hmemory, rfl⟩ | ⟨-, rfl, hvalues⟩
  · exact ⟨_, _, rfl, ⟨hpassed.events, hpassed.visits, hpassed.socks⟩, Or.inl ⟨hmemory, rfl⟩⟩
  · exact ⟨_, _, rfl, ⟨hpassed.events, hpassed.visits, hpassed.socks⟩, Or.inr ⟨rfl, hvalues⟩⟩

theorem newNetSocket_table {call : NetCall} {opts : SockOpts}
    (harg : isAddrinfo (luaIndex args 1) = false) (htable : call.resolver = .ok [.table entries])
    (hopts : call.checkOptions false args.length = .ok opts) (fuel errno : Nat) :
    newNetSocket call fuel { stack := args, errno := errno } =
      checkNextAddr call.op opts call.memory (args.length + 1) fuel (errCode none)
        { stack := .nil :: .table entries :: args, errno := errno } := by
  simp [newNetSocket, harg, htable, liftExcept, hopts, push, errCode]

end Loop

inductive TableOutcome (op : SoOperation) (opts : SockOpts) (memory : Bool)
    (entries : List Entry) (ret : Except LuaError (Option Nat)) (t : CallState) : Prop
  /-- The socket is for the first entry all of whose steps succeed. -/
  | found (before : List Entry) (ai : AddrInfo) (a : Answers) (after : List Entry) (n fd i : Nat)
      (order : entries = before ++ .addrinfo ai a :: after)
      (first : ∀ e ∈ before, e.succeeds op opts = false)
      (succeeds : failingStep op opts ai a = none)
      (created : a.socket = .ok fd)
      (returns : ret = .ok (some n))
      (values : t.returned n =
        .sock i :: if inProgress op a then [.nil, .bool true] else [])
      (sock : t.socks[i]? = some ⟨ai.family, ai.socktype, ai.protocol, fd⟩)
      (others : ∀ j ≠ i, ∀ x, t.socks[j]? = some x → x.fd = -1)
      (events : t.events = before.flatMap Entry.dropped ++ [.created fd])
      (visits : t.visits = List.range (before.length + 1))
  /-- No entry has all its steps succeed. -/
  | failed
      (none : ∀ e ∈ entries, e.succeeds op opts = false)
      (returns : ret = .ok (some 2))
      (values : t.returned 2 = [.nil, .errno
        ((entries.filterMap (Entry.error op opts)).getLast?.getD eaddrnotavail)
        (soOperationToString op)])
      (socks : ∀ x ∈ t.socks, x.fd = -1)
      (events : t.events = entries.flatMap Entry.dropped)
      (visits : t.visits = List.range entries.length)
  /-- An error was raised for want of memory, by a new userdata or by the error object. -/
  | raised (before after : List Entry)
      (order : entries = before ++ after)
      (first : ∀ e ∈ before, e.succeeds op opts = false)
      (cause : (after = [] ∧ memory = false) ∨
        ∃ ai a rest, after = .addrinfo ai a :: rest ∧ a.memory = false)
      (returns : ret = .error .memory)
      (socks : ∀ x ∈ t.socks, x.fd = -1)
      (events : t.events = before.flatMap Entry.dropped)
      (visits : t.visits = List.range (before.length + min 1 after.length))

theorem mem_of_getElem?_concat {α : Type} {xs : List α} {x y : α} {j : Nat} (hj : j ≠ xs.length)
    (h : (xs ++ [y])[j]? = some x) : x ∈ xs := by
  rcases Nat.lt_or_gt_of_ne hj with hlt | hgt
  · rw [List.getElem?_append_left hlt] at h
    exact List.mem_of_getElem? h
  · have hlen : (xs ++ [y]).length ≤ j := by
      rw [List.length_append, List.length_singleton]
      exact hgt
    rw [List.getElem?_eq_none hlen] at h
    exact absurd h nofun

section Table

variable {op : SoOperation} {opts : SockOpts}

theorem tryEntry_notEnded {e : Entry} (h : (tryEntry op opts e).2.isEnded = false) :
    e.succeeds op opts = false ∧ tryEntry op opts e = (e.dropped, .failed (e.error op opts)) := by
  cases e with
  | other => exact ⟨rfl, rfl⟩
  | addrinfo ai a =>
    rcases htry : tryEntry op opts (.addrinfo ai a) with ⟨es, e | found⟩
    · obtain ⟨-, rfl, hsome, rfl⟩ := tryEntry_failed htry
      refine ⟨?_, rfl⟩
      rw [Entry.succeeds, Option.isNone_eq_false_iff]
      exact hsome
    · rw [htry] at h
      exact absurd h nofun

theorem Exhausts.entries {before : List Entry} {u v : Unit} {es : List FdEvent} {errs : List ℕ+}
    (h : Exhausts (tableAttempt op opts) u before v es errs) :
    (∀ e ∈ before, e.succeeds op opts = false) ∧ es = before.flatMap Entry.dropped ∧
      errs = before.filterMap (Entry.error op opts) := by
  obtain ⟨-, hnone, rfl, rfl⟩ := Exhausts.of_each (f := tryEntry op opts) h
  refine ⟨fun e he => (tryEntry_notEnded (hnone e he)).1, ?_, ?_⟩
  · refine List.flatMap_congr fun e he => ?_
    rw [(tryEntry_notEnded (hnone e he)).2]
  · refine List.filterMap_congr fun e he => ?_
    rw [(tryEntry_notEnded (hnone e he)).2]
    rfl

end Table

theorem range'_append_last (n : Nat) : List.range' ([] : List Entry).length n ++ [n] =
    List.range (n + 1) := by
  rw [List.length_nil, ← List.range_eq_range', List.range_succ]

section Outcome

variable {op : SoOperation} {opts : SockOpts} {entries before after : List Entry} {u v : Unit}
  {es : List FdEvent} {errs : List ℕ+} {args : List Slot} {start : CallState} {k : Nat}
  (hstack : start.stack = .nil :: .table entries :: args) (hsocks : start.socks = [])
  (hevents : start.events = []) (hvisits : start.visits = [])

include hstack hsocks hevents hvisits

theorem outcome_exhausted (memory : Bool)
    (hall : Exhausts (tableAttempt op opts) u entries v es errs) : ∃ ret t,
      checkNextAddr op opts memory (args.length + 1) (k + 1 + entries.length) (errCode none)
        start = (ret, t) ∧ TableOutcome op opts memory entries ret t := by
  have hentries : entries = [] ++ (entries ++ []) := (List.append_nil entries).symm
  -- all entries are passed, and `lua_next` then finds no more
  obtain ⟨t, key, hkey, ht, hpassed, hrun⟩ :=
    checkNextAddr_passes memory hall hentries rfl hstack (k + 1) none
  rw [List.length_nil, Nat.zero_add] at hkey
  obtain ⟨ret, t', hlast, hpassed', hret⟩ :=
    checkNextAddr_exhausted op opts memory hkey ht k (errs.getLast?.or none)
  obtain ⟨hnone, rfl, rfl⟩ := Exhausts.entries hall
  obtain ⟨hevents', hgone⟩ := (hpassed.trans hpassed').ofStart hsocks hevents
  have hvisits' := (hpassed.trans hpassed').visits
  refine ⟨ret, t', hrun.trans hlast, ?_⟩
  rw [List.append_nil] at hevents'
  rw [hvisits, List.append_nil, List.nil_append, List.length_nil, ← List.range_eq_range']
    at hvisits'
  rcases hret with ⟨hmemory, rfl⟩ | ⟨rfl, hvalues⟩
  · exact .raised entries [] hentries hnone (.inl ⟨rfl, hmemory⟩) rfl hgone hevents' hvisits'
  · rw [Option.or_none] at hvalues
    exact .failed hnone rfl hvalues hgone hevents' hvisits'

theorem outcome_noMemory (memory : Bool) {e : Entry}
    (hentries : entries = before ++ e :: after)
    (hall : Exhausts (tableAttempt op opts) u before v es errs) {fs : List FdEvent}
    (hlast : tryEntry op opts e = (fs, .ended .noMemory)) : ∃ ret t,
      checkNextAddr op opts memory (args.length + 1) (k + 1 + before.length) (errCode none)
        start = (ret, t) ∧ TableOutcome op opts memory entries ret t := by
  have horder : entries = [] ++ (before ++ e :: after) := hentries
  obtain ⟨t, key, hkey, ht, hpassed, hrun⟩ :=
    checkNextAddr_passes memory hall horder rfl hstack (k + 1) none
  rw [List.length_nil, Nat.zero_add] at hkey
  obtain ⟨t', hround, hpassed'⟩ := checkNextAddr_noMemory memory hentries hkey ht hlast k
    (errCode (errs.getLast?.or none))
  obtain ⟨hnone, rfl, rfl⟩ := Exhausts.entries hall
  obtain ⟨hevents', hgone⟩ := (hpassed.trans hpassed').ofStart hsocks hevents
  have hvisits' := (hpassed.trans hpassed').visits
  refine ⟨_, t', hrun.trans hround, ?_⟩
  rw [hvisits, List.nil_append, range'_append_last] at hvisits'
  cases e with
  | other => cases hlast
  | addrinfo ai a =>
    obtain ⟨hmemory, rfl⟩ := tryEntry_noMemory hlast
    rw [List.append_nil] at hevents'
    have hone : min 1 (Entry.addrinfo ai a :: after).length = 1 :=
      Nat.min_eq_left (Nat.succ_pos _)
    exact .raised before _ hentries hnone (.inr ⟨ai, a, after, rfl, hmemory⟩) rfl hgone hevents'
      (by rw [hvisits', hone])

theorem outcome_made (memory : Bool) (hop : op ≠ .newInet6) {e : Entry}
    (hentries : entries = before ++ e :: after)
    (hall : Exhausts (tableAttempt op opts) u before v es errs) {fs : List FdEvent}
    {ai : AddrInfo} {fd : Nat} {again : Bool}
    (hlast : tryEntry op opts e = (fs, .ended (.made ai fd again))) : ∃ ret t,
      checkNextAddr op opts memory (args.length + 1) (k + 1 + before.length) (errCode none)
        start = (ret, t) ∧ TableOutcome op opts memory entries ret t := by
  have horder : entries = [] ++ (before ++ e :: after) := hentries
  obtain ⟨t, key, hkey, ht, hpassed, hrun⟩ :=
    checkNextAddr_passes memory hall horder rfl hstack (k + 1) none
  rw [List.length_nil, Nat.zero_add] at hkey
  obtain ⟨n, t', hround, hvalues, hsocks', hevents', hvisits'⟩ :=
    checkNextAddr_made memory hop hentries hkey ht hlast k (errCode (errs.getLast?.or none))
  obtain ⟨hnone, rfl, rfl⟩ := Exhausts.entries hall
  obtain ⟨hpassedEvents, hgone⟩ := hpassed.ofStart hsocks hevents
  refine ⟨_, t', hrun.trans hround, ?_⟩
  rw [hpassedEvents] at hevents'
  rw [hpassed.visits, hvisits, List.nil_append, range'_append_last] at hvisits'
  cases e with
  | other => cases hlast
  | addrinfo ai' a =>
    obtain ⟨-, hsocket, hstep, rfl, rfl, rfl⟩ := tryEntry_made hlast
    refine .found before ai a after n fd t.socks.length hentries hnone hstep hsocket rfl ?_ ?_ ?_
      hevents' hvisits'
    · rw [hvalues]
      cases inProgress op a <;> rfl
    · rw [hsocks', List.getElem?_concat_length]
    · intro j hj x hx
      rw [hsocks'] at hx
      exact hgone x (mem_of_getElem?_concat hj hx)

end Outcome

/-- Whatever the entries of the table are and whatever fails, with each operation that a caller
passes: the socket is for the first entry all of whose steps succeed, each other descriptor is
closed once, the `errno` reported is that of the last failing step, and the table is gone through
in order, no entry twice. -/
theorem newNetSocket_addrTable {call : NetCall} {args : List Slot} {entries : List Entry}
    {opts : SockOpts} (hop : call.op ≠ .newInet6)
    (harg : isAddrinfo (luaIndex args 1) = false) (htable : call.resolver = .ok [.table entries])
    (hopts : call.checkOptions false args.length = .ok opts) {fuel : Nat}
    (hfuel : entries.length < fuel) (errno : Nat) :
    ∃ ret t, newNetSocket call fuel { stack := args, errno := errno } = (ret, t) ∧
      TableOutcome call.op opts call.memory entries ret t := by
  rw [newNetSocket_table harg htable hopts]
  have hstart (n : Nat) (hn : n ≤ entries.length) : ∃ k, fuel = k + 1 + n :=
    ⟨fuel - (n + 1), by omega⟩
  rcases failover_cases (tableAttempt call.op opts) entries () none with
    ⟨u, es, errs, hall, -⟩ |
    ⟨before, e, after, u, es, errs, v, fs, found, hentries, hall, hlast, -⟩
  · obtain ⟨k, rfl⟩ := hstart entries.length le_rfl
    exact outcome_exhausted rfl rfl rfl rfl call.memory hall
  · have hbefore : before.length ≤ entries.length := by
      rw [hentries, List.length_append]
      exact Nat.le_add_right _ _
    have hlast : tryEntry call.op opts e = (fs, .ended found) := congrArg Prod.snd hlast
    obtain ⟨k, rfl⟩ := hstart before.length hbefore
    cases found with
    | noMemory => exact outcome_noMemory rfl rfl rfl rfl call.memory hentries hall hlast
    | made ai fd again => exact outcome_made rfl rfl rfl rfl call.memory hop hentries hall hlast

def threeAddrs : List Entry :=
  [.addrinfo ⟨afInet6, 1, 6, []⟩ { socket := .error eafnosupport }, .other,
    .addrinfo ⟨afInet, 1, 6, []⟩ { socket := .ok 7, connect := some 111 },
    .addrinfo ⟨afInet, 1, 6, []⟩ { socket := .ok 7, connect := some einprogress }]

def threeAddrsCall : NetCall :=
  { op := .connectInet, resolver := .ok [.table threeAddrs], options := .ok {} }

theorem newNetSocket_addrTable_threeAddrs : ∃ ret t,
    newNetSocket threeAddrsCall 5 { stack := [.entry .other] } = (ret, t) ∧
      TableOutcome .connectInet {} true threeAddrs ret t :=
  @newNetSocket_addrTable threeAddrsCall _ _ _ nofun rfl rfl rfl _ (Nat.lt_succ_self 4) 0

end LuaNet.Connect
