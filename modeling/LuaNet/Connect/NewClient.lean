import LuaNet.Connect.InetFailover

/-! `new_client` of `lib/stream/inet.lua` and `lib/stream/unix.lua`: the options are checked, the
TLS client is made when one is configured, and only then the connection, which TLS takes over. -/

namespace LuaNet.Connect

open LuaNet.Lib

inductive Arg (α : Type)
  | absent
  | given (a : α)
  | wrong

def Arg.value {α : Type} : Arg α → Option α
  | .given a => some a
  | _ => none

/-- `opts.tlscfg`; the values of type `V` are left to the TLS modules. -/
structure TlsCfg (V : Type) where
  bufcap : Arg Nat := .absent
  cafile : Arg Bytes := .absent
  capath : Arg Bytes := .absent
  verifyDepth : Arg Nat := .absent
  cert : Option V := none
  key : Option V := none
  protocol : Option V := none
  ciphers : Option V := none
  alpn : Option V := none
  cache : Option V := none
  crls : Option V := none
  verifyName : Option V := none
  verifyTime : Option V := none
  verifyCert : Option V := none

structure ClientOpts (τ V : Type) where
  deadline : Arg τ := .absent
  servername : Arg Bytes := .absent
  tlscfg : Arg (TlsCfg V) := .absent

structure TlsClientCfg (V : Type) where
  cert : Option V
  key : Option V
  protocol : Option V
  cipher : Option V
  alpn : Option V
  cache : Option V
  verifyDepth : Option Nat
  cafile : Option Bytes
  capath : Option Bytes
  crls : Option V

structure TlsConnectCfg (V : Type) where
  host : Option Bytes
  port : Option V
  servername : Option Bytes
  verifyName : Option V
  verifyTime : Option V
  verifyCert : Option V
  bufcap : Option Nat

def TlsCfg.clientCfg {V : Type} (cfg : TlsCfg V) : TlsClientCfg V where
  cert := cfg.cert
  key := cfg.key
  protocol := cfg.protocol
  cipher := cfg.ciphers
  alpn := cfg.alpn
  cache := cfg.cache
  verifyDepth := cfg.verifyDepth.value
  cafile := cfg.cafile.value
  capath := cfg.capath.value
  crls := cfg.crls

def TlsCfg.connectCfg {V : Type} (cfg : TlsCfg V) (host : Option Bytes) (port : Option V)
    (servername : Option Bytes) : TlsConnectCfg V where
  host := host
  port := port
  servername := servername.or host
  verifyName := cfg.verifyName
  verifyTime := cfg.verifyTime
  verifyCert := cfg.verifyCert
  bufcap := cfg.bufcap.value

section Unix

variable {τ : Type}

/-- A pathname with what is answered for it: the address that `net.addrinfo.unix` gives, if it
gives one, and for the socket what there is in `ConnAddr`. -/
structure UnixPath (τ : Type) where
  resolver : Except LuaError (Option (AddrInfo × Answers))
  errnoMemory : Bool := true
  wait : Option τ → Bool × Option ConnError × Bool
  soError : Except ℕ+ (Option ℕ+)
  close : Answers
  peer : Except ConnError AddrInfo

def UnixPath.values (u : UnixPath τ) : Except LuaError (List Slot) :=
  u.resolver.map fun
    | some (ai, a) => [.entry (.addrinfo ai a)]
    | none => [.nil, .error ""]

def UnixPath.call (u : UnixPath τ) : NetCall :=
  { op := .connectUnix, resolver := u.values, options := .ok {}, memory := u.errnoMemory }

def socketConnectUnix (u : UnixPath τ) : CallM (Option Nat × Option ConnError × Bool) := fun s =>
  match newNetSocket u.call 1 { s with stack := [.table [], .nil] } with
  | (.ok n, t) =>
    let values := t.returned (n.getD 0)
    (.ok (sockArg values[0]?, errArg values[1]?, boolArg values[2]?), { t with stack := s.stack })
  | (.error e, t) => (.error e, { t with stack := s.stack })

def awaitUnix (u : UnixPath τ) (i : Nat) (deadline : Option τ) : CallM ConnRet := do
  let (ok, perr, timeout) := u.wait deadline
  if !ok || perr.isSome || timeout then
    closeLua i u.close
    return { err := perr, timeout := timeout }
  else
    match u.soError with
    | .error cerr =>
      closeLua i u.close
      return { err := some (.errno cerr "error") }
    | .ok (some soerr) =>
      closeLua i u.close
      return { err := some (.errno soerr "error") }
    | .ok none => return { sock := some i, ai := some u.peer }

def unixStreamConnect (u : UnixPath τ) (deadline : Option τ) : CallM ConnRet := do
  match ← socketConnectUnix u with
  | (none, err, _) => return { err := err }
  | (some i, _, false) => return { sock := some i, ai := some u.peer }
  | (some i, _, true) => awaitUnix u i deadline

end Unix

inductive Client (C : Type)
  | plain (i : Nat)
  | tls (i : Nat) (conn : C)

def Client.sock {C : Type} : Client C → Nat
  | .plain i => i
  | .tls i _ => i

structure ClientRet (C : Type) where
  client : Option (Client C) := none
  err : Option ConnError := none
  timeout : Bool := false
  ai : Option (Except ConnError AddrInfo) := none

/-- The TLS modules, which may raise an error or return one, and close(2) on the connection that
they refuse. -/
structure TlsEnv (V X C : Type) where
  client : TlsClientCfg V → Except LuaError (Except ConnError X)
  connect : X → Int → TlsConnectCfg V → Except LuaError (Except ConnError C)
  close : Answers

section Code

variable {τ V X C : Type}

def need {α : Type} (a : Arg α) (text : String) : Except LuaError Unit :=
  match a with
  | .wrong => .error (.thrown text)
  | _ => .ok ()

def checkClientOpts : Arg (ClientOpts τ V) → Except LuaError (ClientOpts τ V)
  | .absent => .ok {}
  | .wrong => .error (.thrown "opts must be table")
  | .given o => do
    need o.deadline "opts.deadline must be finite number"
    need o.tlscfg "opts.tlscfg must be table"
    match o.tlscfg with
    | .given cfg => do
      need cfg.bufcap "opts.tlscfg.bufcap must be uint"
      need cfg.cafile "opts.tlscfg.cafile must be string"
      need cfg.capath "opts.tlscfg.capath must be string"
      need cfg.verifyDepth "opts.tlscfg.verify_depth must be uint"
      need o.servername "opts.servername must be string"
    | _ => .ok ()
    .ok o

def sockFd (i : Nat) : CallM Int := do
  let s ← Raising.state
  return (s.socks[i]?.map NetSocket.fd).getD (-1)

def tlsTakeOver (env : TlsEnv V X C) (ctx : X) (cfg : TlsConnectCfg V) (i : Nat)
    (ai : Option (Except ConnError AddrInfo)) : CallM (ClientRet C) := do
  let fd ← sockFd i
  match ← liftExcept (env.connect ctx fd cfg) with
  | .ok conn => return { client := some (.tls i conn), ai := ai }
  | .error err =>
    closeLua i env.close
    return { err := some err }

def connectClient (env : TlsEnv V X C) (connect : CallM ConnRet)
    (tls : Option (X × TlsConnectCfg V)) : CallM (ClientRet C) := do
  let r ← connect
  match r.sock, tls with
  | none, _ => return { err := r.err, timeout := r.timeout }
  | some i, none => return { client := some (.plain i), ai := r.ai }
  | some i, some (ctx, cfg) => tlsTakeOver env ctx cfg i r.ai

/-- `new_client`, where a Unix address has no `host` and no `port`. -/
def newClient (env : TlsEnv V X C) (connect : Option τ → CallM ConnRet) (host : Option Bytes)
    (port : Option V) (opts : Arg (ClientOpts τ V)) : CallM (ClientRet C) := do
  let o ← liftExcept (checkClientOpts opts)
  match o.tlscfg.value with
  | none => connectClient env (connect o.deadline.value) none
  | some cfg =>
    match ← liftExcept (env.client cfg.clientCfg) with
    | .error err => return { err := some err }
    | .ok ctx =>
      connectClient env (connect o.deadline.value)
        (some (ctx, cfg.connectCfg host port o.servername.value))

def inetNewClient {D T : Type} [Sub τ] [LT τ] [DecidableLT τ] [OfNat τ 0] [OfNat τ 30]
    (env : TlsEnv V X C) (lib : DeadlineLib τ D T)
    (resolved : Except ConnError (List (ConnAddr τ T))) (start : T) (host : Option Bytes)
    (port : Option V) (opts : Arg (ClientOpts τ V)) : CallM (ClientRet C) :=
  newClient env (fun sec => inetStreamConnect lib resolved sec start) host port opts

def unixNewClient (env : TlsEnv V X C) (u : UnixPath τ) (opts : Arg (ClientOpts τ V)) :
    CallM (ClientRet C) :=
  newClient env (unixStreamConnect u) none none opts

end Code

/-- The descriptors that were made are closed again at once, but for a last one that is kept. -/
inductive Tidy : List FdEvent → Option Int → Prop
  | nil : Tidy [] none
  | dropped {es : List FdEvent} (h : Tidy es none) (fd : Int) :
    Tidy (es ++ [.created fd, .closed fd]) none
  | kept {es : List FdEvent} (h : Tidy es none) (fd : Int) : Tidy (es ++ [.created fd]) (some fd)

theorem Tidy.append_dropped {es : List FdEvent} (h : Tidy es none) (e : Entry) :
    Tidy (es ++ e.dropped) none := by
  cases e with
  | other => rwa [show Entry.other.dropped = [] from rfl, List.append_nil]
  | addrinfo ai a =>
    cases hsocket : a.socket with
    | ok fd =>
      rw [dropped_of_ok hsocket]
      exact h.dropped fd
    | error e => rwa [dropped_of_error hsocket, List.append_nil]

theorem Tidy.append_all {τ T : Type} {es : List FdEvent} (h : Tidy es none)
    (cs : List (ConnAddr τ T)) : Tidy (es ++ cs.flatMap ConnAddr.dropped) none := by
  induction cs generalizing es with
  | nil => rwa [List.flatMap_nil, List.append_nil]
  | cons c cs ih =>
    rw [List.flatMap_cons, ← List.append_assoc]
    exact ih (h.append_dropped _)

theorem tidy_dropped {τ T : Type} (cs : List (ConnAddr τ T)) :
    Tidy (cs.flatMap ConnAddr.dropped) none := Tidy.nil.append_all cs

theorem Tidy.close {es : List FdEvent} {fd : Int} (h : Tidy es (some fd)) :
    Tidy (es ++ [.closed fd]) none := by
  cases h with
  | kept h fd =>
    rw [List.append_assoc]
    exact h.dropped fd

structure CallState.Clean (t : CallState) : Prop where
  events : Tidy t.events none
  socks : ∀ x ∈ t.socks, x.fd = -1

structure CallState.Holds (t : CallState) (i : Nat) (fd : Nat) : Prop where
  events : Tidy t.events (some (fd : Int))
  sock : ∃ x, t.socks[i]? = some x ∧ x.fd = (fd : Int)
  others : ∀ j ≠ i, ∀ x, t.socks[j]? = some x → x.fd = -1

theorem CallState.Holds.close {t : CallState} {i fd : Nat} (h : t.Holds i fd) (a : Answers) :
    ∃ t', closeLua i a t = (.ok (), t') ∧ t'.Clean := by
  obtain ⟨x, hx, hfd⟩ := h.sock
  have hne : x.fd ≠ -1 := by omega
  refine ⟨{ t with
    socks := t.socks.modify i fun y => { y with fd := -1 }
    errno := a.closeErrno
    events := t.events ++ [.closed x.fd] }, ?_, ?_, fun y hy => ?_⟩
  · simp [closeLua, hx, hne, setFd, emit, setErrno]
  · rw [hfd]
    exact h.events.close
  · obtain ⟨j, hj⟩ := List.mem_iff_getElem?.mp hy
    rw [List.getElem?_modify] at hj
    obtain ⟨z, hz, heq⟩ := Option.map_eq_some_iff.mp hj
    by_cases hij : i = j
    · rw [if_pos hij] at heq
      rw [← heq]
    · rw [if_neg hij] at heq
      rw [← heq]
      exact h.others j (Ne.symm hij) z hz

def CallState.Owned (t : CallState) : Option Nat → Prop
  | none => t.Clean
  | some i => ∃ fd : Nat, t.Holds i fd

theorem CallState.Owned.withStack {t : CallState} {sock : Option Nat} (h : t.Owned sock)
    (stack : List Slot) : { t with stack := stack }.Owned sock := by
  cases sock with
  | none => exact ⟨h.events, h.socks⟩
  | some i =>
    obtain ⟨fd, h⟩ := h
    exact ⟨fd, h.events, h.sock, h.others⟩

def Leaves {α : Type} (sock : α → Option Nat) : Except LuaError α × CallState → Prop
  | (.ok r, t) => t.Owned (sock r)
  | (.error _, t) => t.Clean

section Connecting

variable {τ D T : Type}

theorem inetStreamConnect_leaves [Sub τ] [LT τ] [DecidableLT τ] [OfNat τ 0] [OfNat τ 30]
    (lib : DeadlineLib τ D T) (resolved : Except ConnError (List (ConnAddr τ T)))
    (sec : Option τ) (start : T) (errno : Nat) :
    Leaves ConnRet.sock (inetStreamConnect lib resolved sec start { stack := [], errno := errno }) := by
  cases resolved with
  | error err => exact ⟨.nil, nofun⟩
  | ok addrs =>
    obtain ⟨ret, t, hrun, houtcome⟩ := inetStreamConnect_failover lib addrs sec start errno
    have hclean {as bs : List (ConnAddr τ T)} (hsocks : ∀ x ∈ t.socks, x.fd = -1)
        (hevents : t.events = as.flatMap ConnAddr.dropped ∨
          t.events = bs.flatMap ConnAddr.dropped) : t.Clean := by
      refine ⟨?_, hsocks⟩
      rcases hevents with hevents | hevents
      · rw [hevents]
        exact tidy_dropped as
      · rw [hevents]
        exact tidy_dropped bs
    rw [hrun]
    cases houtcome with
    | connected before c after b es errs fd i order earlier shared inTime created steps connected
        returns sock others events =>
      rw [returns]
      refine ⟨fd, ?_, ⟨_, sock, rfl⟩, others⟩
      rw [events]
      exact (tidy_dropped before).kept fd
    | timedOut before c after b es errs order earlier shared expired returns socks events =>
      rw [returns]
      exact hclean socks events
    | failed b es errs all returns socks events =>
      rw [returns]
      exact @hclean addrs [] socks (.inl events)
    | raised before c after b es fs errs order earlier cause returns socks events =>
      rw [returns]
      exact hclean socks events

theorem CallState.Clean.passed {s t : CallState} (h : s.Clean) {es : List FdEvent} {ks : List Nat}
    (hpassed : Passed s t es ks) (hes : Tidy (s.events ++ es) none) : t.Clean := by
  obtain ⟨more, hmore, hgone⟩ := hpassed.socks
  refine ⟨?_, fun x hx => ?_⟩
  · rw [hpassed.events]
    exact hes
  · rw [hmore, List.mem_append] at hx
    exact hx.elim (h.socks x) (hgone x)

theorem CallState.Clean.made {s t : CallState} (h : s.Clean) {x : NetSocket} {fd : Nat}
    (hx : x.fd = fd) (hsocks : t.socks = s.socks ++ [x])
    (hevents : t.events = s.events ++ [.created fd]) : t.Holds s.socks.length fd := by
  refine ⟨?_, ⟨x, ?_, hx⟩, fun j hj y hy => ?_⟩
  · rw [hevents]
    exact h.events.kept fd
  · rw [hsocks, List.getElem?_concat_length]
  · rw [hsocks] at hy
    exact h.socks y (mem_of_getElem?_concat hj hy)

theorem singleAddr_leaves (u : UnixPath τ) {s : CallState} (hs : s.Clean) {e : Entry}
    (hindex : luaIndex s.stack 3 = some (.entry e)) :
    match singleAddr u.call {} 3 s with
    | (.ok n, t) => t.Owned (sockArg (t.returned (n.getD 0))[0]?)
    | (.error _, t) => t.Clean := by
  have hop : u.call.op ≠ .newInet6 := SoOperation.noConfusion
  rcases htry : tryEntry u.call.op {} e with ⟨es, c | (- | ⟨ai, fd, again⟩)⟩
  · have hended : (tryEntry u.call.op {} e).2.isEnded = false := by rw [htry]; rfl
    have hnotEnded := tryEntry_notEnded hended
    have hes : es = e.dropped := by
      rw [htry] at hnotEnded
      exact congrArg Prod.fst hnotEnded.2
    obtain ⟨t, hturn, -, hpassed⟩ := turn_failed hindex htry none
    rw [Option.or_none] at hturn
    obtain ⟨ret, t', hfailed, hpassed', hret⟩ := addrsFailed_run u.call.op u.call.memory c t
    have hclean : t'.Clean := by
      apply hs.passed (hpassed.trans hpassed')
      rw [hes, List.append_nil]
      exact hs.events.append_dropped e
    have hnext : errCode none = 0 := rfl
    rw [hnext] at hturn
    simp only [singleAddr, Raising.bind_run, hturn, checkNextAddr, if_true, Raising.pure_run,
      Bool.false_eq_true, if_false, hfailed]
    rcases hret with ⟨-, rfl⟩ | ⟨-, rfl, hvalues⟩
    · exact hclean
    · show t'.Owned (sockArg (t'.returned 2)[0]?)
      rw [hvalues]
      exact hclean
  · obtain ⟨rfl, errno, hturn⟩ := turn_noMemory hindex htry 0
    simp only [singleAddr, Raising.bind_run, hturn]
    exact ⟨hs.events, hs.socks⟩
  · obtain ⟨errno, hturn⟩ := turn_made hop hindex htry 0
    have hes : es = [.created fd] := by
      cases e with
      | other => cases htry
      | addrinfo ai' a => exact (tryEntry_made htry).2.2.2.2.2
    simp only [singleAddr, Raising.bind_run, hturn, Raising.pure_run, Option.getD_some]
    have hvalue (t : CallState) (stack : List Slot)
        (ht : t.stack = againValues again ++ .sock s.socks.length :: stack) :
        sockArg (t.returned ((againValues again).length + 1))[0]? = some s.socks.length := by
      cases again <;> simp [CallState.returned, againValues, ht, sockArg]
    rw [hvalue _ _ rfl]
    subst hes
    exact ⟨fd, hs.made rfl rfl rfl⟩

theorem socketConnectUnix_leaves (u : UnixPath τ) {s : CallState} (hs : s.Clean) :
    Leaves Prod.fst (socketConnectUnix u s) := by
  have hplain : isAddrinfo (luaIndex [.table [], .nil] 1) = false := rfl
  cases hresolver : u.resolver with
  | error e =>
    have hcall : u.call.resolver = .error e := by
      simp [UnixPath.call, UnixPath.values, hresolver, Except.map]
    simp [socketConnectUnix, newNetSocket, hplain, hcall, liftExcept]
    exact ⟨hs.events, hs.socks⟩
  | ok found =>
    cases found with
    | none =>
      have hcall : u.call.resolver = .ok [.nil, .error ""] := by
        simp [UnixPath.call, UnixPath.values, hresolver, Except.map]
      simp [socketConnectUnix, newNetSocket, hplain, hcall, liftExcept, failedCall, luaSettop,
        push, CallState.returned]
      exact ⟨hs.events, hs.socks⟩
    | some found =>
      obtain ⟨ai, a⟩ := found
      have hcall : u.call.resolver = .ok [.entry (.addrinfo ai a)] := by
        simp [UnixPath.call, UnixPath.values, hresolver, Except.map]
      have hoptions : u.call.checkOptions false 2 = .ok {} := rfl
      have hnew : newNetSocket u.call 1 { s with stack := [.table [], .nil] } =
          singleAddr u.call {} 3
            { s with stack := [.entry (.addrinfo ai a), .table [], .nil] } := by
        simp [newNetSocket, hplain, hcall, liftExcept, hoptions, push]
      have hleaves := singleAddr_leaves u
        (s := { s with stack := [.entry (.addrinfo ai a), .table [], .nil] })
        ⟨hs.events, hs.socks⟩ rfl
      unfold socketConnectUnix
      rw [hnew]
      revert hleaves
      rcases singleAddr u.call {} 3 _ with ⟨e | n, t⟩
      · exact fun hleaves => ⟨hleaves.events, hleaves.socks⟩
      · exact fun hleaves => hleaves.withStack _

theorem awaitUnix_leaves (u : UnixPath τ) {i fd : Nat} {s : CallState} (hs : s.Holds i fd)
    (deadline : Option τ) : Leaves ConnRet.sock (awaitUnix u i deadline s) := by
  obtain ⟨t, hclose, hclean⟩ := hs.close u.close
  rcases hwait : u.wait deadline with ⟨ok, perr, timeout⟩
  cases hready : !ok || perr.isSome || timeout with
  | true =>
    simp only [awaitUnix, hwait, hready, if_true, Raising.bind_of_ok hclose]
    exact hclean
  | false =>
    rcases hso : u.soError with cerr | (- | soerr) <;>
      simp only [awaitUnix, hwait, hready, Bool.false_eq_true, if_false, hso,
        Raising.bind_of_ok hclose]
    · exact hclean
    · exact ⟨fd, hs⟩
    · exact hclean

theorem unixStreamConnect_leaves (u : UnixPath τ) (deadline : Option τ) {s : CallState}
    (hs : s.Clean) : Leaves ConnRet.sock (unixStreamConnect u deadline s) := by
  have hmade := socketConnectUnix_leaves u hs
  rcases hrun : socketConnectUnix u s with ⟨e | ⟨- | i, err, again⟩, t⟩ <;> rw [hrun] at hmade
  · unfold unixStreamConnect
    rw [Raising.bind_of_error hrun]
    exact hmade
  · unfold unixStreamConnect
    rw [Raising.bind_of_ok hrun]
    exact hmade
  · obtain ⟨fd, hmade⟩ := hmade
    unfold unixStreamConnect
    rw [Raising.bind_of_ok hrun]
    cases again with
    | false => exact ⟨fd, hmade⟩
    | true => exact awaitUnix_leaves u hmade deadline

end Connecting

section Outcome

variable {τ V X C : Type} {env : TlsEnv V X C} {connect : Option τ → CallM ConnRet}
  {host : Option Bytes} {port : Option V} {opts : Arg (ClientOpts τ V)}

def Configured (env : TlsEnv V X C) (opts : Arg (ClientOpts τ V)) : Prop :=
  ∃ o, checkClientOpts opts = .ok o ∧
    ∀ cfg, o.tlscfg = .given cfg → ∃ ctx, env.client cfg.clientCfg = .ok (.ok ctx)

/-- The client is of the kind that the options ask for: in plain text without `tlscfg`, and else
over a TLS connection that was made on its descriptor. -/
def Client.AsAsked (env : TlsEnv V X C) (host : Option Bytes) (port : Option V)
    (opts : Arg (ClientOpts τ V)) (t : CallState) : Client C → Prop
  | .plain _ => ∃ o, checkClientOpts opts = .ok o ∧ o.tlscfg.value = none
  | .tls i conn => ∃ o cfg ctx, ∃ fd : Nat, checkClientOpts opts = .ok o ∧
    o.tlscfg = .given cfg ∧ env.client cfg.clientCfg = .ok (.ok ctx) ∧ t.Holds i fd ∧
    env.connect ctx fd (cfg.connectCfg host port o.servername.value) = .ok (.ok conn)

structure ClientSpec (env : TlsEnv V X C) (host : Option Bytes) (port : Option V)
    (opts : Arg (ClientOpts τ V)) (run : Except LuaError (ClientRet C) × CallState) : Prop where
  /-- No descriptor is made before the options are checked and the TLS client is there. -/
  configured : run.2.events ≠ [] → Configured env opts
  /-- The socket of the client has the only descriptor, and none is left without a client. -/
  owned : ∀ r, run.1 = .ok r → run.2.Owned (r.client.map Client.sock)
  asAsked : ∀ r c, run.1 = .ok r → r.client = some c → c.AsAsked env host port opts run.2
  /-- An error leaves no descriptor, but when the TLS modules raise it for a connection: the
  socket has it then, and is left to the collector. -/
  raised : ∀ e, run.1 = .error e → run.2.Clean ∨
    ∃ ctx cfg i, ∃ fd : Nat, env.connect ctx fd cfg = .error e ∧ run.2.Holds i fd

theorem ClientSpec.early {s : CallState} (hclean : s.Clean) (hevents : s.events = [])
    {ret : Except LuaError (ClientRet C)} (hnone : ∀ r, ret = .ok r → r.client = none) :
    ClientSpec env host port opts (ret, s) where
  configured := fun h => absurd hevents h
  owned := by
    intro r hr
    rw [hnone r hr]
    exact hclean
  asAsked := by
    intro r c hr hc
    rw [hnone r hr] at hc
    cases hc
  raised := fun _ _ => .inl hclean

theorem ClientSpec.unconnected (hconfigured : Configured env opts) {t : CallState}
    (hclean : t.Clean) {ret : Except LuaError (ClientRet C)}
    (hnone : ∀ r, ret = .ok r → r.client = none) : ClientSpec env host port opts (ret, t) where
  configured := fun _ => hconfigured
  owned := by
    intro r hr
    rw [hnone r hr]
    exact hclean
  asAsked := by
    intro r c hr hc
    rw [hnone r hr] at hc
    cases hc
  raised := fun _ _ => .inl hclean

theorem sockFd_run {t : CallState} {i fd : Nat} (h : t.Holds i fd) :
    sockFd i t = (.ok (fd : Int), t) := by
  obtain ⟨x, hx, hfd⟩ := h.sock
  simp [sockFd, hx, hfd]

theorem tlsTakeOver_spec {o : ClientOpts τ V} {cfg : TlsCfg V} {ctx : X}
    (hchecks : checkClientOpts opts = .ok o) (hcfg : o.tlscfg = .given cfg)
    (hclient : env.client cfg.clientCfg = .ok (.ok ctx)) {t : CallState} {i fd : Nat}
    (hholds : t.Holds i fd) (ai : Option (Except ConnError AddrInfo)) :
    ClientSpec env host port opts
      (tlsTakeOver env ctx (cfg.connectCfg host port o.servername.value) i ai t) := by
  have hconfigured : Configured env opts := by
    refine ⟨o, hchecks, fun cfg' hcfg' => ?_⟩
    rw [hcfg] at hcfg'
    cases hcfg'
    exact ⟨ctx, hclient⟩
  unfold tlsTakeOver
  rw [Raising.bind_of_ok (sockFd_run hholds)]
  cases htakes : env.connect ctx fd (cfg.connectCfg host port o.servername.value) with
  | error e =>
    refine ⟨fun _ => hconfigured, nofun, nofun, ?_⟩
    rintro e' ⟨⟩
    exact .inr ⟨ctx, _, i, fd, htakes, hholds⟩
  | ok answer =>
    cases answer with
    | ok conn =>
      refine ⟨fun _ => hconfigured, ?_, ?_, nofun⟩
      · rintro r ⟨⟩
        exact ⟨fd, hholds⟩
      · rintro r c ⟨⟩ ⟨⟩
        exact ⟨o, cfg, ctx, fd, hchecks, hcfg, hclient, hholds, htakes⟩
    | error err =>
      obtain ⟨t', hclose, hclean⟩ := hholds.close env.close
      show ClientSpec env host port opts ((closeLua i env.close >>= fun _ => _) t)
      rw [Raising.bind_of_ok hclose]
      refine .unconnected hconfigured hclean ?_
      rintro r ⟨⟩
      rfl

theorem connectClient_spec {o : ClientOpts τ V} (hchecks : checkClientOpts opts = .ok o)
    {s : CallState} (hconnect : Leaves ConnRet.sock (connect o.deadline.value s))
    {tls : Option (X × TlsConnectCfg V)}
    (htls : match tls with
      | none => o.tlscfg.value = none
      | some (ctx, ccfg) => ∃ cfg, o.tlscfg = .given cfg ∧
        env.client cfg.clientCfg = .ok (.ok ctx) ∧
        ccfg = cfg.connectCfg host port o.servername.value) :
    ClientSpec env host port opts (connectClient env (connect o.deadline.value) tls s) := by
  have hconfigured : Configured env opts := by
    refine ⟨o, hchecks, fun cfg hcfg => ?_⟩
    cases tls with
    | none =>
      rw [hcfg] at htls
      cases htls
    | some tls =>
      obtain ⟨cfg', hcfg', hclient, -⟩ := htls
      rw [hcfg] at hcfg'
      cases hcfg'
      exact ⟨_, hclient⟩
  unfold connectClient
  rcases hrun : connect o.deadline.value s with ⟨e | r, t⟩ <;> rw [hrun] at hconnect
  · rw [Raising.bind_of_error hrun]
    exact .unconnected hconfigured hconnect nofun
  · rw [Raising.bind_of_ok hrun]
    cases hsock : r.sock with
    | none =>
      have hclean : t.Clean := by
        have howned : t.Owned r.sock := hconnect
        rwa [hsock] at howned
      refine .unconnected hconfigured hclean ?_
      rintro r' ⟨⟩
      rfl
    | some i =>
      have howned : t.Owned r.sock := hconnect
      rw [hsock] at howned
      obtain ⟨fd, hholds⟩ := howned
      rcases tls with - | ⟨ctx, ccfg⟩
      · refine ⟨fun _ => hconfigured, ?_, ?_, nofun⟩
        · rintro r' ⟨⟩
          exact ⟨fd, hholds⟩
        · rintro r' c ⟨⟩ ⟨⟩
          exact ⟨o, hchecks, htls⟩
      · obtain ⟨cfg, hcfg, hclient, rfl⟩ := htls
        exact tlsTakeOver_spec hchecks hcfg hclient hholds r.ai

theorem newClient_spec {s : CallState} (hclean : s.Clean) (hevents : s.events = [])
    (hconnect : ∀ sec, Leaves ConnRet.sock (connect sec s)) :
    ClientSpec env host port opts (newClient env connect host port opts s) := by
  unfold newClient
  cases hchecks : checkClientOpts opts with
  | error e => exact .early hclean hevents nofun
  | ok o =>
    show ClientSpec env host port opts ((match o.tlscfg.value with
      | none => _
      | some cfg => _ : CallM (ClientRet C)) s)
    cases htls : o.tlscfg with
    | absent => exact connectClient_spec hchecks (hconnect _) (by rw [htls]; rfl)
    | wrong => exact connectClient_spec hchecks (hconnect _) (by rw [htls]; rfl)
    | given cfg =>
      show ClientSpec env host port opts ((liftExcept (env.client cfg.clientCfg) >>= _) s)
      rcases hclient : env.client cfg.clientCfg with e | (err | ctx)
      · exact .early hclean hevents nofun
      · refine .early hclean hevents ?_
        rintro r ⟨⟩
        rfl
      · exact connectClient_spec hchecks (hconnect _) ⟨cfg, htls, hclient, rfl⟩

/-- A client of either family, whatever the addresses, the kernel and the TLS modules answer: it
is of the kind the options ask for, never in plain text for want of TLS; its socket has the only
descriptor, and without a client none is left. -/
theorem newClient_descriptors (env : TlsEnv V X C) (opts : Arg (ClientOpts τ V)) (errno : Nat) :
    (∀ {D T : Type} [Sub τ] [LT τ] [DecidableLT τ] [OfNat τ 0] [OfNat τ 30]
      (lib : DeadlineLib τ D T) (resolved : Except ConnError (List (ConnAddr τ T))) (start : T)
      (host : Option Bytes) (port : Option V), ClientSpec env host port opts
        (inetNewClient env lib resolved start host port opts { stack := [], errno := errno })) ∧
    ∀ u : UnixPath τ, ClientSpec env none none opts
      (unixNewClient env u opts { stack := [], errno := errno }) := by
  have hclean : CallState.Clean { stack := [], errno := errno } := ⟨.nil, nofun⟩
  constructor
  · intro D T _ _ _ _ _ lib resolved start host port
    exact newClient_spec hclean rfl fun sec => inetStreamConnect_leaves lib resolved sec start errno
  · intro u
    exact newClient_spec hclean rfl fun sec => unixStreamConnect_leaves u sec hclean

end Outcome

end LuaNet.Connect
