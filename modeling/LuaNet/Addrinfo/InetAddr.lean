import LuaNet.Addrinfo.UnixAddr

/-! Numeric addresses of `addrinfo.c`: `addrinfo.inet` and `addrinfo.inet6` put a literal and a port
into a socket address, and `addr()` and `port()` take them out again. -/

namespace LuaNet.Addrinfo

open LuaNet.Lib

inductive IpVersion
  | v4
  | v6
deriving DecidableEq

def IpVersion.family : IpVersion → Nat
  | .v4 => 2
  | .v6 => 10

def IpVersion.width : IpVersion → Nat
  | .v4 => 4
  | .v6 => 16

/-- Between the port and the address is `sin6_flowinfo`. -/
def IpVersion.gap : IpVersion → Nat
  | .v4 => 0
  | .v6 => 4

def IpVersion.tail : IpVersion → Nat
  | .v4 => 8
  | .v6 => 4

def IpVersion.size (v : IpVersion) : Nat := 4 + v.gap + v.width + v.tail

/-- What `inet_pton(3)` answers: the bytes of the address, 0, or -1 with `errno`. -/
inductive Pton (width : Nat)
  | ok (bytes : Bytes) (h : bytes.length = width)
  | invalid
  | failed (errno : Nat)

def anyAddr (v : IpVersion) : Bytes := List.replicate v.width 0

def sockaddrIp (v : IpVersion) (port : UInt16) (addr : Bytes) : Bytes :=
  leBytes 2 v.family ++ be16 port.toNat ++ List.replicate v.gap 0 ++ addr ++
    List.replicate v.tail 0

def eafnosupport : Nat := 97

inductive IpReturn
  | argError (msg : String)
  | failed (errno : Nat)
  | created (info : NetAddrinfo)

def createIp (v : IpVersion) (opts : AddrHints) (port : UInt16) (addr : Bytes) :
    AddrWalk IpReturn := do
  let info ← netAddrinfoNew {
    opts with family := v.family, addr := some (sockaddrIp v port addr), addrlen := v.size }
  return .created info

/-- What `inet_lua` and `inet6_lua` have in common, with the options parsed. -/
def ipLua (v : IpVersion) (pton : Bytes → Pton v.width) (opts : AddrHints) (addr : Bytes)
    (port : UInt16) : AddrWalk IpReturn :=
  if addr.length = 0 then createIp v opts port (anyAddr v)
  else if 0 ∈ addr then return .argError "address must not contain NUL bytes"
  else
    match pton addr with
    | .failed errno => return .failed errno
    | .invalid => return .failed eafnosupport
    | .ok bytes _ => createIp v opts port bytes

def inetLua (pton : Bytes → Pton IpVersion.v4.width) := ipLua .v4 pton

def inet6Lua (pton : Bytes → Pton IpVersion.v6.width) := ipLua .v6 pton

def ntohs : Bytes → Nat
  | [hi, lo] => be16Nat hi lo
  | _ => 0

def portLua (info : NetAddrinfo) : AddrWalk (Option Nat) :=
  if info.family = afInet ∨ info.family = afInet6 then do
    let port ← Walk.fetch info.addr 2 2
    return some (ntohs port)
  else return none

def Numeric (v : IpVersion) (pton : Bytes → Pton v.width) (addr bytes : Bytes) : Prop :=
  addr = [] ∧ bytes = anyAddr v ∨ (addr ≠ [] ∧ 0 ∉ addr) ∧ ∃ h, pton addr = .ok bytes h

section Layout

variable {v : IpVersion} {port : UInt16} {bytes : Bytes}

theorem be16_length (n : Nat) : (be16 n).length = 2 := rfl

theorem sockaddrIp_length (port : UInt16) (h : bytes.length = v.width) :
    (sockaddrIp v port bytes).length = v.size := by
  simp only [sockaddrIp, List.length_append, leBytes_length, be16_length, List.length_replicate, h]
  rw [IpVersion.size]

theorem size_fits (v : IpVersion) : v.size ≤ storageSize := by
  cases v <;> decide

theorem sockaddrIp_port : ((sockaddrIp v port bytes).drop 2).take 2 = be16 port.toNat := by
  rw [sockaddrIp, List.append_assoc, List.append_assoc, List.append_assoc,
    List.drop_left' (leBytes_length 2 v.family)]
  exact List.take_left' (be16_length _)

theorem sockaddrIp_addr (h : bytes.length = v.width) :
    ((sockaddrIp v port bytes).drop (4 + v.gap)).take v.width = bytes := by
  have hfront : (leBytes 2 v.family ++ be16 port.toNat ++ List.replicate v.gap 0).length =
      4 + v.gap := by
    rw [List.length_append, List.length_append, leBytes_length, List.length_replicate]
    rfl
  rw [sockaddrIp, List.append_assoc _ bytes, List.drop_left' hfront]
  exact List.take_left' h

theorem ntohs_be16 (port : UInt16) : ntohs (be16 port.toNat) = port.toNat :=
  (be16Nat_eq_iff port.toNat_lt).mpr rfl

theorem sockaddr_part {info : NetAddrinfo} {sockaddr : Bytes} {offset width : Nat}
    (h : info.sockaddr = sockaddr) (hle : offset + width ≤ sockaddr.length) :
    (Walk.fetch info.addr offset width : AddrWalk Bytes) =
      pure ((sockaddr.drop offset).take width) := by
  have hlen : sockaddr.length ≤ info.addrlen := by
    rw [← h, NetAddrinfo.sockaddr, List.length_take]
    exact Nat.min_le_left _ _
  have hstorage : offset + width ≤ info.addr.length := by
    rw [info.addr_length]
    exact Nat.le_trans hle (Nat.le_trans hlen info.addrlen_le)
  rw [Walk.fetch_of_le hstorage, ← h, NetAddrinfo.sockaddr, List.drop_take, List.take_take,
    Nat.min_eq_left]
  omega

end Layout

section RoundTrip

variable {v : IpVersion} {pton : Bytes → Pton v.width} {port : UInt16} {addr bytes : Bytes}

theorem numeric_width (h : Numeric v pton addr bytes) : bytes.length = v.width := by
  rcases h with ⟨-, rfl⟩ | ⟨-, hlen, -⟩
  · exact List.length_replicate
  · exact hlen

structure NetAddrinfo.IsIp (info : NetAddrinfo) (v : IpVersion) (opts : AddrHints) (port : UInt16)
    (bytes : Bytes) : Prop where
  hints : info.toAddrHints = { opts with family := v.family }
  sockaddr : info.sockaddr = sockaddrIp v port bytes

theorem createIp_run (opts : AddrHints) (port : UInt16) (h : bytes.length = v.width) :
    ∃ info, outcome (createIp v opts port bytes) = .ok (.created info) ∧
      info.IsIp v opts port bytes := by
  have hlen := sockaddrIp_length port h
  obtain ⟨info, hrun, hhints, -, hsockaddr⟩ := netAddrinfoNew_run {
    opts with family := v.family, addr := some (sockaddrIp v port bytes), addrlen := v.size } rfl
    (Nat.le_of_eq hlen.symm) (size_fits v) ([], sockaddrUn)
  refine ⟨info, ?_, hhints, ?_⟩
  · rw [outcome, createIp, Raising.bind_of_ok hrun]
    rfl
  · rw [hsockaddr]
    exact List.take_of_length_le (Nat.le_of_eq hlen)

theorem isIp_port {info : NetAddrinfo} {opts : AddrHints} (h : info.IsIp v opts port bytes)
    (hwidth : bytes.length = v.width) : outcome (portLua info) = .ok (some port.toNat) := by
  have hfamily : info.family = afInet ∨ info.family = afInet6 := by
    rw [congrArg AddrHints.family h.hints]
    cases v with
    | v4 => exact .inl rfl
    | v6 => exact .inr rfl
  have hle : 2 + 2 ≤ (sockaddrIp v port bytes).length := by
    rw [sockaddrIp_length port hwidth, IpVersion.size]
    omega
  rw [outcome, portLua, if_pos hfamily, sockaddr_part h.sockaddr hle, Walk.pure_bind,
    sockaddrIp_port, ntohs_be16]
  rfl

def ntopOf (inetNtop4 inetNtop6 : Bytes → Bytes) : IpVersion → Bytes → Bytes
  | .v4 => inetNtop4
  | .v6 => inetNtop6

theorem isIp_addr (inetNtop4 inetNtop6 : Bytes → Bytes) {info : NetAddrinfo} {opts : AddrHints}
    (h : info.IsIp v opts port bytes) (hwidth : bytes.length = v.width) :
    outcome (addrLua inetNtop4 inetNtop6 info) =
      .ok (some (ntopOf inetNtop4 inetNtop6 v bytes)) := by
  have hle : 4 + v.gap + v.width ≤ (sockaddrIp v port bytes).length := by
    rw [sockaddrIp_length port hwidth, IpVersion.size]
    omega
  have hpart := sockaddr_part h.sockaddr hle
  rw [sockaddrIp_addr hwidth] at hpart
  have hfamily : info.family = v.family := congrArg AddrHints.family h.hints
  rw [outcome, addrLua, hfamily]
  cases v with
  | v4 =>
    have hfetch : (Walk.fetch info.addr 4 4 : AddrWalk Bytes) = pure bytes := hpart
    rw [hfetch]
    rfl
  | v6 =>
    have hfetch : (Walk.fetch info.addr 8 16 : AddrWalk Bytes) = pure bytes := hpart
    rw [hfetch]
    rfl

theorem ipLua_cases (opts : AddrHints) (addr : Bytes) (port : UInt16) :
    (∃ bytes info, Numeric v pton addr bytes ∧
      outcome (ipLua v pton opts addr port) = .ok (.created info) ∧ info.IsIp v opts port bytes) ∨
    (∀ bytes, ¬ Numeric v pton addr bytes) ∧
      ((∃ msg, outcome (ipLua v pton opts addr port) = .ok (.argError msg)) ∨
        ∃ errno, outcome (ipLua v pton opts addr port) = .ok (.failed errno)) := by
  by_cases hempty : addr = []
  · obtain ⟨info, hrun, hip⟩ := createIp_run opts port (List.length_replicate (n := v.width) (a := 0))
    refine .inl ⟨_, info, .inl ⟨hempty, rfl⟩, ?_, hip⟩
    rw [ipLua, if_pos (by rw [hempty]; rfl)]
    exact hrun
  have hlen : addr.length ≠ 0 := fun h => hempty (List.length_eq_zero_iff.mp h)
  rw [ipLua, if_neg hlen]
  by_cases hnul : 0 ∈ addr
  · refine .inr ⟨?_, .inl ⟨"address must not contain NUL bytes", by rw [if_pos hnul]; rfl⟩⟩
    rintro bytes (⟨h, -⟩ | ⟨⟨-, hno⟩, -⟩)
    · exact hempty h
    · exact hno hnul
  rw [if_neg hnul]
  have hbad (h : ∀ bytes hw, pton addr ≠ .ok bytes hw) : ∀ bytes, ¬ Numeric v pton addr bytes := by
    rintro bytes (⟨h', -⟩ | ⟨-, hw, h'⟩)
    · exact hempty h'
    · exact h bytes hw h'
  cases hpton : pton addr with
  | ok bytes hwidth =>
    obtain ⟨info, hrun, hip⟩ := createIp_run opts port hwidth
    exact .inl ⟨bytes, info, .inr ⟨⟨hempty, hnul⟩, hwidth, hpton⟩, hrun, hip⟩
  | invalid => exact .inr ⟨hbad (by rw [hpton]; nofun), .inr ⟨eafnosupport, rfl⟩⟩
  | failed errno => exact .inr ⟨hbad (by rw [hpton]; nofun), .inr ⟨errno, rfl⟩⟩

theorem numeric_unique {bytes' : Bytes} (h : Numeric v pton addr bytes)
    (h' : Numeric v pton addr bytes') : bytes = bytes' := by
  rcases h with ⟨hempty, rfl⟩ | ⟨⟨hne, -⟩, hw, hpton⟩
  · rcases h' with ⟨-, rfl⟩ | ⟨⟨hne, -⟩, -⟩
    · rfl
    · exact absurd hempty hne
  · rcases h' with ⟨hempty, -⟩ | ⟨-, hw', hpton'⟩
    · exact absurd hempty hne
    · rw [hpton] at hpton'
      cases hpton'
      rfl

theorem isIp_of_created {opts : AddrHints} {info : NetAddrinfo} (h : Numeric v pton addr bytes)
    (hrun : outcome (ipLua v pton opts addr port) = .ok (.created info)) :
    info.IsIp v opts port bytes := by
  rcases ipLua_cases opts addr port with ⟨bytes', info', h', hrun', hip⟩ | ⟨hnot, -⟩
  · rw [hrun] at hrun'
    cases hrun'
    rwa [numeric_unique h h']
  · exact absurd h (hnot bytes)

theorem isIp_inj {port' : UInt16} {bytes' : Bytes} {info info' : NetAddrinfo}
    {opts opts' : AddrHints} (h : info.IsIp v opts port bytes)
    (h' : info'.IsIp v opts' port' bytes') (hwidth : bytes.length = v.width)
    (hwidth' : bytes'.length = v.width) (heq : info.sockaddr = info'.sockaddr) :
    port = port' ∧ bytes = bytes' := by
  rw [h.sockaddr, h'.sockaddr] at heq
  have hport := congrArg (fun s => ntohs ((s.drop 2).take 2)) heq
  have haddr := congrArg (fun s => (s.drop (4 + v.gap)).take v.width) heq
  simp only [sockaddrIp_port, ntohs_be16] at hport
  simp only [sockaddrIp_addr hwidth, sockaddrIp_addr hwidth'] at haddr
  exact ⟨UInt16.toNat_inj.mp hport, haddr⟩

end RoundTrip

/-- `addrinfo.inet` and `addrinfo.inet6` create an address for exactly the literals that
`inet_pton` takes, and for none; `addr()` and `port()` give back the address and the port, for
every port, and two of them never share a socket address. -/
theorem ip_address_round_trip (inetNtop4 inetNtop6 : Bytes → Bytes) (v : IpVersion)
    (pton : Bytes → Pton v.width) (opts : AddrHints) (addr addr' : Bytes) (port port' : UInt16) :
    ((∃ bytes info, Numeric v pton addr bytes ∧
        outcome (ipLua v pton opts addr port) = .ok (.created info) ∧
        outcome (portLua info) = .ok (some port.toNat) ∧
        outcome (addrLua inetNtop4 inetNtop6 info) =
          .ok (some (ntopOf inetNtop4 inetNtop6 v bytes)) ∧
        info.toAddrHints = { opts with family := v.family }) ∨
      (∀ bytes, ¬ Numeric v pton addr bytes) ∧
        ((∃ msg, outcome (ipLua v pton opts addr port) = .ok (.argError msg)) ∨
          ∃ errno, outcome (ipLua v pton opts addr port) = .ok (.failed errno))) ∧
    ∀ bytes bytes' info info', Numeric v pton addr bytes → Numeric v pton addr' bytes' →
      outcome (ipLua v pton opts addr port) = .ok (.created info) →
      outcome (ipLua v pton opts addr' port') = .ok (.created info') →
      (info.sockaddr = info'.sockaddr ↔ port = port' ∧ bytes = bytes') := by
  refine ⟨?_, fun bytes bytes' info info' hnum hnum' hrun hrun' => ?_⟩
  · rcases ipLua_cases opts addr port with ⟨bytes, info, hnum, hrun, hip⟩ | hfail
    · have hwidth := numeric_width hnum
      exact .inl ⟨bytes, info, hnum, hrun, isIp_port hip hwidth,
        isIp_addr inetNtop4 inetNtop6 hip hwidth, hip.hints⟩
    · exact .inr hfail
  · have hip := isIp_of_created hnum hrun
    have hip' := isIp_of_created hnum' hrun'
    refine ⟨isIp_inj hip hip' (numeric_width hnum) (numeric_width hnum'), ?_⟩
    rintro ⟨rfl, rfl⟩
    rw [hip.sockaddr, hip'.sockaddr]

def ptonLoopback : Bytes → Pton IpVersion.v4.width :=
  fun addr => if addr = [49] then .ok [127, 0, 0, 1] rfl else .invalid

theorem ip_address_round_trip_loopback :
    ∃ info info', outcome (inetLua ptonLoopback {} [49] 80) = .ok (.created info) ∧
      outcome (inetLua ptonLoopback {} [49] 8080) = .ok (.created info') ∧
      info.sockaddr ≠ info'.sockaddr := by
  have hnum : Numeric .v4 ptonLoopback [49] [127, 0, 0, 1] := .inr ⟨by decide, rfl, rfl⟩
  obtain ⟨-, hsame⟩ := ip_address_round_trip id id .v4 ptonLoopback {} [49] [49] 80 8080
  refine ⟨_, _, rfl, rfl, fun heq => ?_⟩
  exact absurd ((hsame _ _ _ _ hnum hnum rfl rfl).mp heq).1 (by decide)

end LuaNet.Addrinfo
