import LuaNet.Lib.Walk
import Mathlib.Data.List.Basic

/-! Unix addresses of `addrinfo.c` on Linux: how `addrinfo.unix` puts a name into a socket address
and `addr()` takes it out again. The unnamed address, pathnames and abstract names share one
buffer, and only the length and the first byte tell them apart. -/

namespace LuaNet.Addrinfo

open LuaNet.Lib

def afUnix : Int := 1
def afInet : Int := 2
def afInet6 : Int := 10

def sunPathOffset : Nat := 2

def unixPathMax : Nat := 108

def storageSize : Nat := 128

structure AddrHints where
  family : Int := 0
  socktype : Int := 0
  protocol : Int := 0
  flags : Nat := 0
deriving DecidableEq

structure AddrInfo extends AddrHints where
  addr : Option Bytes
  addrlen : Nat
  canonname : Option Bytes := none

structure NetAddrinfo extends AddrHints where
  addr : Bytes
  addrlen : Nat
  canonname : Option Bytes
  addr_length : addr.length = storageSize
  addrlen_le : addrlen ≤ storageSize

/-- What a C function of this file can go wrong with: a write outside an object, and an error
that it raises. -/
inductive AddrFault
  | overrun (offset width : Nat)
  | raised (msg : String)
deriving DecidableEq

/-- The functions read one buffer; the state is the local `struct sockaddr_un`. -/
abbrev AddrWalk := Walk Bytes AddrFault Empty

def storage (bytes : Bytes) : Bytes := (bytes ++ List.replicate storageSize 0).take storageSize

theorem storage_length (bytes : Bytes) : (storage bytes).length = storageSize := by
  rw [storage, List.length_take, List.length_append, List.length_replicate]
  exact Nat.min_eq_left (Nat.le_add_left _ _)

def oversizeText (addrlen : Nat) : String :=
  "net_addrinfo_new: ai_addrlen (" ++ toString (toSigned 32 (addrlen % 2 ^ 32)) ++
    ") exceeds sockaddr_storage (" ++ toString storageSize ++ ")"

def netAddrinfoNew (src : AddrInfo) : AddrWalk NetAddrinfo :=
  match src.addr with
  | none => Raising.raise (.raised (.raised (oversizeText src.addrlen)))
  | some addr =>
    if h : src.addrlen ≤ storageSize then do
      let bytes ← Walk.fetch addr 0 src.addrlen
      return {
        toAddrHints := src.toAddrHints
        addr := storage bytes
        addrlen := src.addrlen
        canonname := src.canonname.map cString
        addr_length := storage_length bytes
        addrlen_le := h }
    else Raising.raise (.raised (.raised (oversizeText src.addrlen)))

inductive UnixReturn
  | argError (msg : String)
  | nameTooLong
  | created (info : NetAddrinfo)

def sockaddrUn : Bytes := leBytes 2 1 ++ List.replicate unixPathMax 0

def storeSunPath (offset : Nat) (src : Bytes) : AddrWalk Unit :=
  Walk.store (.overrun offset src.length) (sunPathOffset + offset) src

def firstByte (pathname : Bytes) : AddrWalk Bytes :=
  if pathname.length = 0 then pure [] else Walk.fetch pathname 0 1

def endSunPath (len : Nat) (first : Bytes) : AddrWalk Nat :=
  -- a NUL at the end would be one more byte of an abstract name
  if len = 0 ∨ first = [0] then pure (sunPathOffset + len)
  else do
    storeSunPath len [0]
    return sunPathOffset + len + 1

def createUnix (opts : AddrHints) (addrlen : Nat) : AddrWalk UnixReturn := do
  let saddr ← Raising.state
  let info ← netAddrinfoNew { opts with family := afUnix, addr := some saddr.2, addrlen := addrlen }
  return .created info

def unixLua (opts : AddrHints) (pathname : Bytes) : AddrWalk UnixReturn := do
  let len := pathname.length
  let first ← firstByte pathname
  if len ≠ 0 ∧ first ≠ [0] ∧ 0 ∈ pathname then
    return .argError "pathname must not contain NUL bytes"
  if (if len ≠ 0 ∧ first = [0] then unixPathMax < len else unixPathMax ≤ len) then
    return .nameTooLong
  let bytes ← Walk.fetch pathname 0 len
  storeSunPath 0 bytes
  let addrlen ← endSunPath len first
  createUnix opts addrlen

def NetAddrinfo.sunPath (info : NetAddrinfo) : Bytes :=
  info.addr.take (min info.addrlen (sunPathOffset + unixPathMax))

def addrLuaUnix (info : NetAddrinfo) : AddrWalk Bytes :=
  if info.addrlen ≤ sunPathOffset then pure []
  else do
    let len := info.addrlen - sunPathOffset
    let len := if unixPathMax < len then unixPathMax else len
    let first ← Walk.fetch info.sunPath sunPathOffset 1
    let path ← Walk.fetch info.sunPath sunPathOffset len
    if first = [0] then return path
    else return cString path

/-- `addr_lua`, where `inetNtop4` and `inetNtop6` are `inet_ntop` for the two families. -/
def addrLua (inetNtop4 inetNtop6 : Bytes → Bytes) (info : NetAddrinfo) :
    AddrWalk (Option Bytes) := do
  if info.family = afInet then
    let addr ← Walk.fetch info.addr 4 4
    return some (inetNtop4 addr)
  else if info.family = afInet6 then
    let addr ← Walk.fetch info.addr 8 16
    return some (inetNtop6 addr)
  else if info.family = afUnix then
    let name ← addrLuaUnix info
    return some name
  else return none

def outcome {α : Type} (m : AddrWalk α) : Except (Halt AddrFault) α := (m ([], sockaddrUn)).1

def NetAddrinfo.sockaddr (info : NetAddrinfo) : Bytes := info.addr.take info.addrlen

/-- The unnamed address, the pathnames that fit with their terminator, the abstract names that
fit. -/
inductive UnixName : Bytes → Prop
  | unnamed : UnixName []
  | pathname {p : Bytes} (hne : p ≠ []) (hnul : (0 : UInt8) ∉ p) (hfits : p.length + 1 ≤ 108) :
    UnixName p
  | abstractName {p : Bytes} (hfits : (0 :: p).length ≤ 108) : UnixName (0 :: p)

/-! Taking a name out of an address. -/

section Read

def pathName (path : Bytes) : Bytes := if path.take 1 = [0] then path else cString path

theorem NetAddrinfo.sunPath_length (info : NetAddrinfo) :
    info.sunPath.length = min info.addrlen (sunPathOffset + unixPathMax) := by
  rw [NetAddrinfo.sunPath, List.length_take, info.addr_length]
  apply Nat.min_eq_left
  exact Nat.le_trans (Nat.min_le_left _ _) info.addrlen_le

theorem NetAddrinfo.sunPath_sockaddr (info : NetAddrinfo) :
    info.sunPath = info.sockaddr.take (sunPathOffset + unixPathMax) := by
  rw [NetAddrinfo.sunPath, NetAddrinfo.sockaddr, List.take_take, Nat.min_comm]

theorem addrLuaUnix_eq (info : NetAddrinfo) :
    addrLuaUnix info = pure (pathName (info.sunPath.drop sunPathOffset)) := by
  have hlen := info.sunPath_length
  by_cases hshort : info.addrlen ≤ sunPathOffset
  · rw [addrLuaUnix, if_pos hshort, List.drop_eq_nil_of_le]
    · rfl
    · rw [hlen]
      exact Nat.le_trans (Nat.min_le_left _ _) hshort
  · rw [addrLuaUnix, if_neg hshort]
    have hlong : (if unixPathMax < info.addrlen - sunPathOffset then unixPathMax
        else info.addrlen - sunPathOffset) = info.sunPath.length - sunPathOffset := by
      rw [hlen]
      split <;> omega
    have hall : sunPathOffset + (info.sunPath.length - sunPathOffset) ≤ info.sunPath.length := by
      rw [hlen, sunPathOffset, unixPathMax] at *
      omega
    have hfirst : sunPathOffset + 1 ≤ info.sunPath.length := by
      rw [hlen, sunPathOffset, unixPathMax] at *
      omega
    simp only [hlong, Walk.fetch_of_le hall, Walk.fetch_of_le hfirst, Walk.pure_bind]
    have htake : (info.sunPath.drop sunPathOffset).take (info.sunPath.length - sunPathOffset) =
        info.sunPath.drop sunPathOffset :=
      List.take_of_length_le (Nat.le_of_eq List.length_drop)
    rw [htake, pathName]
    split <;> rfl

theorem addrLua_unix (inetNtop4 inetNtop6 : Bytes → Bytes) {info : NetAddrinfo}
    (h : info.family = afUnix) :
    outcome (addrLua inetNtop4 inetNtop6 info) =
      .ok (some (pathName (info.sunPath.drop sunPathOffset))) := by
  rw [outcome, addrLua, h, addrLuaUnix_eq]
  rfl

end Read

/-! Putting a name into an address. -/

section Write

theorem family_length : (leBytes 2 1).length = sunPathOffset := leBytes_length 2 1

def sockaddrOf (p : Bytes) : Bytes := leBytes 2 1 ++ p ++ List.replicate (unixPathMax - p.length) 0

theorem sockaddrOf_length {p : Bytes} (h : p.length ≤ unixPathMax) :
    (sockaddrOf p).length = sunPathOffset + unixPathMax := by
  rw [sockaddrOf, List.length_append, List.length_append, leBytes_length, List.length_replicate,
    sunPathOffset]
  omega

theorem storeSunPath_name {p : Bytes} (h : p.length ≤ unixPathMax) :
    storeSunPath 0 p ([], sockaddrUn) = (.ok (), ([], sockaddrOf p)) := by
  have hlen : sockaddrUn.length = sunPathOffset + unixPathMax := by
    rw [sockaddrUn, List.length_append, leBytes_length, List.length_replicate]
    rfl
  rw [storeSunPath, Walk.store_of_le (by rw [hlen]; omega)]
  have htake : sockaddrUn.take (sunPathOffset + 0) = leBytes 2 1 :=
    List.take_left' family_length
  have hdrop : sockaddrUn.drop (sunPathOffset + 0 + p.length) =
      List.replicate (unixPathMax - p.length) 0 := by
    rw [sockaddrUn, Nat.add_zero, ← List.drop_drop, List.drop_left' family_length,
      List.drop_replicate]
  rw [htake, hdrop]
  rfl

theorem sockaddrOf_terminated {p : Bytes} (h : p.length < unixPathMax) :
    sockaddrOf p =
      leBytes 2 1 ++ (p ++ [0]) ++ List.replicate (unixPathMax - p.length - 1) 0 := by
  have hzeros : List.replicate (unixPathMax - p.length) (0 : UInt8) =
      0 :: List.replicate (unixPathMax - p.length - 1) 0 := by
    rw [← List.replicate_succ]
    congr 1
    omega
  rw [sockaddrOf, hzeros, List.append_assoc, List.append_assoc, List.append_assoc]
  rfl

theorem storeSunPath_end {p : Bytes} (h : p.length < unixPathMax) :
    storeSunPath p.length [0] ([], sockaddrOf p) = (.ok (), ([], sockaddrOf p)) := by
  have hle : sunPathOffset + p.length + [(0 : UInt8)].length ≤ (sockaddrOf p).length := by
    rw [sockaddrOf_length (Nat.le_of_lt h), List.length_singleton]
    omega
  rw [storeSunPath, Walk.store_of_le hle]
  have hprefix : (leBytes 2 1 ++ p).length = sunPathOffset + p.length := by
    rw [List.length_append, leBytes_length]
    rfl
  have htake : (sockaddrOf p).take (sunPathOffset + p.length) = leBytes 2 1 ++ p :=
    List.take_left' hprefix
  have hdrop : (sockaddrOf p).drop (sunPathOffset + p.length + [(0 : UInt8)].length) =
      List.replicate (unixPathMax - p.length - 1) 0 := by
    rw [sockaddrOf, ← List.drop_drop, List.drop_left' hprefix, List.drop_replicate]
    rfl
  rw [htake, hdrop, sockaddrOf_terminated h, List.append_assoc _ p]

theorem storage_take {bytes : Bytes} {n : Nat} (hn : n ≤ bytes.length) (hfits : n ≤ storageSize) :
    (storage bytes).take n = bytes.take n := by
  rw [storage, List.take_take, Nat.min_eq_left hfits, List.take_append_of_le_length hn]

theorem netAddrinfoNew_run (src : AddrInfo) {addr : Bytes} (haddr : src.addr = some addr)
    (hlen : src.addrlen ≤ addr.length) (hfits : src.addrlen ≤ storageSize)
    (s : List Empty × Bytes) :
    ∃ info, netAddrinfoNew src s = (.ok info, s) ∧ info.toAddrHints = src.toAddrHints ∧
      info.addrlen = src.addrlen ∧ info.sockaddr = addr.take src.addrlen := by
  have hfetch : 0 + src.addrlen ≤ addr.length := by rwa [Nat.zero_add]
  simp only [netAddrinfoNew, haddr, dif_pos hfits, Walk.fetch_of_le hfetch, Walk.pure_bind,
    List.drop_zero]
  refine ⟨_, rfl, rfl, rfl, ?_⟩
  have htake : src.addrlen ≤ (addr.take src.addrlen).length := by
    rw [List.length_take]
    exact Nat.le_min.mpr ⟨Nat.le_refl _, hlen⟩
  exact (storage_take htake hfits).trans (by rw [List.take_take, Nat.min_self])

end Write

/-! The round trip. -/

section RoundTrip

variable (opts : AddrHints) {p : Bytes}

/-- What `unix_lua` makes of an accepted name: the name exactly, or with a terminator. -/
structure NetAddrinfo.Holds (opts : AddrHints) (body : Bytes) (info : NetAddrinfo) : Prop where
  hints : info.toAddrHints = { opts with family := afUnix }
  sockaddr : info.sockaddr = leBytes 2 1 ++ body

theorem NetAddrinfo.Holds.path {opts : AddrHints} {body : Bytes} {info : NetAddrinfo}
    (h : info.Holds opts body) (hfits : body.length ≤ unixPathMax) :
    info.sunPath.drop sunPathOffset = body := by
  rw [info.sunPath_sockaddr, h.sockaddr, List.take_of_length_le, List.drop_left' family_length]
  rw [List.length_append, family_length]
  exact Nat.add_le_add_left hfits _

theorem netAddrinfoNew_holds {body : Bytes} (rest : Bytes) (hfits : body.length ≤ unixPathMax)
    (s : List Empty × Bytes) :
    ∃ info, netAddrinfoNew { opts with
        family := afUnix, addr := some (leBytes 2 1 ++ body ++ rest),
        addrlen := sunPathOffset + body.length } s = (.ok info, s) ∧ info.Holds opts body := by
  have hbody : (leBytes 2 1 ++ body).length = sunPathOffset + body.length := by
    rw [List.length_append, family_length]
  have hlen : sunPathOffset + body.length ≤ (leBytes 2 1 ++ body ++ rest).length := by
    rw [List.length_append, hbody]
    exact Nat.le_add_right _ _
  have hstorage : sunPathOffset + body.length ≤ storageSize := by
    rw [unixPathMax] at hfits
    rw [sunPathOffset, storageSize]
    omega
  obtain ⟨info, hrun, hhints, -, hsockaddr⟩ := netAddrinfoNew_run { opts with
    family := afUnix, addr := some (leBytes 2 1 ++ body ++ rest),
    addrlen := sunPathOffset + body.length } rfl hlen hstorage s
  exact ⟨info, hrun, hhints, by rw [hsockaddr, ← hbody, List.take_left]⟩

theorem firstByte_eq (p : Bytes) : firstByte p = pure (p.take 1) := by
  cases p with
  | nil => rfl
  | cons b rest =>
    have hle : 0 + 1 ≤ (b :: rest).length := by
      rw [List.length_cons]
      omega
    exact Walk.fetch_of_le hle

theorem fetch_all (p : Bytes) : (Walk.fetch p 0 p.length : AddrWalk Bytes) = pure p := by
  rw [Walk.fetch_of_le (Nat.le_of_eq (Nat.zero_add _)), List.drop_zero, List.take_length]

theorem unixLua_accepted {body : Bytes} (rest : Bytes)
    (hnul : ¬ (p.length ≠ 0 ∧ p.take 1 ≠ [0] ∧ 0 ∈ p))
    (hlong : ¬ if p.length ≠ 0 ∧ p.take 1 = [0] then unixPathMax < p.length
      else unixPathMax ≤ p.length)
    (hend : endSunPath p.length (p.take 1) ([], sockaddrOf p) =
      (.ok (sunPathOffset + body.length), ([], leBytes 2 1 ++ body ++ rest)))
    (hp : p.length ≤ unixPathMax) (hbody : body.length ≤ unixPathMax) :
    ∃ info, outcome (unixLua opts p) = .ok (.created info) ∧ info.Holds opts body := by
  obtain ⟨info, hrun, hholds⟩ := netAddrinfoNew_holds opts rest hbody
    ([], leBytes 2 1 ++ body ++ rest)
  refine ⟨info, ?_, hholds⟩
  rw [outcome, unixLua]
  simp only [firstByte_eq, fetch_all, Walk.pure_bind, if_neg hnul, if_neg hlong]
  refine (congrArg Prod.fst (Raising.bind_of_ok (storeSunPath_name hp))).trans ?_
  refine (congrArg Prod.fst (Raising.bind_of_ok hend)).trans ?_
  exact congrArg Prod.fst (Raising.bind_of_ok hrun)

theorem unixLua_unterminated (hfirst : p.length = 0 ∨ p.take 1 = [0])
    (hfits : p.length ≤ unixPathMax) :
    ∃ info, outcome (unixLua opts p) = .ok (.created info) ∧ info.Holds opts p := by
  apply unixLua_accepted opts (List.replicate (unixPathMax - p.length) 0)
  · rintro ⟨hlen, htake, -⟩
    exact hfirst.elim hlen htake
  · split
    · exact Nat.not_lt.mpr hfits
    · next h =>
      -- only the empty name is neither abstract nor a pathname
      rcases hfirst with hempty | htake
      · rw [hempty, unixPathMax]
        omega
      · have hlen : p.length ≠ 0 := by
          rintro hempty
          rw [List.length_eq_zero_iff.mp hempty] at htake
          cases htake
        exact absurd ⟨hlen, htake⟩ h
  · rw [endSunPath, if_pos hfirst]
    rfl
  · exact hfits
  · exact hfits

theorem unixLua_pathname (hne : p ≠ []) (hnul : (0 : UInt8) ∉ p) (hfits : p.length < unixPathMax) :
    ∃ info, outcome (unixLua opts p) = .ok (.created info) ∧ info.Holds opts (p ++ [0]) := by
  have hlen : p.length ≠ 0 := fun h => hne (List.length_eq_zero_iff.mp h)
  have htake : p.take 1 ≠ [0] := fun h =>
    hnul (List.mem_of_mem_take (by rw [h]; exact List.mem_singleton_self 0))
  apply unixLua_accepted opts (List.replicate (unixPathMax - p.length - 1) 0)
  · exact fun h => hnul h.2.2
  · rw [if_neg fun h => htake h.2]
    exact Nat.not_le.mpr hfits
  · rw [endSunPath, if_neg (not_or.mpr ⟨hlen, htake⟩),
      Raising.bind_of_ok (storeSunPath_end hfits), List.length_append, sockaddrOf_terminated hfits]
    rfl
  · exact Nat.le_of_lt hfits
  · rw [List.length_append]
    exact hfits

theorem unixLua_argError (hfirst : p.take 1 ≠ [0]) (hnul : (0 : UInt8) ∈ p) :
    outcome (unixLua opts p) = .ok (.argError "pathname must not contain NUL bytes") := by
  have hlen : p.length ≠ 0 := fun h => by
    rw [List.length_eq_zero_iff.mp h] at hnul
    exact List.not_mem_nil hnul
  have hbad : p.length ≠ 0 ∧ p.take 1 ≠ [0] ∧ 0 ∈ p := ⟨hlen, hfirst, hnul⟩
  rw [outcome, unixLua]
  simp only [firstByte_eq, Walk.pure_bind, if_pos hbad]
  rfl

theorem unixLua_tooLong (hnul : ¬ (p.length ≠ 0 ∧ p.take 1 ≠ [0] ∧ 0 ∈ p))
    (hlong : if p.length ≠ 0 ∧ p.take 1 = [0] then unixPathMax < p.length
      else unixPathMax ≤ p.length) :
    outcome (unixLua opts p) = .ok .nameTooLong := by
  rw [outcome, unixLua]
  simp only [firstByte_eq, Walk.pure_bind, if_neg hnul, if_pos hlong]
  rfl

theorem unixLua_cases (p : Bytes) :
    UnixName p ∧ (∃ info body, outcome (unixLua opts p) = .ok (.created info) ∧
      info.Holds opts body ∧ body.length ≤ unixPathMax ∧ pathName body = p) ∨
    ¬ UnixName p ∧ ((∃ msg, outcome (unixLua opts p) = .ok (.argError msg)) ∨
      outcome (unixLua opts p) = .ok .nameTooLong) := by
  rcases p with _ | ⟨b, rest⟩
  · obtain ⟨info, hrun, hholds⟩ := unixLua_unterminated opts (p := []) (.inl rfl) (Nat.zero_le _)
    exact .inl ⟨.unnamed, info, [], hrun, hholds, Nat.zero_le _, rfl⟩
  by_cases hb : b = 0
  · subst hb
    by_cases hfits : (0 :: rest).length ≤ unixPathMax
    · obtain ⟨info, hrun, hholds⟩ := unixLua_unterminated opts (p := 0 :: rest) (.inr rfl) hfits
      exact .inl ⟨.abstractName hfits, info, _, hrun, hholds, hfits, if_pos rfl⟩
    · refine .inr ⟨?_, .inr (unixLua_tooLong opts (fun h => h.2.1 rfl) ?_)⟩
      · rintro (_ | ⟨-, hnul, -⟩ | hle)
        · exact hnul List.mem_cons_self
        · exact hfits hle
      · rw [if_pos ⟨Nat.succ_ne_zero _, rfl⟩]
        exact Nat.lt_of_not_le hfits
  have hfirst : (b :: rest).take 1 ≠ [0] := fun h => hb (List.cons.inj h).1
  by_cases hnul : (0 : UInt8) ∈ b :: rest
  · refine .inr ⟨?_, .inl ⟨_, unixLua_argError opts hfirst hnul⟩⟩
    rintro (_ | ⟨-, hno, -⟩ | -)
    · exact hno hnul
    · exact hb rfl
  by_cases hfits : (b :: rest).length < unixPathMax
  · obtain ⟨info, hrun, hholds⟩ := unixLua_pathname opts (List.cons_ne_nil b rest) hnul hfits
    refine .inl ⟨.pathname (List.cons_ne_nil b rest) hnul hfits, info, _, hrun, hholds, ?_, ?_⟩
    · rw [List.length_append]
      exact hfits
    · rw [pathName, if_neg, cString_append hnul]
      exact fun h => hb (List.cons.inj h).1
  · refine .inr ⟨?_, .inr (unixLua_tooLong opts (fun h => hnul h.2.2) ?_)⟩
    · rintro (_ | ⟨-, -, hle⟩ | -)
      · exact hfits hle
      · exact hb rfl
    · rw [if_neg fun h => hfirst h.2]
      exact Nat.le_of_not_lt hfits

theorem unixLua_name {info : NetAddrinfo} (h : outcome (unixLua opts p) = .ok (.created info)) :
    info.family = afUnix ∧
      pathName ((info.sockaddr.take (sunPathOffset + unixPathMax)).drop sunPathOffset) = p := by
  rcases unixLua_cases opts p with ⟨-, info', body, hrun, hholds, hfits, hpath⟩ | ⟨-, hfail⟩
  · rw [hrun] at h
    cases h
    refine ⟨congrArg AddrHints.family hholds.hints, ?_⟩
    rw [← info.sunPath_sockaddr, hholds.path hfits, hpath]
  · rcases hfail with ⟨msg, hfail⟩ | hfail
    · rw [hfail] at h
      cases h
    · rw [hfail] at h
      cases h

end RoundTrip

/-- `addrinfo.unix` creates an address for exactly the names of the three forms, and `addr()` of
it is the name; two names never share an address; and `addr()` reads nothing outside `sun_path`
and the length of the address, of whatever `net_addrinfo_new` has made. -/
theorem unix_address_round_trip (inetNtop4 inetNtop6 : Bytes → Bytes) (opts : AddrHints)
    (p q : Bytes) :
    (UnixName p ∧ (∃ info, outcome (unixLua opts p) = .ok (.created info) ∧
        outcome (addrLua inetNtop4 inetNtop6 info) = .ok (some p)) ∨
      ¬ UnixName p ∧ ((∃ msg, outcome (unixLua opts p) = .ok (.argError msg)) ∨
        outcome (unixLua opts p) = .ok .nameTooLong)) ∧
    (∀ info info', outcome (unixLua opts p) = .ok (.created info) →
      outcome (unixLua opts q) = .ok (.created info') → p ≠ q → info.sockaddr ≠ info'.sockaddr) ∧
    ∀ src s info t, netAddrinfoNew src s = (.ok info, t) → info.family = afUnix →
      ∃ name, outcome (addrLua inetNtop4 inetNtop6 info) = .ok (some name) := by
  refine ⟨?_, fun info info' h h' hne heq => hne ?_, fun src s info t _ hfamily => ?_⟩
  · rcases unixLua_cases opts p with ⟨haccept, info, body, hrun, -⟩ | hreject
    · obtain ⟨hfamily, hpath⟩ := unixLua_name opts hrun
      refine .inl ⟨haccept, info, hrun, ?_⟩
      rw [addrLua_unix inetNtop4 inetNtop6 hfamily, info.sunPath_sockaddr, hpath]
    · exact .inr hreject
  · rw [← (unixLua_name opts h).2, ← (unixLua_name opts h').2, heq]
  · exact ⟨_, addrLua_unix inetNtop4 inetNtop6 hfamily⟩

theorem unix_address_round_trip_names :
    (∃ info info', outcome (unixLua {} [97]) = .ok (.created info) ∧
      outcome (unixLua {} [0, 97]) = .ok (.created info') ∧ info.sockaddr ≠ info'.sockaddr) ∧
    ∃ info t name, netAddrinfoNew { family := afUnix, addr := some [1, 0], addrlen := 2 } ([], []) =
      (.ok info, t) ∧ outcome (addrLua id id info) = .ok (some name) := by
  obtain ⟨-, hdistinct, hread⟩ := unix_address_round_trip id id {} [97] [0, 97]
  obtain ⟨info, hinfo⟩ : ∃ info, outcome (unixLua {} [97]) = .ok (.created info) := ⟨_, rfl⟩
  obtain ⟨info', hinfo'⟩ : ∃ info, outcome (unixLua {} [0, 97]) = .ok (.created info) := ⟨_, rfl⟩
  refine ⟨⟨info, info', hinfo, hinfo', hdistinct info info' hinfo hinfo' (by decide)⟩, ?_⟩
  obtain ⟨name, hname⟩ := hread { family := afUnix, addr := some [1, 0], addrlen := 2 } ([], [])
    _ _ rfl rfl
  exact ⟨_, _, name, rfl, hname⟩

end LuaNet.Addrinfo
