import LuaNet.Lib.SizeT
import LuaNet.Lib.Walk
import LuaNet.Tls.ServerSelect

/-! The server name that `client_hello_cb` parses from the raw extension. The bytes of the
extension are read one field at a time and copied to a buffer of fixed size; a read outside the
one or a write outside the other stops the parser. -/

namespace LuaNet.Tls

open LuaNet.Lib

def TLSEXT_NAMETYPE_host_name : Nat := 0

def TLSEXT_MAXLEN_host_name : Nat := 255

inductive HelloAlert
  | internalError
  | decodeError
  | unrecognizedName
deriving DecidableEq

inductive NameFault
  | overrun (offset width : Nat)
  | unterminated
deriving DecidableEq

abbrev NameWalk := Walk Bytes NameFault Empty

inductive HelloName
  | fatal (al : HelloAlert)
  | named (name : Bytes)
deriving DecidableEq

def byteAt (ext : Bytes) (i : Nat) : NameWalk UInt8 := do
  let b ← Walk.fetch ext i 1
  return b.headD 0

def u16At (ext : Bytes) (i : Nat) : NameWalk Nat := do
  let hi ← byteAt ext i
  let lo ← byteAt ext (i + 1)
  return be16Nat hi lo

def storeName (offset : Nat) (src : Bytes) : NameWalk Unit :=
  Walk.store (.overrun offset src.length) offset src

def nameString : NameWalk Bytes := fun s =>
  if 0 ∈ s.2 then (.ok (cString s.2), s) else (.error (.raised .unterminated), s)

def copyName (bytes : Bytes) (namelen : Nat) : NameWalk Bytes := do
  storeName 0 bytes
  storeName namelen [0]
  nameString

def parseServerName (ext : SizedBytes) : NameWalk HelloName := do
  let extlen := ext.bytes.length
  if extlen < 5 then return .fatal .decodeError
  let listlen ← u16At ext.bytes 0
  if listlen ≠ sizeSub extlen 2 then return .fatal .decodeError
  let nametype ← byteAt ext.bytes 2
  if nametype.toNat ≠ TLSEXT_NAMETYPE_host_name then return .fatal .decodeError
  let namelen ← u16At ext.bytes 3
  if namelen ≠ sizeSub extlen 5 then return .fatal .decodeError
  if namelen = 0 ∨ TLSEXT_MAXLEN_host_name < namelen then return .fatal .unrecognizedName
  let bytes ← Walk.fetch ext.bytes 5 namelen
  if 0 ∈ bytes then return .fatal .unrecognizedName
  let name ← copyName bytes namelen
  return .named name

def emptyName : Bytes := List.replicate (TLSEXT_MAXLEN_host_name + 1) 0

structure HelloReturn where
  step : SniStep
  al : Option HelloAlert := none
  name : Option Bytes := none

def SniConn.nameReturn (isIp4 isIp6 : Bytes → Bool) (conn : SniConn) : HelloName → HelloReturn
  | .fatal al => { step := conn.answer false, al := some al }
  | .named name =>
    if isIp4 name || isIp6 name then { step := conn.answer true }
    else { step := (conn, some .entering, []), name := some name }

/-- `client_hello_cb` on the bytes of the extension, up to its protected call; `ext` is what
`SSL_client_hello_get0_ext` finds, and the two tests are `inet_pton` for the two families. -/
def clientHelloBytes (isIp4 isIp6 : Bytes → Bool) (servers : ParentId → TlsServer)
    (conn : SniConn) (ext : Option SizedBytes) : Except (Halt NameFault) HelloReturn :=
  if !conn.appData then .ok { step := conn.answer false, al := some .internalError }
  else
    match conn.parent with
    | none => .ok { step := conn.answer false, al := some .internalError }
    | some p =>
      if !(servers p).sniCallback then .ok { step := conn.answer true }
      else if conn.sniDone then .ok { step := conn.answer true }
      else
        let conn := { conn with sniDone := true }
        match ext with
        | none => .ok { step := conn.answer true }
        | some ext => (parseServerName ext ([], emptyName)).1.map (conn.nameReturn isIp4 isIp6)

/-- A body of the form `u16(extlen - 2) 0x00 u16(n) name` with `n = extlen - 5`. -/
structure HostNameExt (ext name : Bytes) : Prop where
  body : ext = be16 (ext.length - 2) ++ [0] ++ be16 (ext.length - 5) ++ name
  nonempty : 1 ≤ ext.length - 5
  short : ext.length - 5 ≤ 255
  noNul : (0 : UInt8) ∉ name

/-! The name buffer. -/

theorem copyName_eq {name buffer : Bytes} (hroom : name.length < buffer.length)
    (hnul : (0 : UInt8) ∉ name) (vs : List Empty) :
    ∃ buffer', copyName name name.length (vs, buffer) = (.ok name, (vs, buffer')) := by
  have hrest : (buffer.drop name.length).length = (buffer.length - name.length - 1) + 1 := by
    rw [List.length_drop]
    omega
  obtain ⟨b, rest, hdrop⟩ : ∃ b rest, buffer.drop name.length = b :: rest :=
    List.exists_cons_of_length_eq_add_one hrest
  have hfirst : storeName 0 name (vs, buffer) = (.ok (), (vs, name ++ b :: rest)) := by
    rw [storeName, Walk.store_of_le (by simp only [Nat.zero_add]; exact Nat.le_of_lt hroom)]
    simp only [List.take_zero, List.nil_append, Nat.zero_add, hdrop]
  have hsecond : storeName name.length [0] (vs, name ++ b :: rest) =
      (.ok (), (vs, name ++ 0 :: rest)) := by
    rw [storeName, Walk.store_of_le (by simp)]
    simp
  have hthird : nameString (vs, name ++ 0 :: rest) = (.ok name, (vs, name ++ 0 :: rest)) := by
    rw [nameString, if_pos (by simp), cString_append hnul]
  refine ⟨name ++ 0 :: rest, ?_⟩
  rw [copyName, Raising.bind_of_ok hfirst, Raising.bind_of_ok hsecond, hthird]

/-! The parser. -/

section Parser

theorem byteAt_of_getElem? {ext : Bytes} {i : Nat} {b : UInt8} (h : ext[i]? = some b) :
    byteAt ext i = pure b := by
  obtain ⟨hi, rfl⟩ := List.getElem?_eq_some_iff.mp h
  rw [byteAt, Walk.fetch_of_le hi, Walk.pure_bind, List.drop_eq_getElem_cons hi]
  rfl

theorem u16At_of_getElem? {ext : Bytes} {i : Nat} {hi lo : UInt8} (h : ext[i]? = some hi)
    (h' : ext[i + 1]? = some lo) : u16At ext i = pure (be16Nat hi lo) := by
  rw [u16At, byteAt_of_getElem? h, byteAt_of_getElem? h']
  rfl

def headVerdict (a b t c d : UInt8) (name : Bytes) : HelloName :=
  if be16Nat a b ≠ name.length + 3 then .fatal .decodeError
  else if t.toNat ≠ TLSEXT_NAMETYPE_host_name then .fatal .decodeError
  else if be16Nat c d ≠ name.length then .fatal .decodeError
  else if name.length = 0 ∨ TLSEXT_MAXLEN_host_name < name.length then .fatal .unrecognizedName
  else if 0 ∈ name then .fatal .unrecognizedName
  else .named name

theorem parseServerName_short {ext : SizedBytes} (h : ext.bytes.length < 5)
    (s : List Empty × Bytes) : parseServerName ext s = (.ok (.fatal .decodeError), s) := by
  simp only [parseServerName, h, if_true, Raising.pure_run]

theorem parseServerName_long {ext : SizedBytes} {a b t c d : UInt8} {name : Bytes}
    (h : ext.bytes = a :: b :: t :: c :: d :: name) :
    (parseServerName ext ([], emptyName)).1 = .ok (headVerdict a b t c d name) := by
  have hlen : ext.bytes.length = name.length + 5 := by rw [h]; rfl
  have hfits := ext.fits
  have hlist : sizeSub ext.bytes.length 2 = name.length + 3 := by
    rw [sizeSub_eq hfits (by omega)]
    omega
  have hname : sizeSub ext.bytes.length 5 = name.length := by
    rw [sizeSub_eq hfits (by omega)]
    omega
  have hfirst : u16At ext.bytes 0 = pure (be16Nat a b) :=
    u16At_of_getElem? (by rw [h]; rfl) (by rw [h]; rfl)
  have htype : byteAt ext.bytes 2 = pure t := byteAt_of_getElem? (by rw [h]; rfl)
  have hsecond : u16At ext.bytes 3 = pure (be16Nat c d) :=
    u16At_of_getElem? (by rw [h]; rfl) (by rw [h]; rfl)
  have hshort : ¬ ext.bytes.length < 5 := by omega
  simp only [parseServerName, hshort, if_false, hfirst, htype, hsecond, Walk.pure_bind, hlist,
    hname]
  have hbytes : (Walk.fetch ext.bytes 5 name.length : NameWalk Bytes) = pure name := by
    rw [Walk.fetch_of_le (by omega), h]
    simp only [List.drop_succ_cons, List.drop_zero, List.take_length]
  unfold headVerdict
  by_cases hab : be16Nat a b ≠ name.length + 3
  · rw [if_pos hab, if_pos hab]
    rfl
  rw [if_neg hab, if_neg hab]
  by_cases ht : t.toNat ≠ TLSEXT_NAMETYPE_host_name
  · rw [if_pos ht, if_pos ht]
    rfl
  rw [if_neg ht, if_neg ht]
  by_cases hcd : be16Nat c d ≠ name.length
  · rw [if_pos hcd, if_pos hcd]
    rfl
  rw [if_neg hcd, if_neg hcd]
  -- from here on the length field and the length of what is left are one number
  rw [not_not.mp hcd, hbytes]
  by_cases hrange : name.length = 0 ∨ TLSEXT_MAXLEN_host_name < name.length
  · rw [if_pos hrange, if_pos hrange]
    rfl
  rw [if_neg hrange, if_neg hrange, Walk.pure_bind]
  by_cases hnul : (0 : UInt8) ∈ name
  · rw [if_pos hnul, if_pos hnul]
    rfl
  rw [if_neg hnul, if_neg hnul]
  have hroom : name.length < emptyName.length := by
    rw [emptyName, List.length_replicate]
    omega
  obtain ⟨buffer, hcopy⟩ := copyName_eq hroom hnul ([] : List Empty)
  exact congrArg Prod.fst (Raising.bind_of_ok hcopy)

theorem hostNameExt_cons {a b t c d : UInt8} {rest name : Bytes} :
    HostNameExt (a :: b :: t :: c :: d :: rest) name ↔
      be16Nat a b = rest.length + 3 ∧ t.toNat = TLSEXT_NAMETYPE_host_name ∧
        be16Nat c d = rest.length ∧ rest.length ≠ 0 ∧ rest.length ≤ TLSEXT_MAXLEN_host_name ∧
        (0 : UInt8) ∉ rest ∧ rest = name := by
  have hlist : (a :: b :: t :: c :: d :: rest).length - 2 = rest.length + 3 := by
    simp only [List.length_cons]
    omega
  have hname : (a :: b :: t :: c :: d :: rest).length - 5 = rest.length := by
    simp only [List.length_cons]
    omega
  have hzero : t.toNat = TLSEXT_NAMETYPE_host_name ↔ t = 0 :=
    ⟨fun h => UInt8.toNat_inj.mp h, fun h => congrArg UInt8.toNat h⟩
  constructor
  · rintro ⟨hbody, hpos, hshort, hnul⟩
    rw [hlist, hname] at hbody
    rw [hname] at hpos hshort
    rw [be16Nat_eq_iff (by omega), be16Nat_eq_iff (by omega), hzero]
    rw [be16, be16] at hbody ⊢
    simp only [List.cons_append, List.nil_append, List.cons.injEq] at hbody
    obtain ⟨rfl, rfl, rfl, rfl, rfl, rfl⟩ := hbody
    exact ⟨rfl, rfl, rfl, Nat.ne_of_gt hpos, hshort, hnul, rfl⟩
  · rintro ⟨hab, ht, hcd, hpos, hshort, hnul, rfl⟩
    rw [TLSEXT_MAXLEN_host_name] at hshort
    rw [be16Nat_eq_iff (by omega)] at hab hcd
    refine ⟨?_, ?_, ?_, hnul⟩
    · rw [hlist, hname, ← hab, ← hcd, hzero.mp ht]
      rfl
    · rw [hname]
      exact Nat.pos_of_ne_zero hpos
    · rw [hname]
      exact hshort

theorem headVerdict_named {a b t c d : UInt8} {rest name : Bytes} :
    headVerdict a b t c d rest = .named name ↔
      HostNameExt (a :: b :: t :: c :: d :: rest) name := by
  rw [hostNameExt_cons]
  unfold headVerdict
  split_ifs with hab ht hcd hrange hnul
  · exact ⟨nofun, fun h => absurd h.1 hab⟩
  · exact ⟨nofun, fun h => absurd h.2.1 ht⟩
  · exact ⟨nofun, fun h => absurd h.2.2.1 hcd⟩
  · refine ⟨nofun, fun h => ?_⟩
    rcases hrange with hzero | hlong
    · exact absurd hzero h.2.2.2.1
    · exact absurd h.2.2.2.2.1 (Nat.not_le.mpr hlong)
  · exact ⟨nofun, fun h => absurd hnul h.2.2.2.2.2.1⟩
  · rw [not_or, Nat.not_lt] at hrange
    rw [not_not] at hab ht hcd
    simp only [HelloName.named.injEq, hab, ht, hcd, hrange, hnul, true_and, ne_eq,
      not_false_eq_true]

theorem five_bytes {bytes : Bytes} (h : ¬ bytes.length < 5) :
    ∃ a b t c d rest, bytes = a :: b :: t :: c :: d :: rest := by
  rcases bytes with _ | ⟨a, _ | ⟨b, _ | ⟨t, _ | ⟨c, _ | ⟨d, rest⟩⟩⟩⟩⟩
  all_goals simp at h
  exact ⟨a, b, t, c, d, rest, rfl⟩

/-- The parser never leaves the extension or the name buffer, and names a host exactly on the
bodies of the one form. -/
theorem parseServerName_cases (ext : SizedBytes) :
    ∃ verdict, (parseServerName ext ([], emptyName)).1 = .ok verdict ∧
      ∀ name, verdict = .named name ↔ HostNameExt ext.bytes name := by
  by_cases hlen : ext.bytes.length < 5
  · refine ⟨.fatal .decodeError, congrArg Prod.fst (parseServerName_short hlen _), fun name => ?_⟩
    refine ⟨nofun, fun h => ?_⟩
    have hpos := h.nonempty
    omega
  · obtain ⟨a, b, t, c, d, rest, heq⟩ := five_bytes hlen
    refine ⟨_, parseServerName_long heq, fun name => ?_⟩
    rw [heq]
    exact headVerdict_named

end Parser

def serverName (isIp4 isIp6 : Bytes → Bool) : Option SizedBytes → ServerName
  | none => .absent
  | some ext =>
    match (parseServerName ext ([], emptyName)).1 with
    | .ok (.named name) => if isIp4 name || isIp6 name then .ipLiteral else .hostName
    | .ok (.fatal .unrecognizedName) => .unrecognized
    | _ => .malformed

section Callback

variable (isIp4 isIp6 : Bytes → Bool) (servers : ParentId → TlsServer) (conn : SniConn)

def SniConn.Parses : Prop :=
  conn.appData = true ∧ conn.sniDone = false ∧
    ∃ p, conn.parent = some p ∧ (servers p).sniCallback = true

theorem clientHelloBytes_refines (ext : Option SizedBytes) :
    ∃ r, clientHelloBytes isIp4 isIp6 servers conn ext = .ok r ∧
      r.step = conn.clientHelloCb servers (serverName isIp4 isIp6 ext) := by
  simp only [clientHelloBytes, SniConn.clientHelloCb]
  rcases conn.appData with _ | _
  · exact ⟨_, rfl, rfl⟩
  rcases conn.parent with _ | p
  · exact ⟨_, rfl, rfl⟩
  simp only [Bool.not_true, Bool.false_eq_true, if_false]
  rcases (servers p).sniCallback with _ | _
  · exact ⟨_, rfl, rfl⟩
  simp only [Bool.not_true, Bool.false_eq_true, if_false]
  rcases conn.sniDone with _ | _
  swap
  · exact ⟨_, rfl, rfl⟩
  cases ext with
  | none => exact ⟨_, rfl, rfl⟩
  | some ext =>
    obtain ⟨verdict, hparse, -⟩ := parseServerName_cases ext
    simp only [serverName, hparse, Bool.false_eq_true, if_false]
    refine ⟨_, rfl, ?_⟩
    rcases verdict with al | name
    · cases al <;> rfl
    · by_cases hip : (isIp4 name || isIp6 name) = true
      · simp only [SniConn.nameReturn, hip, if_true]
      · simp only [SniConn.nameReturn, hip, if_false, Bool.false_eq_true]

variable {servers conn} in
theorem clientHelloBytes_parses (h : conn.Parses servers) (ext : SizedBytes) :
    clientHelloBytes isIp4 isIp6 servers conn (some ext) =
      (parseServerName ext ([], emptyName)).1.map
        ({ conn with sniDone := true }.nameReturn isIp4 isIp6) := by
  obtain ⟨happ, hdone, p, hparent, hsni⟩ := h
  simp only [clientHelloBytes, happ, hparent, hsni, hdone, Bool.not_true, Bool.false_eq_true,
    if_false]

/-- The callback never reads outside the extension or writes outside the name buffer. It takes a
name from the bodies of the one form only, hands that name and no other to the SNI callback
unless it is an address, and rejects every other body with an alert. -/
theorem client_hello_server_name (h : conn.Parses servers) (ext : SizedBytes) :
    (∀ name, (parseServerName ext ([], emptyName)).1 = .ok (.named name) ↔
      HostNameExt ext.bytes name) ∧
    ∃ r, clientHelloBytes isIp4 isIp6 servers conn (some ext) = .ok r ∧
      (∀ name, HostNameExt ext.bytes name → r.al = none ∧
        if isIp4 name || isIp6 name then
          r.name = none ∧ r.step = { conn with sniDone := true }.answer true
        else r.name = some name ∧ r.step = ({ conn with sniDone := true }, some .entering, [])) ∧
      ((∀ name, ¬ HostNameExt ext.bytes name) → r.al.isSome ∧ r.name = none ∧
        r.step = { conn with sniDone := true }.answer false) := by
  obtain ⟨verdict, hparse, hnamed⟩ := parseServerName_cases ext
  refine ⟨fun name => ?_, { conn with sniDone := true }.nameReturn isIp4 isIp6 verdict, ?_,
    fun name hname => ?_, fun hnone => ?_⟩
  · rw [hparse, Except.ok.injEq]
    exact hnamed name
  · rw [clientHelloBytes_parses isIp4 isIp6 h, hparse]
    rfl
  · obtain rfl := (hnamed name).mpr hname
    simp only [SniConn.nameReturn]
    split
    · exact ⟨rfl, rfl, rfl⟩
    · exact ⟨rfl, rfl, rfl⟩
  · rcases verdict with al | name
    · exact ⟨rfl, rfl, rfl⟩
    · exact absurd ((hnamed name).mp rfl) (hnone name)

end Callback

def hostExt : SizedBytes := ⟨[0, 4, 0, 0, 1, 104], by decide⟩

theorem client_hello_server_name_host :
    ∃ r, clientHelloBytes (fun _ => false) (fun _ => false) unlikeServers
        { SniConn.accept unlikeServers 0 with appData := true } (some hostExt) = .ok r ∧
      r.name = some [104] := by
  have hready : ({ SniConn.accept unlikeServers 0 with appData := true } : SniConn).Parses
      unlikeServers := ⟨rfl, rfl, 0, rfl, rfl⟩
  obtain ⟨-, r, hr, hname, -⟩ :=
    client_hello_server_name (fun _ => false) (fun _ => false) unlikeServers _ hready hostExt
  have hbody : HostNameExt hostExt.bytes [104] := ⟨rfl, by decide, by decide, by decide⟩
  exact ⟨r, hr, (hname [104] hbody).2.1⟩

end LuaNet.Tls
