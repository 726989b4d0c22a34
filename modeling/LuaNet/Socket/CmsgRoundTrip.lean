import LuaNet.Socket.CmsgDecode

/-! A built control buffer is decoded to what it was built from. -/

namespace LuaNet.Socket

open LuaNet.Lib

/-! Reading what has been written. -/

theorem readNat_leBytes (xs ys : Bytes) {width n : Nat} (hn : n < 256 ^ width) :
    readNat (xs ++ (leBytes width n ++ ys)) xs.length width = n := by
  rw [readNat, List.drop_left, List.take_left' (leBytes_length width n), leNat_leBytes hn]

theorem readInt_leBytes (xs ys : Bytes) {n : Nat} (hn : n < 2 ^ 31) :
    readInt (xs ++ (leBytes 4 n ++ ys)) xs.length = n := by
  rw [readInt, readNat_leBytes xs ys (Nat.lt_trans hn (by decide)), toSigned_of_lt hn]

theorem readNat_window {ctl w : Bytes} {start n : Nat} (hw : (ctl.drop start).take n = w)
    {offset width : Nat} (h : offset + width ≤ n) :
    readNat ctl (start + offset) width = readNat w offset width := by
  subst hw
  unfold readNat
  rw [List.drop_take, List.take_take, List.drop_drop, Nat.min_eq_left (by omega)]

/-- A message as it lies in a buffer. -/
structure Block where
  level : Nat
  type : Nat
  payload : Bytes

def Block.encode (b : Block) : Bytes :=
  leBytes 8 (cmsgLen b.payload.length) ++ leBytes 4 b.level ++ leBytes 4 b.type ++ b.payload ++
    List.replicate (cmsgSpace b.payload.length - (16 + b.payload.length)) 0

def encodeBlocks (bs : List Block) : Bytes := bs.flatMap Block.encode

def Block.InRange (b : Block) : Prop := b.level < 2 ^ 31 ∧ b.type < 2 ^ 31

theorem le_cmsgSpace (n : Nat) : 16 + n ≤ cmsgSpace n := by
  unfold cmsgSpace cmsgAlign sizeofCmsghdr
  omega

theorem Block.encode_length (b : Block) : b.encode.length = cmsgSpace b.payload.length := by
  have hspace := le_cmsgSpace b.payload.length
  unfold Block.encode
  simp only [List.length_append, leBytes_length, List.length_replicate]
  omega

structure Holds (ctl : Bytes) (v : Nat × Nat) (b : Block) : Prop where
  len : v.2 = 16 + b.payload.length
  level : cmsgLevelAt ctl v.1 = b.level
  type : cmsgTypeAt ctl v.1 = b.type
  payload : (ctl.drop (cmsgData v.1)).take (v.2 - 16) = b.payload

theorem holds_block (pre post : Bytes) {b : Block} (hb : b.InRange)
    (hlen : 16 + b.payload.length < 2 ^ 64) :
    cmsgLenAt (pre ++ (b.encode ++ post)) pre.length = 16 + b.payload.length ∧
      Holds (pre ++ (b.encode ++ post)) (pre.length, 16 + b.payload.length) b := by
  unfold Block.encode
  simp only [List.append_assoc]
  set tail := List.replicate (cmsgSpace b.payload.length - (16 + b.payload.length)) 0 ++ post
  have hlen₁ : (pre ++ leBytes 8 (cmsgLen b.payload.length)).length = pre.length + 8 := by
    rw [List.length_append, leBytes_length]
  have hlen₂ : (pre ++ leBytes 8 (cmsgLen b.payload.length) ++ leBytes 4 b.level).length =
      pre.length + 12 := by
    rw [List.length_append, hlen₁, leBytes_length]
  have hlen₃ : (pre ++ leBytes 8 (cmsgLen b.payload.length) ++ leBytes 4 b.level ++
      leBytes 4 b.type).length = pre.length + 16 := by
    rw [List.length_append, hlen₂, leBytes_length]
  refine ⟨readNat_leBytes pre _ hlen, rfl, ?_, ?_, ?_⟩
  · have hread := readInt_leBytes (pre ++ leBytes 8 (cmsgLen b.payload.length))
      (leBytes 4 b.type ++ (b.payload ++ tail)) hb.1
    rwa [hlen₁, List.append_assoc] at hread
  · have hread := readInt_leBytes (pre ++ leBytes 8 (cmsgLen b.payload.length) ++ leBytes 4 b.level)
      (b.payload ++ tail) hb.2
    rwa [hlen₂, List.append_assoc, List.append_assoc] at hread
  · have hdrop : (pre ++ (leBytes 8 (cmsgLen b.payload.length) ++ (leBytes 4 b.level ++
        (leBytes 4 b.type ++ (b.payload ++ tail))))).drop (cmsgData pre.length) =
          b.payload ++ tail := by
      rw [cmsgData, sizeofCmsghdr, ← hlen₃]
      simp only [← List.append_assoc]
      rw [List.append_assoc _ b.payload tail, List.drop_left]
    rw [hdrop]
    exact List.take_left' (Nat.add_sub_cancel_left ..).symm

def places (p : Nat) : List Block → List (Nat × Nat)
  | [] => []
  | b :: bs => (p, 16 + b.payload.length) :: places (p + cmsgSpace b.payload.length) bs

theorem encodeBlocks_cons_length (b : Block) (bs : List Block) :
    (encodeBlocks (b :: bs)).length = cmsgSpace b.payload.length + (encodeBlocks bs).length := by
  rw [encodeBlocks, List.flatMap_cons, List.length_append, b.encode_length]
  rfl

theorem encodeBlocks_length_ge (bs : List Block) : 16 * bs.length ≤ (encodeBlocks bs).length := by
  induction bs with
  | nil => exact Nat.le_refl _
  | cons b bs ih =>
    have hspace : 16 ≤ cmsgSpace b.payload.length := Nat.le_add_left _ _
    rw [encodeBlocks_cons_length, List.length_cons]
    omega

theorem netCmsgLength_eq {ctl : Bytes} {p n : Nat} (hlenAt : cmsgLenAt ctl p = 16 + n)
    (h : 16 ≤ ctl.length - p) : netCmsgLength ctl p = min (16 + n) (ctl.length - p) := by
  have hcmsgLen : cmsgLen 0 = 16 := rfl
  unfold netCmsgLength
  simp only [hlenAt, hcmsgLen]
  rw [if_neg (by omega), if_neg (by omega)]
  split <;> omega

theorem cmsgNxthdr_eq {ctl : Bytes} {p n : Nat} (hlenAt : cmsgLenAt ctl p = 16 + n) :
    cmsgNxthdr ctl p =
      if ctl.length - p < cmsgSpace n + 16 then none else some (p + cmsgSpace n) := by
  have halign : cmsgAlign (16 + n) = cmsgSpace n := by
    unfold cmsgSpace cmsgAlign sizeofCmsghdr
    omega
  have hpad : 16 + n + cmsgPadding (16 + n) = cmsgSpace n := by
    unfold cmsgSpace cmsgAlign cmsgPadding sizeofCmsghdr
    omega
  unfold cmsgNxthdr sizeofCmsghdr
  simp only [hlenAt, halign]
  rw [if_neg (by omega)]
  by_cases hlast : ctl.length - p < cmsgSpace n + 16
  · rw [if_pos (by omega), if_pos hlast]
  · rw [if_neg (by omega), if_neg hlast]

theorem cmsgVisited_encode {ctl : Bytes} {bs : List Block} (fuel : Nat) (pre : Bytes)
    (hctl : ctl = pre ++ encodeBlocks bs) (hlen : ctl.length < 2 ^ 63)
    (hbs : ∀ b ∈ bs, b.InRange) (hfuel : bs.length ≤ fuel) :
    cmsgVisited ctl fuel (if bs = [] then none else some pre.length) = places pre.length bs ∧
      List.Forall₂ (Holds ctl) (places pre.length bs) bs := by
  induction bs generalizing fuel pre with
  | nil =>
    rw [if_pos rfl]
    refine ⟨?_, List.Forall₂.nil⟩
    cases fuel <;> rfl
  | cons b bs ih =>
    obtain ⟨fuel, rfl⟩ : ∃ k, fuel = k + 1 := Nat.exists_eq_add_of_le' (by
      rw [List.length_cons] at hfuel
      omega)
    have hctl' : ctl = pre ++ (b.encode ++ encodeBlocks bs) := hctl
    have htotal : ctl.length =
        pre.length + (cmsgSpace b.payload.length + (encodeBlocks bs).length) := by
      rw [hctl, List.length_append, encodeBlocks_cons_length]
    have hspace := le_cmsgSpace b.payload.length
    obtain ⟨hlenAt, hholds⟩ := holds_block pre (encodeBlocks bs)
      (hbs b List.mem_cons_self) (by omega)
    rw [← hctl'] at hlenAt hholds
    have hlength : netCmsgLength ctl pre.length = 16 + b.payload.length :=
      (netCmsgLength_eq hlenAt (by omega)).trans (Nat.min_eq_left (by omega))
    have hnext : cmsgNxthdr ctl pre.length =
        if bs = [] then none else some (pre ++ b.encode).length := by
      have hrest : ctl.length - pre.length =
          cmsgSpace b.payload.length + (encodeBlocks bs).length := by omega
      rw [cmsgNxthdr_eq hlenAt, hrest, List.length_append, b.encode_length]
      have hge := encodeBlocks_length_ge bs
      by_cases hnil : bs = []
      · rw [hnil, if_pos rfl]
        exact if_pos (Nat.add_lt_add_left (by decide) _)
      · have hpos := List.length_pos_iff.2 hnil
        rw [if_neg hnil, if_neg (by omega)]
    obtain ⟨hvisited, hall⟩ := ih fuel (pre ++ b.encode)
      (by rw [hctl', List.append_assoc]) (fun c hc => hbs c (List.mem_cons_of_mem b hc))
      (Nat.le_of_succ_le_succ hfuel)
    rw [List.length_append, b.encode_length] at hvisited hall
    refine ⟨?_, List.Forall₂.cons hholds hall⟩
    rw [if_neg (List.cons_ne_nil b bs), cmsgVisited]
    simp only [hlength, hlenAt]
    rw [if_neg (by omega), if_neg (Nat.lt_irrefl _), hnext, List.length_append, b.encode_length,
      hvisited]
    rfl

theorem cmsgFirsthdr_encode (bs : List Block) :
    cmsgFirsthdr (encodeBlocks bs) = if bs = [] then none else some 0 := by
  have hge := encodeBlocks_length_ge bs
  unfold cmsgFirsthdr sizeofCmsghdr
  by_cases hnil : bs = []
  · rw [hnil, if_pos rfl]
    exact if_neg (by decide)
  · have hpos := List.length_pos_iff.2 hnil
    rw [if_neg hnil, if_pos (by omega)]

/-- A buffer of encoded blocks is gone through block by block. -/
theorem visited_encode {bs : List Block} (hlen : (encodeBlocks bs).length < 2 ^ 63)
    (hbs : ∀ b ∈ bs, b.InRange) :
    List.Forall₂ (Holds (encodeBlocks bs)) (visited (encodeBlocks bs)) bs := by
  have hge := encodeBlocks_length_ge bs
  obtain ⟨hvisited, hall⟩ := cmsgVisited_encode (cmsgFuel (encodeBlocks bs)) []
    (List.nil_append _).symm hlen hbs (by unfold cmsgFuel; omega)
  rw [visited, cmsgFirsthdr_encode]
  exact hvisited ▸ hall

/-! What the accepted descriptors are encoded as. -/

def FdArg.fd? : FdArg → Option Int
  | .integer n => some n
  | .other => none

def CmsgData.fds : CmsgData → List Int
  | .integer n => [n]
  | .table fds => fds.filterMap FdArg.fd?
  | _ => []

def CmsgArg.fds : CmsgArg → List Int
  | .table level type data =>
    if level = .string "socket" ∧ type = .string "rights" then data.fds else []
  | .other => []

def Encodes (arg : CmsgArg) (b : Block) : Prop :=
  ∃ level type data, arg = .table (.string level) (.string type) data ∧
    netCmsgLevelValue level = some b.level ∧ netCmsgTypeValue b.level type = some b.type ∧
    if b.level = solSocket ∧ b.type = scmRights then
      ∃ ns : List Nat, data.fds = ns.map Int.ofNat ∧ (∀ n ∈ ns, n < 2 ^ 31) ∧
        b.payload = ns.flatMap (leBytes 4)
    else data = .string b.payload

theorem fdInRange_toNat {fd : Int} (h : fdInRange fd = true) :
    Int.ofNat fd.toNat = fd ∧ fd.toNat < 2 ^ 31 := by
  unfold fdInRange maxInt at h
  rw [Bool.and_eq_true, decide_eq_true_eq, decide_eq_true_eq] at h
  have htoNat := Int.toNat_of_nonneg h.1
  exact ⟨htoNat, by omega⟩

theorem checkFds_eq_ok {i j : Nat} {fds : List FdArg} {ns : List Nat}
    (h : checkFds i j fds = .ok ns) :
    fds.filterMap FdArg.fd? = ns.map Int.ofNat ∧ ∀ n ∈ ns, n < 2 ^ 31 := by
  induction fds generalizing j ns with
  | nil =>
    cases h
    exact ⟨rfl, fun n hn => absurd hn List.not_mem_nil⟩
  | cons arg fds ih =>
    cases arg with
    | other => cases h
    | integer fd =>
      unfold checkFds at h
      split at h
      next hrange =>
        obtain ⟨ms, hms, rfl⟩ := except_map_eq_ok h
        obtain ⟨hcast, hlt⟩ := fdInRange_toNat hrange
        obtain ⟨hmap, hall⟩ := ih hms
        refine ⟨?_, List.forall_mem_cons.2 ⟨hlt, hall⟩⟩
        rw [List.map_cons, hcast, ← hmap]
        rfl
      · cases h

theorem pushCmsgBlock_eq_ok {level type : Nat} {payload block : Bytes}
    (h : pushCmsgBlock level type payload = .ok block) :
    block = Block.encode ⟨level, type, payload⟩ := by
  unfold pushCmsgBlock at h
  simp only at h
  split at h
  · cases h
    unfold Block.encode
    simp only [List.length_append, leBytes_length]
  · cases h

theorem pushScmRightsEntry_eq_ok {i level type : Nat} {data : CmsgData} {block : Bytes}
    (h : pushScmRightsEntry i level type data = .ok block) :
    ∃ ns : List Nat, data.fds = ns.map Int.ofNat ∧ (∀ n ∈ ns, n < 2 ^ 31) ∧
      block = Block.encode ⟨level, type, ns.flatMap (leBytes 4)⟩ := by
  obtain ⟨ns, hns, hblock⟩ := except_bind_eq_ok h
  refine ⟨ns, ?_⟩
  rw [← and_assoc]
  refine ⟨?_, pushCmsgBlock_eq_ok hblock⟩
  cases data with
  | integer fd =>
    simp only at hns
    split at hns
    next hrange =>
      cases hns
      obtain ⟨hcast, hlt⟩ := fdInRange_toNat hrange
      refine ⟨?_, List.forall_mem_singleton.2 hlt⟩
      rw [List.map_singleton, hcast]
      rfl
    · cases hns
  | table fds =>
    simp only at hns
    split at hns
    · cases hns
    · exact checkFds_eq_ok hns
  | number => cases hns
  | string s => cases hns
  | other => cases hns

theorem pushCmsgEntry_eq_ok {i : Nat} {arg : CmsgArg} {block : Bytes}
    (h : pushCmsgEntry i arg = .ok block) : ∃ b : Block, block = b.encode ∧ Encodes arg b := by
  unfold pushCmsgEntry at h
  split at h
  · cases h
  · cases h
  next levelStr typeArg data =>
    split at h
    · cases h
    · cases h
    next level typeStr hlevel =>
      split at h
      · cases h
      next type htype =>
        split at h
        next hrights =>
          obtain ⟨ns, hfds, hlt, rfl⟩ := pushScmRightsEntry_eq_ok h
          refine ⟨_, rfl, levelStr, typeStr, data, rfl, hlevel, htype, ?_⟩
          rw [if_pos hrights]
          exact ⟨ns, hfds, hlt, rfl⟩
        next hrights =>
          unfold pushRawCmsgEntry at h
          split at h
          next s =>
            refine ⟨⟨level, type, s⟩, pushCmsgBlock_eq_ok h, levelStr, typeStr, _, rfl, hlevel,
              htype, ?_⟩
            rw [if_neg hrights]
          · cases h

theorem pushCmsgEntries_eq_ok {i : Nat} {args : List CmsgArg} {blocks : List Bytes}
    (h : pushCmsgEntries i args = .ok blocks) :
    ∃ bs : List Block, blocks.flatten = encodeBlocks bs ∧ List.Forall₂ Encodes args bs := by
  induction args generalizing i blocks with
  | nil =>
    cases h
    exact ⟨[], rfl, List.Forall₂.nil⟩
  | cons arg args ih =>
    obtain ⟨block, hblock, hrest⟩ := except_bind_eq_ok h
    obtain ⟨rest, hargs, rfl⟩ := except_map_eq_ok hrest
    obtain ⟨b, rfl, hb⟩ := pushCmsgEntry_eq_ok hblock
    obtain ⟨bs, hbs, hall⟩ := ih hargs
    refine ⟨b :: bs, ?_, List.Forall₂.cons hb hall⟩
    rw [List.flatten_cons, hbs]
    rfl

theorem netCmsgBuildBuffer_eq_ok {room : Nat} {args : List CmsgArg} {ret : Option Bytes}
    (h : netCmsgBuildBuffer room args = .ok ret) :
    ∃ bs : List Block, ret = (if bs = [] then none else some (encodeBlocks bs)) ∧
      (encodeBlocks bs).length < 2 ^ 63 ∧ List.Forall₂ Encodes args bs := by
  unfold netCmsgBuildBuffer at h
  simp only at h
  split at h
  next hnil =>
    cases h
    rw [List.length_eq_zero_iff] at hnil
    subst hnil
    exact ⟨[], rfl, by decide, List.Forall₂.nil⟩
  next hne =>
    split at h
    · cases h
    split at h
    · cases h
    obtain ⟨blocks, hblocks, hsize⟩ := except_bind_eq_ok h
    obtain ⟨bs, hbs, hall⟩ := pushCmsgEntries_eq_ok hblocks
    rw [hbs] at hsize
    have hcons : bs ≠ [] := by
      rintro rfl
      exact hne (List.length_eq_zero_iff.2 (List.forall₂_nil_right_iff.1 hall))
    split at hsize
    next hlt =>
      cases hsize
      exact ⟨bs, (if_neg hcons).symm, hlt, hall⟩
    · cases hsize

/-! Putting both together. -/

theorem words_length (ns : List Nat) : (ns.flatMap (leBytes 4)).length = ns.length * 4 := by
  induction ns with
  | nil => rfl
  | cons n ns ih =>
    rw [List.flatMap_cons, List.length_append, leBytes_length, ih, List.length_cons]
    omega

theorem readInt_flatMap (xs : List Nat) {n : Nat} (ys : List Nat) (hn : n < 2 ^ 31) :
    toSigned 32 (readNat ((xs ++ n :: ys).flatMap (leBytes 4)) (xs.length * 4) 4) = n := by
  rw [List.flatMap_append, List.flatMap_cons, ← words_length]
  exact readInt_leBytes _ _ hn

theorem Encodes.inRange {arg : CmsgArg} {b : Block} (h : Encodes arg b) : b.InRange := by
  obtain ⟨level, type, data, -, hlevel, htype, -⟩ := h
  obtain ⟨map, hmap, hvalue⟩ := Option.bind_eq_some_iff.1 htype
  exact ⟨name2value_lt netCmsgLevelMap_map hlevel, name2value_lt (netCmsgTypeMap_map hmap) hvalue⟩

theorem rightsOf_holds {ctl : Bytes} {v : Nat × Nat} {b : Block} (h : Holds ctl v b)
    (hrights : b.level = solSocket ∧ b.type = scmRights) {ns : List Nat}
    (hlt : ∀ n ∈ ns, n < 2 ^ 31) (hpayload : b.payload = ns.flatMap (leBytes 4)) :
    isRights ctl v.1 = true ∧ rightsOf ctl v = ns.map Int.ofNat := by
  have hlen : b.payload.length = ns.length * 4 := by rw [hpayload, words_length]
  have his : isRights ctl v.1 = true := by
    rw [isRights, h.level, h.type, hrights.1, hrights.2]
    decide
  have hcount : rightsCount v.2 = ns.length := by
    have hcmsgLen : cmsgLen 0 = 16 := rfl
    rw [rightsCount, h.len, hlen, hcmsgLen]
    omega
  refine ⟨his, ?_⟩
  rw [rightsOf, if_pos his, hcount]
  refine List.ext_getElem (by rw [List.length_map, List.length_map, List.length_range])
    fun i hi hi' => ?_
  rw [List.length_map] at hi'
  rw [List.getElem_map, List.getElem_map, List.getElem_range, readInt,
    readNat_window h.payload (by rw [h.len, hlen]; omega), hpayload]
  have hns : ns = ns.take i ++ ns[i] :: ns.drop (i + 1) := by
    rw [List.getElem_cons_drop, List.take_append_drop]
  have hread := readInt_flatMap (ns.take i) (ns.drop (i + 1)) (hlt ns[i] (List.getElem_mem hi'))
  rw [← hns, List.length_take_of_le (Nat.le_of_lt hi')] at hread
  exact hread

/-- Called again and again, `get` hands out these descriptors and then nothing. -/
def HandsOut (q : Nat) : List Int → RightsState → Prop
  | [], s => (getLua q s).1 = none
  | fd :: fds, s => (getLua q s).1 = some fd ∧ HandsOut q fds (getLua q s).2

theorem handsOut_of_fds {q : Nat} {fds : List Int} {s : RightsState}
    (h : s.fds q = fds.reverse) : HandsOut q fds s := by
  induction fds generalizing s with
  | nil =>
    rw [HandsOut, getLua, h]
    rfl
  | cons fd fds ih =>
    have hget : (s.fds q).getLast? = some fd := by
      rw [h, List.reverse_cons, List.getLast?_concat]
    have hq : q < s.queues.length := by
      apply lt_length_of_getD_ne_nil
      intro hnil
      have hfds : s.fds q = [] := hnil
      rw [hfds] at hget
      cases hget
    have hrest : (s.setFds q (s.fds q).dropLast).fds q = fds.reverse := by
      rw [h, List.reverse_cons, List.dropLast_concat]
      exact set_getD_self hq _
    rw [HandsOut, getLua, hget]
    exact ⟨rfl, ih hrest⟩

def timestampOf (payload : Bytes) : CmsgValue :=
  if payload.length < sizeofTimeval then .nil
  else .timestamp (toSigned 64 (readNat payload 0 8)) (toSigned 64 (readNat payload 8 8))

/-- An item says of its control message what was said when it was built. -/
def Restored (s : RightsState) (arg : CmsgArg) (item : CmsgItem) : Prop :=
  ∃ level type data, arg = .table (.string level) (.string type) data ∧
    item.level = .name level ∧ item.type = .name type ∧
    if level = "socket" ∧ type = "rights" then ∃ q, item.data = .rights q ∧ HandsOut q data.fds s
    else ∃ payload, data = .string payload ∧
      item.data = if level = "socket" ∧ type = "timestamp" then timestampOf payload
        else .string payload

theorem plainData_holds {ctl : Bytes} {v : Nat × Nat} {b : Block} (h : Holds ctl v b) :
    plainData ctl v = if b.level = solSocket ∧ b.type = scmTimestamp then timestampOf b.payload
      else .string b.payload := by
  have hlen : v.2 - sizeofCmsghdr = b.payload.length := by
    rw [h.len]
    exact Nat.add_sub_cancel_left ..
  unfold plainData timestampOf
  rw [if_neg (by rw [h.len]; exact Nat.not_lt.2 (Nat.le_add_right _ _)), h.level, h.type, hlen]
  simp only [Int.natCast_inj]
  split
  · split
    · rfl
    next hshort =>
      unfold sizeofTimeval at hshort
      have hread (offset : Nat) (hoffset : offset + 8 ≤ 16) :
          readNat ctl (cmsgData v.1 + offset) 8 = readNat b.payload offset 8 :=
        readNat_window h.payload (by rw [h.len]; omega)
      rw [← hread 0 (by decide), ← hread 8 (by decide)]
      rfl
  · have hpayload := h.payload
    rw [h.len, Nat.add_sub_cancel_left] at hpayload
    rw [hpayload]

theorem socketType_iff {level type : String} {l t : Nat} (hlevel : netCmsgLevelValue level = some l)
    (htype : netCmsgTypeValue l type = some t) {name : String} {value : Nat}
    (hname : netConstantName2value netCmsgSocketTypeMap name = some value) :
    level = "socket" ∧ type = name ↔ l = solSocket ∧ t = value := by
  have hsocket : netConstantName2value netCmsgLevelMap "socket" = some solSocket := by decide
  have hmap : netCmsgTypeMap solSocket = some netCmsgSocketTypeMap := if_pos rfl
  rw [name_eq_iff netCmsgLevelMap_map hlevel hsocket]
  refine and_congr_right fun hl => ?_
  subst hl
  rw [netCmsgTypeValue, hmap] at htype
  exact name_eq_iff (netCmsgTypeMap_map hmap) htype hname

theorem name2value_rights :
    netConstantName2value netCmsgSocketTypeMap "rights" = some scmRights := by decide

theorem name2value_timestamp :
    netConstantName2value netCmsgSocketTypeMap "timestamp" = some scmTimestamp := by decide

theorem Encodes.rights {arg : CmsgArg} {b : Block} (h : Encodes arg b) {ctl : Bytes}
    {v : Nat × Nat} (hv : Holds ctl v b) : rightsOf ctl v = arg.fds := by
  obtain ⟨level, type, data, rfl, hlevel, htype, hdata⟩ := h
  have hnames := socketType_iff hlevel htype name2value_rights
  simp only [CmsgArg.fds, CmsgName.string.injEq, hnames]
  by_cases hrights : b.level = solSocket ∧ b.type = scmRights
  · rw [if_pos hrights] at hdata ⊢
    obtain ⟨ns, hfds, hlt, hpayload⟩ := hdata
    rw [(rightsOf_holds hv hrights hlt hpayload).2, hfds]
  · have hnot : isRights ctl v.1 = false := by
      rw [isRights, hv.level, hv.type, ← Bool.not_eq_true, Bool.and_eq_true, decide_eq_true_eq,
        decide_eq_true_eq, Int.natCast_inj, Int.natCast_inj]
      exact hrights
    rw [if_neg hrights, rightsOf_eq_nil hnot]

theorem Encodes.restored {arg : CmsgArg} {b : Block} (h : Encodes arg b) {ctl : Bytes}
    {v : Nat × Nat} (hv : Holds ctl v b) {s : RightsState} {item : CmsgItem}
    (hitem : Decoded ctl s.queues v item) : Restored s arg item := by
  obtain ⟨level, type, data, rfl, hlevel, htype, hdata⟩ := h
  have hrights := socketType_iff hlevel htype name2value_rights
  have htime := socketType_iff hlevel htype name2value_timestamp
  obtain ⟨map, hmap, hvalue⟩ := Option.bind_eq_some_iff.1 htype
  refine ⟨level, type, data, rfl, ?_, ?_, ?_⟩
  · rw [hitem.level, hv.level, netCmsgLevelName,
      value2name_of_name2value netCmsgLevelMap_map hlevel]
    rfl
  · rw [hitem.type, hv.level, hv.type, netCmsgTypeName, hmap, Option.bind_some,
      value2name_of_name2value (netCmsgTypeMap_map hmap) hvalue]
    rfl
  simp only [hrights, htime]
  have hisRights : isRights ctl v.1 = true ↔ b.level = solSocket ∧ b.type = scmRights := by
    rw [isRights, hv.level, hv.type, Bool.and_eq_true, decide_eq_true_eq, decide_eq_true_eq,
      Int.natCast_inj, Int.natCast_inj]
  have hdecoded := hitem.data
  by_cases his : b.level = solSocket ∧ b.type = scmRights
  · rw [if_pos (hisRights.2 his)] at hdecoded
    rw [if_pos his] at hdata ⊢
    obtain ⟨q, hq, hfds⟩ := hdecoded
    obtain ⟨ns, hns, hlt, hpayload⟩ := hdata
    refine ⟨q, hq, handsOut_of_fds ?_⟩
    rw [RightsState.fds, hfds, (rightsOf_holds hv his hlt hpayload).2, hns]
  · rw [if_neg (mt hisRights.1 his)] at hdecoded
    rw [if_neg his] at hdata ⊢
    exact ⟨b.payload, hdata, hdecoded.trans (plainData_holds hv)⟩

theorem flatMap_rightsOf {args : List CmsgArg} {bs : List Block} {ctl : Bytes}
    {vs : List (Nat × Nat)} (hargs : List.Forall₂ Encodes args bs)
    (hvs : List.Forall₂ (Holds ctl) vs bs) :
    vs.flatMap (rightsOf ctl) = args.flatMap CmsgArg.fds := by
  induction hargs generalizing vs with
  | nil =>
    cases hvs
    rfl
  | cons harg _ ih =>
    cases hvs with
    | cons hv hvs => rw [List.flatMap_cons, List.flatMap_cons, harg.rights hv, ih hvs]

theorem forall₂_restored {args : List CmsgArg} {bs : List Block} {ctl : Bytes}
    {vs : List (Nat × Nat)} {s : RightsState} {items : List CmsgItem}
    (hargs : List.Forall₂ Encodes args bs) (hvs : List.Forall₂ (Holds ctl) vs bs)
    (hitems : List.Forall₂ (Decoded ctl s.queues) vs items) :
    List.Forall₂ (Restored s) args items := by
  induction hargs generalizing vs items with
  | nil =>
    cases hvs
    cases hitems
    exact List.Forall₂.nil
  | cons harg _ ih =>
    cases hvs with
    | cons hv hvs =>
      cases hitems with
      | cons hitem hitems => exact List.Forall₂.cons (harg.restored hv hitem) (ih hvs hitems)

theorem encodes_inRange {args : List CmsgArg} {bs : List Block}
    (hargs : List.Forall₂ Encodes args bs) : ∀ b ∈ bs, b.InRange := by
  induction hargs with
  | nil => exact fun b hb => absurd hb List.not_mem_nil
  | cons harg _ ih => exact List.forall_mem_cons.2 ⟨harg.inRange, ih⟩

/-- Control messages come back from a control buffer as they went in, in number, in order, by
name and with their data, and each descriptor from one queue. -/
theorem cmsg_roundTrip {room : Nat} {args : List CmsgArg} {ret : Option Bytes}
    (hbuild : netCmsgBuildBuffer room args = .ok ret)
    (hfds : (args.flatMap CmsgArg.fds).length ≤ netScmMaxFd) :
    let q := netScmRightsFill (ret.getD [])
    q.overflow = false ∧ q.closed = [] ∧
      ∃ items s, netCmsgPushTable (ret.getD []) 0 { queues := [q.fds] } =
          (.ok (ret.map fun _ => items), s) ∧
        List.Forall₂ (Restored s) args items ∧ (items.filterMap CmsgItem.queue?).Nodup := by
  obtain ⟨bs, hret, hlen, hargs⟩ := netCmsgBuildBuffer_eq_ok hbuild
  have hctl : ret.getD [] = encodeBlocks bs := by
    rw [hret]
    split
    next hnil => rw [hnil]; rfl
    · rfl
  have hvisited := visited_encode hlen (encodes_inRange hargs)
  have hreceived : receivedFds (encodeBlocks bs) = args.flatMap CmsgArg.fds :=
    flatMap_rightsOf hargs hvisited
  have hfirst (items : List CmsgItem) :
      (cmsgFirsthdr (encodeBlocks bs)).map (fun _ => items) = ret.map fun _ => items := by
    rw [cmsgFirsthdr_encode, hret]
    split <;> rfl
  rw [hctl, netScmRightsFill_eq, hreceived, List.take_of_length_le hfds]
  refine ⟨decide_eq_false (Nat.not_lt.2 hfds), List.drop_of_length_le hfds, ?_⟩
  -- no allocation fails, so the second pass cannot raise
  have hpush : Raising.Triple (Queues False (· = [(args.flatMap CmsgArg.fds).reverse]))
      (netCmsgPushTable (encodeBlocks bs) 0) _ _ :=
    netCmsgPushTable_triple (Nat.zero_lt_one) (by rw [hreceived]; rfl)
  have hrun := hpush { queues := [(args.flatMap CmsgArg.fds).reverse] } ⟨nofun, rfl⟩
  match heq : netCmsgPushTable (encodeBlocks bs) 0
      { queues := [(args.flatMap CmsgArg.fds).reverse] } with
  | (.error e, s) =>
    rw [heq] at hrun
    exact absurd hrun.1.2 id
  | (.ok all, s) =>
    rw [heq] at hrun
    obtain ⟨-, items, rfl, hpushed⟩ := hrun
    exact ⟨items, s, by rw [hfirst], forall₂_restored hargs hvisited hpushed.decoded,
      hpushed.distinct⟩

def mixedArgs : List CmsgArg :=
  [.table (.string "socket") (.string "rights") (.table [.integer 5, .integer 6]),
    .table (.string "ip") (.string "ttl") (.string [1, 2, 3]),
    .table (.string "socket") (.string "rights") (.table [])]

def mixedBuffer : Bytes :=
  [24, 0, 0, 0, 0, 0, 0, 0, 1, 0, 0, 0, 1, 0, 0, 0, 5, 0, 0, 0, 6, 0, 0, 0,
    19, 0, 0, 0, 0, 0, 0, 0, 0, 0, 0, 0, 2, 0, 0, 0, 1, 2, 3, 0, 0, 0, 0, 0,
    16, 0, 0, 0, 0, 0, 0, 0, 1, 0, 0, 0, 1, 0, 0, 0]

theorem mixed_build : netCmsgBuildBuffer 8 mixedArgs = .ok (some mixedBuffer) := by rfl

theorem cmsg_roundTrip_mixed :
    ∃ items s, netCmsgPushTable mixedBuffer 0 { queues := [(netScmRightsFill mixedBuffer).fds] } =
        (.ok (some items), s) ∧
      List.Forall₂ (Restored s) mixedArgs items ∧ (items.filterMap CmsgItem.queue?).Nodup :=
  (cmsg_roundTrip mixed_build (by decide)).2.2

end LuaNet.Socket
