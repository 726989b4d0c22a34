import LuaNet.Lib.BoundedStack
import LuaNet.Lib.SizeT
import LuaNet.Tls.CtxOptions
import Mathlib.Algebra.GroupWithZero.Nat

/-! `tls_check_alpn_table` on the Lua stack: the encoder collects one string for each protocol on
the stack and concatenates them in the place of the table. -/

namespace LuaNet.Tls

open LuaNet.Lib

inductive LuaSlot
  | nil
  | string (bytes : Bytes)
  | table (elems : List (Option LuaString))
  | other
deriving DecidableEq

inductive AlpnError
  | notTable
  | wireOverrun
deriving DecidableEq

abbrev AlpnM := StackM LuaSlot AlpnError

def LUAI_MAXSTACK : Nat := 1000000

structure LuaStack extends BoundedStack LuaSlot where
  limit_le : limit ≤ LUAI_MAXSTACK

def rawgeti (idx i : Nat) : AlpnM Unit := do
  match ← StackM.get idx with
  | .table elems =>
    match elems[i - 1]? with
    | some (some p) => StackM.push (.string p.bytes)
    | some none => StackM.push .other
    | none => StackM.push .nil
  | _ => Raising.raise .misuse

def wireOf (proto : Bytes) : AlpnM Bytes :=
  if 1 + proto.length ≤ 256 then pure (shortBlob proto)
  else Raising.raise (.raised .wireOverrun)

def slotStrings : List LuaSlot → Option (List Bytes)
  | [] => some []
  | .string bytes :: slots => (slotStrings slots).map (bytes :: ·)
  | _ :: _ => none

def concat (n : Nat) : AlpnM Unit := fun s =>
  match slotStrings (s.slots.drop (s.slots.length - n)) with
  | some bytes =>
    (.ok (), s.withSlots (s.slots.take (s.slots.length - n) ++ [.string bytes.flatten]))
  | none => (.error .misuse, s)

def alpnFail (msg : String) : AlpnM (Option Nat) := do
  StackM.pop 1
  StackM.push (.string (ascii msg))
  return none

def alpnLoop (idx : Nat) : Nat → Nat → Nat → Nat → AlpnM (Option Nat)
  | 0, _, nproto, _ => return some nproto
  | left + 1, i, nproto, wtotal => do
    rawgeti idx i
    match ← StackM.top with
    | .string proto =>
      let plen := proto.length
      if 255 < plen then alpnFail ("alpn protocol #" ++ toString i ++ " exceeds 255 bytes")
      else if plen = 0 then do
        StackM.pop 1
        alpnLoop idx left (i + 1) nproto wtotal
      else
        let wtotal := sizeAdd wtotal (plen + 1)
        if 0xffff < wtotal then alpnFail "total length of alpn protocols exceeds 65535 bytes"
        else do
          let wire ← wireOf proto
          StackM.pop 1
          StackM.push (.string wire)
          alpnLoop idx left (i + 1) (nproto + 1) wtotal
    | _ => alpnFail ("alpn protocol #" ++ toString i ++ " must be a string")

/-- `tls_check_alpn_table`; the length of the table goes through an `int`. -/
def tlsCheckAlpnTableAt (idx : Nat) : AlpnM Int := do
  match ← StackM.peek idx with
  | none => return 0
  | some .nil => return 0
  | some (.table elems) =>
    let n := toSigned 32 (elems.length % 2 ^ 32)
    if n ≤ 0 then return 0
    else if ← StackM.reserve n.toNat then
      match ← alpnLoop idx n.toNat 1 0 0 with
      | none => return -1
      | some 0 => return 0
      | some nproto => do
        concat nproto
        StackM.replace idx
        return nproto
    else do
      StackM.push (.string (ascii "too many alpn protocols, not enough stack space"))
      return -1
  | some _ => Raising.raise (.raised .notTable)

def alpnKept : List (Option LuaString) → List Bytes
  | [] => []
  | none :: elems => alpnKept elems
  | some p :: elems => if p.bytes.length = 0 then alpnKept elems else p.bytes :: alpnKept elems

def alpnWireLength (elems : List (Option LuaString)) : Nat :=
  ((alpnKept elems).map fun p => p.length + 1).sum

/-- What the element `i` is at fault for when the elements before it take `start` bytes and more:
it is no string, too long, or the one that makes the list too long. -/
def AlpnFaultFrom (start : Nat) (elems : List (Option LuaString)) (i : Nat) : Prop :=
  elems[i]? = some none ∨
    ∃ p, elems[i]? = some (some p) ∧
      (255 < p.bytes.length ∨ 65535 < start + alpnWireLength (elems.take (i + 1)))

abbrev AlpnFault (elems : List (Option LuaString)) (i : Nat) : Prop := AlpnFaultFrom 0 elems i

/-! The wire format as a function of the elements. -/

section Wire

theorem alpnKept_cons (e : Option LuaString) (elems : List (Option LuaString)) :
    alpnKept (e :: elems) = alpnKept [e] ++ alpnKept elems := by
  rcases e with _ | p
  · rfl
  · rw [alpnKept, alpnKept]
    split <;> rfl

theorem alpnWireLength_cons (e : Option LuaString) (elems : List (Option LuaString)) :
    alpnWireLength (e :: elems) = alpnWireLength [e] + alpnWireLength elems := by
  rw [alpnWireLength, alpnKept_cons, List.map_append, List.sum_append]
  rfl

theorem alpnFaultFrom_succ (start : Nat) (e : Option LuaString)
    (elems : List (Option LuaString)) (i : Nat) :
    AlpnFaultFrom start (e :: elems) (i + 1) ↔
      AlpnFaultFrom (start + alpnWireLength [e]) elems i := by
  simp only [AlpnFaultFrom, List.getElem?_cons_succ, List.take_succ_cons,
    alpnWireLength_cons e (elems.take _), Nat.add_assoc]

theorem exists_alpnFault_cons (start : Nat) (e : Option LuaString)
    (elems : List (Option LuaString)) :
    (∃ i, AlpnFaultFrom start (e :: elems) i) ↔
      AlpnFaultFrom start (e :: elems) 0 ∨
        ∃ i, AlpnFaultFrom (start + alpnWireLength [e]) elems i := by
  rw [← Nat.or_exists_add_one]
  simp only [alpnFaultFrom_succ]

theorem alpnFault_head (start : Nat) (p : LuaString) (elems : List (Option LuaString)) :
    AlpnFaultFrom start (some p :: elems) 0 ↔
      255 < p.bytes.length ∨ 65535 < start + alpnWireLength [some p] := by
  simp [AlpnFaultFrom]

theorem alpnWire_cases (i : Nat) (elems : List (Option LuaString)) (w : AlpnWire) :
    (∃ w', alpnWire i elems w = .ok w' ∧ (¬ ∃ j, AlpnFaultFrom w.bytes.length elems j) ∧
      w'.bytes = w.bytes ++ ((alpnKept elems).map shortBlob).flatten ∧
      ∀ p ∈ alpnKept elems, p.length ≤ 255) ∨
    ∃ msg, alpnWire i elems w = .error msg ∧ ∃ j, AlpnFaultFrom w.bytes.length elems j := by
  induction elems generalizing i w with
  | nil =>
    refine .inl ⟨w, rfl, ?_, by simp [alpnKept], nofun⟩
    rintro ⟨j, hnone | ⟨p, hsome, -⟩⟩
    · simp at hnone
    · simp at hsome
  | cons e elems ih =>
    rcases e with _ | p
    · exact .inr ⟨_, rfl, 0, .inl rfl⟩
    rw [alpnWire, exists_alpnFault_cons, alpnFault_head]
    by_cases hlong : 255 < p.bytes.length
    · rw [if_pos hlong]
      exact .inr ⟨_, rfl, .inl (.inl hlong)⟩
    rw [if_neg hlong]
    by_cases hempty : p.bytes.length = 0
    · -- an empty string adds nothing, neither to the list nor to its length
      have hkept : alpnKept (some p :: elems) = alpnKept elems := by rw [alpnKept, if_pos hempty]
      have hlen : alpnWireLength [some p] = 0 := by
        rw [alpnWireLength, alpnKept, if_pos hempty]
        rfl
      have hnot : ¬ (255 < p.bytes.length ∨ 65535 < w.bytes.length + 0) := by
        have hfits := w.fits
        omega
      simp only [if_pos hempty, hkept, hlen, hnot, false_or]
      exact ih (i + 1) w
    have hkept : alpnKept (some p :: elems) = p.bytes :: alpnKept elems := by
      rw [alpnKept, if_neg hempty]
    have hlen : alpnWireLength [some p] = p.bytes.length + 1 := by
      rw [alpnWireLength, alpnKept, if_neg hempty]
      rfl
    rw [if_neg hempty, hlen]
    by_cases hfits : w.bytes.length + (p.bytes.length + 1) ≤ 0xffff
    · rw [dif_pos hfits, hkept]
      have hnot : ¬ (255 < p.bytes.length ∨ 65535 < w.bytes.length + (p.bytes.length + 1)) := by
        omega
      have hpush : (w.push p.bytes hfits).bytes.length = w.bytes.length + (p.bytes.length + 1) := by
        rw [AlpnWire.push, List.length_append, List.length_cons]
      simp only [hnot, false_or]
      rcases ih (i + 1) (w.push p.bytes hfits) with ⟨w', hok, hnone, hbytes, hshort⟩ | herr
      · rw [hpush] at hnone
        refine .inl ⟨w', hok, hnone, ?_, ?_⟩
        · rw [hbytes, List.map_cons, List.flatten_cons, ← List.append_assoc]
          rfl
        · intro q hq
          rcases List.mem_cons.mp hq with rfl | hq
          · exact Nat.le_of_not_lt hlong
          · exact hshort q hq
      · rw [hpush] at herr
        exact .inr herr
    · rw [dif_neg hfits]
      exact .inr ⟨_, rfl, .inl (.inr (by omega))⟩

end Wire

/-! The loop on the stack computes that function. -/

section Stack

variable {s : BoundedStack LuaSlot} {idx : Nat} {elems : List (Option LuaString)}

theorem rawgeti_run {slots : List LuaSlot} {e : Option LuaString} {i : Nat}
    (htable : slots[idx - 1]? = some (.table elems)) (he : elems[i - 1]? = some e)
    (hroom : slots.length < s.ensured) :
    rawgeti idx i (s.withSlots slots) =
      (.ok (), s.withSlots (slots ++ [e.elim .other fun p => .string p.bytes])) := by
  rw [rawgeti, Raising.bind_of_ok (StackM.get_run htable)]
  simp only [he]
  rcases e with _ | p
  · exact StackM.push_run hroom _
  · exact StackM.push_run hroom _

theorem alpnFail_run {slots : List LuaSlot} (hroom : slots.length < s.ensured) (v : LuaSlot)
    (msg : String) :
    alpnFail msg (s.withSlots (slots ++ [v])) =
      (.ok none, s.withSlots (slots ++ [.string (ascii msg)])) := by
  rw [alpnFail, Raising.bind_of_ok (StackM.pop_snoc slots v),
    Raising.bind_of_ok (StackM.push_run hroom _)]
  rfl

theorem wireOf_run {proto : Bytes} (h : proto.length ≤ 255) :
    wireOf proto = pure (shortBlob proto) := if_pos (by omega)

def stacked (base : List LuaSlot) (items : List Bytes) : List LuaSlot :=
  base ++ items.map .string

theorem stacked_snoc (base : List LuaSlot) (items : List Bytes) (item : Bytes) :
    stacked base items ++ [.string item] = stacked base (items ++ [item]) := by
  rw [stacked, stacked, List.map_append, List.append_assoc]
  rfl

theorem stacked_table {base : List LuaSlot} (htable : base[idx - 1]? = some (.table elems))
    (items : List Bytes) : (stacked base items)[idx - 1]? = some (.table elems) := by
  obtain ⟨hlt, -⟩ := List.getElem?_eq_some_iff.mp htable
  rw [stacked, List.getElem?_append_left hlt, htable]

section Turn

variable {slots : List LuaSlot} {left i nproto wtotal : Nat}

theorem alpnLoop_other (htable : slots[idx - 1]? = some (.table elems))
    (he : elems[i - 1]? = some none) (hroom : slots.length < s.ensured) :
    alpnLoop idx (left + 1) i nproto wtotal (s.withSlots slots) =
      (.ok none, s.withSlots (slots ++
        [.string (ascii ("alpn protocol #" ++ toString i ++ " must be a string"))])) := by
  rw [alpnLoop, Raising.bind_of_ok (rawgeti_run htable he hroom),
    Raising.bind_of_ok (StackM.top_snoc slots _)]
  exact alpnFail_run hroom _ _

variable {p : LuaString}

theorem alpnLoop_long (htable : slots[idx - 1]? = some (.table elems))
    (he : elems[i - 1]? = some (some p)) (hroom : slots.length < s.ensured)
    (hlong : 255 < p.bytes.length) :
    alpnLoop idx (left + 1) i nproto wtotal (s.withSlots slots) =
      (.ok none, s.withSlots (slots ++
        [.string (ascii ("alpn protocol #" ++ toString i ++ " exceeds 255 bytes"))])) := by
  rw [alpnLoop, Raising.bind_of_ok (rawgeti_run htable he hroom),
    Raising.bind_of_ok (StackM.top_snoc slots _)]
  simp only [Option.elim_some, hlong, if_true]
  exact alpnFail_run hroom _ _

theorem alpnLoop_empty (htable : slots[idx - 1]? = some (.table elems))
    (he : elems[i - 1]? = some (some p)) (hroom : slots.length < s.ensured)
    (hempty : p.bytes.length = 0) :
    alpnLoop idx (left + 1) i nproto wtotal (s.withSlots slots) =
      alpnLoop idx left (i + 1) nproto wtotal (s.withSlots slots) := by
  rw [alpnLoop, Raising.bind_of_ok (rawgeti_run htable he hroom),
    Raising.bind_of_ok (StackM.top_snoc slots _)]
  simp only [Option.elim_some, hempty, Nat.not_lt_zero, if_false, if_true]
  exact Raising.bind_of_ok (StackM.pop_snoc slots _)

theorem alpnLoop_total (htable : slots[idx - 1]? = some (.table elems))
    (he : elems[i - 1]? = some (some p)) (hroom : slots.length < s.ensured)
    (hshort : ¬ 255 < p.bytes.length) (hempty : p.bytes.length ≠ 0)
    (htotal : 0xffff < sizeAdd wtotal (p.bytes.length + 1)) :
    alpnLoop idx (left + 1) i nproto wtotal (s.withSlots slots) =
      (.ok none, s.withSlots (slots ++
        [.string (ascii "total length of alpn protocols exceeds 65535 bytes")])) := by
  rw [alpnLoop, Raising.bind_of_ok (rawgeti_run htable he hroom),
    Raising.bind_of_ok (StackM.top_snoc slots _)]
  simp only [Option.elim_some, hshort, hempty, if_false, htotal, if_true]
  exact alpnFail_run hroom _ _

theorem alpnLoop_kept (htable : slots[idx - 1]? = some (.table elems))
    (he : elems[i - 1]? = some (some p)) (hroom : slots.length < s.ensured)
    (hshort : ¬ 255 < p.bytes.length) (hempty : p.bytes.length ≠ 0)
    (htotal : ¬ 0xffff < sizeAdd wtotal (p.bytes.length + 1)) :
    alpnLoop idx (left + 1) i nproto wtotal (s.withSlots slots) =
      alpnLoop idx left (i + 1) (nproto + 1) (sizeAdd wtotal (p.bytes.length + 1))
        (s.withSlots (slots ++ [.string (shortBlob p.bytes)])) := by
  rw [alpnLoop, Raising.bind_of_ok (rawgeti_run htable he hroom),
    Raising.bind_of_ok (StackM.top_snoc slots _)]
  simp only [Option.elim_some, hshort, hempty, if_false, htotal,
    wireOf_run (Nat.le_of_not_lt hshort)]
  exact (Raising.bind_of_ok (StackM.pop_snoc slots _)).trans
    (Raising.bind_of_ok (StackM.push_run hroom _))

end Turn

theorem alpnLoop_run {base : List LuaSlot} (htable : base[idx - 1]? = some (.table elems))
    (rest done : List (Option LuaString)) (items : List Bytes) (w : AlpnWire)
    (helems : elems = done ++ rest) (hw : w.bytes = items.flatten)
    (hroom : base.length + items.length + rest.length ≤ s.ensured) :
    (∀ w', alpnWire (done.length + 1) rest w = .ok w' →
      ∃ items', alpnLoop idx rest.length (done.length + 1) items.length w.bytes.length
          (s.withSlots (stacked base items)) =
            (.ok (some items'.length), s.withSlots (stacked base items')) ∧
        items' = items ++ (alpnKept rest).map shortBlob) ∧
    ∀ msg, alpnWire (done.length + 1) rest w = .error msg →
      ∃ items', alpnLoop idx rest.length (done.length + 1) items.length w.bytes.length
          (s.withSlots (stacked base items)) =
            (.ok none, s.withSlots (stacked base items' ++ [.string (ascii msg)])) := by
  induction rest generalizing done items w with
  | nil =>
    refine ⟨fun w' _ => ⟨items, rfl, (List.append_nil items).symm⟩, fun msg h => ?_⟩
    cases h
  | cons e rest ih =>
    have htop := stacked_table htable items
    have he : elems[done.length + 1 - 1]? = some e := by
      rw [helems, Nat.add_sub_cancel, List.getElem?_append_right (Nat.le_refl _), Nat.sub_self]
      rfl
    have hslot : (stacked base items).length < s.ensured := by
      rw [stacked, List.length_append, List.length_map]
      rw [List.length_cons] at hroom
      omega
    have hnext : elems = (done ++ [e]) ++ rest := by rw [helems, List.append_assoc]; rfl
    have hdone : (done ++ [e]).length = done.length + 1 := by rw [List.length_append]; rfl
    rcases e with _ | p
    · refine ⟨nofun, fun msg h => ⟨items, ?_⟩⟩
      cases h
      rw [List.length_cons, alpnLoop_other htop he hslot]
    rw [alpnWire, List.length_cons]
    by_cases hlong : 255 < p.bytes.length
    · rw [if_pos hlong]
      refine ⟨nofun, fun msg h => ⟨items, ?_⟩⟩
      cases h
      rw [alpnLoop_long htop he hslot hlong]
    rw [if_neg hlong]
    by_cases hempty : p.bytes.length = 0
    · rw [if_pos hempty, alpnLoop_empty htop he hslot hempty, alpnKept, if_pos hempty, ← hdone]
      apply ih _ _ _ hnext hw
      rw [List.length_cons] at hroom
      omega
    rw [if_neg hempty, alpnKept, if_neg hempty]
    have hfitsw := w.fits
    have hsum : sizeAdd w.bytes.length (p.bytes.length + 1) =
        w.bytes.length + (p.bytes.length + 1) := sizeAdd_eq (by omega)
    by_cases hfits : w.bytes.length + (p.bytes.length + 1) ≤ 0xffff
    · have htotal : ¬ 0xffff < sizeAdd w.bytes.length (p.bytes.length + 1) := by omega
      have hpush : (w.push p.bytes hfits).bytes.length = w.bytes.length + (p.bytes.length + 1) := by
        rw [AlpnWire.push, List.length_append, List.length_cons]
      have hitems : (items ++ [shortBlob p.bytes]).length = items.length + 1 := by
        rw [List.length_append]
        rfl
      have hflat : (w.push p.bytes hfits).bytes = (items ++ [shortBlob p.bytes]).flatten := by
        rw [List.flatten_append, ← hw, List.flatten_singleton]
        rfl
      rw [dif_pos hfits, alpnLoop_kept htop he hslot hlong hempty htotal, hsum, stacked_snoc,
        ← hdone, ← hpush, ← hitems]
      have hrest := ih (done ++ [some p]) (items ++ [shortBlob p.bytes]) (w.push p.bytes hfits)
        hnext hflat (by rw [List.length_cons] at hroom; omega)
      simpa only [List.map_cons, List.append_assoc, List.singleton_append] using hrest
    · have htotal : 0xffff < sizeAdd w.bytes.length (p.bytes.length + 1) := by omega
      rw [dif_neg hfits]
      refine ⟨nofun, fun msg h => ⟨items, ?_⟩⟩
      cases h
      rw [alpnLoop_total htop he hslot hlong hempty htotal]

theorem slotStrings_map (items : List Bytes) :
    slotStrings (items.map .string) = some items := by
  induction items with
  | nil => rfl
  | cons item items ih => rw [List.map_cons, slotStrings, ih, Option.map_some]

theorem concat_run (base : List LuaSlot) (items : List Bytes) :
    concat items.length (s.withSlots (stacked base items)) =
      (.ok (), s.withSlots (base ++ [.string items.flatten])) := by
  have hlen : (stacked base items).length - items.length = base.length := by
    rw [stacked, List.length_append, List.length_map, Nat.add_sub_cancel]
  have hdrop : (stacked base items).drop base.length = items.map .string := List.drop_left
  have htake : (stacked base items).take base.length = base := List.take_left
  simp only [concat, BoundedStack.withSlots_slots, hlen, hdrop, htake, slotStrings_map]
  rfl

end Stack

section Table

variable {L : LuaStack} {idx : Nat} {elems : List (Option LuaString)}

theorem toSigned_length (hroom : L.slots.length + elems.length ≤ L.limit) :
    toSigned 32 (elems.length % 2 ^ 32) = elems.length := by
  have hlimit := L.limit_le
  rw [LUAI_MAXSTACK] at hlimit
  rw [Nat.mod_eq_of_lt (by omega), toSigned_of_lt (by omega)]

theorem tlsCheckAlpnTable_room (elems : List (Option LuaString)) :
    tlsCheckAlpnTable elems true = alpnWire 1 elems .empty := by
  rw [tlsCheckAlpnTable]
  split
  · next h =>
    subst h
    rfl
  · rfl

theorem tlsCheckAlpnTableAt_run (htable : L.slots[idx - 1]? = some (.table elems))
    (hroom : L.slots.length + elems.length ≤ L.limit) :
    (∀ w, tlsCheckAlpnTable elems true = .ok w →
      ∃ s, tlsCheckAlpnTableAt idx L.toBoundedStack = (.ok (alpnKept elems).length, s) ∧
        s.slots = if alpnKept elems = [] then L.slots
          else L.slots.set (idx - 1) (.string ((alpnKept elems).map shortBlob).flatten)) ∧
    ∀ msg, tlsCheckAlpnTable elems true = .error msg →
      ∃ s items, tlsCheckAlpnTableAt idx L.toBoundedStack = (.ok (-1), s) ∧
        s.slots = L.slots ++ items ++ [.string (ascii msg)] := by
  have hn := toSigned_length hroom
  have hpeek : (StackM.peek idx : AlpnM (Option LuaSlot)) L.toBoundedStack =
      (.ok (some (.table elems)), L.toBoundedStack) := by
    rw [StackM.peek_run, htable]
  rw [tlsCheckAlpnTableAt, Raising.bind_of_ok hpeek]
  simp only [hn, Int.toNat_natCast]
  by_cases hempty : elems = []
  · subst hempty
    refine ⟨fun w _ => ⟨L.toBoundedStack, rfl, rfl⟩, fun msg h => ?_⟩
    cases h
  have hpos : ¬ (elems.length : Int) ≤ 0 := by
    have hlen := List.length_pos_iff.mpr hempty
    omega
  rw [if_neg hpos, Raising.bind_of_ok (StackM.reserve_run hroom), if_pos rfl, tlsCheckAlpnTable,
    if_neg hempty]
  simp only [Bool.not_true, Bool.false_eq_true, if_false]
  have hstart : (L.ensure elems.length).withSlots (stacked L.slots []) = L.ensure elems.length := by
    rw [stacked, List.map_nil, List.append_nil]
    rfl
  have hloop := alpnLoop_run htable elems [] [] .empty rfl rfl
    (L.toBoundedStack.le_ensure elems.length)
  rw [hstart] at hloop
  constructor
  · intro w hw
    obtain ⟨items, hrun, hitems⟩ := hloop.1 w hw
    rw [List.nil_append] at hitems
    have hlen : items.length = (alpnKept elems).length := by rw [hitems, List.length_map]
    refine ⟨(L.ensure elems.length).withSlots (if alpnKept elems = [] then L.slots
      else L.slots.set (idx - 1) (.string items.flatten)), (Raising.bind_of_ok hrun).trans ?_, ?_⟩
    · by_cases hnone : alpnKept elems = []
      · rw [hnone, List.map_nil] at hitems
        rw [hnone, hitems]
        exact congrArg (Prod.mk _) hstart
      · obtain ⟨n, hn⟩ := Nat.exists_eq_add_one_of_ne_zero
          (fun h => hnone (List.length_eq_zero_iff.mp h))
        have hconcat := concat_run (s := L.ensure elems.length) L.slots items
        rw [hlen, hn] at hconcat
        rw [hlen, hn, if_neg hnone]
        exact (Raising.bind_of_ok hconcat).trans (Raising.bind_of_ok (StackM.replace_snoc _ _ _))
    · rw [hitems]
      rfl
  · intro msg hmsg
    obtain ⟨items, hrun⟩ := hloop.2 msg hmsg
    exact ⟨_, items.map .string, Raising.bind_of_ok hrun, rfl⟩

end Table

/-- The number of protocols and a wire string that decodes to them, or 0 and the stack as it was,
or -1 and a message on the top; the last exactly when an element is at fault. -/
theorem tls_check_alpn_table_exact (L : LuaStack) (idx : Nat)
    (elems : List (Option LuaString)) (htable : L.slots[idx - 1]? = some (.table elems))
    (hroom : L.slots.length + elems.length ≤ L.limit) :
    ∃ rc s, tlsCheckAlpnTableAt idx L.toBoundedStack = (.ok rc, s) ∧
      (rc = -1 ↔ ∃ i, AlpnFault elems i) ∧
      (rc = -1 → ∃ items msg, tlsCheckAlpnTable elems true = .error msg ∧
        s.slots = L.slots ++ items ++ [.string (ascii msg)]) ∧
      (rc ≠ -1 → rc = (alpnKept elems).length) ∧
      (rc = 0 → s.slots = L.slots) ∧
      (0 < rc → ∃ wire, s.slots = L.slots.set (idx - 1) (.string wire) ∧
        readShortBlobs wire = some (alpnKept elems)) := by
  obtain ⟨hok, herr⟩ := tlsCheckAlpnTableAt_run htable hroom
  rw [tlsCheckAlpnTable_room] at hok herr ⊢
  rcases alpnWire_cases 1 elems .empty with ⟨w, hw, hnone, -, hshort⟩ | ⟨msg, hmsg, hfault⟩
  · obtain ⟨s, hrun, hslots⟩ := hok w hw
    refine ⟨_, s, hrun, ⟨fun h => ?_, fun h => absurd h hnone⟩, fun h => ?_, fun _ => rfl,
      fun h => ?_, fun h => ⟨_, ?_, readShortBlobs_flatten hshort⟩⟩
    · omega
    · omega
    · rw [hslots, if_pos (List.length_eq_zero_iff.mp (by omega))]
    · rw [hslots, if_neg fun hnil => by simp [hnil] at h]
  · obtain ⟨s, items, hrun, hslots⟩ := herr msg hmsg
    refine ⟨_, s, hrun, ⟨fun _ => hfault, fun _ => rfl⟩, fun _ => ⟨items, msg, hmsg, hslots⟩,
      fun h => absurd rfl h, fun h => ?_, fun h => ?_⟩
    · omega
    · omega

def twoProtocols : List (Option LuaString) :=
  [some ⟨[104, 50], by decide⟩, some ⟨[], by decide⟩, some ⟨[104, 51], by decide⟩]

def twoProtocolsStack : LuaStack :=
  ⟨{ slots := [.table twoProtocols], ensured := 21, limit := 8000 }, by decide⟩

theorem tls_check_alpn_table_exact_two :
    ∃ s wire, tlsCheckAlpnTableAt 1 twoProtocolsStack.toBoundedStack = (.ok 2, s) ∧
      s.slots = [.string wire] ∧ readShortBlobs wire = some [[104, 50], [104, 51]] := by
  have hkept : alpnKept twoProtocols = [[104, 50], [104, 51]] := by decide
  obtain ⟨rc, s, hrun, hfault, -, hcount, -, hwire⟩ :=
    tls_check_alpn_table_exact twoProtocolsStack 1 twoProtocols (by decide) (by decide)
  have hrun' : (tlsCheckAlpnTableAt 1 twoProtocolsStack.toBoundedStack).1 = .ok 2 := by decide
  obtain rfl : rc = 2 := by
    rw [hrun] at hrun'
    exact Except.ok.inj hrun'
  obtain ⟨wire, hslots, hread⟩ := hwire (by decide)
  rw [hkept] at hread
  exact ⟨s, wire, hrun, hslots, hread⟩

end LuaNet.Tls
