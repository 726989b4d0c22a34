import LuaNet.Socket.CmsgRoundTrip

/-! Control data as the kernel leaves it: messages one after another, as far as there is room.
The descriptors found in it are those that have been copied as a whole. -/

namespace LuaNet.Socket

open LuaNet.Lib

def fdsIn (payload : Bytes) : List Int :=
  (List.range (payload.length / 4)).map fun i => readInt payload (i * 4)

/-- The descriptors of a message that `room` bytes have been copied of. -/
def Block.fdsWithin (room : Nat) (b : Block) : List Int :=
  if b.level = solSocket ∧ b.type = scmRights then fdsIn (b.payload.take (room - 16)) else []

def copiedFds : Nat → List Block → List Int
  | _, [] => []
  | room, b :: bs => b.fdsWithin room ++ copiedFds (room - cmsgSpace b.payload.length) bs

theorem fdsWithin_of_le {room : Nat} (h : room ≤ 16) (b : Block) : b.fdsWithin room = [] := by
  have hroom : room - 16 = 0 := Nat.sub_eq_zero_of_le h
  rw [Block.fdsWithin, hroom, List.take_zero]
  exact ite_self []

theorem copiedFds_of_le {room : Nat} (h : room ≤ 16) (bs : List Block) :
    copiedFds room bs = [] := by
  induction bs generalizing room with
  | nil => rfl
  | cons b bs ih => rw [copiedFds, fdsWithin_of_le h, ih (by omega), List.append_nil]

theorem readNat_take {ctl : Bytes} {offset width n : Nat} (h : offset + width ≤ n) :
    readNat (ctl.take n) offset width = readNat ctl offset width := by
  unfold readNat
  rw [List.drop_take, List.take_take, Nat.min_eq_left (by omega)]

theorem fdsIn_take {ctl : Bytes} {payload : Bytes} {start room : Nat}
    (hread : ∀ offset, offset + 4 ≤ min (room - 16) payload.length →
      readNat ctl (start + offset) 4 = readNat payload offset 4) :
    (List.range (rightsCount (min (16 + payload.length) room))).map
        (fun i => readInt ctl (start + i * 4)) = fdsIn (payload.take (room - 16)) := by
  have hlength : (payload.take (room - 16)).length = min (room - 16) payload.length :=
    List.length_take
  have hcount : rightsCount (min (16 + payload.length) room) =
      (payload.take (room - 16)).length / 4 := by
    have hcmsgLen : cmsgLen 0 = 16 := rfl
    rw [rightsCount, hcmsgLen, hlength]
    congr 1
    omega
  rw [fdsIn, hcount]
  refine List.map_congr_left fun i hi => congrArg (toSigned 32) ?_
  have hwhole : i * 4 + 4 ≤ min (room - 16) payload.length := by
    have hlt := List.mem_range.1 hi
    rw [hlength] at hlt
    omega
  rw [hread _ hwhole, readNat_take (by omega)]

theorem rightsOf_take (pre post : Bytes) {b : Block} (hb : b.InRange)
    (hlen : 16 + b.payload.length < 2 ^ 64) {room : Nat} (hroom : 16 ≤ room) :
    let ctl := (pre ++ (b.encode ++ post)).take (pre.length + room)
    cmsgLenAt ctl pre.length = 16 + b.payload.length ∧
      netCmsgLength ctl pre.length = min (16 + b.payload.length) room ∧
      rightsOf ctl (pre.length, min (16 + b.payload.length) room) = b.fdsWithin room := by
  intro ctl
  obtain ⟨hlenAt, hholds⟩ := holds_block pre post hb hlen
  have hspace := le_cmsgSpace b.payload.length
  have hctl : ctl.length = pre.length + min room (cmsgSpace b.payload.length + post.length) := by
    rw [List.length_take, List.length_append, List.length_append, b.encode_length]
    omega
  have hread {offset width : Nat} (h : offset + width ≤ pre.length + room) :
      readNat ctl offset width = readNat (pre ++ (b.encode ++ post)) offset width := readNat_take h
  have hlenAt' : cmsgLenAt ctl pre.length = 16 + b.payload.length :=
    (hread (by omega)).trans hlenAt
  have hlevel : cmsgLevelAt ctl pre.length = b.level :=
    (congrArg (toSigned 32) (hread (by omega))).trans hholds.level
  have htype : cmsgTypeAt ctl pre.length = b.type :=
    (congrArg (toSigned 32) (hread (by omega))).trans hholds.type
  have hlength : netCmsgLength ctl pre.length = min (16 + b.payload.length) room := by
    rw [netCmsgLength_eq hlenAt' (by omega), hctl]
    omega
  refine ⟨hlenAt', hlength, ?_⟩
  have hrights : isRights ctl pre.length = true ↔ b.level = solSocket ∧ b.type = scmRights := by
    rw [isRights, hlevel, htype, Bool.and_eq_true, decide_eq_true_eq, decide_eq_true_eq,
      Int.natCast_inj, Int.natCast_inj]
  unfold rightsOf Block.fdsWithin
  by_cases his : b.level = solSocket ∧ b.type = scmRights
  swap
  · rw [if_neg (mt hrights.1 his), if_neg his]
  rw [if_pos (hrights.2 his), if_pos his]
  refine fdsIn_take fun offset hoffset => ?_
  have hwindow : readNat (pre ++ (b.encode ++ post)) (pre.length + 16 + offset) 4 =
      readNat b.payload offset 4 := readNat_window hholds.payload (by dsimp only; omega)
  show readNat ctl (pre.length + 16 + offset) 4 = _
  rw [hread (by omega), hwindow]

theorem cmsgVisited_take {ctl : Bytes} {bs : List Block} (fuel : Nat) (pre : Bytes) (room : Nat)
    (hctl : ctl = (pre ++ encodeBlocks bs).take (pre.length + room))
    (hlen : (encodeBlocks bs).length < 2 ^ 63) (hbs : ∀ b ∈ bs, b.InRange)
    (hfuel : ctl.length - pre.length < fuel) :
    (cmsgVisited ctl fuel (if ctl.length - pre.length < 16 then none else some pre.length)).flatMap
      (rightsOf ctl) = copiedFds room bs := by
  induction bs generalizing fuel pre room with
  | nil =>
    have hshort : ctl.length - pre.length < 16 := by
      rw [hctl, List.length_take, List.length_append]
      show min _ (pre.length + 0) - _ < 16
      omega
    rw [if_pos hshort]
    cases fuel <;> rfl
  | cons b bs ih =>
    obtain ⟨fuel, rfl⟩ : ∃ k, fuel = k + 1 := Nat.exists_eq_add_of_le' (by omega)
    have hspace := le_cmsgSpace b.payload.length
    have htotal := encodeBlocks_cons_length b bs
    have hrest : ctl.length - pre.length =
        min room (cmsgSpace b.payload.length + (encodeBlocks bs).length) := by
      rw [hctl, List.length_take, List.length_append, htotal]
      omega
    by_cases hroom : 16 ≤ room
    swap
    · rw [if_pos (by omega), copiedFds_of_le (by omega)]
      rfl
    obtain ⟨hlenAt, hlength, hfds⟩ := rightsOf_take pre (encodeBlocks bs)
      (hbs b List.mem_cons_self) (by omega) hroom
    rw [show pre ++ (b.encode ++ encodeBlocks bs) = pre ++ encodeBlocks (b :: bs) from rfl,
      ← hctl] at hlenAt hlength hfds
    rw [if_neg (by omega), cmsgVisited]
    simp only [hlength, hlenAt]
    rw [if_neg (by omega), List.flatMap_cons, hfds, copiedFds]
    refine congrArg (b.fdsWithin room ++ ·) ?_
    by_cases hcut : room < 16 + b.payload.length
    · rw [if_pos (by omega), copiedFds_of_le (by omega)]
      rfl
    rw [if_neg (by omega)]
    have hnext : cmsgNxthdr ctl pre.length =
        if ctl.length - (pre ++ b.encode).length < 16 then none
        else some (pre ++ b.encode).length := by
      have hlast : ctl.length - pre.length < cmsgSpace b.payload.length + 16 ↔
          ctl.length - (pre ++ b.encode).length < 16 := by
        rw [List.length_append, b.encode_length]
        omega
      rw [cmsgNxthdr_eq hlenAt, if_congr hlast rfl rfl, List.length_append, b.encode_length]
    rw [hnext]
    by_cases hpadded : cmsgSpace b.payload.length ≤ room
    · refine ih fuel (pre ++ b.encode) _ ?_ (by omega)
        (fun c hc => hbs c (List.mem_cons_of_mem b hc)) ?_
      swap
      · rw [List.length_append, b.encode_length]
        omega
      rw [hctl, List.length_append, b.encode_length, List.append_assoc]
      congr 1
      omega
    · -- the padding of the last message is cut off
      rw [if_pos (by rw [List.length_append, b.encode_length]; omega),
        copiedFds_of_le (by omega)]
      cases fuel <;> rfl

/-- What the code takes for the descriptors of a control buffer are those of its messages. -/
theorem receivedFds_take {bs : List Block} (hlen : (encodeBlocks bs).length < 2 ^ 63)
    (hbs : ∀ b ∈ bs, b.InRange) (room : Nat) :
    receivedFds ((encodeBlocks bs).take room) = copiedFds room bs := by
  have hall := cmsgVisited_take (cmsgFuel ((encodeBlocks bs).take room)) [] room
    (by rw [List.length_nil, Nat.zero_add]; rfl) hlen hbs (Nat.lt_succ_self _)
  rw [← hall, receivedFds, visited, cmsgFirsthdr, ← ite_not]
  simp only [Nat.not_le]
  rfl

end LuaNet.Socket
