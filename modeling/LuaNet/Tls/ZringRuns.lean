import LuaNet.Lib.Run
import LuaNet.Tls.Zring
import Mathlib.Data.Nat.Basic

/-! Runs of `zring_commit` and `zring_consume`. The arithmetic of every operation is repeated
with checked additions and subtractions, so that a run in which none of them fails is one in
which no `size_t` value wraps. -/

namespace LuaNet.Tls

open LuaNet.Lib

inductive ZringOp where
  | commit (n : Nat)
  | consume (n : Nat)

def zringStep (rb : Zring) : ZringOp → Zring × List Int
  | .commit n => ((zringCommit rb n).1, [(zringCommit rb n).2])
  | .consume n => ((zringConsume rb n).1, [(zringConsume rb n).2])

def zringRun (mem : Nat → Byte) (cap : Nat) (ops : List ZringOp) : Zring :=
  (runs zringStep (zringInit mem cap) ops).1

def zringSpaceSizeChecked (rb : Zring) : Option Nat := do
  let avail ← sizeSubChecked rb.cap rb.count
  let contig ← sizeSubChecked rb.cap rb.tail
  return if avail < contig then avail else contig

def zringDataSizeChecked (rb : Zring) : Option Nat := do
  let contig ← sizeSubChecked rb.cap rb.head
  return if rb.count < contig then rb.count else contig

def wrapChecked (cap i : Nat) : Option Nat :=
  if cap ≤ i then sizeSubChecked i cap else some i

def zringCommitChecked (rb : Zring) (n : Nat) : Option (Zring × Int) := do
  let len ← zringSpaceSizeChecked rb
  if len < n then return (rb, -1)
  let count ← sizeAddChecked rb.count n
  let tail ← sizeAddChecked rb.tail n
  let tail ← wrapChecked rb.cap tail
  return ({ rb with count := count, tail := tail }, 0)

def zringConsumeChecked (rb : Zring) (n : Nat) : Option (Zring × Int) := do
  let len ← zringDataSizeChecked rb
  if len < n then return (rb, -1)
  let count ← sizeSubChecked rb.count n
  let head ← sizeAddChecked rb.head n
  let head ← wrapChecked rb.cap head
  return ({ rb with count := count, head := head }, 0)

namespace Zring

def Stored (rb : Zring) (i : Nat) : Prop := ∃ j, j < rb.count ∧ i = (rb.head + j) % rb.cap

structure Indexed (cap : Nat) (rb : Zring) : Prop where
  cap_eq : rb.cap = cap
  head_lt : rb.head < cap
  tail_lt : rb.tail < cap
  count_le : rb.count ≤ cap
  tail_eq : rb.tail = (rb.head + rb.count) % cap

structure NoWrap (rb : Zring) : Prop where
  spaceSize : zringSpaceSizeChecked rb = some (zringSpaceSize rb)
  dataSize : zringDataSizeChecked rb = some (zringDataSize rb)
  commit : ∀ n, zringCommitChecked rb n = some (zringCommit rb n)
  consume : ∀ n, zringConsumeChecked rb n = some (zringConsume rb n)

/-- An operation answers 0 or -1, -1 exactly when `n` is more than the segment holds, and then
leaves the ring as it was. -/
structure Guarded (rb : Zring) (n len : Nat) (r : Zring × Int) : Prop where
  answers : r.2 = 0 ∨ r.2 = -1
  rejects : r.2 = -1 ↔ len < n
  unchanged : r.2 = -1 → r.1 = rb

structure Segments (rb : Zring) : Prop where
  space_full : zringSpace rb = none ↔ rb.count = rb.cap
  space_free : ∀ dst len, zringSpace rb = some (dst, len) →
    dst + len ≤ rb.cap ∧ ∀ i, i < len → ¬ rb.Stored (dst + i)
  data_empty : zringData rb = none ↔ rb.count = 0
  data_stored : ∀ data len, zringData rb = some (data, len) →
    data + len ≤ rb.cap ∧ ∀ i, i < len → rb.Stored (data + i)

end Zring

def commitSegment (rb : Zring) : Zring × Int := zringCommit rb (zringSpaceSize rb)

def consumeSegment (rb : Zring) : Zring × Int := zringConsume rb (zringDataSize rb)

section Valid

variable {rb : Zring}

theorem wrapIndex_eq_mod {cap i : Nat} (h : i < cap + cap) : wrapIndex cap i = i % cap := by
  rcases wrapIndex_cases cap i with ⟨hlt, heq⟩ | ⟨hle, heq⟩
  · rw [heq, Nat.mod_eq_of_lt hlt]
  · rw [heq, Nat.mod_eq_sub_mod hle, Nat.mod_eq_of_lt (by omega)]

theorem slot_eq_mod (h : rb.Valid) {i : Nat} (hi : i ≤ rb.count) :
    rb.slot i = (rb.head + i) % rb.cap :=
  wrapIndex_eq_mod (Nat.add_lt_add_of_lt_of_le h.head_lt (Nat.le_trans hi h.count_le))

theorem Zring.Valid.indexed (h : rb.Valid) : rb.Indexed rb.cap :=
  ⟨rfl, h.head_lt, Zring.tail_lt h, h.count_le, by rw [h.tail_eq, slot_eq_mod h (Nat.le_refl _)]⟩

theorem zringSpaceSizeChecked_eq (h : rb.Valid) :
    zringSpaceSizeChecked rb = some (zringSpaceSize rb) := by
  simp only [zringSpaceSizeChecked, zringSpaceSize, sizeSubChecked_eq h.cap_fits h.count_le,
    sizeSubChecked_eq h.cap_fits (Nat.le_of_lt (Zring.tail_lt h)), Option.bind_eq_bind,
    Option.bind_some, Option.pure_def]

theorem zringDataSizeChecked_eq (h : rb.Valid) :
    zringDataSizeChecked rb = some (zringDataSize rb) := by
  simp only [zringDataSizeChecked, zringDataSize,
    sizeSubChecked_eq h.cap_fits (Nat.le_of_lt h.head_lt), Option.bind_eq_bind,
    Option.bind_some, Option.pure_def]

theorem wrapChecked_eq {cap i : Nat} (h : i < 2 ^ 64) :
    wrapChecked cap i = some (if cap ≤ i then sizeSub i cap else i) := by
  rw [wrapChecked]
  split
  · next hle => exact sizeSubChecked_eq h hle
  · rfl

theorem zringCommitChecked_eq (h : rb.Valid) (n : Nat) :
    zringCommitChecked rb n = some (zringCommit rb n) := by
  simp only [zringCommitChecked, zringSpaceSizeChecked_eq h, Option.bind_eq_bind,
    Option.bind_some, Option.pure_def, zringCommit]
  split
  · rfl
  · next hn =>
    have htail := Zring.tail_lt h
    have hfits := h.cap_fits
    have hcount := h.count_le
    rw [zringSpaceSize_eq h] at hn
    -- what is committed fits behind the write index and in the free bytes
    have htailsum : rb.tail + n < 2 ^ 64 := by omega
    have hcountsum : rb.count + n < 2 ^ 64 := by omega
    simp only [sizeAddChecked_eq htailsum, sizeAddChecked_eq hcountsum, Option.bind_some,
      wrapChecked_eq (sizeAdd_lt rb.tail n)]

theorem zringConsumeChecked_eq (h : rb.Valid) (n : Nat) :
    zringConsumeChecked rb n = some (zringConsume rb n) := by
  simp only [zringConsumeChecked, zringDataSizeChecked_eq h, Option.bind_eq_bind,
    Option.bind_some, Option.pure_def, zringConsume]
  split
  · rfl
  · next hn =>
    have hfits := h.cap_fits
    have hcount := h.count_le
    rw [zringDataSize_eq h] at hn
    have hhead := h.head_lt
    have hle : n ≤ rb.count := by omega
    have hheadsum : rb.head + n < 2 ^ 64 := by omega
    simp only [sizeSubChecked_eq (Nat.lt_of_le_of_lt hcount hfits) hle,
      sizeAddChecked_eq hheadsum, Option.bind_some,
      wrapChecked_eq (sizeAdd_lt rb.head n)]

theorem Zring.Valid.noWrap (h : rb.Valid) : rb.NoWrap :=
  ⟨zringSpaceSizeChecked_eq h, zringDataSizeChecked_eq h, zringCommitChecked_eq h,
    zringConsumeChecked_eq h⟩

theorem zringCommit_guarded (h : rb.Valid) (n : Nat) :
    rb.Guarded n (zringSpaceSize rb) (zringCommit rb n) := by
  by_cases hn : zringSpaceSize rb < n
  · rw [zringCommit_rejected hn]
    exact ⟨.inr rfl, by simp only [hn], fun _ => rfl⟩
  · rw [zringCommit_accepted h (Nat.le_of_not_lt hn)]
    exact ⟨.inl rfl, by simp only [hn, Int.reduceNeg, reduceCtorEq], nofun⟩

theorem zringConsume_guarded (h : rb.Valid) (n : Nat) :
    rb.Guarded n (zringDataSize rb) (zringConsume rb n) := by
  by_cases hn : zringDataSize rb < n
  · rw [zringConsume_rejected hn]
    exact ⟨.inr rfl, by simp only [hn], fun _ => rfl⟩
  · rw [zringConsume_accepted h (Nat.le_of_not_lt hn)]
    exact ⟨.inl rfl, by simp only [hn, Int.reduceNeg, reduceCtorEq], nofun⟩

theorem not_stored_of_space (h : rb.Valid) {i : Nat} (hi : i < zringSpaceSize rb) :
    ¬ rb.Stored (rb.tail + i) := by
  rintro ⟨j, hj, heq⟩
  rw [← slot_eq_mod h (Nat.le_of_lt hj), h.tail_eq, Zring.slot, Zring.slot] at heq
  have htail := h.tail_eq
  rw [Zring.slot] at htail
  rw [zringSpaceSize_eq h] at hi
  have hhead := h.head_lt
  have hcount := h.count_le
  have hend := wrapIndex_cases rb.cap (rb.head + rb.count)
  have hslot := wrapIndex_cases rb.cap (rb.head + j)
  omega

theorem stored_of_data (h : rb.Valid) {i : Nat} (hi : i < zringDataSize rb) :
    rb.Stored (rb.head + i) := by
  rw [zringDataSize_eq h] at hi
  exact ⟨i, by omega, (Nat.mod_eq_of_lt (by omega)).symm⟩

theorem Zring.Valid.segments (h : rb.Valid) : rb.Segments where
  space_full := zringSpace_eq_none h
  space_free dst len hs := by
    refine ⟨zringSpace_inBounds h hs, ?_⟩
    obtain ⟨rfl, rfl, -⟩ := zringSpace_eq_some.mp hs
    exact fun i hi => not_stored_of_space h hi
  data_empty := (zringData_eq_none h).trans Zring.contents_eq_nil
  data_stored data len hs := by
    obtain ⟨rfl, rfl, -⟩ := zringData_eq_some.mp hs
    have hle : rb.head + zringDataSize rb ≤ rb.cap := by
      rw [zringDataSize_eq h]
      have := h.head_lt
      omega
    exact ⟨hle, fun i hi => stored_of_data h hi⟩

theorem commitSegment_eq (h : rb.Valid) :
    commitSegment rb =
      ({ rb with
          count := rb.count + zringSpaceSize rb
          tail := wrapIndex rb.cap (rb.tail + zringSpaceSize rb) }, 0) :=
  zringCommit_accepted h (Nat.le_refl _)

theorem consumeSegment_eq (h : rb.Valid) :
    consumeSegment rb =
      ({ rb with
          count := rb.count - zringDataSize rb
          head := wrapIndex rb.cap (rb.head + zringDataSize rb) }, 0) :=
  zringConsume_accepted h (Nat.le_refl _)

/-- After one segment either the ring is full or the write index is back at the start. -/
theorem commitSegment_full (h : rb.Valid) :
    (commitSegment (commitSegment rb).1).1.count = rb.cap := by
  have hnext : (commitSegment rb).1.Valid := zringCommit_valid h _
  have hfirst := commitSegment_eq h
  rw [commitSegment_eq hnext]
  simp only [zringSpaceSize_eq hnext]
  simp only [hfirst, zringSpaceSize_eq h]
  have htail := Zring.tail_lt h
  have hcount := h.count_le
  have hwrap := wrapIndex_cases rb.cap (rb.tail + min (rb.cap - rb.count) (rb.cap - rb.tail))
  have hend := wrapIndex_cases rb.cap (rb.head + rb.count)
  have heq := h.tail_eq
  rw [Zring.slot] at heq
  have hhead := h.head_lt
  omega

theorem consumeSegment_empty (h : rb.Valid) :
    (consumeSegment (consumeSegment rb).1).1.count = 0 := by
  have hnext : (consumeSegment rb).1.Valid := zringConsume_valid h _
  have hfirst := consumeSegment_eq h
  rw [consumeSegment_eq hnext]
  simp only [zringDataSize_eq hnext]
  simp only [hfirst, zringDataSize_eq h]
  have hcount := h.count_le
  have hhead := h.head_lt
  have hwrap := wrapIndex_cases rb.cap (rb.head + min rb.count (rb.cap - rb.head))
  omega

end Valid

section Runs

variable (mem : Nat → Byte) {cap : Nat}

theorem zringStep_valid (rb : Zring) (op : ZringOp) (h : rb.Valid) : (zringStep rb op).1.Valid := by
  cases op with
  | commit n => exact zringCommit_valid h n
  | consume n => exact zringConsume_valid h n

theorem zringStep_cap (rb : Zring) (op : ZringOp) : (zringStep rb op).1.cap = rb.cap := by
  cases op with
  | commit n => simp only [zringStep, zringCommit, apply_ite Prod.fst, apply_ite Zring.cap, ite_self]
  | consume n => simp only [zringStep, zringConsume, apply_ite Prod.fst, apply_ite Zring.cap, ite_self]

theorem zringRun_valid (hpos : 0 < cap) (hfits : cap < 2 ^ 64) (ops : List ZringOp) :
    (zringRun mem cap ops).Valid :=
  runs_invariant zringStep_valid (zringInit_valid mem hpos hfits) ops

theorem zringRun_cap (ops : List ZringOp) : (zringRun mem cap ops).cap = cap :=
  runs_invariant (I := fun rb => rb.cap = cap)
    (fun rb op (h : rb.cap = cap) => (zringStep_cap rb op).trans h) rfl ops

/-- Every state of every run keeps its indices in range, wraps no `size_t`, rejects exactly what
does not fit the segment, keeps the segments apart, and is filled or emptied by two segments. -/
theorem zring_runs_sound (hpos : 0 < cap) (hfits : cap < 2 ^ 64) (ops : List ZringOp) :
    (zringRun mem cap ops).Indexed cap ∧
    (zringRun mem cap ops).NoWrap ∧
    (∀ n, (zringRun mem cap ops).Guarded n (zringSpaceSize (zringRun mem cap ops))
        (zringCommit (zringRun mem cap ops) n) ∧
      (zringRun mem cap ops).Guarded n (zringDataSize (zringRun mem cap ops))
        (zringConsume (zringRun mem cap ops) n)) ∧
    (zringRun mem cap ops).Segments ∧
    ((commitSegment (zringRun mem cap ops)).2 = 0 ∧
      (commitSegment (commitSegment (zringRun mem cap ops)).1).2 = 0 ∧
      (commitSegment (commitSegment (zringRun mem cap ops)).1).1.count = cap) ∧
    ((consumeSegment (zringRun mem cap ops)).2 = 0 ∧
      (consumeSegment (consumeSegment (zringRun mem cap ops)).1).2 = 0 ∧
      (consumeSegment (consumeSegment (zringRun mem cap ops)).1).1.count = 0) := by
  have h := zringRun_valid mem hpos hfits ops
  have hcap : (zringRun mem cap ops).cap = cap := zringRun_cap mem ops
  have hcommit : (commitSegment (zringRun mem cap ops)).1.Valid := zringCommit_valid h _
  have hconsume : (consumeSegment (zringRun mem cap ops)).1.Valid := zringConsume_valid h _
  refine ⟨?_, h.noWrap, fun n => ⟨zringCommit_guarded h n, zringConsume_guarded h n⟩, h.segments,
    ⟨?_, ?_, ?_⟩, ⟨?_, ?_, ?_⟩⟩
  · have hindexed := h.indexed
    rwa [hcap] at hindexed
  · rw [commitSegment_eq h]
  · rw [commitSegment_eq hcommit]
  · rw [commitSegment_full h, hcap]
  · rw [consumeSegment_eq h]
  · rw [consumeSegment_eq hconsume]
  · exact consumeSegment_empty h

theorem zring_runs_sound_four :
    zringRun (fun _ => 0) 4 [.commit 3, .consume 2, .commit 2, .commit 1, .commit 9, .commit 2] =
        { mem := fun _ => 0, cap := 4, head := 2, tail := 2, count := 4 } ∧
      (zringRun (fun _ => 0) 4
        [.commit 3, .consume 2, .commit 2, .commit 1, .commit 9, .commit 2]).Indexed 4 :=
  ⟨rfl, (zring_runs_sound (fun _ => 0) (by decide) (by decide) _).1⟩

end Runs

end LuaNet.Tls
