import LuaNet.Lib.SizeT
import Mathlib.Data.List.Basic
import Mathlib.Data.Nat.Basic
import Mathlib.Order.Basic

/-! The byte ring of `zring.h`: a fixed buffer with a read index, a write index and a count.
Every access goes through one contiguous segment, so data that wraps takes two calls. -/

namespace LuaNet.Tls

open LuaNet.Lib

abbrev Byte := UInt8

structure Zring where
  mem : Nat → Byte
  cap : Nat
  head : Nat
  tail : Nat
  count : Nat

def zringInit (mem : Nat → Byte) (cap : Nat) : Zring :=
  { mem := mem, cap := cap, head := 0, tail := 0, count := 0 }

def zringSpaceSize (rb : Zring) : Nat :=
  let avail := sizeSub rb.cap rb.count
  let contig := sizeSub rb.cap rb.tail
  if avail < contig then avail else contig

def zringDataSize (rb : Zring) : Nat :=
  let contig := sizeSub rb.cap rb.head
  if rb.count < contig then rb.count else contig

/-- Offset and length of the writable segment; `none` is the NULL pointer. -/
def zringSpace (rb : Zring) : Option (Nat × Nat) :=
  let len := zringSpaceSize rb
  if len = 0 then none else some (rb.tail, len)

def zringData (rb : Zring) : Option (Nat × Nat) :=
  let len := zringDataSize rb
  if len = 0 then none else some (rb.head, len)

def zringCommit (rb : Zring) (n : Nat) : Zring × Int :=
  if zringSpaceSize rb < n then (rb, -1)
  else
    let tail := sizeAdd rb.tail n
    ({ rb with
        count := sizeAdd rb.count n
        tail := if rb.cap ≤ tail then sizeSub tail rb.cap else tail }, 0)

def zringConsume (rb : Zring) (n : Nat) : Zring × Int :=
  if zringDataSize rb < n then (rb, -1)
  else
    let head := sizeAdd rb.head n
    ({ rb with
        count := sizeSub rb.count n
        head := if rb.cap ≤ head then sizeSub head rb.cap else head }, 0)

def Zring.store (rb : Zring) (dst : Nat) (src : List Byte) : Zring :=
  { rb with mem := fun i => if dst ≤ i then (src[i - dst]?).getD (rb.mem i) else rb.mem i }

def Zring.load (rb : Zring) (data n : Nat) : List Byte :=
  (List.range n).map fun i => rb.mem (data + i)

/-! The bytes a ring stands for, read from the read end. -/

def wrapIndex (cap i : Nat) : Nat := if cap ≤ i then i - cap else i

theorem wrapIndex_cases (cap i : Nat) :
    i < cap ∧ wrapIndex cap i = i ∨ cap ≤ i ∧ wrapIndex cap i = i - cap := by
  unfold wrapIndex
  by_cases h : cap ≤ i
  · exact .inr ⟨h, if_pos h⟩
  · exact .inl ⟨Nat.lt_of_not_le h, if_neg h⟩

def Zring.slot (rb : Zring) (i : Nat) : Nat := wrapIndex rb.cap (rb.head + i)

def Zring.contents (rb : Zring) : List Byte :=
  (List.range rb.count).map fun i => rb.mem (rb.slot i)

structure Zring.Valid (rb : Zring) : Prop where
  cap_pos : 0 < rb.cap
  cap_fits : rb.cap < 2 ^ 64
  head_lt : rb.head < rb.cap
  count_le : rb.count ≤ rb.cap
  tail_eq : rb.tail = rb.slot rb.count

namespace Zring

theorem tail_lt {rb : Zring} (h : rb.Valid) : rb.tail < rb.cap := by
  obtain ⟨hpos, -, hhead, hcount, htail⟩ := h
  rw [htail, slot]
  rcases wrapIndex_cases rb.cap (rb.head + rb.count) with h | h <;> omega

@[simp] theorem contents_length (rb : Zring) : rb.contents.length = rb.count := by
  simp only [contents, List.length_map, List.length_range]

theorem contents_getElem? (rb : Zring) (i : Nat) :
    rb.contents[i]? = if i < rb.count then some (rb.mem (rb.slot i)) else none := by
  simp only [contents, List.getElem?_map]
  by_cases h : i < rb.count
  · simp only [h, if_true, List.getElem?_range h, Option.map_some]
  · simp only [h, if_false, List.getElem?_eq_none (by simpa using h : (List.range _).length ≤ i),
      Option.map_none]

theorem contents_eq_nil {rb : Zring} : rb.contents = [] ↔ rb.count = 0 := by
  rw [← List.length_eq_zero_iff, contents_length]

@[simp] theorem load_length (rb : Zring) (data n : Nat) : (rb.load data n).length = n := by
  simp only [load, List.length_map, List.length_range]

@[simp] theorem store_tail (rb : Zring) (dst : Nat) (src : List Byte) :
    (rb.store dst src).tail = rb.tail := rfl

@[simp] theorem store_count (rb : Zring) (dst : Nat) (src : List Byte) :
    (rb.store dst src).count = rb.count := rfl

@[simp] theorem store_slot (rb : Zring) (dst : Nat) (src : List Byte) (i : Nat) :
    (rb.store dst src).slot i = rb.slot i := rfl

theorem store_mem_outside {rb : Zring} {dst i : Nat} {src : List Byte}
    (h : i < dst ∨ dst + src.length ≤ i) : (rb.store dst src).mem i = rb.mem i := by
  simp only [store]
  rcases h with h | h
  · rw [if_neg (Nat.not_le.mpr h)]
  · rw [if_pos (by omega), List.getElem?_eq_none (by omega), Option.getD_none]

theorem load_store (rb : Zring) (dst : Nat) (src : List Byte) :
    (rb.store dst src).load dst src.length = src := by
  refine List.ext_getElem (load_length _ _ _) fun i hi hi' => ?_
  simp only [load, store, List.getElem_map, List.getElem_range, Nat.le_add_right, if_true,
    Nat.add_sub_cancel_left, List.getElem?_eq_getElem hi', Option.getD_some]

theorem store_valid {rb : Zring} (h : rb.Valid) (dst : Nat) (src : List Byte) :
    (rb.store dst src).Valid :=
  ⟨h.cap_pos, h.cap_fits, h.head_lt, h.count_le, h.tail_eq⟩

end Zring

theorem zringInit_valid (mem : Nat → Byte) {cap : Nat} (hpos : 0 < cap) (hfits : cap < 2 ^ 64) :
    (zringInit mem cap).Valid :=
  ⟨hpos, hfits, hpos, Nat.zero_le _, (if_neg (Nat.not_le.mpr hpos)).symm⟩

section Sizes

variable {rb : Zring}

/-- On a valid ring no `size_t` operation wraps, so the sizes are plain minima. -/
theorem zringSpaceSize_eq (h : rb.Valid) :
    zringSpaceSize rb = min (rb.cap - rb.count) (rb.cap - rb.tail) := by
  have htail := Zring.tail_lt h
  obtain ⟨hpos, hfits, hhead, hcount, -⟩ := h
  simp only [zringSpaceSize, sizeSub_eq hfits hcount, sizeSub_eq hfits (Nat.le_of_lt htail)]
  exact (min_def_lt (rb.cap - rb.count) _).symm

theorem zringDataSize_eq (h : rb.Valid) :
    zringDataSize rb = min rb.count (rb.cap - rb.head) := by
  obtain ⟨hpos, hfits, hhead, hcount, -⟩ := h
  simp only [zringDataSize, sizeSub_eq hfits (Nat.le_of_lt hhead)]
  exact (min_def_lt rb.count _).symm

theorem zringSpaceSize_eq_zero (h : rb.Valid) : zringSpaceSize rb = 0 ↔ rb.count = rb.cap := by
  have htail := Zring.tail_lt h
  have hcount := h.count_le
  rw [zringSpaceSize_eq h]
  omega

theorem zringDataSize_eq_zero (h : rb.Valid) : zringDataSize rb = 0 ↔ rb.count = 0 := by
  have hhead := h.head_lt
  rw [zringDataSize_eq h]
  omega

theorem zringData_eq_none (h : rb.Valid) : zringData rb = none ↔ rb.contents = [] := by
  simp only [zringData, ite_eq_left_iff, reduceCtorEq, imp_false, Decidable.not_not,
    zringDataSize_eq_zero h, Zring.contents_eq_nil]

theorem zringSpace_eq_none (h : rb.Valid) : zringSpace rb = none ↔ rb.count = rb.cap := by
  simp only [zringSpace, ite_eq_left_iff, reduceCtorEq, imp_false, Decidable.not_not,
    zringSpaceSize_eq_zero h]

theorem zringData_eq_some {data len : Nat} :
    zringData rb = some (data, len) ↔ data = rb.head ∧ len = zringDataSize rb ∧ 0 < len := by
  simp only [zringData]
  split <;> simp <;> omega

theorem zringSpace_eq_some {dst len : Nat} :
    zringSpace rb = some (dst, len) ↔ dst = rb.tail ∧ len = zringSpaceSize rb ∧ 0 < len := by
  simp only [zringSpace]
  split <;> simp <;> omega

theorem zringSpace_inBounds (h : rb.Valid) {dst len : Nat} (hs : zringSpace rb = some (dst, len)) :
    dst + len ≤ rb.cap := by
  obtain ⟨rfl, rfl, -⟩ := zringSpace_eq_some.mp hs
  have htail := Zring.tail_lt h
  rw [zringSpaceSize_eq h]
  omega

end Sizes

section Commit

variable {rb : Zring} {n : Nat}

theorem zringCommit_rejected (h : zringSpaceSize rb < n) : zringCommit rb n = (rb, -1) := by
  simp only [zringCommit, h, if_true]

theorem zringCommit_accepted (hv : rb.Valid) (h : n ≤ zringSpaceSize rb) :
    zringCommit rb n =
      ({ rb with
          count := rb.count + n
          tail := wrapIndex rb.cap (rb.tail + n) }, 0) := by
  have htail := Zring.tail_lt hv
  obtain ⟨hpos, hfits, hhead, hcount, -⟩ := id hv
  rw [zringSpaceSize_eq hv] at h
  have hsum : sizeAdd rb.tail n = rb.tail + n := sizeAdd_eq (by omega)
  have hadd : sizeAdd rb.count n = rb.count + n := sizeAdd_eq (by omega)
  have hsub (hle : rb.cap ≤ rb.tail + n) :
      sizeSub (rb.tail + n) rb.cap = rb.tail + n - rb.cap := sizeSub_eq (by omega) hle
  have hguard : ¬ zringSpaceSize rb < n := by rw [zringSpaceSize_eq hv]; omega
  simp only [zringCommit, hguard, if_false, hsum, hadd, wrapIndex]
  by_cases hle : rb.cap ≤ rb.tail + n
  · simp only [hle, if_true, hsub hle]
  · simp only [hle, if_false]

theorem zringCommit_rc (hv : rb.Valid) :
    (zringCommit rb n).2 = 0 ↔ n ≤ zringSpaceSize rb := by
  by_cases h : n ≤ zringSpaceSize rb
  · simp only [zringCommit_accepted hv h, h]
  · simp only [zringCommit_rejected (Nat.lt_of_not_le h), h, reduceCtorEq, Int.reduceNeg]

theorem zringCommit_valid (hv : rb.Valid) (n : Nat) : (zringCommit rb n).1.Valid := by
  by_cases h : n ≤ zringSpaceSize rb
  · have htail := Zring.tail_lt hv
    rw [zringCommit_accepted hv h]
    obtain ⟨hpos, hfits, hhead, hcount, htaileq⟩ := id hv
    rw [zringSpaceSize_eq hv] at h
    rw [Zring.slot] at htaileq
    refine ⟨hpos, hfits, hhead, by simp only; omega, ?_⟩
    rw [Zring.slot]
    have hold := wrapIndex_cases rb.cap (rb.head + rb.count)
    have hnew := wrapIndex_cases rb.cap (rb.head + (rb.count + n))
    have htail' := wrapIndex_cases rb.cap (rb.tail + n)
    simp only
    omega
  · rw [zringCommit_rejected (Nat.lt_of_not_le h)]
    exact hv

/-- Writing into the writable segment does not touch the contents. -/
theorem contents_store (hv : rb.Valid) {src : List Byte} (h : src.length ≤ zringSpaceSize rb) :
    (rb.store rb.tail src).contents = rb.contents := by
  obtain ⟨hpos, hfits, hhead, hcount, htaileq⟩ := id hv
  rw [zringSpaceSize_eq hv] at h
  rw [Zring.slot] at htaileq
  have htailpos := wrapIndex_cases rb.cap (rb.head + rb.count)
  refine List.map_congr_left fun i hi => ?_
  have hi := List.mem_range.mp hi
  rw [Zring.store_count] at hi
  have hslot := wrapIndex_cases rb.cap (rb.head + i)
  rw [Zring.store_slot, Zring.store_mem_outside]
  rw [Zring.slot]
  omega

theorem contents_commit (hv : rb.Valid) (h : n ≤ zringSpaceSize rb) :
    (zringCommit rb n).1.contents = rb.contents ++ rb.load rb.tail n := by
  have htail := Zring.tail_lt hv
  obtain ⟨hpos, hfits, hhead, hcount, htaileq⟩ := id hv
  rw [zringCommit_accepted hv h]
  rw [zringSpaceSize_eq hv] at h
  rw [Zring.slot] at htaileq
  have htailpos := wrapIndex_cases rb.cap (rb.head + rb.count)
  simp only [Zring.contents, Zring.load, List.range_add, List.map_append, List.map_map]
  congr 1
  refine List.map_congr_left fun i hi => ?_
  have hi := List.mem_range.mp hi
  have hslot := wrapIndex_cases rb.cap (rb.head + (rb.count + i))
  simp only [Function.comp_apply, Zring.slot]
  congr 1
  omega

/-- Committing `src`, written at the writable segment, appends it to the contents. -/
theorem contents_store_commit (hv : rb.Valid) {src : List Byte}
    (h : src.length ≤ zringSpaceSize rb) :
    (zringCommit (rb.store rb.tail src) src.length).1.contents = rb.contents ++ src := by
  rw [contents_commit (Zring.store_valid hv rb.tail src) h, contents_store hv h,
    Zring.store_tail, Zring.load_store]

end Commit

section Consume

variable {rb : Zring} {n : Nat}

theorem zringConsume_rejected (h : zringDataSize rb < n) : zringConsume rb n = (rb, -1) := by
  simp only [zringConsume, h, if_true]

theorem zringConsume_accepted (hv : rb.Valid) (h : n ≤ zringDataSize rb) :
    zringConsume rb n =
      ({ rb with
          count := rb.count - n
          head := wrapIndex rb.cap (rb.head + n) }, 0) := by
  obtain ⟨hpos, hfits, hhead, hcount, -⟩ := id hv
  rw [zringDataSize_eq hv] at h
  have hsum : sizeAdd rb.head n = rb.head + n := sizeAdd_eq (by omega)
  have hdiff : sizeSub rb.count n = rb.count - n := sizeSub_eq (by omega) (by omega)
  have hsub (hle : rb.cap ≤ rb.head + n) :
      sizeSub (rb.head + n) rb.cap = rb.head + n - rb.cap := sizeSub_eq (by omega) hle
  have hguard : ¬ zringDataSize rb < n := by rw [zringDataSize_eq hv]; omega
  simp only [zringConsume, hguard, if_false, hsum, hdiff, wrapIndex]
  by_cases hle : rb.cap ≤ rb.head + n
  · simp only [hle, if_true, hsub hle]
  · simp only [hle, if_false]

theorem zringConsume_rc (hv : rb.Valid) :
    (zringConsume rb n).2 = 0 ↔ n ≤ zringDataSize rb := by
  by_cases h : n ≤ zringDataSize rb
  · simp only [zringConsume_accepted hv h, h]
  · simp only [zringConsume_rejected (Nat.lt_of_not_le h), h, reduceCtorEq, Int.reduceNeg]

theorem zringConsume_valid (hv : rb.Valid) (n : Nat) : (zringConsume rb n).1.Valid := by
  by_cases h : n ≤ zringDataSize rb
  · rw [zringConsume_accepted hv h]
    obtain ⟨hpos, hfits, hhead, hcount, htaileq⟩ := id hv
    rw [zringDataSize_eq hv] at h
    rw [Zring.slot] at htaileq
    have hold := wrapIndex_cases rb.cap (rb.head + rb.count)
    have hhead' := wrapIndex_cases rb.cap (rb.head + n)
    have hnew := wrapIndex_cases rb.cap (wrapIndex rb.cap (rb.head + n) + (rb.count - n))
    refine ⟨hpos, hfits, by simp only; omega, by simp only; omega, ?_⟩
    rw [Zring.slot]
    simp only
    omega
  · rw [zringConsume_rejected (Nat.lt_of_not_le h)]
    exact hv

theorem load_head (hv : rb.Valid) (h : n ≤ zringDataSize rb) :
    rb.load rb.head n = rb.contents.take n := by
  obtain ⟨hpos, hfits, hhead, hcount, -⟩ := id hv
  rw [zringDataSize_eq hv] at h
  refine List.ext_getElem? fun i => ?_
  rw [List.getElem?_take, Zring.contents_getElem?]
  simp only [Zring.load, List.getElem?_map]
  by_cases hi : i < n
  · have hslot : rb.slot i = rb.head + i := if_neg (by omega)
    rw [List.getElem?_range hi]
    simp only [hi, if_true, if_pos (by omega : i < rb.count), Option.map_some, hslot]
  · simp only [hi, if_false, List.getElem?_eq_none (by simpa using hi : (List.range n).length ≤ i),
      Option.map_none]

theorem contents_consume (hv : rb.Valid) (h : n ≤ zringDataSize rb) :
    (zringConsume rb n).1.contents = rb.contents.drop n := by
  rw [zringConsume_accepted hv h]
  obtain ⟨hpos, hfits, hhead, hcount, -⟩ := id hv
  rw [zringDataSize_eq hv] at h
  refine List.ext_getElem? fun i => ?_
  rw [List.getElem?_drop, Zring.contents_getElem?, Zring.contents_getElem?]
  by_cases hi : n + i < rb.count
  · have hi' : i < rb.count - n := by omega
    have hhead' := wrapIndex_cases rb.cap (rb.head + n)
    have hnew := wrapIndex_cases rb.cap (wrapIndex rb.cap (rb.head + n) + i)
    have hold := wrapIndex_cases rb.cap (rb.head + (n + i))
    simp only [hi, hi', if_true, Zring.slot]
    congr 2
    omega
  · simp only [hi, if_false, show ¬ i < rb.count - n by omega]

end Consume
end LuaNet.Tls
