import Mathlib.Algebra.Group.Int.Defs
import Mathlib.Algebra.Group.Nat.Defs
import Mathlib.Data.List.Basic
import Mathlib.Tactic.Common

/-! Byte encodings that can be told apart: fixed-width integers, and byte strings behind their
length. Each comes with a lemma that takes an equation between concatenations apart, so that
the injectivity of a composite encoding is read off its parts from left to right. -/

namespace LuaNet.Lib

abbrev Bytes := List UInt8

@[ext] structure SizedBytes where
  bytes : Bytes
  fits : bytes.length < 2 ^ 64
deriving DecidableEq

def SizedBytes.drop (s : SizedBytes) (n : Nat) : SizedBytes where
  bytes := s.bytes.drop n
  fits := Nat.lt_of_le_of_lt (by rw [List.length_drop]; exact Nat.sub_le _ _) s.fits

def leBytes : Nat → Nat → Bytes
  | 0, _ => []
  | width + 1, n => UInt8.ofNat n :: leBytes width (n / 256)

def leNat : Bytes → Nat
  | [] => 0
  | b :: bs => b.toNat + 256 * leNat bs

def toSigned (bits n : Nat) : Int := if n < 2 ^ (bits - 1) then n else n - 2 ^ bits

def be16 (n : Nat) : Bytes := [UInt8.ofNat (n / 256), UInt8.ofNat n]

def be16Nat (hi lo : UInt8) : Nat := hi.toNat <<< 8 ||| lo.toNat

theorem be16Nat_eq (hi lo : UInt8) : be16Nat hi lo = 256 * hi.toNat + lo.toNat := by
  rw [be16Nat, ← Nat.shiftLeft_add_eq_or_of_lt lo.toNat_lt, Nat.shiftLeft_eq, Nat.mul_comm]

theorem be16_be16Nat (hi lo : UInt8) : be16 (be16Nat hi lo) = [hi, lo] := by
  have hlo := lo.toNat_lt
  have hdiv : (256 * hi.toNat + lo.toNat) / 256 = hi.toNat := by omega
  have hmod : UInt8.ofNat (256 * hi.toNat + lo.toNat) = lo := by
    apply UInt8.toNat_inj.mp
    rw [UInt8.toNat_ofNat']
    omega
  rw [be16, be16Nat_eq, hdiv, hmod, UInt8.ofNat_toNat]

theorem be16Nat_eq_iff {hi lo : UInt8} {n : Nat} (hn : n < 65536) :
    be16Nat hi lo = n ↔ [hi, lo] = be16 n := by
  constructor
  · rintro rfl
    exact (be16_be16Nat hi lo).symm
  · intro h
    rw [be16, List.cons.injEq, List.cons.injEq] at h
    rw [be16Nat_eq, h.1, h.2.1, UInt8.toNat_ofNat', UInt8.toNat_ofNat']
    omega

def blob (s : Bytes) : Bytes := leBytes 8 s.length ++ s

@[simp] theorem leBytes_length (width n : Nat) : (leBytes width n).length = width := by
  induction width generalizing n with
  | zero => rfl
  | succ width ih => rw [leBytes, List.length_cons, ih]

theorem leBytes_inj {width n m : Nat} (hn : n < 256 ^ width) (hm : m < 256 ^ width)
    (h : leBytes width n = leBytes width m) : n = m := by
  induction width generalizing n m with
  | zero =>
    rw [Nat.pow_zero, Nat.lt_one_iff] at hn hm
    rw [hn, hm]
  | succ width ih =>
    rw [Nat.pow_succ, Nat.mul_comm] at hn hm
    rw [leBytes, leBytes, List.cons.injEq] at h
    have hrest := ih (Nat.div_lt_of_lt_mul hn) (Nat.div_lt_of_lt_mul hm) h.2
    have hlow : n % 256 = m % 256 := by
      have hlow := congrArg UInt8.toNat h.1
      rwa [UInt8.toNat_ofNat', UInt8.toNat_ofNat'] at hlow
    rw [← Nat.div_add_mod n 256, ← Nat.div_add_mod m 256, hrest, hlow]

theorem leNat_leBytes {width n : Nat} (hn : n < 256 ^ width) : leNat (leBytes width n) = n := by
  induction width generalizing n with
  | zero =>
    rw [Nat.pow_zero, Nat.lt_one_iff] at hn
    rw [hn]
    rfl
  | succ width ih =>
    rw [Nat.pow_succ, Nat.mul_comm] at hn
    rw [leBytes, leNat, ih (Nat.div_lt_of_lt_mul hn), UInt8.toNat_ofNat']
    exact Nat.mod_add_div n 256

theorem toSigned_of_lt {bits n : Nat} (h : n < 2 ^ (bits - 1)) : toSigned bits n = n := if_pos h

theorem leBytes_append_inj {width n m : Nat} {x y : Bytes} (hn : n < 256 ^ width)
    (hm : m < 256 ^ width) (h : leBytes width n ++ x = leBytes width m ++ y) : n = m ∧ x = y := by
  obtain ⟨hnm, hxy⟩ := List.append_inj h (by rw [leBytes_length, leBytes_length])
  exact ⟨leBytes_inj hn hm hnm, hxy⟩

theorem blob_append_inj {a b x y : Bytes} (ha : a.length < 2 ^ 64) (hb : b.length < 2 ^ 64)
    (h : blob a ++ x = blob b ++ y) : a = b ∧ x = y := by
  rw [blob, blob, List.append_assoc, List.append_assoc] at h
  obtain ⟨hlen, hrest⟩ := leBytes_append_inj (by omega) (by omega) h
  exact List.append_inj hrest hlen

def cString (bytes : Bytes) : Bytes := bytes.takeWhile (· ≠ 0)

theorem cString_append {name : Bytes} (h : (0 : UInt8) ∉ name) (rest : Bytes) :
    cString (name ++ 0 :: rest) = name := by
  induction name with
  | nil => rfl
  | cons b name ih =>
    rw [List.mem_cons, not_or] at h
    rw [cString, List.cons_append, List.takeWhile_cons, if_pos (by simpa using Ne.symm h.1)]
    exact congrArg (b :: ·) (ih h.2)

def shortBlob (s : Bytes) : Bytes := UInt8.ofNat s.length :: s

def readShortBlobs : Bytes → Option (List Bytes)
  | [] => some []
  | n :: rest =>
    if n.toNat ≤ rest.length then do
      let more ← readShortBlobs (rest.drop n.toNat)
      return rest.take n.toNat :: more
    else none
termination_by bytes => bytes.length
decreasing_by
  rw [List.length_drop, List.length_cons]
  omega

theorem readShortBlobs_append {s : Bytes} (hs : s.length ≤ 255) (rest : Bytes) :
    readShortBlobs (shortBlob s ++ rest) = (readShortBlobs rest).map (s :: ·) := by
  have hlen : (UInt8.ofNat s.length).toNat = s.length := by
    rw [UInt8.toNat_ofNat']
    exact Nat.mod_eq_of_lt (by omega)
  have hle : s.length ≤ (s ++ rest).length := by
    rw [List.length_append]
    exact Nat.le_add_right _ _
  rw [shortBlob, List.cons_append, readShortBlobs, hlen, if_pos hle, List.drop_left,
    List.take_left]
  cases readShortBlobs rest <;> rfl

theorem readShortBlobs_flatten {ss : List Bytes} (hss : ∀ s ∈ ss, s.length ≤ 255) :
    readShortBlobs (ss.map shortBlob).flatten = some ss := by
  induction ss with
  | nil => rw [List.map_nil, List.flatten_nil, readShortBlobs]
  | cons s ss ih =>
    rw [List.map_cons, List.flatten_cons, readShortBlobs_append (hss s List.mem_cons_self),
      ih fun t ht => hss t (List.mem_cons_of_mem s ht)]
    rfl

/-- An encoding that shows where it ends, so that what comes behind can be anything. -/
def SelfDelimiting {α : Type*} (enc : α → Bytes) : Prop :=
  ∀ ⦃a b : α⦄ ⦃x y : Bytes⦄, enc a ++ x = enc b ++ y → a = b ∧ x = y

theorem SelfDelimiting.blob {α : Type*} {enc : α → Bytes} (hinj : ∀ ⦃a b⦄, enc a = enc b → a = b)
    (hfits : ∀ a, (enc a).length < 2 ^ 64) : SelfDelimiting fun a => blob (enc a) := by
  intro a b x y h
  obtain ⟨henc, hrest⟩ := blob_append_inj (hfits a) (hfits b) h
  exact ⟨hinj henc, hrest⟩

theorem SelfDelimiting.inj {α : Type*} {enc : α → Bytes} (henc : SelfDelimiting enc) {a b : α}
    (h : enc a = enc b) : a = b := by
  apply (henc (x := []) (y := []) _).1
  rw [h]

end LuaNet.Lib
