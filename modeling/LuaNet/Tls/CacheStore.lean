import LuaNet.Lib.LossyMap
import LuaNet.Lib.Run
import LuaNet.Lib.SizeT
import Mathlib.Data.List.AList

/-! The two-table store of `tls_cache_store.h`. The strong table holds at most `capacity`
entries; an entry that has to make room moves to the weak table, from which the collector may
drop it. The store is a lossy map, and refines the map of what was last put. -/

namespace LuaNet.Tls

open LuaNet.Lib

variable {K V : Type*} [DecidableEq K]

abbrev Table (K V : Type*) := AList fun _ : K => V

namespace Table

theorem length_insert_of_mem {t : Table K V} {k : K} (v : V) (h : k ∈ t) :
    (t.insert k v).keys.length = t.keys.length := by
  have hmem := AList.mem_keys.mp h
  have hpos := List.length_pos_of_mem hmem
  rw [AList.keys_insert, List.length_cons, List.length_erase_of_mem hmem]
  omega

theorem length_insert_of_notMem {t : Table K V} {k : K} (v : V) (h : k ∉ t) :
    (t.insert k v).keys.length = t.keys.length + 1 := by
  rw [AList.keys_insert, List.length_cons, List.erase_of_not_mem (fun hm => h (AList.mem_keys.mpr hm))]

theorem length_erase_of_mem {t : Table K V} {k : K} (h : k ∈ t) :
    (t.erase k).keys.length + 1 = t.keys.length := by
  have hmem := AList.mem_keys.mp h
  have hpos := List.length_pos_of_mem hmem
  rw [AList.keys_erase, List.length_erase_of_mem hmem]
  omega

theorem lookup_insert_update (t : Table K V) (k : K) (v : V) :
    (fun k' => (t.insert k v).lookup k') = Function.update (fun k' => t.lookup k') k (some v) := by
  funext k'
  by_cases hk : k' = k
  · subst hk
    rw [Function.update_self, AList.lookup_insert]
  · rw [Function.update_of_ne hk, AList.lookup_insert_ne hk]

theorem lookup_erase_update (t : Table K V) (k : K) :
    (fun k' => (t.erase k).lookup k') = Function.update (fun k' => t.lookup k') k none := by
  funext k'
  by_cases hk : k' = k
  · subst hk
    rw [Function.update_self, AList.lookup_erase]
  · rw [Function.update_of_ne hk, AList.lookup_erase_ne hk]

end Table

/-- The entry `lua_next` yields first: any entry, as the key `pick` says. -/
def luaNext (t : Table K V) (pick : K) : Option (K × V) :=
  match t.lookup pick with
  | some v => some (pick, v)
  | none => t.entries.head?.map fun e => (e.1, e.2)

theorem luaNext_some {t : Table K V} {pick k : K} {v : V} (h : luaNext t pick = some (k, v)) :
    t.lookup k = some v := by
  unfold luaNext at h
  split at h
  · next hv =>
    cases h
    exact hv
  · obtain ⟨e, he, heq⟩ := Option.map_eq_some_iff.mp h
    cases heq
    exact AList.mem_lookup_iff.mpr (List.mem_of_mem_head? he)

theorem luaNext_none {t : Table K V} {pick : K} (h : luaNext t pick = none) : t.keys = [] := by
  unfold luaNext at h
  split at h
  · cases h
  · rw [AList.keys, List.head?_eq_none_iff.mp (Option.map_eq_none_iff.mp h), List.keys_nil]

/-- The references are absent (`LUA_NOREF`) when nothing is to be retained. -/
structure TlsCacheStore (K V : Type*) where
  capacity : Nat
  ncached : Nat
  refCache : Option (Table K V)
  refWeak : Option (Table K V)

def TlsCacheStore.cache (s : TlsCacheStore K V) : Table K V := s.refCache.getD ∅

def TlsCacheStore.weak (s : TlsCacheStore K V) : Table K V := s.refWeak.getD ∅

def tlsCacheStoreInit (capacity : SizeT) : TlsCacheStore K V :=
  if capacity.val = 0 then
    { capacity := capacity.val, ncached := 0, refCache := none, refWeak := none }
  else
    { capacity := capacity.val, ncached := 0, refCache := some ∅, refWeak := some ∅ }

def tlsCacheStoreClear (s : TlsCacheStore K V) : TlsCacheStore K V :=
  if s.capacity = 0 then s
  else { s with ncached := 0, refCache := some ∅, refWeak := some ∅ }

def storeEvict (s : TlsCacheStore K V) (pick : K) : TlsCacheStore K V × Option K :=
  match luaNext s.cache pick with
  | some (oldkey, oldval) =>
    ({ s with
        ncached := sizeSub s.ncached 1
        refCache := some (s.cache.erase oldkey)
        refWeak := some (s.weak.insert oldkey oldval) }, some oldkey)
  | none => (s, none)

def storeMakeRoom (s : TlsCacheStore K V) (key pick : K) : TlsCacheStore K V × Option K :=
  if (s.cache.lookup key).isNone ∧ s.capacity ≤ s.ncached then storeEvict s pick else (s, none)

def storeInsert (s : TlsCacheStore K V) (key : K) (value : V) : TlsCacheStore K V :=
  { s with
    ncached := if (s.cache.lookup key).isNone then sizeAdd s.ncached 1 else s.ncached
    refCache := some (s.cache.insert key value)
    refWeak := some (s.weak.erase key) }

def tlsCacheStorePut (s : TlsCacheStore K V) (key : K) (value : V) (pick : K) :
    TlsCacheStore K V × Option K :=
  if s.capacity = 0 then (s, none)
  else
    let (s', evicted) := storeMakeRoom s key pick
    (storeInsert s' key value, evicted)

/-- A weak hit is promoted, which may evict another entry. -/
def tlsCacheStoreGet (s : TlsCacheStore K V) (key pick : K) :
    Option V × TlsCacheStore K V × Option K :=
  if s.capacity = 0 then (none, s, none)
  else
    match s.cache.lookup key with
    | some v => (some v, s, none)
    | none =>
      match s.weak.lookup key with
      | some v => (some v, tlsCacheStorePut s key v pick)
      | none => (none, s, none)

def tlsCacheStoreTake (s : TlsCacheStore K V) (key : K) : Option V × TlsCacheStore K V :=
  if s.capacity = 0 then (none, s)
  else
    match s.cache.lookup key with
    | some v =>
      (some v, { s with
        ncached := sizeSub s.ncached 1
        refCache := some (s.cache.erase key) })
    | none =>
      match s.weak.lookup key with
      -- only strong entries are counted
      | some v => (some v, { s with refWeak := some (s.weak.erase key) })
      | none => (none, s)

def storeCollect (s : TlsCacheStore K V) (keys : List K) : TlsCacheStore K V :=
  { s with refWeak := s.refWeak.map fun t => keys.foldl (fun t k => t.erase k) t }

inductive StoreOp (K V : Type*)
  | put (key : K) (value : V) (pick : K)
  | get (key pick : K)
  | take (key : K)
  | clear
  | collect (keys : List K)

def storeStep (s : TlsCacheStore K V) : StoreOp K V → TlsCacheStore K V × List (MapEvent K V)
  | .put key value pick =>
    let (s', evicted) := tlsCacheStorePut s key value pick
    (s', if s.capacity = 0 then [] else evicted.toList.map .demote ++ [.put key value])
  | .get key pick =>
    let (_, s', evicted) := tlsCacheStoreGet s key pick
    (s', evicted.toList.map .demote ++ [.promote key])
  | .take key => ((tlsCacheStoreTake s key).2, [.take key])
  | .clear => (tlsCacheStoreClear s, [.clear])
  | .collect keys => (storeCollect s keys, keys.map .collect)

/-- The representation invariant: the counter is the size of the strong table and within the
capacity, the two tables share no key, and there are tables exactly when there is capacity. -/
structure TlsCacheStore.RepInv (s : TlsCacheStore K V) : Prop where
  fits : s.capacity < 2 ^ 64
  count : s.ncached = s.cache.keys.length
  bounded : s.ncached ≤ s.capacity
  disjoint : ∀ k, k ∈ s.cache → k ∉ s.weak
  absent : s.capacity = 0 → s.refCache = none ∧ s.refWeak = none

def TlsCacheStore.levels (s : TlsCacheStore K V) : LossyMap K V :=
  ⟨fun k => s.cache.lookup k, fun k => s.weak.lookup k⟩

section Store

variable {s : TlsCacheStore K V}

omit [DecidableEq K] in
theorem tlsCacheStoreInit_repInv (capacity : SizeT) :
    (tlsCacheStoreInit capacity : TlsCacheStore K V).RepInv := by
  unfold tlsCacheStoreInit
  split
  · next hzero =>
    exact ⟨capacity.fits, rfl, Nat.zero_le _, fun k hk => absurd hk (AList.notMem_empty k),
      fun _ => ⟨rfl, rfl⟩⟩
  · next hne =>
    exact ⟨capacity.fits, rfl, Nat.zero_le _, fun k hk => absurd hk (AList.notMem_empty k),
      fun hzero => absurd hzero hne⟩

theorem tlsCacheStoreInit_levels (capacity : SizeT) :
    (tlsCacheStoreInit capacity : TlsCacheStore K V).levels = LossyMap.empty := by
  unfold tlsCacheStoreInit
  split
  · rfl
  · rfl

theorem TlsCacheStore.RepInv.levels_empty (h : s.RepInv) (hzero : s.capacity = 0) :
    s.levels = LossyMap.empty := by
  obtain ⟨hcache, hweak⟩ := h.absent hzero
  simp only [levels, cache, weak, hcache, hweak]
  rfl

theorem visible_of_strong {key : K} {v : V} (hv : s.cache.lookup key = some v) :
    s.levels.visible key = some v :=
  (congrArg (Option.or · _) hv).trans Option.some_or

theorem visible_of_weak {key : K} (hnone : s.cache.lookup key = none) :
    s.levels.visible key = s.weak.lookup key :=
  (congrArg (Option.or · _) hnone).trans Option.none_or

theorem storeEvict_spec (h : s.RepInv) (hfull : s.capacity ≤ s.ncached) (hpos : s.capacity ≠ 0)
    (pick : K) :
    ∃ old v, s.cache.lookup old = some v ∧
      storeEvict s pick =
        ({ s with
            ncached := s.ncached - 1
            refCache := some (s.cache.erase old)
            refWeak := some (s.weak.insert old v) }, some old) := by
  unfold storeEvict
  split
  · next old v hnext =>
    refine ⟨old, v, luaNext_some hnext, ?_⟩
    rw [sizeSub_eq (Nat.lt_of_le_of_lt h.bounded h.fits) (by omega)]
  · next hnext =>
    have hlen := h.count
    rw [luaNext_none hnext, List.length_nil] at hlen
    omega

theorem storeEvict_repInv (h : s.RepInv) (hfull : s.capacity ≤ s.ncached) (hpos : s.capacity ≠ 0)
    (pick : K) :
    (storeEvict s pick).1.RepInv ∧
      (storeEvict s pick).1.ncached < (storeEvict s pick).1.capacity := by
  obtain ⟨old, v, hold, heq⟩ := storeEvict_spec h hfull hpos pick
  have hmem : old ∈ s.cache := AList.lookup_isSome.mp (by rw [hold, Option.isSome_some])
  have hlen := Table.length_erase_of_mem hmem
  have hcount := h.count
  have hbounded := h.bounded
  rw [heq]
  refine ⟨⟨h.fits, ?_, ?_, ?_, fun hzero => absurd hzero hpos⟩, ?_⟩
  · show s.ncached - 1 = (s.cache.erase old).keys.length
    omega
  · show s.ncached - 1 ≤ s.capacity
    omega
  · intro k hk hk'
    obtain ⟨hne, hk⟩ := AList.mem_erase.mp hk
    rcases (AList.mem_insert _).mp hk' with heq | hk'
    · exact hne heq
    · exact h.disjoint k hk hk'
  · show s.ncached - 1 < s.capacity
    omega

theorem storeEvict_levels (h : s.RepInv) (hfull : s.capacity ≤ s.ncached) (hpos : s.capacity ≠ 0)
    (pick : K) :
    (storeEvict s pick).1.levels =
      s.levels.run ((storeEvict s pick).2.toList.map .demote) := by
  obtain ⟨old, v, hold, heq⟩ := storeEvict_spec h hfull hpos pick
  have hstrong : s.levels.strong old = some v := hold
  rw [heq]
  simp only [Option.toList_some, List.map_cons, List.map_nil, LossyMap.run, List.foldl_cons,
    List.foldl_nil, LossyMap.apply, hstrong]
  refine congrArg₂ LossyMap.mk (Table.lookup_erase_update _ _) (Table.lookup_insert_update _ _ _)

structure RoomSpec (s : TlsCacheStore K V) (key : K) (s' : TlsCacheStore K V)
    (evicted : Option K) : Prop where
  repInv : s'.RepInv
  capacity : s'.capacity = s.capacity
  room : key ∉ s'.cache → s'.ncached < s'.capacity
  strong : s'.cache.lookup key = s.cache.lookup key
  weak : s'.weak.lookup key = s.weak.lookup key
  levels : s'.levels = s.levels.run (evicted.toList.map .demote)

theorem storeMakeRoom_spec (h : s.RepInv) (hpos : s.capacity ≠ 0) (key pick : K) :
    RoomSpec s key (storeMakeRoom s key pick).1 (storeMakeRoom s key pick).2 := by
  unfold storeMakeRoom
  split
  · next hfull =>
    obtain ⟨hnone, hfull⟩ := hfull
    have hkey : s.cache.lookup key = none := Option.isNone_iff_eq_none.mp hnone
    obtain ⟨hrep, hroom⟩ := storeEvict_repInv h hfull hpos pick
    refine ⟨hrep, ?_, fun _ => hroom, ?_, ?_, storeEvict_levels h hfull hpos pick⟩
    all_goals
      obtain ⟨old, v, hold, heq⟩ := storeEvict_spec h hfull hpos pick
      have hne : key ≠ old := by
        rintro rfl
        rw [hkey] at hold
        cases hold
      rw [heq]
    · exact AList.lookup_erase_ne hne
    · exact AList.lookup_insert_ne hne
  · next hroom =>
    refine ⟨h, rfl, fun hkey => ?_, rfl, rfl, rfl⟩
    rw [← AList.lookup_eq_none, ← Option.isNone_iff_eq_none] at hkey
    exact Nat.lt_of_not_le fun hfull => hroom ⟨hkey, hfull⟩

theorem storeInsert_repInv (h : s.RepInv) (hpos : s.capacity ≠ 0) {key : K}
    (hroom : key ∉ s.cache → s.ncached < s.capacity) (value : V) :
    (storeInsert s key value).RepInv := by
  have hfits := h.fits
  have hcount := h.count
  have hcache : (storeInsert s key value).cache = s.cache.insert key value := rfl
  have hweak : (storeInsert s key value).weak = s.weak.erase key := rfl
  have hncached : (storeInsert s key value).ncached = (s.cache.insert key value).keys.length ∧
      (storeInsert s key value).ncached ≤ s.capacity := by
    simp only [storeInsert, Option.isNone_iff_eq_none, AList.lookup_eq_none]
    by_cases hkey : key ∈ s.cache
    · rw [if_neg (fun hn => hn hkey), Table.length_insert_of_mem value hkey]
      exact ⟨hcount, h.bounded⟩
    · have hlt := hroom hkey
      rw [if_pos hkey, Table.length_insert_of_notMem value hkey, sizeAdd_eq (by omega)]
      exact ⟨by omega, by omega⟩
  refine ⟨hfits, hncached.1, hncached.2, fun k hk hk' => ?_, fun hzero => absurd hzero hpos⟩
  rw [hcache, AList.mem_insert] at hk
  rw [hweak, AList.mem_erase] at hk'
  rcases hk with rfl | hk
  · exact hk'.1 rfl
  · exact h.disjoint k hk hk'.2

theorem storeInsert_levels (s : TlsCacheStore K V) (key : K) (value : V) :
    (storeInsert s key value).levels = s.levels.apply (.put key value) :=
  congrArg₂ LossyMap.mk (Table.lookup_insert_update _ _ _) (Table.lookup_erase_update _ _)

theorem tlsCacheStorePut_repInv (h : s.RepInv) (key : K) (value : V) (pick : K) :
    (tlsCacheStorePut s key value pick).1.RepInv := by
  unfold tlsCacheStorePut
  split
  · exact h
  · next hpos =>
    have hroom := storeMakeRoom_spec h hpos key pick
    refine storeInsert_repInv hroom.repInv ?_ hroom.room value
    rw [hroom.capacity]
    exact hpos

theorem tlsCacheStorePut_levels (h : s.RepInv) (hpos : s.capacity ≠ 0) (key : K) (value : V)
    (pick : K) :
    (tlsCacheStorePut s key value pick).1.levels =
      s.levels.run
        ((tlsCacheStorePut s key value pick).2.toList.map .demote ++ [.put key value]) := by
  simp only [tlsCacheStorePut, if_neg hpos]
  rw [storeInsert_levels, (storeMakeRoom_spec h hpos key pick).levels, LossyMap.run_snoc]

theorem tlsCacheStorePut_visible (h : s.RepInv) (hpos : s.capacity ≠ 0) (key : K) (value : V)
    (pick k : K) :
    (tlsCacheStorePut s key value pick).1.levels.visible k =
      if k = key then some value else s.levels.visible k := by
  rw [tlsCacheStorePut_levels h hpos, LossyMap.run_snoc]
  split
  · next hk =>
    subst hk
    simp only [LossyMap.visible, LossyMap.apply, Function.update_self, Option.some_or]
  · next hk =>
    simp only [LossyMap.visible, LossyMap.apply, Function.update_of_ne hk]
    cases (tlsCacheStorePut s key value pick).2 with
    | none => rfl
    | some old => exact LossyMap.apply_demote_visible s.levels old k

theorem tlsCacheStoreGet_value (h : s.RepInv) (key pick : K) :
    (tlsCacheStoreGet s key pick).1 = s.levels.visible key := by
  unfold tlsCacheStoreGet
  split
  · next hzero =>
    rw [h.levels_empty hzero]
    rfl
  · split
    · next hv => exact (visible_of_strong hv).symm
    · next hnone =>
      rw [visible_of_weak hnone]
      split
      · next hv => exact hv.symm
      · next hv => exact hv.symm

theorem tlsCacheStoreGet_visible (h : s.RepInv) (key pick k : K) :
    (tlsCacheStoreGet s key pick).2.1.levels.visible k = s.levels.visible k := by
  unfold tlsCacheStoreGet
  split
  · rfl
  · next hpos =>
    split
    · rfl
    · next hnone =>
      split
      · next v hv =>
        rw [tlsCacheStorePut_visible h hpos]
        split
        · next hk =>
          subst hk
          rw [visible_of_weak hnone, hv]
        · rfl
      · rfl

theorem tlsCacheStoreGet_repInv (h : s.RepInv) (key pick : K) :
    (tlsCacheStoreGet s key pick).2.1.RepInv := by
  unfold tlsCacheStoreGet
  split
  · exact h
  · split
    · exact h
    · split
      · exact tlsCacheStorePut_repInv h _ _ _
      · exact h

theorem tlsCacheStoreGet_levels (h : s.RepInv) (key pick : K) :
    (tlsCacheStoreGet s key pick).2.1.levels =
      s.levels.run
        ((tlsCacheStoreGet s key pick).2.2.toList.map .demote ++ [.promote key]) := by
  have hnoop (hweak : s.weak.lookup key = none) : s.levels = s.levels.run [.promote key] := by
    simp only [LossyMap.run, List.foldl_cons, List.foldl_nil, LossyMap.apply, TlsCacheStore.levels,
      hweak]
  unfold tlsCacheStoreGet
  split
  · next hzero => exact hnoop (congrFun (congrArg LossyMap.weak (h.levels_empty hzero)) key)
  · next hpos =>
    split
    · next hv =>
      refine hnoop (AList.lookup_eq_none.mpr (h.disjoint key ?_))
      exact AList.lookup_isSome.mp (by rw [hv, Option.isSome_some])
    · next hnone =>
      split
      · next v hv =>
        -- a put of the weak value does what promoting it does
        have hroom := storeMakeRoom_spec h hpos key pick
        have hweak : (storeMakeRoom s key pick).1.levels.weak key = some v := hroom.weak.trans hv
        simp only [tlsCacheStorePut, if_neg hpos]
        rw [storeInsert_levels, LossyMap.run_snoc, ← hroom.levels]
        simp only [LossyMap.apply, hweak]
      · next hv => exact hnoop hv

theorem tlsCacheStoreTake_value (h : s.RepInv) (key : K) :
    (tlsCacheStoreTake s key).1 = s.levels.visible key := by
  unfold tlsCacheStoreTake
  split
  · next hzero =>
    rw [h.levels_empty hzero]
    rfl
  · split
    · next hv => exact (visible_of_strong hv).symm
    · next hnone =>
      rw [visible_of_weak hnone]
      split
      · next hv => exact hv.symm
      · next hv => exact hv.symm

theorem tlsCacheStoreTake_spec (h : s.RepInv) (key : K) :
    (tlsCacheStoreTake s key).2.RepInv ∧
      (tlsCacheStoreTake s key).2.levels = s.levels.run [.take key] := by
  have hrun (m : LossyMap K V) (hm : m = ⟨Function.update s.levels.strong key none,
      Function.update s.levels.weak key none⟩) : m = s.levels.run [.take key] := hm
  have hnone_update {f : K → Option V} (hf : f key = none) : f = Function.update f key none := by
    rw [← hf, Function.update_eq_self]
  unfold tlsCacheStoreTake
  split
  · next hzero =>
    have hempty := h.levels_empty hzero
    exact ⟨h, hrun _ (congrArg₂ LossyMap.mk
      (hnone_update (congrFun (congrArg LossyMap.strong hempty) key))
      (hnone_update (congrFun (congrArg LossyMap.weak hempty) key)))⟩
  · next hpos =>
    split
    · next v hv =>
      have hmem : key ∈ s.cache := AList.lookup_isSome.mp (by rw [hv, Option.isSome_some])
      have hlen := Table.length_erase_of_mem hmem
      have hcount := h.count
      have hbounded := h.bounded
      have hsub : sizeSub s.ncached 1 = s.ncached - 1 :=
        sizeSub_eq (Nat.lt_of_le_of_lt h.bounded h.fits) (by omega)
      refine ⟨⟨h.fits, ?_, ?_, ?_, fun hzero => absurd hzero hpos⟩, hrun _
        (congrArg₂ LossyMap.mk (Table.lookup_erase_update _ _)
          (hnone_update (AList.lookup_eq_none.mpr (h.disjoint key hmem))))⟩
      · show sizeSub s.ncached 1 = (s.cache.erase key).keys.length
        omega
      · show sizeSub s.ncached 1 ≤ s.capacity
        omega
      · intro k hk hk'
        exact h.disjoint k (AList.mem_erase.mp hk).2 hk'
    · next hnone =>
      split
      · refine ⟨⟨h.fits, h.count, h.bounded, ?_, fun hzero => absurd hzero hpos⟩, hrun _
          (congrArg₂ LossyMap.mk (hnone_update hnone) (Table.lookup_erase_update _ _))⟩
        intro k hk hk'
        exact h.disjoint k hk (AList.mem_erase.mp hk').2
      · next hweak =>
        exact ⟨h, hrun _ (congrArg₂ LossyMap.mk (hnone_update hnone) (hnone_update hweak))⟩

theorem tlsCacheStoreClear_spec (h : s.RepInv) :
    (tlsCacheStoreClear s).RepInv ∧ (tlsCacheStoreClear s).levels = s.levels.run [.clear] := by
  unfold tlsCacheStoreClear
  split
  · next hzero => exact ⟨h, h.levels_empty hzero⟩
  · next hpos =>
    exact ⟨⟨h.fits, rfl, Nat.zero_le _, fun k hk => absurd hk (AList.notMem_empty k),
      fun hzero => absurd hzero hpos⟩, rfl⟩

omit [DecidableEq K] in
theorem tlsCacheStoreClear_empty (h : s.RepInv) :
    (tlsCacheStoreClear s).ncached = 0 ∧ (tlsCacheStoreClear s).cache = ∅ ∧
      (tlsCacheStoreClear s).weak = ∅ := by
  unfold tlsCacheStoreClear
  split
  · next hzero =>
    obtain ⟨hcache, hweak⟩ := h.absent hzero
    refine ⟨Nat.le_zero.mp (hzero ▸ h.bounded), ?_, ?_⟩
    · rw [TlsCacheStore.cache, hcache, Option.getD_none]
    · rw [TlsCacheStore.weak, hweak, Option.getD_none]
  · exact ⟨rfl, rfl, rfl⟩

theorem storeCollect_weak (s : TlsCacheStore K V) (keys : List K) :
    (storeCollect s keys).weak = keys.foldl (fun t k => t.erase k) s.weak := by
  cases hweak : s.refWeak with
  | none =>
    have hempty : keys.foldl (fun (t : Table K V) k => t.erase k) ∅ = ∅ := by
      induction keys with
      | nil => rfl
      | cons key keys ih => exact ih
    simp only [storeCollect, TlsCacheStore.weak, hweak, Option.map_none, Option.getD_none, hempty]
  | some t => simp only [storeCollect, TlsCacheStore.weak, hweak, Option.map_some, Option.getD_some]

theorem collect_lookup {t : Table K V} {keys : List K} {k : K} {v : V}
    (h : (keys.foldl (fun t k => t.erase k) t).lookup k = some v) : t.lookup k = some v := by
  induction keys generalizing t with
  | nil => exact h
  | cons key keys ih =>
    have hk := ih h
    by_cases heq : k = key
    · subst heq
      rw [AList.lookup_erase] at hk
      cases hk
    · rwa [AList.lookup_erase_ne heq] at hk

theorem collect_levels (t : Table K V) (keys : List K) (strong : K → Option V) :
    LossyMap.mk strong (fun k => (keys.foldl (fun t k => t.erase k) t).lookup k) =
      (LossyMap.mk strong fun k => t.lookup k).run (keys.map .collect) := by
  induction keys generalizing t with
  | nil => rfl
  | cons key keys ih =>
    rw [List.foldl_cons, ih, Table.lookup_erase_update]
    rfl

theorem storeCollect_visible {keys : List K} {k : K} {v : V}
    (h : (storeCollect s keys).levels.visible k = some v) : s.levels.visible k = some v := by
  rcases Option.or_eq_some_iff.mp h with hs | ⟨hs, hw⟩
  · exact visible_of_strong hs
  · have hnone : s.cache.lookup k = none := hs
    rw [visible_of_weak hnone]
    have hw : (storeCollect s keys).weak.lookup k = some v := hw
    rw [storeCollect_weak] at hw
    exact collect_lookup hw

theorem storeCollect_spec (h : s.RepInv) (keys : List K) :
    (storeCollect s keys).RepInv ∧
      (storeCollect s keys).levels = s.levels.run (keys.map .collect) := by
  refine ⟨⟨h.fits, h.count, h.bounded, fun k hk hk' => ?_, fun hzero => ?_⟩, ?_⟩
  · obtain ⟨v, hv⟩ := Option.isSome_iff_exists.mp (AList.lookup_isSome.mpr hk')
    rw [storeCollect_weak] at hv
    refine h.disjoint k hk (AList.lookup_isSome.mp ?_)
    rw [collect_lookup hv, Option.isSome_some]
  · obtain ⟨hcache, hweak⟩ := h.absent hzero
    exact ⟨hcache, by simp only [storeCollect, hweak, Option.map_none]⟩
  · rw [TlsCacheStore.levels, storeCollect_weak]
    exact collect_levels s.weak keys _

end Store

/-! What the tables may hold, whatever the state of the counter. -/

def TlsCacheStore.Holds (s : TlsCacheStore K V) (k : K) (v : V) : Prop :=
  s.cache.lookup k = some v ∨ s.weak.lookup k = some v

/-- Where a put that raises an error has got to. -/
inductive PutFault
  | start
  | evicted
  | inserted

def tlsCacheStorePutFaulty (s : TlsCacheStore K V) (key : K) (value : V) (pick : K) :
    PutFault → TlsCacheStore K V
  | .start => s
  | .evicted => if s.capacity = 0 then s else (storeMakeRoom s key pick).1
  | .inserted =>
    if s.capacity = 0 then s
    else { storeInsert (storeMakeRoom s key pick).1 key value with
      refWeak := (storeMakeRoom s key pick).1.refWeak }

section Holds

variable {s : TlsCacheStore K V} {key k pick : K} {value v : V}

theorem lookup_insert_some {t : Table K V} (h : (t.insert key value).lookup k = some v) :
    k = key ∧ v = value ∨ t.lookup k = some v := by
  by_cases hk : k = key
  · subst hk
    rw [AList.lookup_insert] at h
    exact .inl ⟨rfl, (Option.some.inj h).symm⟩
  · rw [AList.lookup_insert_ne hk] at h
    exact .inr h

theorem lookup_erase_some {t : Table K V} (h : (t.erase key).lookup k = some v) :
    t.lookup k = some v := by
  by_cases hk : k = key
  · subst hk
    rw [AList.lookup_erase] at h
    cases h
  · rwa [AList.lookup_erase_ne hk] at h

theorem tlsCacheStoreInit_holds (capacity : SizeT) :
    ¬ (tlsCacheStoreInit capacity : TlsCacheStore K V).Holds k v := by
  have hlevels := tlsCacheStoreInit_levels (K := K) (V := V) capacity
  rintro (h | h)
  · exact absurd ((congrFun (congrArg LossyMap.strong hlevels) k).symm.trans h) (nomatch ·)
  · exact absurd ((congrFun (congrArg LossyMap.weak hlevels) k).symm.trans h) (nomatch ·)

theorem storeMakeRoom_holds (h : (storeMakeRoom s key pick).1.Holds k v) : s.Holds k v := by
  unfold storeMakeRoom storeEvict at h
  split at h
  · split at h
    · next hnext =>
      rcases h with h | h
      · exact .inl (lookup_erase_some h)
      · rcases lookup_insert_some h with ⟨rfl, rfl⟩ | h
        · exact .inl (luaNext_some hnext)
        · exact .inr h
    · exact h
  · exact h

theorem storeInsert_holds (h : (storeInsert s key value).Holds k v) :
    k = key ∧ v = value ∨ s.Holds k v := by
  rcases h with h | h
  · exact (lookup_insert_some h).imp_right .inl
  · exact .inr (.inr (lookup_erase_some h))

theorem tlsCacheStorePut_holds (h : (tlsCacheStorePut s key value pick).1.Holds k v) :
    k = key ∧ v = value ∨ s.Holds k v := by
  unfold tlsCacheStorePut at h
  split at h
  · exact .inr h
  · exact (storeInsert_holds h).imp_right storeMakeRoom_holds

theorem tlsCacheStorePutFaulty_holds {fault : PutFault}
    (h : (tlsCacheStorePutFaulty s key value pick fault).Holds k v) :
    k = key ∧ v = value ∨ s.Holds k v := by
  cases fault with
  | start => exact .inr h
  | evicted =>
    simp only [tlsCacheStorePutFaulty] at h
    split at h
    · exact .inr h
    · exact .inr (storeMakeRoom_holds h)
  | inserted =>
    simp only [tlsCacheStorePutFaulty] at h
    split at h
    · exact .inr h
    · rcases h with h | h
      · exact (lookup_insert_some h).imp_right fun hk => storeMakeRoom_holds (.inl hk)
      · exact .inr (storeMakeRoom_holds (.inr h))

theorem tlsCacheStoreTake_holds (h : (tlsCacheStoreTake s key).2.Holds k v) : s.Holds k v := by
  unfold tlsCacheStoreTake at h
  split at h
  · exact h
  · split at h
    · exact h.imp_left lookup_erase_some
    · split at h
      · exact h.imp_right lookup_erase_some
      · exact h

theorem tlsCacheStoreTake_some (h : (tlsCacheStoreTake s key).1 = some v) : s.Holds key v := by
  unfold tlsCacheStoreTake at h
  split at h
  · cases h
  · split at h
    · next hv => exact .inl (hv.trans h)
    · split at h
      · next hv => exact .inr (hv.trans h)
      · cases h

theorem tlsCacheStoreClear_holds (h : (tlsCacheStoreClear s).Holds k v) : s.Holds k v := by
  unfold tlsCacheStoreClear at h
  split at h
  · exact h
  · rcases h with h | h <;> cases h

theorem storeCollect_holds {keys : List K} (h : (storeCollect s keys).Holds k v) : s.Holds k v := by
  rcases h with h | h
  · exact .inl h
  · rw [storeCollect_weak] at h
    exact .inr (collect_lookup h)

end Holds

section Capacity

theorem storeMakeRoom_capacity (s : TlsCacheStore K V) (key pick : K) :
    (storeMakeRoom s key pick).1.capacity = s.capacity := by
  unfold storeMakeRoom storeEvict
  split
  · split
    · rfl
    · rfl
  · rfl

theorem tlsCacheStorePut_capacity (s : TlsCacheStore K V) (key : K) (value : V) (pick : K) :
    (tlsCacheStorePut s key value pick).1.capacity = s.capacity := by
  unfold tlsCacheStorePut
  split
  · rfl
  · exact storeMakeRoom_capacity s key pick

theorem tlsCacheStoreGet_capacity (s : TlsCacheStore K V) (key pick : K) :
    (tlsCacheStoreGet s key pick).2.1.capacity = s.capacity := by
  unfold tlsCacheStoreGet
  split
  · rfl
  · split
    · rfl
    · split
      · exact tlsCacheStorePut_capacity _ _ _ _
      · rfl

theorem tlsCacheStoreTake_capacity (s : TlsCacheStore K V) (key : K) :
    (tlsCacheStoreTake s key).2.capacity = s.capacity := by
  unfold tlsCacheStoreTake
  split
  · rfl
  · split
    · rfl
    · split
      · rfl
      · rfl

omit [DecidableEq K] in
theorem tlsCacheStoreClear_capacity (s : TlsCacheStore K V) :
    (tlsCacheStoreClear s).capacity = s.capacity := by
  unfold tlsCacheStoreClear
  split
  · rfl
  · rfl

theorem storeStep_capacity (s : TlsCacheStore K V) (op : StoreOp K V) :
    (storeStep s op).1.capacity = s.capacity := by
  cases op with
  | put key value pick => exact tlsCacheStorePut_capacity s key value pick
  | get key pick => exact tlsCacheStoreGet_capacity s key pick
  | take key => exact tlsCacheStoreTake_capacity s key
  | clear => exact tlsCacheStoreClear_capacity s
  | collect keys => rfl

end Capacity

/-- Every step keeps the invariant and refines the events it reports. -/
theorem storeStep_spec (s : TlsCacheStore K V) (op : StoreOp K V) (h : s.RepInv) :
    (storeStep s op).1.RepInv ∧ (storeStep s op).1.levels = s.levels.run (storeStep s op).2 := by
  cases op with
  | put key value pick =>
    refine ⟨tlsCacheStorePut_repInv h key value pick, ?_⟩
    by_cases hzero : s.capacity = 0
    · simp only [storeStep, tlsCacheStorePut, hzero, if_true]
      rfl
    · simp only [storeStep, if_neg hzero]
      exact tlsCacheStorePut_levels h hzero key value pick
  | get key pick => exact ⟨tlsCacheStoreGet_repInv h key pick, tlsCacheStoreGet_levels h key pick⟩
  | take key => exact tlsCacheStoreTake_spec h key
  | clear => exact tlsCacheStoreClear_spec h
  | collect keys => exact storeCollect_spec h keys

theorem storeRuns_repInv (capacity : SizeT) (ops : List (StoreOp K V)) :
    (runs storeStep (tlsCacheStoreInit capacity) ops).1.RepInv :=
  runs_invariant (fun s op h => (storeStep_spec s op h).1) (tlsCacheStoreInit_repInv capacity) ops

theorem storeRuns_capacity (capacity : SizeT) (ops : List (StoreOp K V)) :
    (runs storeStep (tlsCacheStoreInit capacity) ops).1.capacity = capacity.val := by
  refine runs_invariant (I := fun s => s.capacity = capacity.val)
    (fun s op h => (storeStep_capacity s op).trans h) ?_ ops
  unfold tlsCacheStoreInit
  split
  · rfl
  · rfl

theorem storeRuns_levels (capacity : SizeT) (ops : List (StoreOp K V)) :
    (runs storeStep (tlsCacheStoreInit capacity) ops).1.levels =
      LossyMap.empty.run (runs storeStep (tlsCacheStoreInit capacity) ops).2 := by
  have htrace := runs_trace (R := fun s es t => t.levels = s.levels.run es) storeStep_spec
    (fun _ => rfl) (fun h h' => by rw [h', h, LossyMap.run_append])
    (tlsCacheStoreInit_repInv (K := K) (V := V) capacity) ops
  rw [htrace, tlsCacheStoreInit_levels]

end LuaNet.Tls
