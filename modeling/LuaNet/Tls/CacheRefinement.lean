import LuaNet.Tls.CacheStore
import Mathlib.Data.List.Nodup

/-! The cache store refines the map of what was last put: it answers with that value or with
nothing, and with nothing only after an eviction and a collection, or without capacity. -/

namespace LuaNet.Tls

open LuaNet.Lib

variable {K V : Type*} [DecidableEq K]

def specStep (m : Table K V) : StoreOp K V → Table K V
  | .put key value _ => m.insert key value
  | .get _ _ => m
  | .take key => m.erase key
  | .clear => ∅
  | .collect _ => m

def specRun (ops : List (StoreOp K V)) : Table K V := ops.foldl specStep ∅

theorem specRun_snoc (ops : List (StoreOp K V)) (op : StoreOp K V) :
    specRun (ops ++ [op]) = specStep (specRun ops) op := List.foldl_append

theorem specRun_notPut {ops ops' : List (StoreOp K V)} {k : K}
    (h : (specRun ops).lookup k = none) (hput : ∀ v pick, .put k v pick ∉ ops') :
    (specRun (ops ++ ops')).lookup k = none := by
  induction ops' using List.reverseRecOn with
  | nil => rwa [List.append_nil]
  | append_singleton ops' op ih =>
    have ih := ih fun v pick hm => hput v pick (List.mem_append_left _ hm)
    rw [← List.append_assoc, specRun_snoc]
    cases op with
    | put key value pick =>
      have hk : k ≠ key := by
        rintro rfl
        exact hput value pick (List.mem_append_right _ (List.mem_singleton_self _))
      rw [specStep, AList.lookup_insert_ne hk, ih]
    | get key pick => exact ih
    | take key =>
      by_cases hk : k = key
      · subst hk
        exact AList.lookup_erase _ _
      · rw [specStep, AList.lookup_erase_ne hk, ih]
    | clear => exact AList.lookup_empty k
    | collect keys => exact ih

section Trace

variable {s : TlsCacheStore K V}

omit [DecidableEq K] in
theorem demotes_frame (evicted : Option K) (k : K) :
    ∀ e ∈ evicted.toList.map (MapEvent.demote : K → MapEvent K V), ¬ e.Writes k := by
  intro e he
  obtain ⟨old, -, rfl⟩ := List.mem_map.mp he
  exact not_false

theorem specStep_lookup (hpos : s.capacity ≠ 0) {m : Table K V} {es : List (MapEvent K V)}
    (h : ∀ k, m.lookup k = LossyMap.lastPut es k) (op : StoreOp K V) (k : K) :
    (specStep m op).lookup k = LossyMap.lastPut (es ++ (storeStep s op).2) k := by
  have hframe {fs : List (MapEvent K V)} (hfs : ∀ e ∈ fs, ¬ e.Writes k) :
      m.lookup k = LossyMap.lastPut (es ++ fs) k := by
    rw [LossyMap.lastPut_append_frame hfs]
    exact h k
  cases op with
  | put key value pick =>
    simp only [storeStep, if_neg hpos, specStep]
    rw [← List.append_assoc]
    by_cases hk : k = key
    · subst hk
      rw [AList.lookup_insert, LossyMap.lastPut_put]
    · have hw : ¬ (MapEvent.put key value).Writes k := fun heq => hk (Eq.symm heq)
      rw [AList.lookup_insert_ne hk, LossyMap.lastPut_frame hw]
      exact hframe (demotes_frame _ k)
  | get key pick =>
    refine hframe fun e he => ?_
    rcases List.mem_append.mp he with he | he
    · exact demotes_frame _ k e he
    · rw [List.mem_singleton.mp he]
      exact not_false
  | take key =>
    simp only [storeStep, specStep]
    by_cases hk : k = key
    · subst hk
      rw [AList.lookup_erase, LossyMap.lastPut_take]
    · have hw : ¬ (MapEvent.take key : MapEvent K V).Writes k := fun heq => hk (Eq.symm heq)
      rw [AList.lookup_erase_ne hk, LossyMap.lastPut_frame hw]
      exact h k
  | clear =>
    simp only [storeStep, specStep]
    rw [LossyMap.lastPut_clear]
    exact AList.lookup_empty k
  | collect keys =>
    refine hframe fun e he => ?_
    obtain ⟨key, -, rfl⟩ := List.mem_map.mp he
    exact not_false

theorem specRun_lookup {capacity : SizeT} (hpos : capacity.val ≠ 0) (ops : List (StoreOp K V))
    (k : K) :
    (specRun ops).lookup k =
      LossyMap.lastPut (runs storeStep (tlsCacheStoreInit capacity) ops).2 k := by
  induction ops using List.reverseRecOn generalizing k with
  | nil => exact AList.lookup_empty k
  | append_singleton ops op ih =>
    have hcap := storeRuns_capacity capacity ops
    rw [specRun_snoc, runs_append]
    simp only [runs, List.append_nil]
    exact specStep_lookup (hcap.symm ▸ hpos) ih op k

theorem storeMakeRoom_roomy {key : K} (pick : K) (h : key ∉ s.cache → s.ncached < s.capacity) :
    (storeMakeRoom s key pick).2 = none := by
  unfold storeMakeRoom
  split
  · next hfull =>
    have hkey := AList.lookup_eq_none.mp (Option.isNone_iff_eq_none.mp hfull.1)
    exact absurd hfull.2 (Nat.not_le.mpr (h hkey))
  · rfl

end Trace

section Runs

variable {capacity : SizeT} {ops : List (StoreOp K V)}

theorem storeRuns_sound {k : K} {v : V}
    (h : (runs storeStep (tlsCacheStoreInit capacity) ops).1.levels.visible k = some v) :
    (specRun ops).lookup k = some v := by
  by_cases hzero : capacity.val = 0
  · rw [(storeRuns_repInv capacity ops).levels_empty
      ((storeRuns_capacity capacity ops).trans hzero)] at h
    cases h
  · rw [specRun_lookup hzero ops k]
    refine LossyMap.visible_sound ?_
    rwa [← storeRuns_levels]

theorem storeRuns_notDemoted (hpos : capacity.val ≠ 0)
    (h : ∀ k, .demote k ∉ (runs storeStep (tlsCacheStoreInit capacity) ops).2) (k : K) :
    (runs storeStep (tlsCacheStoreInit capacity) ops).1.cache.lookup k = (specRun ops).lookup k ∧
      (runs storeStep (tlsCacheStoreInit capacity) ops).1.weak.lookup k = none := by
  have hlevels := storeRuns_levels capacity ops
  have hweak : (runs storeStep (tlsCacheStoreInit capacity) ops).1.weak.lookup k = none := by
    cases hw : (runs storeStep (tlsCacheStoreInit capacity) ops).1.weak.lookup k with
    | none => rfl
    | some v =>
      refine absurd (LossyMap.demoted_of_weak _ (v := v) ?_) (h k)
      rw [← hlevels]
      exact hw
  refine ⟨?_, hweak⟩
  rw [specRun_lookup hpos ops k, ← LossyMap.visible_eq_lastPut h k, ← hlevels]
  exact ((congrArg (Option.or _) hweak).trans Option.or_none).symm

theorem storeRuns_roomy (hpos : capacity.val ≠ 0)
    (hheld : ∀ p, p <+: ops → (specRun p).keys.length ≤ capacity.val) (k : K) :
    .demote k ∉ (runs storeStep (tlsCacheStoreInit capacity) ops).2 := by
  induction ops using List.reverseRecOn generalizing k with
  | nil => exact List.not_mem_nil
  | append_singleton ops op ih =>
    have ih := ih fun p hp => hheld p (hp.trans (List.prefix_append _ _))
    have hrep : (runs storeStep (tlsCacheStoreInit capacity) ops).1.RepInv :=
      storeRuns_repInv capacity ops
    have hcap := storeRuns_capacity capacity ops
    have htables := storeRuns_notDemoted hpos ih
    rw [runs_append]
    simp only [runs, List.append_nil]
    generalize (runs storeStep (tlsCacheStoreInit capacity) ops).1 = s at hrep hcap htables ⊢
    have hne : s.capacity ≠ 0 := hcap ▸ hpos
    intro hmem
    rcases List.mem_append.mp hmem with hmem | hmem
    · exact ih k hmem
    · cases op with
      | put key value pick =>
        have hroom : key ∉ s.cache → s.ncached < s.capacity := by
          intro hkey
          have hspec : key ∉ specRun ops := by
            rw [← AList.lookup_eq_none] at hkey ⊢
            rw [← (htables key).1, hkey]
          have hperm : s.cache.keys.Perm (specRun ops).keys := by
            refine (List.perm_ext_iff_of_nodup s.cache.keys_nodup (specRun ops).keys_nodup).mpr ?_
            intro k'
            rw [← AList.mem_keys, ← AList.mem_keys, ← AList.lookup_isSome, ← AList.lookup_isSome,
              (htables k').1]
          have hle := hheld _ (List.prefix_refl _)
          rw [specRun_snoc, specStep, Table.length_insert_of_notMem value hspec,
            ← hperm.length_eq, ← hrep.count, ← hcap] at hle
          omega
        simp only [storeStep, if_neg hne, tlsCacheStorePut, storeMakeRoom_roomy pick hroom,
          Option.toList_none, List.map_nil, List.nil_append, List.mem_singleton,
          reduceCtorEq] at hmem
      | get key pick =>
        have hevicted : (tlsCacheStoreGet s key pick).2.2 = none := by
          unfold tlsCacheStoreGet
          rw [if_neg hne, (htables key).2]
          split
          · rfl
          · rfl
        simp only [storeStep, hevicted, Option.toList_none, List.map_nil, List.nil_append,
          List.mem_singleton, reduceCtorEq] at hmem
      | take key => cases List.mem_singleton.mp hmem
      | clear => cases List.mem_singleton.mp hmem
      | collect keys =>
        obtain ⟨key, -, heq⟩ := List.mem_map.mp hmem
        cases heq

theorem storeRuns_taken {k : K} {ops' : List (StoreOp K V)}
    (hput : ∀ v pick, .put k v pick ∉ ops') :
    (runs storeStep (tlsCacheStoreInit capacity) (ops ++ .take k :: ops')).1.levels.visible k =
      none := by
  have hspec : (specRun (ops ++ .take k :: ops')).lookup k = none := by
    rw [← List.singleton_append, ← List.append_assoc]
    refine specRun_notPut ?_ hput
    rw [specRun_snoc]
    exact AList.lookup_erase _ _
  refine Option.eq_none_iff_forall_ne_some.mpr fun v hv => ?_
  exact Option.some_ne_none v ((storeRuns_sound hv).symm.trans hspec)

theorem storeRuns_held (hheld : ∀ p, p <+: ops → (specRun p).keys.length ≤ capacity.val) (k : K) :
    (runs storeStep (tlsCacheStoreInit capacity) ops).1.levels.visible k =
      (specRun ops).lookup k := by
  by_cases hzero : capacity.val = 0
  · have hle := hheld ops (List.prefix_refl _)
    rw [hzero, Nat.le_zero, List.length_eq_zero_iff] at hle
    have hnone : (specRun ops).lookup k = none := by
      rw [AList.lookup_eq_none, AList.mem_keys, hle]
      exact List.not_mem_nil
    rw [(storeRuns_repInv capacity ops).levels_empty
      ((storeRuns_capacity capacity ops).trans hzero), hnone]
    rfl
  · rw [storeRuns_levels, LossyMap.visible_eq_lastPut (storeRuns_roomy hzero hheld)]
    exact (specRun_lookup hzero ops k).symm

end Runs

/-- In every run, `get` and `take` answer with the value last put or with nothing; a taken value
does not come back; an entry goes missing only by an eviction followed by a collection, never
while at most `capacity` keys are held; and without capacity nothing is retained. -/
theorem cacheStore_refines_map (capacity : SizeT) (ops : List (StoreOp K V)) :
    let s := (runs storeStep (tlsCacheStoreInit capacity) ops).1
    let es := (runs storeStep (tlsCacheStoreInit capacity) ops).2
    (∀ k v pick, (tlsCacheStoreGet s k pick).1 = some v ∨ (tlsCacheStoreTake s k).1 = some v →
        (specRun ops).lookup k = some v) ∧
      (∀ k ops', (∀ v pick, .put k v pick ∉ ops') →
        let s' := (runs storeStep (tlsCacheStoreInit capacity) (ops ++ .take k :: ops')).1
        (tlsCacheStoreTake s' k).1 = none ∧ ∀ pick, (tlsCacheStoreGet s' k pick).1 = none) ∧
      (∀ k v, 0 < capacity.val → (specRun ops).lookup k = some v →
        ((tlsCacheStoreTake s k).1 = some v ∧ ∀ pick, (tlsCacheStoreGet s k pick).1 = some v) ∨
          LossyMap.LostSince k v es) ∧
      ((∀ p, p <+: ops → (specRun p).keys.length ≤ capacity.val) →
        ∀ k pick, (tlsCacheStoreGet s k pick).1 = (specRun ops).lookup k ∧
          (tlsCacheStoreTake s k).1 = (specRun ops).lookup k) ∧
      (capacity.val = 0 →
        ∀ k pick, (tlsCacheStoreGet s k pick).1 = none ∧ (tlsCacheStoreTake s k).1 = none) := by
  intro s es
  have hrep : s.RepInv := storeRuns_repInv capacity ops
  have hlevels : s.levels = LossyMap.empty.run es := storeRuns_levels capacity ops
  refine ⟨?_, ?_, ?_, ?_, ?_⟩
  · intro k v pick h
    rw [tlsCacheStoreGet_value hrep, tlsCacheStoreTake_value hrep, or_self] at h
    exact storeRuns_sound h
  · intro k ops' hput s'
    have hrep' : s'.RepInv := storeRuns_repInv capacity _
    have hvis : s'.levels.visible k = none := storeRuns_taken hput
    exact ⟨(tlsCacheStoreTake_value hrep' k).trans hvis,
      fun pick => (tlsCacheStoreGet_value hrep' k pick).trans hvis⟩
  · intro k v hpos hv
    rw [specRun_lookup (Nat.ne_of_gt hpos) ops k] at hv
    rcases LossyMap.visible_or_lost hv with hvis | hlost
    · rw [← hlevels] at hvis
      exact .inl ⟨(tlsCacheStoreTake_value hrep k).trans hvis,
        fun pick => (tlsCacheStoreGet_value hrep k pick).trans hvis⟩
    · exact .inr hlost
  · intro hheld k pick
    rw [tlsCacheStoreGet_value hrep, tlsCacheStoreTake_value hrep, and_self]
    exact storeRuns_held hheld k
  · intro hzero k pick
    have hempty : s.levels = LossyMap.empty :=
      hrep.levels_empty ((storeRuns_capacity capacity ops).trans hzero)
    rw [tlsCacheStoreGet_value hrep, tlsCacheStoreTake_value hrep, hempty]
    exact ⟨rfl, rfl⟩

end LuaNet.Tls
