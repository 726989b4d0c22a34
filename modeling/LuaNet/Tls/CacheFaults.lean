import LuaNet.Tls.CacheStore

/-! The store when an allocation raises an error in the middle of an operation. Up to the first
write of `get`, `take` and `clear` nothing has changed, and their writes only replace what is
there; a `put`, also one that promotes, can stop between its writes. -/

namespace LuaNet.Tls

open LuaNet.Lib

variable {K V : Type*} [DecidableEq K]

def tlsCacheStoreGetFaulty (s : TlsCacheStore K V) (key pick : K) (fault : PutFault) :
    TlsCacheStore K V :=
  match s.cache.lookup key, s.weak.lookup key with
  | none, some v => tlsCacheStorePutFaulty s key v pick fault
  | _, _ => s

def storeAborted (s : TlsCacheStore K V) (op : StoreOp K V) (fault : PutFault) :
    TlsCacheStore K V :=
  match op with
  | .put key value pick => tlsCacheStorePutFaulty s key value pick fault
  | .get key pick => tlsCacheStoreGetFaulty s key pick fault
  | .take _ => s
  | .clear => s
  | .collect _ => s

/-- The last push of the key raises while there still is a weak entry under it. -/
def Dangling (s : TlsCacheStore K V) : StoreOp K V → PutFault → Prop
  | .put key _ _, .inserted => key ∈ s.weak
  | .get key _, .inserted => key ∈ s.weak
  | _, _ => False

def shownAt (s : TlsCacheStore K V) (op : StoreOp K V) (fault : PutFault) (k : K) : Option V :=
  match op, fault with
  | .put key value _, .inserted =>
    if s.capacity ≠ 0 ∧ k = key then some value else s.levels.visible k
  | _, _ => s.levels.visible k

inductive StoreAct (K V : Type*)
  | done (op : StoreOp K V)
  | aborted (op : StoreOp K V) (fault : PutFault)

def StoreAct.op : StoreAct K V → StoreOp K V
  | .done op => op
  | .aborted op _ => op

def storeAct (s : TlsCacheStore K V) : StoreAct K V → TlsCacheStore K V
  | .done op => (storeStep s op).1
  | .aborted op fault => storeAborted s op fault

def StoreAct.put? (k : K) (a : StoreAct K V) : Option V :=
  match a.op with
  | .put key value _ => if key = k then some value else none
  | _ => none

/-- What is found under a key later on is `shown`, or has been put there since. -/
def NeverOlder (s : TlsCacheStore K V) (k : K) (shown : Option V) : Prop :=
  ∀ acts : List (StoreAct K V), let t := acts.foldl storeAct s
    (∀ pick v, (tlsCacheStoreGet t k pick).1 = some v →
      shown = some v ∨ v ∈ acts.filterMap (StoreAct.put? k)) ∧
    ∀ v, (tlsCacheStoreTake t k).1 = some v →
      shown = some v ∨ v ∈ acts.filterMap (StoreAct.put? k)

section Faults

variable {s : TlsCacheStore K V} {k key pick : K} {v value : V}

theorem TlsCacheStore.RepInv.visible_of_holds (h : s.RepInv) (hv : s.Holds k v) :
    s.levels.visible k = some v := by
  obtain hv | hv := hv
  · exact visible_of_strong hv
  · have hweak : k ∈ s.weak := AList.lookup_isSome.mp (by rw [hv, Option.isSome_some])
    have hstrong : s.cache.lookup k = none :=
      AList.lookup_eq_none.mpr fun hmem => h.disjoint k hmem hweak
    rw [visible_of_weak hstrong, hv]

theorem tlsCacheStoreGet_some (h : (tlsCacheStoreGet s key pick).1 = some v) : s.Holds key v := by
  unfold tlsCacheStoreGet at h
  split at h
  · cases h
  · split at h
    next hv => exact .inl (hv.trans h)
    · split at h
      next hv => exact .inr (hv.trans h)
      · cases h

theorem tlsCacheStoreGet_holds (h : (tlsCacheStoreGet s key pick).2.1.Holds k v) :
    s.Holds k v := by
  unfold tlsCacheStoreGet at h
  split at h
  · exact h
  · split at h
    · exact h
    · split at h
      next value hvalue =>
        obtain ⟨rfl, rfl⟩ | h := tlsCacheStorePut_holds h
        · exact .inr hvalue
        · exact h
      · exact h

theorem storeStep_holds (op : StoreOp K V) (h : (storeStep s op).1.Holds k v) :
    (StoreAct.done op).put? k = some v ∨ s.Holds k v := by
  cases op with
  | put key value pick =>
    obtain ⟨rfl, rfl⟩ | h := tlsCacheStorePut_holds h
    · exact .inl (if_pos rfl)
    · exact .inr h
  | get key pick => exact .inr (tlsCacheStoreGet_holds h)
  | take key => exact .inr (tlsCacheStoreTake_holds h)
  | clear => exact .inr (tlsCacheStoreClear_holds h)
  | collect keys => exact .inr (storeCollect_holds h)

theorem storeAborted_holds (op : StoreOp K V) (fault : PutFault)
    (h : (storeAborted s op fault).Holds k v) :
    (StoreAct.aborted op fault).put? k = some v ∨ s.Holds k v := by
  cases op with
  | put key value pick =>
    obtain ⟨rfl, rfl⟩ | h := tlsCacheStorePutFaulty_holds h
    · exact .inl (if_pos rfl)
    · exact .inr h
  | get key pick =>
    simp only [storeAborted, tlsCacheStoreGetFaulty] at h
    split at h
    next hweak =>
      obtain ⟨rfl, rfl⟩ | h := tlsCacheStorePutFaulty_holds h
      · exact .inr (.inr hweak)
      · exact .inr h
    · exact .inr h
  | take key => exact .inr h
  | clear => exact .inr h
  | collect keys => exact .inr h

theorem storeActs_holds (acts : List (StoreAct K V)) (h : (acts.foldl storeAct s).Holds k v) :
    s.Holds k v ∨ v ∈ acts.filterMap (StoreAct.put? k) := by
  induction acts generalizing s with
  | nil => exact .inl h
  | cons a acts ih =>
    have hlater (hv : v ∈ acts.filterMap (StoreAct.put? k)) :
        v ∈ (a :: acts).filterMap (StoreAct.put? k) := by
      rw [List.mem_filterMap] at hv ⊢
      obtain ⟨b, hb, hput⟩ := hv
      exact ⟨b, List.mem_cons_of_mem a hb, hput⟩
    obtain h | h := ih h
    · have hact : a.put? k = some v ∨ s.Holds k v := by
        cases a with
        | done op => exact storeStep_holds op h
        | aborted op fault => exact storeAborted_holds op fault h
      obtain hput | h := hact
      · exact .inr (List.mem_filterMap.mpr ⟨a, List.mem_cons_self, hput⟩)
      · exact .inl h
    · exact .inr (hlater h)

theorem TlsCacheStore.RepInv.neverOlder (h : s.RepInv) (k : K) :
    NeverOlder s k (s.levels.visible k) := by
  intro acts
  have hheld {v : V} (hv : (acts.foldl storeAct s).Holds k v) :
      s.levels.visible k = some v ∨ v ∈ acts.filterMap (StoreAct.put? k) :=
    (storeActs_holds acts hv).imp_left h.visible_of_holds
  exact ⟨fun pick v hv => hheld (tlsCacheStoreGet_some hv),
    fun v hv => hheld (tlsCacheStoreTake_some hv)⟩

theorem Table.erase_of_lookup_none {t : Table K V} (h : t.lookup key = none) :
    t.erase key = t :=
  AList.ext (List.kerase_of_notMem_keys fun hmem =>
    AList.lookup_eq_none.mp h (AList.mem_keys.mpr hmem))

theorem tlsCacheStorePutFaulty_inserted (hpos : s.capacity ≠ 0) :
    tlsCacheStorePutFaulty s key value pick .inserted =
      { storeInsert (storeMakeRoom s key pick).1 key value with
        refWeak := (storeMakeRoom s key pick).1.refWeak } := if_neg hpos

theorem tlsCacheStorePutFaulty_whole (h : s.RepInv) (hpos : s.capacity ≠ 0)
    (hweak : key ∉ s.weak) (value : V) (pick : K) :
    (tlsCacheStorePutFaulty s key value pick .inserted).RepInv ∧
      (tlsCacheStorePutFaulty s key value pick .inserted).levels =
        (tlsCacheStorePut s key value pick).1.levels := by
  have hroom := storeMakeRoom_spec h hpos key pick
  have hput : tlsCacheStorePut s key value pick =
      (storeInsert (storeMakeRoom s key pick).1 key value, (storeMakeRoom s key pick).2) :=
    if_neg hpos
  have hnone : (storeMakeRoom s key pick).1.weak.lookup key = none :=
    hroom.weak.trans (AList.lookup_eq_none.mpr hweak)
  have hsame : (tlsCacheStorePutFaulty s key value pick .inserted).weak =
      (storeInsert (storeMakeRoom s key pick).1 key value).weak := by
    rw [tlsCacheStorePutFaulty_inserted hpos]
    exact (Table.erase_of_lookup_none hnone).symm
  constructor
  · have hrep := tlsCacheStorePut_repInv h key value pick
    rw [hput] at hrep
    have hdisjoint := hrep.disjoint
    rw [← hsame, tlsCacheStorePutFaulty_inserted hpos] at hdisjoint
    rw [tlsCacheStorePutFaulty_inserted hpos]
    refine ⟨hrep.fits, hrep.count, hrep.bounded, hdisjoint, fun hcap => absurd ?_ hpos⟩
    exact hroom.capacity.symm.trans hcap
  · rw [hput]
    refine congrArg₂ LossyMap.mk ?_ (congrArg (fun t k => t.lookup k) hsame)
    rw [tlsCacheStorePutFaulty_inserted hpos]
    rfl

theorem tlsCacheStorePutFaulty_spec (h : s.RepInv) (fault : PutFault)
    (hweak : fault = .inserted → key ∉ s.weak) :
    (tlsCacheStorePutFaulty s key value pick fault).RepInv ∧
      ∀ k, (tlsCacheStorePutFaulty s key value pick fault).levels.visible k =
        shownAt s (.put key value pick) fault k := by
  cases fault with
  | start => exact ⟨h, fun _ => rfl⟩
  | evicted =>
    simp only [tlsCacheStorePutFaulty]
    split
    · exact ⟨h, fun _ => rfl⟩
    next hpos =>
      -- an entry that had to make room is still visible: it has been demoted
      have hroom := storeMakeRoom_spec h hpos key pick
      refine ⟨hroom.repInv, fun k => ?_⟩
      rw [hroom.levels]
      cases (storeMakeRoom s key pick).2 with
      | none => rfl
      | some old => exact LossyMap.apply_demote_visible s.levels old k
  | inserted =>
    by_cases hzero : s.capacity = 0
    · simp only [tlsCacheStorePutFaulty, shownAt, hzero, if_true, ne_eq, not_true_eq_false,
        false_and, if_false]
      exact ⟨h, fun _ => trivial⟩
    obtain ⟨hrep, hlevels⟩ := tlsCacheStorePutFaulty_whole h hzero (hweak rfl) value pick
    refine ⟨hrep, fun k => ?_⟩
    rw [hlevels, tlsCacheStorePut_visible h hzero key value pick]
    simp only [shownAt, ne_eq, hzero, not_false_eq_true, true_and]

theorem tlsCacheStorePutFaulty_broken (h : s.RepInv) (hweak : key ∈ s.weak) :
    ¬ (tlsCacheStorePutFaulty s key value pick .inserted).RepInv := by
  have hpos : s.capacity ≠ 0 := by
    intro hzero
    rw [TlsCacheStore.weak, (h.absent hzero).2] at hweak
    exact AList.notMem_empty key hweak
  have hroom := storeMakeRoom_spec h hpos key pick
  rw [tlsCacheStorePutFaulty_inserted hpos]
  intro hrep
  refine hrep.disjoint key ?_ ?_
  · exact (AList.mem_insert _).mpr (.inl rfl)
  · refine AList.lookup_isSome.mp ?_
    show ((storeMakeRoom s key pick).1.weak.lookup key).isSome = true
    rw [hroom.weak]
    exact AList.lookup_isSome.mpr hweak

theorem storeAborted_spec (h : s.RepInv) {op : StoreOp K V} {fault : PutFault}
    (hsafe : ¬ Dangling s op fault) :
    (storeAborted s op fault).RepInv ∧
      ∀ k, (storeAborted s op fault).levels.visible k = shownAt s op fault k := by
  have hsame : s.RepInv ∧ ∀ k, s.levels.visible k = s.levels.visible k := ⟨h, fun _ => rfl⟩
  cases op with
  | put key value pick =>
    refine tlsCacheStorePutFaulty_spec h fault fun hfault => ?_
    subst hfault
    exact hsafe
  | get key pick =>
    simp only [storeAborted, tlsCacheStoreGetFaulty]
    split
    next value hstrong hweak =>
      have hmem : key ∈ s.weak := AList.lookup_isSome.mp (by rw [hweak, Option.isSome_some])
      cases fault with
      | start => exact tlsCacheStorePutFaulty_spec h .start nofun
      | evicted => exact tlsCacheStorePutFaulty_spec h .evicted nofun
      | inserted => exact absurd hmem hsafe
    · exact hsame
  | take key => exact hsame
  | clear => exact hsame
  | collect keys => exact hsame

theorem storeAborted_broken (h : s.RepInv) {op : StoreOp K V} {fault : PutFault}
    (hdangling : Dangling s op fault) : ¬ (storeAborted s op fault).RepInv := by
  cases fault with
  | start => cases op <;> exact hdangling.elim
  | evicted => cases op <;> exact hdangling.elim
  | inserted =>
    cases op with
    | put key value pick => exact tlsCacheStorePutFaulty_broken h hdangling
    | get key pick =>
      obtain ⟨v, hweak⟩ := Option.isSome_iff_exists.mp (AList.lookup_isSome.mpr hdangling)
      have hstrong : s.cache.lookup key = none :=
        AList.lookup_eq_none.mpr fun hmem => h.disjoint key hmem hdangling
      simp only [storeAborted, tlsCacheStoreGetFaulty, hstrong, hweak]
      exact tlsCacheStorePutFaulty_broken h hdangling
    | take key => exact hdangling.elim
    | clear => exact hdangling.elim
    | collect keys => exact hdangling.elim

/-- An aborted operation leaves the store valid, and nothing older than what it has installed or
left visible can be found any more, unless it leaves a weak entry beside the strong one. -/
theorem storeAborted_safe_iff (h : s.RepInv) (op : StoreOp K V) (fault : PutFault) :
    ((storeAborted s op fault).RepInv ∧
      ∀ k, NeverOlder (storeAborted s op fault) k (shownAt s op fault k)) ↔
        ¬ Dangling s op fault := by
  constructor
  · intro hsafe hdangling
    exact storeAborted_broken h hdangling hsafe.1
  · intro hsafe
    obtain ⟨hrep, hshown⟩ := storeAborted_spec h hsafe
    exact ⟨hrep, fun k => hshown k ▸ hrep.neverOlder k⟩

end Faults

def crowdedStore : TlsCacheStore Nat Nat :=
  (runs storeStep (tlsCacheStoreInit ⟨1, SizeT.one_fits⟩) [.put 1 10 0, .put 2 20 0]).1

theorem crowdedStore_repInv : crowdedStore.RepInv := storeRuns_repInv _ _

theorem storeAborted_safe_other :
    (storeAborted crowdedStore (.put 3 30 0) .inserted).RepInv ∧
      ∀ k, NeverOlder (storeAborted crowdedStore (.put 3 30 0) .inserted) k
        (shownAt crowdedStore (.put 3 30 0) .inserted k) :=
  (storeAborted_safe_iff crowdedStore_repInv (.put 3 30 0) .inserted).2
    (by unfold Dangling; decide)

/-- A put of `1` that stops there: the value it has installed is taken, then the one before. -/
theorem storeAborted_older :
    let s := storeAborted crowdedStore (.put 1 11 0) .inserted
    crowdedStore.RepInv ∧ ¬ s.RepInv ∧ shownAt crowdedStore (.put 1 11 0) .inserted 1 = some 11 ∧
      (tlsCacheStoreTake s 1).1 = some 11 ∧
      (tlsCacheStoreTake (tlsCacheStoreTake s 1).2 1).1 = some 10 := by
  refine ⟨crowdedStore_repInv, storeAborted_broken crowdedStore_repInv ?_, by decide, by decide,
    by decide⟩
  unfold Dangling
  decide

end LuaNet.Tls
