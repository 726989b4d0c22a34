import LuaNet.Lib.Codec
import LuaNet.Tls.CacheStore
import Mathlib.Algebra.GroupWithZero.Nat
import Mathlib.Data.List.Nodup

/-! `net.tls.cache`: a store of contexts, each with a store of sessions of its own. `size` walks
the context tables; what it counts is stated against the entries found there. -/

namespace LuaNet.Tls

open LuaNet.Lib

structure SslSession where
  hasTicket : Bool
  isResumable : Bool
  time : Int
  timeout : Int
deriving DecidableEq

/-- The userdata that owns a cached session. `storedBy` names the connection that cached it; no
code reads it. -/
structure TlsSslSession where
  session : SslSession
  storedBy : Nat
deriving DecidableEq

structure TlsSslCtx where
  sslSessCache : TlsCacheStore Bytes TlsSslSession

structure TlsCache where
  sslCtxCache : TlsCacheStore Bytes Nat
  sessionCapacity : SizeT

structure CacheState where
  cache : TlsCache
  ctxs : Nat → TlsSslCtx
  next : Nat

def cacheNew (ctxCapacity sessionCapacity : SizeT) : CacheState :=
  { cache := { sslCtxCache := tlsCacheStoreInit ctxCapacity, sessionCapacity := sessionCapacity }
    ctxs := fun _ => { sslSessCache := tlsCacheStoreInit sessionCapacity }
    next := 0 }

def tlsSslCtxNew (w : CacheState) : CacheState :=
  { w with
    ctxs := Function.update w.ctxs w.next
      { sslSessCache := tlsCacheStoreInit w.cache.sessionCapacity }
    next := w.next + 1 }

def tlsCacheSslCtxGet (c : TlsCache) (key pick : Bytes) : Option Nat × TlsCache :=
  let got := tlsCacheStoreGet c.sslCtxCache key pick
  (got.1, { c with sslCtxCache := got.2.1 })

def tlsCacheSslCtxPut (c : TlsCache) (key : Bytes) (ctx : Nat) (pick : Bytes) :
    TlsCache :=
  { c with sslCtxCache := (tlsCacheStorePut c.sslCtxCache key ctx pick).1 }

def tlsCacheSslSessEnabled (ctx : TlsSslCtx) : Bool := 0 < ctx.sslSessCache.capacity

def tlsCacheSslSessPut (ctx : TlsSslCtx) (key : Bytes) (item : TlsSslSession)
    (pick : Bytes) : TlsSslCtx :=
  if !tlsCacheSslSessEnabled ctx || !item.session.hasTicket || !item.session.isResumable then ctx
  else { ctx with sslSessCache := (tlsCacheStorePut ctx.sslSessCache key item pick).1 }

def SslSession.stale (session : SslSession) (now : Option Int) : Bool :=
  let age := match now with
    | none => -1
    | some now => now - session.time
  age < 0 || session.timeout ≤ 0 || session.timeout ≤ age || !session.hasTicket ||
    !session.isResumable

def tlsCacheSslSessTake (ctx : TlsSslCtx) (key : Bytes) (now : Option Int) :
    Option TlsSslSession × TlsSslCtx :=
  if !tlsCacheSslSessEnabled ctx then (none, ctx)
  else
    match tlsCacheStoreTake ctx.sslSessCache key with
    | (none, _) => (none, ctx)
    | (some item, store) =>
      (if item.session.stale now then none else some item, { ctx with sslSessCache := store })

def countSessions (ctxs : Nat → TlsSslCtx) (t : Table Bytes Nat) : Nat :=
  t.entries.foldl (fun count e => count + (ctxs e.2).sslSessCache.ncached) 0

def clearSessions (ctxs : Nat → TlsSslCtx) (t : Table Bytes Nat) : Nat → TlsSslCtx :=
  t.entries.foldl (fun ctxs e => Function.update ctxs e.2
    { ctxs e.2 with sslSessCache := tlsCacheStoreClear (ctxs e.2).sslSessCache }) ctxs

def sizeLua (w : CacheState) : Nat × Nat :=
  (w.cache.sslCtxCache.ncached,
    countSessions w.ctxs w.cache.sslCtxCache.cache + countSessions w.ctxs w.cache.sslCtxCache.weak)

def clearLua (w : CacheState) : CacheState :=
  { w with
    ctxs := clearSessions (clearSessions w.ctxs w.cache.sslCtxCache.cache) w.cache.sslCtxCache.weak
    cache := { w.cache with sslCtxCache := tlsCacheStoreClear w.cache.sslCtxCache } }

inductive CacheOp
  /-- A client or server asks for its context; `built` says whether a missing one can be built. -/
  | openCtx (key pick pick' : Bytes) (built : Bool)
  | sessPut (ctx : Nat) (key : Bytes) (item : TlsSslSession) (pick : Bytes)
  | sessTake (ctx : Nat) (key : Bytes) (now : Option Int)
  | collectCtxs (keys : List Bytes)
  | collectSessions (ctx : Nat) (keys : List Bytes)
  | clear

def openCtx (w : CacheState) (key pick pick' : Bytes) (built : Bool) : Option Nat × CacheState :=
  let got := tlsCacheSslCtxGet w.cache key pick
  match got.1 with
  | some ctx => (some ctx, { w with cache := got.2 })
  | none =>
    let w' := tlsSslCtxNew { w with cache := got.2 }
    if built then
      (some w.next, { w' with cache := tlsCacheSslCtxPut w'.cache key w.next pick' })
    else (none, w')

def cacheStep (w : CacheState) : CacheOp → CacheState
  | .openCtx key pick pick' built => (openCtx w key pick pick' built).2
  | .sessPut ctx key item pick =>
    { w with ctxs := Function.update w.ctxs ctx (tlsCacheSslSessPut (w.ctxs ctx) key item pick) }
  | .sessTake ctx key now =>
    { w with ctxs := Function.update w.ctxs ctx (tlsCacheSslSessTake (w.ctxs ctx) key now).2 }
  | .collectCtxs keys =>
    { w with cache := { w.cache with sslCtxCache := storeCollect w.cache.sslCtxCache keys } }
  | .collectSessions ctx keys =>
    { w with
      ctxs := Function.update w.ctxs ctx
        { w.ctxs ctx with sslSessCache := storeCollect (w.ctxs ctx).sslSessCache keys } }
  | .clear => clearLua w

def cacheRun (w : CacheState) (ops : List CacheOp) : CacheState := ops.foldl cacheStep w

def Table.values {K V : Type*} (t : Table K V) : List V := t.entries.map Sigma.snd

def CacheState.visited (w : CacheState) : List Nat :=
  w.cache.sslCtxCache.cache.values ++ w.cache.sslCtxCache.weak.values

/-- Both levels of stores are sound, and every cached context is allocated and cached under one
key only. -/
structure CacheState.Inv (w : CacheState) : Prop where
  repInv : w.cache.sslCtxCache.RepInv
  sessions : ∀ ctx, (w.ctxs ctx).sslSessCache.RepInv
  allocated : ∀ k ctx, w.cache.sslCtxCache.levels.visible k = some ctx → ctx < w.next
  unique : ∀ k k' ctx, w.cache.sslCtxCache.levels.visible k = some ctx →
    w.cache.sslCtxCache.levels.visible k' = some ctx → k = k'

section Values

variable {K V : Type*} [DecidableEq K]

theorem Table.mem_values {t : Table K V} {v : V} : v ∈ t.values ↔ ∃ k, t.lookup k = some v := by
  rw [Table.values, List.mem_map]
  constructor
  · rintro ⟨e, he, rfl⟩
    exact ⟨e.1, AList.mem_lookup_iff.mpr he⟩
  · rintro ⟨k, hk⟩
    exact ⟨⟨k, v⟩, AList.mem_lookup_iff.mp hk, rfl⟩

omit [DecidableEq K] in
theorem Table.values_length (t : Table K V) : t.values.length = t.keys.length := by
  rw [Table.values, AList.keys, List.keys, List.length_map, List.length_map]

theorem Table.values_nodup {t : Table K V}
    (h : ∀ k k' v, t.lookup k = some v → t.lookup k' = some v → k = k') : t.values.Nodup := by
  refine List.Nodup.map_on ?_ t.nodupKeys.nodup
  rintro ⟨k, v⟩ he ⟨k', v'⟩ he' heq
  obtain rfl : v = v' := heq
  rw [h k k' v (AList.mem_lookup_iff.mpr he) (AList.mem_lookup_iff.mpr he')]

end Values

section Stores

theorem tlsCacheSslSessPut_repInv {ctx : TlsSslCtx} (h : ctx.sslSessCache.RepInv) (key : Bytes)
    (item : TlsSslSession) (pick : Bytes) :
    (tlsCacheSslSessPut ctx key item pick).sslSessCache.RepInv := by
  unfold tlsCacheSslSessPut
  split
  · exact h
  · exact tlsCacheStorePut_repInv h key item pick

theorem tlsCacheSslSessTake_store (ctx : TlsSslCtx) (key : Bytes) (now : Option Int) :
    (tlsCacheSslSessTake ctx key now).2 = ctx ∨
      (tlsCacheSslSessTake ctx key now).2 =
        { ctx with sslSessCache := (tlsCacheStoreTake ctx.sslSessCache key).2 } := by
  unfold tlsCacheSslSessTake
  split
  · exact .inl rfl
  · split
    · exact .inl rfl
    · next heq =>
      rw [heq]
      exact .inr rfl

theorem tlsCacheSslSessTake_repInv {ctx : TlsSslCtx} (h : ctx.sslSessCache.RepInv)
    (key : Bytes) (now : Option Int) :
    (tlsCacheSslSessTake ctx key now).2.sslSessCache.RepInv := by
  rcases tlsCacheSslSessTake_store ctx key now with heq | heq
  · rw [heq]
    exact h
  · rw [heq]
    exact (tlsCacheStoreTake_spec h key).1

theorem countSessions_eq (ctxs : Nat → TlsSslCtx) (t : Table Bytes Nat) :
    countSessions ctxs t = (t.values.map fun c => (ctxs c).sslSessCache.ncached).sum := by
  have hfoldl (es : List (Sigma fun _ : Bytes => Nat)) (init : Nat) :
      es.foldl (fun count e => count + (ctxs e.2).sslSessCache.ncached) init =
        init + ((es.map Sigma.snd).map fun c => (ctxs c).sslSessCache.ncached).sum := by
    induction es generalizing init with
    | nil => rfl
    | cons e es ih =>
      rw [List.foldl_cons, ih, List.map_cons, List.map_cons, List.sum_cons, Nat.add_assoc]
  rw [countSessions, hfoldl, Nat.zero_add, Table.values]

theorem tlsCacheStoreClear_idem {K V : Type*} (s : TlsCacheStore K V) :
    tlsCacheStoreClear (tlsCacheStoreClear s) = tlsCacheStoreClear s := by
  unfold tlsCacheStoreClear
  split
  · rfl
  · rfl

theorem clearSessions_apply (ctxs : Nat → TlsSslCtx) (t : Table Bytes Nat) (ctx : Nat) :
    clearSessions ctxs t ctx =
      if ctx ∈ t.values then { sslSessCache := tlsCacheStoreClear (ctxs ctx).sslSessCache }
      else ctxs ctx := by
  have hfoldl (es : List (Sigma fun _ : Bytes => Nat)) (ctxs : Nat → TlsSslCtx) :
      es.foldl (fun ctxs e => Function.update ctxs e.2
          { ctxs e.2 with sslSessCache := tlsCacheStoreClear (ctxs e.2).sslSessCache }) ctxs ctx =
        if ctx ∈ es.map Sigma.snd then { sslSessCache := tlsCacheStoreClear (ctxs ctx).sslSessCache }
        else ctxs ctx := by
    induction es generalizing ctxs with
    | nil => rfl
    | cons e es ih =>
      rw [List.foldl_cons, ih]
      by_cases hctx : ctx = e.2
      · subst hctx
        simp only [Function.update_self, tlsCacheStoreClear_idem, List.map_cons, List.mem_cons_self,
          if_true, ite_self]
      · simp only [Function.update_of_ne hctx, List.map_cons, List.mem_cons, hctx, false_or]
  exact hfoldl t.entries ctxs

end Stores

section Inv

variable {w : CacheState}

theorem CacheState.mem_visited (h : w.Inv) {ctx : Nat} :
    ctx ∈ w.visited ↔ ∃ k, w.cache.sslCtxCache.levels.visible k = some ctx := by
  rw [visited, List.mem_append, Table.mem_values, Table.mem_values]
  constructor
  · rintro (⟨k, hk⟩ | ⟨k, hk⟩)
    · exact ⟨k, visible_of_strong hk⟩
    · have hnone : w.cache.sslCtxCache.cache.lookup k = none := by
        refine AList.lookup_eq_none.mpr fun hmem => h.repInv.disjoint k hmem ?_
        exact AList.lookup_isSome.mp (by rw [hk, Option.isSome_some])
      exact ⟨k, (visible_of_weak hnone).trans hk⟩
  · rintro ⟨k, hk⟩
    rcases Option.or_eq_some_iff.mp hk with hs | ⟨-, hw⟩
    · exact .inl ⟨k, hs⟩
    · exact .inr ⟨k, hw⟩

theorem CacheState.visited_nodup (h : w.Inv) : w.visited.Nodup := by
  have hweak {k : Bytes} {ctx : Nat} (hk : w.cache.sslCtxCache.weak.lookup k = some ctx) :
      w.cache.sslCtxCache.levels.visible k = some ctx := by
    refine (visible_of_weak (AList.lookup_eq_none.mpr fun hmem => ?_)).trans hk
    exact h.repInv.disjoint k hmem (AList.lookup_isSome.mp (by rw [hk, Option.isSome_some]))
  refine List.nodup_append'.mpr ⟨?_, ?_, ?_⟩
  · exact Table.values_nodup fun k k' ctx hk hk' =>
      h.unique k k' ctx (visible_of_strong hk) (visible_of_strong hk')
  · exact Table.values_nodup fun k k' ctx hk hk' => h.unique k k' ctx (hweak hk) (hweak hk')
  · intro ctx hs hw
    obtain ⟨k, hk⟩ := Table.mem_values.mp hs
    obtain ⟨k', hk'⟩ := Table.mem_values.mp hw
    obtain rfl := h.unique k k' ctx (visible_of_strong hk) (hweak hk')
    exact h.repInv.disjoint k (AList.lookup_isSome.mp (by rw [hk, Option.isSome_some]))
      (AList.lookup_isSome.mp (by rw [hk', Option.isSome_some]))

theorem cacheNew_inv (ctxCapacity sessionCapacity : SizeT) :
    (cacheNew ctxCapacity sessionCapacity).Inv := by
  have hnone (k : Bytes) :
      (cacheNew ctxCapacity sessionCapacity).cache.sslCtxCache.levels.visible k = none :=
    congrArg (fun m : LossyMap Bytes Nat => m.visible k) (tlsCacheStoreInit_levels ctxCapacity)
  refine ⟨tlsCacheStoreInit_repInv _, fun _ => tlsCacheStoreInit_repInv _, ?_, ?_⟩
  · intro k ctx hk
    rw [hnone k] at hk
    cases hk
  · intro k k' ctx hk
    rw [hnone k] at hk
    cases hk

theorem CacheState.Inv.shrink (h : w.Inv) {store : TlsCacheStore Bytes Nat}
    (hrep : store.RepInv)
    (hvis : ∀ k ctx, store.levels.visible k = some ctx →
      w.cache.sslCtxCache.levels.visible k = some ctx) :
    CacheState.Inv { w with cache := { w.cache with sslCtxCache := store } } :=
  ⟨hrep, h.sessions, fun k ctx hk => h.allocated k ctx (hvis k ctx hk),
    fun k k' ctx hk hk' => h.unique k k' ctx (hvis k ctx hk) (hvis k' ctx hk')⟩

theorem CacheState.Inv.session (h : w.Inv) (ctx : Nat) {c : TlsSslCtx}
    (hrep : c.sslSessCache.RepInv) :
    CacheState.Inv { w with ctxs := Function.update w.ctxs ctx c } := by
  refine ⟨h.repInv, fun ctx' => ?_, h.allocated, h.unique⟩
  by_cases hctx : ctx' = ctx
  · subst hctx
    simp only [Function.update_self]
    exact hrep
  · simp only [Function.update_of_ne hctx]
    exact h.sessions ctx'

theorem tlsSslCtxNew_inv (h : w.Inv) : (tlsSslCtxNew w).Inv := by
  have hsess := h.session w.next (c := { sslSessCache := _ })
    (tlsCacheStoreInit_repInv w.cache.sessionCapacity)
  exact ⟨hsess.repInv, hsess.sessions, fun k ctx hk => Nat.lt_succ_of_lt (h.allocated k ctx hk),
    hsess.unique⟩

theorem tlsCacheSslCtxPut_inv (h : w.Inv) {ctx : Nat} (hctx : ctx < w.next)
    (hfresh : ∀ k, w.cache.sslCtxCache.levels.visible k ≠ some ctx) (key pick : Bytes) :
    CacheState.Inv { w with cache := tlsCacheSslCtxPut w.cache key ctx pick } := by
  by_cases hzero : w.cache.sslCtxCache.capacity = 0
  · have hput : tlsCacheSslCtxPut w.cache key ctx pick = w.cache := by
      simp only [tlsCacheSslCtxPut, tlsCacheStorePut, if_pos hzero]
    rw [hput]
    exact h
  · have hput {k : Bytes} {c : Nat} (hk : (tlsCacheSslCtxPut w.cache key ctx
        pick).sslCtxCache.levels.visible k = some c) :
        k = key ∧ c = ctx ∨ w.cache.sslCtxCache.levels.visible k = some c := by
      have hk := (tlsCacheStorePut_visible h.repInv hzero key ctx pick k).symm.trans hk
      split at hk
      · next heq =>
        cases hk
        exact .inl ⟨heq, rfl⟩
      · exact .inr hk
    refine ⟨tlsCacheStorePut_repInv h.repInv key ctx pick, h.sessions, ?_, ?_⟩
    · intro k c hk
      rcases hput hk with ⟨-, rfl⟩ | hk
      · exact hctx
      · exact h.allocated k c hk
    · intro k k' c hk hk'
      rcases hput hk with ⟨rfl, rfl⟩ | hold
      · rcases hput hk' with ⟨rfl, -⟩ | hold'
        · rfl
        · exact absurd hold' (hfresh k')
      · rcases hput hk' with ⟨-, rfl⟩ | hold'
        · exact absurd hold (hfresh k)
        · exact h.unique k k' c hold hold'

theorem openCtx_inv (h : w.Inv) (key pick pick' : Bytes) (built : Bool) :
    (openCtx w key pick pick' built).2.Inv := by
  have hget : CacheState.Inv { w with cache := (tlsCacheSslCtxGet w.cache key pick).2 } :=
    h.shrink (tlsCacheStoreGet_repInv h.repInv key pick)
      fun k ctx hk => (tlsCacheStoreGet_visible h.repInv key pick k).symm.trans hk
  have hnew := tlsSslCtxNew_inv hget
  simp only [openCtx]
  split
  · exact hget
  · split
    · refine tlsCacheSslCtxPut_inv hnew (Nat.lt_succ_self _) (fun k hk => ?_) key pick'
      exact absurd (hget.allocated k w.next hk) (Nat.lt_irrefl _)
    · exact hnew

theorem clearLua_inv (h : w.Inv) : (clearLua w).Inv := by
  obtain ⟨hrep, hlevels⟩ := tlsCacheStoreClear_spec h.repInv
  have hnone (k : Bytes) : (tlsCacheStoreClear w.cache.sslCtxCache).levels.visible k = none := by
    rw [hlevels]
    rfl
  have hclear {ctxs : Nat → TlsSslCtx} (hs : ∀ c, (ctxs c).sslSessCache.RepInv)
      (t : Table Bytes Nat) (c : Nat) : (clearSessions ctxs t c).sslSessCache.RepInv := by
    rw [clearSessions_apply]
    split
    · exact (tlsCacheStoreClear_spec (hs c)).1
    · exact hs c
  refine ⟨hrep, hclear (hclear h.sessions _) _, fun k ctx hk => ?_, fun k k' ctx hk => ?_⟩
  · exact absurd ((hnone k).symm.trans hk) (Option.some_ne_none ctx).symm
  · exact absurd ((hnone k).symm.trans hk) (Option.some_ne_none ctx).symm

theorem cacheStep_inv (h : w.Inv) (op : CacheOp) : (cacheStep w op).Inv := by
  cases op with
  | openCtx key pick pick' built => exact openCtx_inv h key pick pick' built
  | sessPut ctx key item pick =>
    exact h.session ctx (tlsCacheSslSessPut_repInv (h.sessions ctx) key item pick)
  | sessTake ctx key now => exact h.session ctx (tlsCacheSslSessTake_repInv (h.sessions ctx) key now)
  | collectCtxs keys =>
    exact h.shrink (storeCollect_spec h.repInv keys).1 fun k ctx hk => storeCollect_visible hk
  | collectSessions ctx keys => exact h.session ctx (storeCollect_spec (h.sessions ctx) keys).1
  | clear => exact clearLua_inv h

theorem cacheRun_inv (h : w.Inv) (ops : List CacheOp) : (cacheRun w ops).Inv := by
  induction ops generalizing w with
  | nil => exact h
  | cons op ops ih => exact ih (cacheStep_inv h op)

end Inv

/-- The first number that `size` reports is the number of contexts found in the cache. -/
def SizeCountsReachable (w : CacheState) : Prop := (sizeLua w).1 = w.visited.length

/-- A context that had to make room is still found, but not counted. -/
theorem sizeLua_skips_weak :
    ¬ ∀ (ctxCapacity sessionCapacity : SizeT) (ops : List CacheOp),
      SizeCountsReachable (cacheRun (cacheNew ctxCapacity sessionCapacity) ops) := by
  intro h
  have hsize := h ⟨1, by omega⟩ ⟨1, by omega⟩ [.openCtx [1] [] [] true, .openCtx [2] [] [] true]
  exact absurd hsize (by unfold SizeCountsReachable; decide)

theorem clearLua_ncached {w : CacheState} (h : w.Inv) {ctx : Nat} (hctx : ctx ∈ w.visited) :
    ((clearLua w).ctxs ctx).sslSessCache.ncached = 0 := by
  have happly : (clearLua w).ctxs ctx = clearSessions
      (clearSessions w.ctxs w.cache.sslCtxCache.cache) w.cache.sslCtxCache.weak ctx := rfl
  have hclear := (tlsCacheStoreClear_empty (h.sessions ctx)).1
  rw [happly, clearSessions_apply, clearSessions_apply]
  split
  · split
    · rw [tlsCacheStoreClear_idem]
      exact hclear
    · exact hclear
  · next hweak =>
    rw [if_pos ((List.mem_append.mp hctx).resolve_right hweak)]
    exact hclear

/-- Both levels of stores keep their representation invariant in every run. `size` counts the
strong contexts, and the sessions of every context found in the cache, each context once; `clear`
leaves nothing to count. -/
theorem cache_size_of_run {K V : Type*} [DecidableEq K] (capacity : SizeT)
    (ops : List (StoreOp K V)) (ctxCapacity sessionCapacity : SizeT) (cops : List CacheOp) :
    let w := cacheRun (cacheNew ctxCapacity sessionCapacity) cops
    (runs storeStep (tlsCacheStoreInit capacity) ops).1.RepInv ∧
      w.cache.sslCtxCache.RepInv ∧ (∀ ctx, (w.ctxs ctx).sslSessCache.RepInv) ∧
      (sizeLua w).1 = w.cache.sslCtxCache.cache.values.length ∧
      (sizeLua w).2 =
        (w.visited.map fun ctx => (w.ctxs ctx).sslSessCache.cache.values.length).sum ∧
      w.visited.Nodup ∧
      (∀ ctx, ctx ∈ w.visited ↔ ∃ k, w.cache.sslCtxCache.levels.visible k = some ctx) ∧
      sizeLua (clearLua w) = (0, 0) ∧
      ∀ ctx ∈ w.visited, ((clearLua w).ctxs ctx).sslSessCache.ncached = 0 := by
  intro w
  have h : w.Inv := cacheRun_inv (cacheNew_inv ctxCapacity sessionCapacity) cops
  have hcount (ctx : Nat) : (w.ctxs ctx).sslSessCache.ncached =
      (w.ctxs ctx).sslSessCache.cache.values.length := by
    rw [Table.values_length]
    exact (h.sessions ctx).count
  refine ⟨storeRuns_repInv capacity ops, h.repInv, h.sessions, ?_, ?_, CacheState.visited_nodup h,
    fun ctx => CacheState.mem_visited h, ?_, ?_⟩
  · rw [Table.values_length]
    exact h.repInv.count
  · rw [sizeLua, countSessions_eq, countSessions_eq, CacheState.visited, List.map_append,
      List.sum_append]
    simp only [hcount]
  · obtain ⟨hncached, hcache, hweak⟩ := tlsCacheStoreClear_empty h.repInv
    simp only [sizeLua, clearLua, hncached, hcache, hweak]
    rfl
  · exact fun ctx hctx => clearLua_ncached h hctx

end LuaNet.Tls
