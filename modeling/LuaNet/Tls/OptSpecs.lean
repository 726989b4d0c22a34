import LuaNet.Addrinfo.Options

/-! The lists of specs of `tls_client.c`, `tls_server.c` and `tls_context.c`, run by `optspec_check`
on the stack. What the first two read is what the model of their options reads. -/

namespace LuaNet.Tls

open LuaNet.Lib LuaNet.Shared LuaNet.Addrinfo

def newLuaClientSpecs : List (OptSpec OptVal CtxOpts 1) :=
  [.retain (ascii "cert") (writing (checkPath "cert") fun s opts => { opts with cert := some s }),
    .retain (ascii "key") (writing (checkPath "key") fun s opts => { opts with key := some s }),
    .read (ascii "protocol") (writing (checkName "protocol" tlsProtocols)
      fun p opts => { opts with protocol := p }),
    .read (ascii "cipher") (writing (checkName "cipher" tlsCipherSuites)
      fun c opts => { opts with cipher := c }),
    .read (ascii "cache") (writing checkCache fun c opts => { opts with cache := some c }),
    .read (ascii "verify_depth") (writing (checkUint "verify_depth")
      fun n opts => { opts with verifyDepth := some n }),
    .read (ascii "cafile") (writing (checkPath "cafile")
      fun s opts => { opts with cafile := some s }),
    .read (ascii "capath") (writing (checkPath "capath")
      fun s opts => { opts with capath := some s }),
    .read (ascii "crls") (writing (checkString "crls") fun s opts => { opts with crls := some s })]

def newLuaServerSpecs : List (OptSpec OptVal ServerOpts 1) :=
  [.read (ascii "cert") (writing (checkPath "cert") fun s opts => { opts with cert := some s }),
    .read (ascii "key") (writing (checkPath "key") fun s opts => { opts with key := some s }),
    .read (ascii "protocol") (writing (checkName "protocol" tlsProtocols)
      fun p opts => { opts with protocol := p }),
    .read (ascii "cipher") (writing (checkName "cipher" tlsCipherSuites)
      fun c opts => { opts with cipher := c }),
    .read (ascii "session_timeout") (writing (checkInteger "session_timeout")
      fun n opts => { opts with sessTimeout := n }),
    .read (ascii "cache") (writing checkCache fun c opts => { opts with cache := some c }),
    .read (ascii "prefer_client_ciphers") (writing (checkBoolean "prefer_client_ciphers")
      fun b opts => { opts with preferClientCiphers := b }),
    .read (ascii "verify_mode") (writing (checkVerifyMode "verify_mode")
      fun m opts => { opts with verifyMode := some m }),
    .read (ascii "verify_depth") (writing (checkUint "verify_depth")
      fun n opts => { opts with verifyDepth := some n }),
    .read (ascii "cafile") (writing (checkPath "cafile")
      fun s opts => { opts with cafile := some s }),
    .read (ascii "capath") (writing (checkPath "capath")
      fun s opts => { opts with capath := some s }),
    .retain (ascii "crls") (writing (checkString "crls")
      fun s opts => { opts with crls := some s })]

structure BufferedOpts extends ContextOpts where
  bufcap : LuaInteger

def checkPort (name : String) : OptVal → Except String LuaString
  | .string s => checkOptPort (.string s)
  | .number n _ => checkOptPort (.number n)
  | v => .error (wrongType name "string or integer" v)

def checkOptBufcap : OptSpec OptVal BufferedOpts 3 :=
  .read (ascii "bufcap") (writing (checkInteger "bufcap") fun n opts => { opts with bufcap := n })

def acceptLuaSpecs : List (OptSpec OptVal BufferedOpts 3) := [checkOptBufcap]

def connectLuaSpecs : List (OptSpec OptVal BufferedOpts 3) :=
  [.read (ascii "host") (writing (checkString "host") fun s opts => { opts with host := s }),
    .read (ascii "port") (writing (checkPort "port") fun s opts => { opts with port := s }),
    .read (ascii "servername") (writing (checkString "servername")
      fun s opts => { opts with servername := s }),
    .read (ascii "verify_name") (writing (checkBoolean "verify_name")
      fun b opts => { opts with verifyName := b }),
    .read (ascii "verify_time") (writing (checkBoolean "verify_time")
      fun b opts => { opts with verifyTime := b }),
    .read (ascii "verify_cert") (writing (checkBoolean "verify_cert")
      fun b opts => { opts with verifyCert := b }),
    checkOptBufcap]

/-! Every callback writes to a field of its own. -/

theorem newLuaClientSpecs_commute : newLuaClientSpecs.Pairwise OptSpec.Commutes := by
  rw [newLuaClientSpecs]
  simp only [List.pairwise_cons, List.forall_mem_cons]
  and_intros
  all_goals first
    | exact writing_commutes rfl rfl fun _ _ _ => rfl
    | exact List.forall_mem_nil _
    | exact .nil

theorem newLuaServerSpecs_commute : newLuaServerSpecs.Pairwise OptSpec.Commutes := by
  rw [newLuaServerSpecs]
  simp only [List.pairwise_cons, List.forall_mem_cons]
  and_intros
  all_goals first
    | exact writing_commutes rfl rfl fun _ _ _ => rfl
    | exact List.forall_mem_nil _
    | exact .nil

theorem connectLuaSpecs_commute : connectLuaSpecs.Pairwise OptSpec.Commutes := by
  rw [connectLuaSpecs]
  simp only [List.pairwise_cons, List.forall_mem_cons]
  and_intros
  all_goals first
    | exact writing_commutes rfl rfl fun _ _ _ => rfl
    | exact List.forall_mem_nil _
    | exact .nil

def clientNames : List Bytes :=
  ["cert", "key", "protocol", "cipher", "cache", "verify_depth", "cafile", "capath", "crls"].map ascii

def serverNames : List Bytes :=
  ["cert", "key", "protocol", "cipher", "session_timeout", "cache", "prefer_client_ciphers",
    "verify_mode", "verify_depth", "cafile", "capath", "crls"].map ascii

def connectNames : List Bytes :=
  ["host", "port", "servername", "verify_name", "verify_time", "verify_cert", "bufcap"].map ascii

theorem newLuaClientSpecs_independent : Independent newLuaClientSpecs :=
  .of_names clientNames rfl (by decide) (by decide) (by decide)
    newLuaClientSpecs_commute

theorem newLuaServerSpecs_independent : Independent newLuaServerSpecs :=
  .of_names serverNames rfl (by decide) (by decide) (by decide)
    newLuaServerSpecs_commute

theorem acceptLuaSpecs_independent : Independent acceptLuaSpecs :=
  .of_names [ascii "bufcap"] rfl (by decide) (List.nodup_singleton _) (by decide)
    (List.pairwise_singleton _ _)

theorem connectLuaSpecs_independent : Independent connectLuaSpecs :=
  .of_names connectNames rfl (by decide) (by decide) (by decide)
    connectLuaSpecs_commute

/-- The order of an options table does not matter to any of the functions that take one. -/
theorem options_order_free :
    (∀ idx, OrderFree (optsAddrinfoSpecs idx)) ∧ (∀ idx, OrderFree (optsGetaddrinfoSpecs idx)) ∧
      OrderFree newLuaClientSpecs ∧ OrderFree newLuaServerSpecs ∧ OrderFree acceptLuaSpecs ∧
      OrderFree connectLuaSpecs := by
  refine ⟨fun idx => ?_, fun idx => ?_, ?_, ?_, ?_, ?_⟩
  · exact (optsAddrinfoSpecs_independent idx).orderFree
  · exact (optsGetaddrinfoSpecs_independent idx).orderFree
  · exact newLuaClientSpecs_independent.orderFree
  · exact newLuaServerSpecs_independent.orderFree
  · exact acceptLuaSpecs_independent.orderFree
  · exact connectLuaSpecs_independent.orderFree

/-! The specs of `new_lua` and the options that were modelled without the stack. -/

def optNames : List (Bytes × OptName) :=
  [(ascii "cert", .cert), (ascii "key", .key), (ascii "protocol", .protocol),
    (ascii "cipher", .cipher), (ascii "session_timeout", .sessionTimeout),
    (ascii "cache", .cache), (ascii "prefer_client_ciphers", .preferClientCiphers),
    (ascii "verify_mode", .verifyMode), (ascii "verify_depth", .verifyDepth),
    (ascii "cafile", .cafile), (ascii "capath", .capath), (ascii "crls", .crls)]

def optName (k : Bytes) : OptName :=
  match optNames.find? fun p => p.1 = k with
  | some p => p.2
  | none => .unknown

theorem optName_inj {k k' : Bytes} (hk : k ∈ optNames.map Prod.fst)
    (h : optName k' = optName k) : k' = k := by
  have hvalues : (optNames.map Prod.snd).Nodup := by decide
  have hknown : ∀ p ∈ optNames, p.2 ≠ .unknown := by decide
  obtain ⟨p, hfind⟩ : ∃ p, optNames.find? (fun p => p.1 = k) = some p := by
    rw [← Option.isSome_iff_exists, List.find?_isSome]
    obtain ⟨p, hp, rfl⟩ := List.mem_map.mp hk
    exact ⟨p, hp, decide_eq_true rfl⟩
  have hpk : p.1 = k := by simpa using List.find?_some hfind
  have hp : p ∈ optNames := List.mem_of_find?_eq_some hfind
  rw [optName, optName, hfind] at h
  cases hfind' : optNames.find? (fun p => p.1 = k') with
  | none =>
    rw [hfind'] at h
    exact absurd h.symm (hknown p hp)
  | some p' =>
    rw [hfind'] at h
    have hpk' : p'.1 = k' := by simpa using List.find?_some hfind'
    have hsame : p' = p :=
      List.inj_on_of_nodup_map hvalues (List.mem_of_find?_eq_some hfind') hp h
    rw [← hpk', hsame, hpk]

theorem optName_ne_notString (k : Bytes) : optName k ≠ .notString := by
  have hknown : ∀ p ∈ optNames, p.2 ≠ .notString := by decide
  rw [optName]
  split
  · next p hfind => exact hknown p (List.mem_of_find?_eq_some hfind)
  · exact nofun

section Meaning

variable {σ : Type} {specs : OptSpecs σ}

theorem optspecCheck_filter {n : OptName} {pairs : List (OptName × OptVal)}
    (hn : n ∉ pairs.map Prod.fst) (opts : σ) :
    optspecCheck (specs.filter fun spec => spec.1 ≠ n) pairs opts =
      optspecCheck specs pairs opts := by
  induction pairs generalizing specs opts with
  | nil => rfl
  | cons p pairs ih =>
    obtain ⟨name, v⟩ := p
    have hne : name ≠ n := fun h => hn (h ▸ List.mem_cons_self)
    have hpairs : n ∉ pairs.map Prod.fst := fun h => hn (List.mem_cons_of_mem _ h)
    have hfind : (specs.filter fun spec => spec.1 ≠ n).find? (fun spec => spec.1 = name) =
        specs.find? fun spec => spec.1 = name := by
      rw [List.find?_filter]
      congr 1
      funext spec
      by_cases h : spec.1 = name
      · simp [h, hne]
      · simp [h]
    have hswap : (specs.filter fun spec => spec.1 ≠ n).filter (fun spec => spec.1 ≠ name) =
        (specs.filter fun spec => spec.1 ≠ name).filter fun spec => spec.1 ≠ n :=
      List.filter_comm _ _ specs
    rw [optspecCheck, optspecCheck, hfind, ih hpairs]
    simp only [hswap, ih hpairs]

def SameSpec (spec : OptSpec OptVal σ 1) (old : OptName × (OptVal → σ → Except String σ)) : Prop :=
  spec.name ∈ optNames.map Prod.fst ∧ old.1 = optName spec.name ∧
    ∀ v opts, old.2 v opts = (spec.check v).map fun change => change opts

theorem find_same {news : List (OptSpec OptVal σ 1)} {olds : OptSpecs σ}
    (h : List.Forall₂ SameSpec news olds) (k : Bytes) :
    (specOf news k = none ∧ olds.find? (fun spec => spec.1 = optName k) = none) ∨
      ∃ spec old, specOf news k = some spec ∧
        olds.find? (fun spec => spec.1 = optName k) = some old ∧ SameSpec spec old := by
  induction h with
  | nil => exact .inl ⟨rfl, rfl⟩
  | @cons spec old news olds hsame _ ih =>
    rw [specOf, List.find?_cons, List.find?_cons]
    by_cases hname : spec.name = k
    · refine .inr ⟨spec, old, ?_, ?_, hsame⟩
      · simp [hname]
      · simp [hsame.2.1, hname]
    · have hother : old.1 ≠ optName k := by
        intro heq
        exact hname (optName_inj hsame.1 (heq.symm.trans hsame.2.1)).symm
      simp only [hname, hother, decide_false]
      exact ih

theorem optspecCheck_same {news : List (OptSpec OptVal σ 1)} {olds : OptSpecs σ}
    (h : List.Forall₂ SameSpec news olds) (l : List (Bytes × OptVal))
    (hnodup : (l.map Prod.fst).Nodup) (opts : σ) :
    optspecCheck olds (l.map fun p => (optName p.1, p.2)) opts = sweep (visit news) l opts := by
  induction l generalizing opts with
  | nil => rfl
  | cons p l ih =>
    obtain ⟨k, v⟩ := p
    obtain ⟨hk, hnodup⟩ := List.nodup_cons.mp hnodup
    rw [List.map_cons, optspecCheck, if_neg (optName_ne_notString k), sweep, visit]
    rcases find_same h k with ⟨hnew, hold⟩ | ⟨spec, old, hnew, hold, hsame⟩
    · simp only [hnew, hold]
      exact ih hnodup opts
    · simp only [hnew, hold, hsame.2.2]
      have hname : spec.name = k := (specOf_some hnew).2
      have hgone : optName k ∉ (l.map fun p => (optName p.1, p.2)).map Prod.fst := by
        rw [List.map_map]
        intro hmem
        obtain ⟨q, hq, heq⟩ := List.mem_map.mp hmem
        have hqk : q.1 = k := optName_inj (hname ▸ hsame.1) heq
        exact hk (List.mem_map.mpr ⟨q, hq, hqk⟩)
      cases spec.check v with
      | error msg => rfl
      | ok change => exact (optspecCheck_filter hgone (change opts)).trans (ih hnodup _)

theorem SameSpec.of_writing {α : Type} {read : OptVal → Except String α} {write : α → σ → σ}
    {spec : OptSpec OptVal σ 1} {old : OptName × (OptVal → σ → Except String σ)}
    (hcheck : spec.check = writing read write)
    (hold : ∀ v opts, old.2 v opts = (read v).bind fun a => .ok (write a opts))
    (hknown : spec.name ∈ optNames.map Prod.fst) (hname : old.1 = optName spec.name) :
    SameSpec spec old := by
  refine ⟨hknown, hname, fun v opts => ?_⟩
  rw [hold, hcheck, writing]
  cases read v <;> rfl

end Meaning

theorem newLuaClientSpecs_same : List.Forall₂ SameSpec newLuaClientSpecs clientSpecs := by
  rw [newLuaClientSpecs, clientSpecs]
  repeat' apply List.Forall₂.cons
  all_goals first
    | exact .of_writing rfl (fun _ _ => rfl) (by decide) (by decide)
    | exact .nil

theorem newLuaServerSpecs_same : List.Forall₂ SameSpec newLuaServerSpecs serverSpecs := by
  rw [newLuaServerSpecs, serverSpecs]
  repeat' apply List.Forall₂.cons
  all_goals first
    | exact .of_writing rfl (fun _ _ => rfl) (by decide) (by decide)
    | exact .nil

theorem newLuaClient_accepted (call : OptCall OptVal 1) (table : StringTable OptVal) :
    accepted (parse newLuaClientSpecs call table {}) =
      (optspecCheck clientSpecs (table.pairs.map fun p => (optName p.1, p.2)) {}).toOption := by
  rw [parse_accepted newLuaClientSpecs_independent.few,
    optspecCheck_same newLuaClientSpecs_same table.pairs table.nodup]

theorem newLuaServer_accepted (call : OptCall OptVal 1) (table : StringTable OptVal) :
    accepted (parse newLuaServerSpecs call table {}) =
      (optspecCheck serverSpecs (table.pairs.map fun p => (optName p.1, p.2)) {}).toOption := by
  rw [parse_accepted newLuaServerSpecs_independent.few,
    optspecCheck_same newLuaServerSpecs_same table.pairs table.nodup]

end LuaNet.Tls
