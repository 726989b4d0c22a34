import LuaNet.Device.Ifaddrs

/-! `getifaddrs` gives each interface what its own records say, whatever is between them in the
list, and leaves neither the probe socket nor the list behind. -/

namespace LuaNet.Device

open LuaNet.Lib

section Rules

variable {ample : Prop} {live : IfResource → Bool}

/-- These resources live; `ample` says that no allocation is refused. -/
abbrev IfRun (ample : Prop) (live : IfResource → Bool) : Logged IfResource (List Bool) → Prop :=
  Logged.Owns live fun memory => ample → ∀ granted ∈ memory, granted = true

def IfFail (ample : Prop) (live : IfResource → Bool) (_ : IfError)
    (s : Logged IfResource (List Bool)) : Prop := IfRun ample live s ∧ ¬ ample

def Gives {α : Type} (ample : Prop) (live : IfResource → Bool) (v : α) (r : α)
    (s : Logged IfResource (List Bool)) : Prop := r = v ∧ IfRun ample live s

abbrev Computes {α : Type} (ample : Prop) (live : IfResource → Bool) (m : IfM α) (v : α) : Prop :=
  Raising.Triple (IfRun ample live) m (Gives ample live v) (IfFail ample live)

theorem Computes.pure {α : Type} (v : α) : Computes ample live (pure v) v :=
  Raising.Triple.pure fun _ hs => ⟨rfl, hs⟩

theorem Computes.bind {α β : Type} {m : IfM α} {f : α → IfM β} {v : α} {w : β}
    (hm : Computes ample live m v) (hf : Computes ample live (f v) w) :
    Computes ample live (m >>= f) w := by
  refine Raising.Triple.bind hm fun r => Raising.Triple.of_fact fun hr => ?_
  rw [hr]
  exact hf

theorem push_computes : Computes ample live push () := by
  have halloc : Raising.Triple (fun memory => ample → ∀ granted ∈ memory, granted = true) ifAlloc
      (fun _ memory => ample → ∀ granted ∈ memory, granted = true)
      fun _ memory => (ample → ∀ granted ∈ memory, granted = true) ∧ ¬ ample := by
    intro memory h
    cases memory with
    | nil => exact h
    | cons granted memory =>
      have hrest (hample : ample) : ∀ granted ∈ memory, granted = true :=
        (List.forall_mem_cons.mp (h hample)).2
      cases granted with
      | true => exact hrest
      | false =>
        refine ⟨hrest, fun hample => ?_⟩
        have hhead := (List.forall_mem_cons.mp (h hample)).1
        cases hhead
  refine (Logged.inner_rule halloc).mono (fun _ h => h) (fun _ s h => ⟨rfl, h⟩) fun e s h => ?_
  exact ⟨h.mono fun hrest => hrest.1, h.rest.2⟩

theorem use_computes {r : IfResource} (h : live r = true) :
    Computes ample live (Logged.use r) () :=
  (Logged.use_rule h).post fun _ _ hs => ⟨rfl, hs⟩

theorem pushField_computes {α : Type} (o : Option α) : Computes ample live (pushField o) o := by
  cases o with
  | none => exact .pure none
  | some a => exact push_computes.bind (.pure (some a))

theorem addIfaFlags_computes (flags : Nat) (rows : List IfaFlag) :
    Computes ample live (addIfaFlags flags rows)
      ((rows.filter (IfaFlag.isSet flags)).map IfaFlag.name) := by
  induction rows with
  | nil => exact .pure []
  | cons flag rows ih =>
    rw [addIfaFlags]
    split
    · next hset =>
      rw [List.filter_cons_of_pos hset]
      exact push_computes.bind (ih.bind (.pure _))
    · next hclear =>
      rw [List.filter_cons_of_neg hclear]
      exact ih

variable {A : Type} (sys : IfSystem A) {fd : Nat}

theorem newIface_computes (hfd : live (.probe fd) = true) (name : Bytes) (flags : Nat) :
    Computes ample live (newIface sys fd name flags) (ifaceOf sys name flags []) := by
  refine push_computes.bind ((addIfaFlags_computes flags ifaFlags).bind ?_)
  refine Computes.bind (pushField_computes _) (Computes.bind ?_ (.pure _))
  exact (use_computes hfd).bind (pushField_computes _)

theorem addInet_computes (entries : Option (List InetEntry)) (e : InetEntry) :
    Computes ample live (addInet entries e) (some (entries.getD [] ++ [e])) := by
  refine push_computes.bind ?_
  refine Computes.bind (pushField_computes _) (Computes.bind (pushField_computes _) ?_)
  refine Computes.bind (pushField_computes _) (Computes.bind (pushField_computes _) ?_)
  exact push_computes.bind (.pure _)

def Iface.with (iface : Iface) (r : IfAddr A × A) : Iface :=
  { iface with
    ether := (etherOfRecord sys r).or iface.ether
    inet := ((inetOf sys r).map fun e => iface.inet.getD [] ++ [e]).or iface.inet
    inet6 := ((inet6Of sys r).map fun e => iface.inet6.getD [] ++ [e]).or iface.inet6 }

theorem addAddr_computes (iface : Iface) (ifa : IfAddr A) (addr : A) :
    Computes ample live (addAddr sys iface ifa addr) (iface.with sys (ifa, addr)) := by
  rw [addAddr, Iface.with, etherOfRecord, inetOf, inet6Of]
  cases hkind : sys.kind addr with
  | inet => exact Computes.bind (addInet_computes _ _) (.pure _)
  | inet6 => exact Computes.bind (addInet_computes _ _) (.pure _)
  | packet ll halen =>
    refine Computes.bind (pushField_computes (etherOf ll halen)) ?_
    simp only [Option.map_none, Option.none_or]
    cases etherOf ll halen with
    | none => exact .pure iface
    | some ether => exact .pure _
  | other => exact .pure iface

end Rules

section Grouping

variable {A : Type} (sys : IfSystem A)

theorem nonempty_snoc {α : Type} (l : List α) (a : α) :
    nonempty (l ++ [a]) = some ((nonempty l).getD [] ++ [a]) := by
  cases l with
  | nil => rfl
  | cons b l => rfl

theorem nonempty_filterMap_snoc {α β : Type} (f : α → Option β) (l : List α) (a : α) :
    nonempty ((l ++ [a]).filterMap f) =
      ((f a).map fun b => (nonempty (l.filterMap f)).getD [] ++ [b]).or
        (nonempty (l.filterMap f)) := by
  rw [List.filterMap_append]
  cases h : f a with
  | none =>
    rw [List.filterMap_cons_none h, List.filterMap_nil, List.append_nil]
    rfl
  | some b =>
    rw [List.filterMap_cons_some h]
    exact nonempty_snoc _ b

theorem getLast?_filterMap_snoc {α β : Type} (f : α → Option β) (l : List α) (a : α) :
    ((l ++ [a]).filterMap f).getLast? = (f a).or (l.filterMap f).getLast? := by
  rw [List.filterMap_append]
  cases h : f a with
  | none =>
    rw [List.filterMap_cons_none h, List.filterMap_nil, List.append_nil]
    rfl
  | some b =>
    rw [List.filterMap_cons_some h, List.filterMap_nil, List.getLast?_concat]
    rfl

theorem ifaceOf_snoc (name : Bytes) (flags : Nat) (records : List (IfAddr A × A))
    (r : IfAddr A × A) :
    ifaceOf sys name flags (records ++ [r]) = (ifaceOf sys name flags records).with sys r := by
  rw [Iface.with, ifaceOf, nonempty_filterMap_snoc, nonempty_filterMap_snoc,
    getLast?_filterMap_snoc]
  rfl

/-- The records so far have been put together. -/
def Grouped (done : List (IfAddr A)) (table : IfTable) : Prop :=
  ∀ name, table name = summary sys name (recordsOf done name)

theorem recordsOf_snoc (done : List (IfAddr A)) (ifa : IfAddr A) (name : Bytes) :
    recordsOf (done ++ [ifa]) name = recordsOf done name ++ recordsOf [ifa] name :=
  List.filterMap_append

theorem Grouped.snoc {done : List (IfAddr A)} {table : IfTable} (h : Grouped sys done table)
    {ifa : IfAddr A} {name : Bytes} {addr : A} (hname : ifa.name = some name)
    (haddr : ifa.addr = some addr) :
    Grouped sys (done ++ [ifa]) (Function.update table name
      (some (((table name).getD (ifaceOf sys name ifa.flags [])).with sys (ifa, addr)))) := by
  intro other
  rw [recordsOf_snoc]
  by_cases hother : other = name
  · subst hother
    have hself : recordsOf [ifa] other = [(ifa, addr)] := by
      simp [recordsOf, hname, haddr]
    rw [Function.update_self, hself, h other]
    cases recordsOf done other with
    | nil => exact congrArg some (ifaceOf_snoc sys other ifa.flags [] (ifa, addr)).symm
    | cons first rest =>
      exact congrArg some (ifaceOf_snoc sys other first.1.flags (first :: rest) (ifa, addr)).symm
  · have hnone : recordsOf [ifa] other = [] := by
      simp [recordsOf, hname, Ne.symm hother]
    rw [Function.update_of_ne hother, hnone, List.append_nil]
    exact h other

theorem Grouped.skip {done : List (IfAddr A)} {table : IfTable} (h : Grouped sys done table)
    {ifa : IfAddr A} (hskip : ifa.name = none ∨ ifa.addr = none) :
    Grouped sys (done ++ [ifa]) table := by
  intro name
  have hnone : recordsOf [ifa] name = [] := by
    rcases hskip with hskip | hskip
    · simp [recordsOf, hskip]
    · simp [recordsOf, hskip]
  rw [recordsOf_snoc, hnone, List.append_nil]
  exact h name

variable {ample : Prop} {live : IfResource → Bool} {fd : Nat}

theorem getIface_computes (hfd : live (.probe fd) = true) (table : IfTable) (name : Bytes)
    (flags : Nat) :
    Computes ample live (getIface sys fd table name flags)
      ((table name).getD (ifaceOf sys name flags [])) := by
  refine push_computes.bind ?_
  cases table name with
  | some iface => exact .pure iface
  | none => exact newIface_computes sys hfd name flags

theorem pushLoop_rule (hfd : live (.probe fd) = true) (hlist : live .list = true)
    (rest done : List (IfAddr A)) {table : IfTable} (h : Grouped sys done table) :
    Raising.Triple (IfRun ample live) (pushLoop sys fd table rest)
      (fun t s => Grouped sys (done ++ rest) t ∧ IfRun ample live s) (IfFail ample live) := by
  induction rest generalizing done table with
  | nil =>
    refine Raising.Triple.pure fun s hs => ⟨?_, hs⟩
    rwa [List.append_nil]
  | cons ifa rest ih =>
    rw [List.append_cons]
    refine Raising.Triple.bind (use_computes hlist) fun _ => Raising.Triple.of_fact fun _ => ?_
    cases hname : ifa.name with
    | none =>
      simp only
      exact ih (done ++ [ifa]) (h.skip sys (.inl hname))
    | some name =>
      cases haddr : ifa.addr with
      | none =>
        simp only
        exact ih (done ++ [ifa]) (h.skip sys (.inr haddr))
      | some addr =>
        simp only
        refine Raising.Triple.bind (getIface_computes sys hfd table name ifa.flags) fun iface =>
          Raising.Triple.of_fact fun hiface => ?_
        refine Raising.Triple.bind (addAddr_computes sys iface ifa addr) fun iface' =>
          Raising.Triple.of_fact fun hiface' => ?_
        rw [hiface', hiface]
        exact ih (done ++ [ifa]) (h.snoc sys hname haddr)

end Grouping

section Call

variable {A : Type} (sys : IfSystem A)

inductive IfOutcome (call : IfCall A) (ample : Prop) : Except IfError IfReturn → Prop
  | noSocket {errno : Nat} (h : call.socket = .error errno) :
    IfOutcome call ample (.ok (.failed errno "socket"))
  | noList {fd errno : Nat} (hfd : call.socket = .ok fd) (h : call.getifaddrs = .error errno) :
    IfOutcome call ample (.ok (.failed errno "getifaddrs"))
  | table {fd : Nat} {list : List (IfAddr A)} {t : IfTable} (hfd : call.socket = .ok fd)
    (hlist : call.getifaddrs = .ok list) (h : Grouped sys list t) :
    IfOutcome call ample (.ok (.table t))
  | memory (h : ¬ ample) : IfOutcome call ample (.error .memory)

def nothing (_ : IfResource) : Bool := false

def probing (fd : Nat) : IfResource → Bool := Function.update nothing (.probe fd) true

def listing (fd : Nat) : IfResource → Bool := Function.update (probing fd) .list true

theorem probing_freed (fd : Nat) :
    Function.update (probing fd) (.probe fd) false = nothing := by
  rw [probing, Function.update_idem]
  exact Function.update_eq_self (.probe fd) nothing

theorem listing_freed (fd : Nat) :
    Function.update (Function.update (listing fd) (.probe fd) false) .list false = nothing := by
  have hne : (.list : IfResource) ≠ .probe fd := nofun
  rw [listing, Function.update_comm hne, Function.update_idem, probing_freed]
  exact Function.update_eq_self .list nothing

theorem listing_probe (fd : Nat) : listing fd (.probe fd) = true := by
  have hne : (.probe fd : IfResource) ≠ .list := nofun
  rw [listing, Function.update_of_ne hne, probing, Function.update_self]

theorem listing_list (fd : Nat) : Function.update (listing fd) (.probe fd) false .list = true := by
  have hne : (.list : IfResource) ≠ .probe fd := nofun
  rw [Function.update_of_ne hne, listing, Function.update_self]

theorem probing_list (fd : Nat) : probing fd .list = false := by
  have hne : (.list : IfResource) ≠ .probe fd := nofun
  rw [probing, Function.update_of_ne hne]
  rfl

variable {ample : Prop} {call : IfCall A}

theorem push_or_none {α : Type} {live : IfResource → Bool} {f : Unit → IfM α}
    {Q : α → Logged IfResource (List Bool) → Prop}
    {E : IfError → Logged IfResource (List Bool) → Prop}
    (hf : Raising.Triple (IfRun ample live) (f ()) Q E)
    (hE : ∀ e s, IfFail ample live e s → E e s) :
    Raising.Triple (IfRun ample live) (push >>= f) Q E :=
  (push_computes.mono (fun _ h => h) (fun _ _ h => h) hE).bind fun _ =>
    Raising.Triple.of_fact fun _ => hf

theorem getifaddrsLua_rule (call : IfCall A) :
    Raising.Triple (IfRun ample nothing) (getifaddrsLua sys call)
      (fun r s => IfOutcome sys call ample (.ok r) ∧ IfRun ample nothing s)
      fun e s => IfOutcome sys call ample (.error e) ∧ IfRun ample nothing s := by
  have hfail (e : IfError) (s : Logged IfResource (List Bool)) (h : IfFail ample nothing e s) :
      IfOutcome sys call ample (.error e) ∧ IfRun ample nothing s := by
    cases e with
    | memory => exact ⟨.memory h.2, h.1⟩
  refine push_or_none ?_ hfail
  cases hfd : call.socket with
  | error errno =>
    refine push_or_none ?_ hfail
    exact Raising.Triple.pure fun s hs => ⟨.noSocket hfd, hs⟩
  | ok fd =>
    refine (Logged.acquire_rule rfl).bind fun _ => ?_
    cases hlist : call.getifaddrs with
    | error errno =>
      have hlive : probing fd (.probe fd) = true := Function.update_self _ _ _
      refine (Logged.free_rule hlive).bind fun _ => ?_
      rw [probing_freed]
      refine push_or_none ?_ hfail
      exact Raising.Triple.pure fun s hs => ⟨.noList hfd hlist, hs⟩
    | ok list =>
      refine (Logged.acquire_rule (probing_list fd)).bind fun _ => ?_
      have hempty : Grouped sys [] fun _ => none := fun _ => rfl
      have hbody : Raising.Triple (IfRun ample (listing fd)) (pushIfaddrs sys fd list)
          (fun t s => Grouped sys list t ∧ IfRun ample (listing fd) s)
          (IfFail ample (listing fd)) :=
        push_or_none (pushLoop_rule sys (listing_probe fd) (Function.update_self _ _ _) list []
          hempty) fun _ _ h => h
      have hrelease : Raising.Triple (IfRun ample (listing fd)) (releaseIfaddrs fd)
          (fun _ => IfRun ample nothing) fun _ _ => False := by
        refine (Logged.free_rule (listing_probe fd)).bind fun _ => ?_
        rw [← listing_freed fd]
        exact Logged.free_rule (listing_list fd)
      have hworker : Raising.Triple (IfRun ample (listing fd))
          (Raising.finallyDo (pushIfaddrs sys fd list) (releaseIfaddrs fd))
          (fun t s => Grouped sys list t ∧ IfRun ample nothing s) (IfFail ample nothing) := by
        refine hbody.finallyDo (fun t => Raising.Triple.of_fact fun ht => ?_) fun e => ?_
        · exact hrelease.post fun _ s hs => ⟨ht, hs⟩
        · have hkept (hample : ¬ ample) : Raising.Triple (IfRun ample (listing fd))
              (releaseIfaddrs fd) (fun _ => IfFail ample nothing e) fun _ _ => False :=
            hrelease.post fun _ s hs => ⟨hs, hample⟩
          exact (Raising.Triple.of_fact hkept).pre fun s hs => hs.symm
      refine Raising.Triple.bind (hworker.mono (fun _ h => h) (fun _ _ h => h) hfail) fun t =>
        Raising.Triple.pure fun s hs => ⟨.table hfd hlist hs.1, hs.2⟩

end Call

/-- Whatever the list is, each interface gets the flags of its first record, its last link address,
and all its addresses in their order, and no interface gets anything of another; and the probe
socket and the list are given back once each, whatever fails on the way. -/
theorem getifaddrs_exact {A : Type} (sys : IfSystem A) (call : IfCall A) (memory : List Bool) :
    IfOutcome sys call (∀ granted ∈ memory, granted = true)
        (getifaddrsLua sys call ⟨[], memory⟩).1 ∧
      SafeLives (getifaddrsLua sys call ⟨[], memory⟩).2.events ∧
      ∀ r, aliveAfter r (getifaddrsLua sys call ⟨[], memory⟩).2.events = false := by
  have hstart : IfRun (∀ granted ∈ memory, granted = true) nothing ⟨[], memory⟩ :=
    ⟨tracks_nil, fun h => h⟩
  have hrun := getifaddrsLua_rule sys call _ hstart
  rcases hcase : getifaddrsLua sys call ⟨[], memory⟩ with ⟨e | r, s⟩
  · rw [hcase] at hrun
    exact ⟨hrun.1, hrun.2.tracks.safe, hrun.2.tracks.alive⟩
  · rw [hcase] at hrun
    exact ⟨hrun.1, hrun.2.tracks.safe, hrun.2.tracks.alive⟩

end LuaNet.Device
