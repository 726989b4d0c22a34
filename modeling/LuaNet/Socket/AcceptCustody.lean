import LuaNet.Socket.Accept

/-! Custody of accepted connections: each descriptor that is open has one holder, whatever
allocation fails and whenever finalizers run. -/

namespace LuaNet.Socket

open LuaNet.Lib LuaNet.Lib.Coroutine

def holdsFd (fd : Nat) (o : FdObject) : Bool := o.fd = some fd

def AcceptEvent.socket : AcceptEvent → Option Nat
  | .returned { handle := some (.socket i), .. } => some i
  | _ => none

def AcceptRet.outcomes (r : AcceptRet) : Nat :=
  r.handle.isSome.toNat + r.err.isSome.toNat + r.timeout.toNat

def AcceptWorld.holders (w : AcceptWorld) (fd : Nat) : Nat :=
  w.objs.countP (holdsFd fd) + w.given.count fd

def returnedSockets (es : List AcceptEvent) : List Nat := es.filterMap AcceptEvent.socket

/-- The descriptors: an open one has a holder, and no close(2) misses. -/
structure FdsKept (w : AcceptWorld) : Prop where
  nodup : w.opened.Nodup
  custody : ∀ fd, w.opened.count fd = w.holders fd
  closes : ∀ fd, .closed fd false ∉ w.events

/-- The objects: the user's hold descriptors, and `on` is the one on the stack of a call. -/
structure RefsKept (on : Option (Nat × Option Nat)) (objs : List FdObject) : Prop where
  user : ∀ (i : Nat) (o : FdObject), objs[i]? = some o → o.ref = .user → o.fd.isSome = true
  stack : ∀ (i : Nat) (o : FdObject), objs[i]? = some o → o.ref = .stack → on = some (i, o.fd)
  own : ∀ (i : Nat) (fd : Option Nat), on = some (i, fd) →
    objs[i]? = some { fd := fd, ref := .stack }

structure RetsKept (objs : List FdObject) (es : List AcceptEvent) : Prop where
  returned : ∀ i ∈ returnedSockets es, ∃ o : FdObject, objs[i]? = some o ∧ o.ref ≠ .stack
  once : (returnedSockets es).Nodup
  outcome : ∀ r, .returned r ∈ es → r.outcomes = 1

structure AcceptKept (on : Option (Nat × Option Nat)) (w : AcceptWorld) : Prop where
  fds : FdsKept w
  refs : RefsKept on w.objs
  rets : RetsKept w.objs w.events

section Fds

variable {w : AcceptWorld} {i fd : Nat} {o o' : FdObject}

theorem countP_holdsFd_set {objs : List FdObject} (h : objs[i]? = some o) :
    (objs.set i o').countP (holdsFd fd) + (holdsFd fd o).toNat =
      objs.countP (holdsFd fd) + (holdsFd fd o').toNat := by
  obtain ⟨hlt, rfl⟩ := List.getElem?_eq_some_iff.mp h
  have hpos : holdsFd fd objs[i] = true → 0 < objs.countP (holdsFd fd) := fun hholds =>
    List.countP_pos_iff.mpr ⟨_, List.getElem_mem hlt, hholds⟩
  rw [List.countP_set hlt]
  cases hold : holdsFd fd objs[i] with
  | false => cases holdsFd fd o' <;> simp
  | true =>
    have hle := hpos hold
    cases holdsFd fd o' <;> simp <;> omega

theorem holdsFd_self (ref : Referrer) : holdsFd fd { fd := some fd, ref := ref } = true :=
  decide_eq_true rfl

theorem holdsFd_other {fd' : Nat} (h : fd' ≠ fd) (ref : Referrer) :
    holdsFd fd { fd := some fd', ref := ref } = false :=
  decide_eq_false fun heq => h (Option.some.inj heq)

theorem FdsKept.log (h : FdsKept w) {e : AcceptEvent} (he : ∀ fd, e ≠ .closed fd false) :
    FdsKept (w.log e) := by
  refine ⟨h.nodup, h.custody, fun fd hmem => ?_⟩
  rcases List.mem_append.mp hmem with hmem | hmem
  · exact h.closes fd hmem
  · exact he fd (List.mem_singleton.mp hmem).symm

theorem FdsKept.closeFd {v : AcceptWorld} (h : FdsKept w) (hopened : v.opened = w.opened)
    (hevents : v.events = w.events)
    (hheld : ∀ fd', v.holders fd' + (decide (fd' = fd)).toNat = w.holders fd') :
    FdsKept (v.closeFd fd) := by
  have hcount := h.custody fd
  have hself := hheld fd
  rw [decide_eq_true (Eq.refl fd)] at hself
  have hmem : fd ∈ v.opened := by
    rw [hopened, ← List.count_pos_iff, hcount, ← hself]
    exact Nat.succ_pos _
  refine ⟨?_, fun fd' => ?_, fun fd' hclosed => ?_⟩
  · show (v.opened.erase fd).Nodup
    rw [hopened]
    exact h.nodup.erase fd
  · show (v.opened.erase fd).count fd' = v.holders fd'
    have hother := hheld fd'
    rw [hopened, List.count_erase, h.custody fd', ← hother]
    by_cases heq : fd' = fd
    · subst heq
      simp
    · have hne : ¬fd = fd' := fun hfd => heq hfd.symm
      simp [heq, hne]
  · have hclosed' : AcceptEvent.closed fd' false ∈ v.events ++ [.closed fd (decide (fd ∈ v.opened))] :=
      hclosed
    rw [decide_eq_true hmem, hevents] at hclosed'
    rcases List.mem_append.mp hclosed' with hclosed' | hclosed'
    · exact h.closes fd' hclosed'
    · cases List.mem_singleton.mp hclosed'

theorem FdsKept.closeObj (h : FdsKept w) {r r' : Referrer}
    (hi : w.objs[i]? = some { fd := some fd, ref := r }) :
    FdsKept ((w.setObj i { fd := none, ref := r' }).closeFd fd) := by
  refine h.closeFd rfl rfl fun fd' => ?_
  have hset := @countP_holdsFd_set i fd' _ { fd := none, ref := r' } _ hi
  show (w.objs.set i _).countP (holdsFd fd') + w.given.count fd' + _ = _
  rw [AcceptWorld.holders]
  by_cases heq : fd' = fd
  · subst heq
    rw [holdsFd_self, show holdsFd fd' { fd := none, ref := r' } = false from rfl] at hset
    rw [decide_eq_true rfl]
    simp only [Bool.toNat_true, Bool.toNat_false] at hset ⊢
    omega
  · rw [holdsFd_other fun hfd => heq hfd.symm,
      show holdsFd fd' { fd := none, ref := r' } = false from rfl] at hset
    rw [decide_eq_false heq]
    simp only [Bool.toNat_false] at hset ⊢
    omega

theorem FdsKept.closeGiven (h : FdsKept w) (hfd : fd ∈ w.given) :
    FdsKept ({ w with given := w.given.erase fd }.closeFd fd) := by
  refine h.closeFd rfl rfl fun fd' => ?_
  show w.objs.countP (holdsFd fd') + (w.given.erase fd).count fd' + _ = _
  have hpos : 0 < w.given.count fd := List.count_pos_iff.mpr hfd
  rw [AcceptWorld.holders, List.count_erase]
  by_cases heq : fd' = fd
  · subst heq
    simp only [beq_self_eq_true, if_true, decide_true, Bool.toNat_true]
    omega
  · have hne : ¬fd = fd' := fun hfd => heq hfd.symm
    simp [heq, hne]

theorem FdsKept.take {v : AcceptWorld} (h : FdsKept w) (hfresh : fd ∉ w.opened)
    (hopened : v.opened = fd :: w.opened) (hevents : v.events = w.events ++ [.accepted fd])
    (hheld : ∀ fd', v.holders fd' = w.holders fd' + (decide (fd' = fd)).toNat) : FdsKept v := by
  refine ⟨?_, fun fd' => ?_, fun fd' hclosed => ?_⟩
  · rw [hopened]
    exact h.nodup.cons hfresh
  · rw [hopened, hheld, List.count_cons, h.custody fd']
    by_cases heq : fd' = fd
    · subst heq
      simp
    · have hne : ¬fd = fd' := fun hfd => heq hfd.symm
      simp [heq, hne]
  · rw [hevents] at hclosed
    rcases List.mem_append.mp hclosed with hclosed | hclosed
    · exact h.closes fd' hclosed
    · cases List.mem_singleton.mp hclosed

theorem FdsKept.pass {v : AcceptWorld} (h : FdsKept w) (hopened : v.opened = w.opened)
    (hevents : v.events = w.events) (hheld : ∀ fd', v.holders fd' = w.holders fd') : FdsKept v :=
  ⟨hopened ▸ h.nodup, fun fd' => by rw [hopened, hheld, h.custody], hevents ▸ h.closes⟩

theorem freshFd_not_mem (w : AcceptWorld) (pick : Nat) : w.freshFd pick ∉ w.opened := by
  have hmax (l : List Nat) (a : Nat) (ha : a ∈ l) : a ≤ l.foldr max 0 := by
    induction l with
    | nil => cases ha
    | cons b l ih =>
      rcases List.mem_cons.mp ha with rfl | ha
      · exact Nat.le_max_left _ _
      · exact Nat.le_trans (ih ha) (Nat.le_max_right _ _)
  intro hmem
  have hused := List.mem_append_right w.server.toList hmem
  unfold AcceptWorld.freshFd at hused
  dsimp only at hused
  split at hused
  · exact Nat.not_succ_le_self _ (hmax _ _ hused)
  · next hfree => exact hfree hused

end Fds

section Objects

variable {on : Option (Nat × Option Nat)} {objs : List FdObject} {es : List AcceptEvent}
  {i : Nat} {o o' : FdObject}

theorem RefsKept.other (h : RefsKept on objs) (hi : objs[i]? = some o) (ho : o.ref ≠ .stack)
    (ho' : o'.ref ≠ .stack) (huser : o'.ref = .user → o'.fd.isSome = true) :
    RefsKept on (objs.set i o') := by
  have hlt : i < objs.length := (List.getElem?_eq_some_iff.mp hi).1
  refine ⟨fun j p hj hp => ?_, fun j p hj hp => ?_, fun j fd hon => ?_⟩
  · by_cases hji : i = j
    · subst hji
      rw [List.getElem?_set_self hlt] at hj
      cases hj
      exact huser hp
    · rw [List.getElem?_set_ne hji] at hj
      exact h.user j p hj hp
  · by_cases hji : i = j
    · subst hji
      rw [List.getElem?_set_self hlt] at hj
      cases hj
      exact absurd hp ho'
    · rw [List.getElem?_set_ne hji] at hj
      exact h.stack j p hj hp
  · have hown := h.own j fd hon
    by_cases hji : i = j
    · subst hji
      rw [hi] at hown
      cases hown
      exact absurd rfl ho
    · rw [List.getElem?_set_ne hji]
      exact hown

theorem RefsKept.nobody {fd' : Option Nat} (h : RefsKept on objs) (hi : objs[i]? = some o)
    (ho : o.ref ≠ .stack) : RefsKept on (objs.set i { fd := fd', ref := .nobody }) := by
  have hstack : ({ fd := fd', ref := .nobody } : FdObject).ref ≠ .stack := nofun
  exact h.other hi ho hstack nofun

theorem RefsKept.mine {fd : Option Nat} (h : RefsKept (some (i, fd)) objs)
    (huser : o'.ref = .user → o'.fd.isSome = true) :
    RefsKept (if o'.ref = .stack then some (i, o'.fd) else none) (objs.set i o') := by
  have hi := h.own i fd rfl
  have hlt : i < objs.length := (List.getElem?_eq_some_iff.mp hi).1
  have hothers (j : Nat) (p : FdObject) (hj : objs[j]? = some p) (hp : p.ref = .stack) : i = j := by
    have hstack := h.stack j p hj hp
    cases hstack
    rfl
  refine ⟨fun j p hj hp => ?_, fun j p hj hp => ?_, fun j fd' hon => ?_⟩
  · by_cases hji : i = j
    · subst hji
      rw [List.getElem?_set_self hlt] at hj
      cases hj
      exact huser hp
    · rw [List.getElem?_set_ne hji] at hj
      exact h.user j p hj hp
  · by_cases hji : i = j
    · subst hji
      rw [List.getElem?_set_self hlt] at hj
      cases hj
      rw [if_pos hp]
    · rw [List.getElem?_set_ne hji] at hj
      exact absurd (hothers j p hj hp) hji
  · split at hon
    · next hstack =>
      cases hon
      rw [List.getElem?_set_self hlt, ← hstack]
    · cases hon

theorem RefsKept.stay {fd : Option Nat} (h : RefsKept (some (i, fd)) objs) (fd' : Option Nat) :
    RefsKept (some (i, fd')) (objs.set i { fd := fd', ref := .stack }) :=
  @RefsKept.mine objs i { fd := fd', ref := .stack } fd h nofun

theorem RefsKept.leave {fd : Option Nat} (h : RefsKept (some (i, fd)) objs) (fd' : Nat) :
    RefsKept none (objs.set i { fd := some fd', ref := .user }) :=
  @RefsKept.mine objs i { fd := some fd', ref := .user } fd h fun _ => rfl

theorem RefsKept.push (h : RefsKept none objs) :
    RefsKept (some (objs.length, none)) (objs ++ [{ fd := none, ref := .stack }]) := by
  refine ⟨fun j p hj hp => ?_, fun j p hj hp => ?_, fun j fd hon => ?_⟩
  · rcases Nat.lt_trichotomy j objs.length with hlt | rfl | hgt
    · rw [List.getElem?_append_left hlt] at hj
      exact h.user j p hj hp
    · rw [List.getElem?_concat_length] at hj
      cases hj
      cases hp
    · rw [List.getElem?_eq_none (by rw [List.length_append]; exact hgt)] at hj
      cases hj
  · rcases Nat.lt_trichotomy j objs.length with hlt | rfl | hgt
    · rw [List.getElem?_append_left hlt] at hj
      cases h.stack j p hj hp
    · rw [List.getElem?_concat_length] at hj
      cases hj
      rfl
    · rw [List.getElem?_eq_none (by rw [List.length_append]; exact hgt)] at hj
      cases hj
  · cases hon
    exact List.getElem?_concat_length

theorem RetsKept.objects {objs' : List FdObject} (h : RetsKept objs es)
    (hobjs : ∀ (i : Nat) (o : FdObject), objs[i]? = some o → o.ref ≠ .stack →
      ∃ o' : FdObject, objs'[i]? = some o' ∧ o'.ref ≠ .stack) : RetsKept objs' es := by
  refine ⟨fun i hi => ?_, h.once, h.outcome⟩
  obtain ⟨o, ho, href⟩ := h.returned i hi
  exact hobjs i o ho href

theorem RetsKept.set (h : RetsKept objs es) (hi : objs[i]? = some o)
    (href : o.ref ≠ .stack → o'.ref ≠ .stack) : RetsKept (objs.set i o') es := by
  apply h.objects
  intro j p hj hp
  by_cases hji : i = j
  · subst hji
    rw [hi] at hj
    cases hj
    exact ⟨o', List.getElem?_set_self (List.getElem?_eq_some_iff.mp hi).1, href hp⟩
  · exact ⟨p, by rw [List.getElem?_set_ne hji]; exact hj, hp⟩

theorem RetsKept.mine (h : RetsKept objs es) {fd : Option Nat}
    (hi : objs[i]? = some { fd := fd, ref := .stack }) (o' : FdObject) :
    RetsKept (objs.set i o') es := h.set hi fun hne => absurd rfl hne

theorem RetsKept.quiet (h : RetsKept objs es) {e : AcceptEvent} (he : ∀ r, e ≠ .returned r) :
    RetsKept objs (es ++ [e]) := by
  have hsockets : returnedSockets (es ++ [e]) = returnedSockets es := by
    have hnone : returnedSockets [e] = [] := by
      cases e with
      | returned r => exact absurd rfl (he r)
      | accepted fd => rfl
      | closed fd found => rfl
      | raised => rfl
    rw [returnedSockets, List.filterMap_append]
    exact (congrArg _ hnone).trans (List.append_nil _)
  refine ⟨hsockets ▸ h.returned, hsockets ▸ h.once, fun r hr => ?_⟩
  rcases List.mem_append.mp hr with hr | hr
  · exact h.outcome r hr
  · exact absurd (List.mem_singleton.mp hr).symm (he r)

end Objects

section Steps

variable {on : Option (Nat × Option Nat)} {w : AcceptWorld} {i fd : Nat}

theorem AcceptKept.withMemory (h : AcceptKept on w) (memory : List Allocation) :
    AcceptKept on { w with memory := memory } :=
  ⟨h.fds.pass rfl rfl fun _ => rfl, h.refs, h.rets⟩

theorem AcceptKept.closeOther (h : AcceptKept on w) {r : Referrer} (hr : r ≠ .stack)
    (hi : w.objs[i]? = some { fd := some fd, ref := r }) :
    AcceptKept on ((w.setObj i { fd := none, ref := .nobody }).closeFd fd) := by
  refine ⟨h.fds.closeObj hi, ?_, ?_⟩
  · show RefsKept on (w.objs.set i { fd := none, ref := .nobody })
    exact h.refs.nobody hi hr
  · show RetsKept (w.objs.set i { fd := none, ref := .nobody }) (w.events ++ [.closed fd _])
    have hset : RetsKept (w.objs.set i { fd := none, ref := .nobody }) w.events :=
      h.rets.set hi fun _ => nofun
    exact hset.quiet nofun

theorem AcceptKept.collectOne (h : AcceptKept on w) (i : Nat) :
    AcceptKept on (w.closeObj .nobody i) := by
  unfold AcceptWorld.closeObj
  split
  · next fd r hi =>
    split
    · next heq =>
      rw [heq] at hi ⊢
      have hne : Referrer.nobody ≠ .stack := nofun
      exact h.closeOther hne hi
    · exact h
  · exact h

theorem AcceptKept.collect (h : AcceptKept on w) (is : List Nat) :
    AcceptKept on (w.collect is) := by
  induction is generalizing w with
  | nil => exact h
  | cons i is ih => exact ih (h.collectOne i)

theorem AcceptKept.closeMine (h : AcceptKept (some (i, some fd)) w) :
    AcceptKept (some (i, none)) (w.closeObj .stack i) := by
  have hi := h.refs.own i (some fd) rfl
  unfold AcceptWorld.closeObj
  simp only [hi, if_true]
  refine ⟨h.fds.closeObj hi, h.refs.stay none, ?_⟩
  show RetsKept (w.objs.set i _) (w.events ++ [.closed fd _])
  exact (h.rets.mine hi _).quiet nofun

theorem AcceptKept.push (h : AcceptKept none w) :
    AcceptKept (some (w.objs.length, none))
      { w with objs := w.objs ++ [{ fd := none, ref := .stack }] } := by
  refine ⟨h.fds.pass rfl rfl fun fd => ?_, h.refs.push, h.rets.objects fun j o hj ho => ⟨o, ?_, ho⟩⟩
  · show (w.objs ++ _).countP (holdsFd fd) + w.given.count fd = _
    rw [List.countP_append]
    rfl
  · rw [List.getElem?_append_left (List.getElem?_eq_some_iff.mp hj).1]
    exact hj

theorem AcceptKept.take (h : AcceptKept (some (i, none)) w) (hfresh : fd ∉ w.opened) :
    AcceptKept (some (i, some fd)) (({ w with opened := fd :: w.opened }.log (.accepted fd)).setObj i
      { fd := some fd, ref := .stack }) := by
  have hi := h.refs.own i none rfl
  refine ⟨h.fds.take hfresh rfl rfl fun fd' => ?_, h.refs.stay (some fd), ?_⟩
  · have hset := @countP_holdsFd_set i fd' _ { fd := some fd, ref := .stack } _ hi
    show (w.objs.set i _).countP (holdsFd fd') + w.given.count fd' = _
    rw [show holdsFd fd' { fd := none, ref := .stack } = false from rfl] at hset
    rw [AcceptWorld.holders]
    by_cases heq : fd' = fd
    · subst heq
      rw [holdsFd_self] at hset
      rw [decide_eq_true rfl]
      simp only [Bool.toNat_true, Bool.toNat_false] at hset ⊢
      omega
    · rw [holdsFd_other fun hfd => heq hfd.symm] at hset
      rw [decide_eq_false heq]
      simp only [Bool.toNat_false] at hset ⊢
      omega
  · show RetsKept (w.objs.set i _) (w.events ++ [.accepted fd])
    exact (h.rets.mine hi _).quiet nofun

theorem AcceptKept.takeGiven (h : AcceptKept on w) (hfresh : fd ∉ w.opened) :
    AcceptKept on { { w with opened := fd :: w.opened }.log (.accepted fd) with
      given := fd :: w.given } := by
  refine ⟨h.fds.take hfresh rfl rfl fun fd' => ?_, h.refs, h.rets.quiet nofun⟩
  show w.objs.countP (holdsFd fd') + (fd :: w.given).count fd' = _
  rw [AcceptWorld.holders, List.count_cons, Nat.add_assoc]
  by_cases heq : fd' = fd
  · subst heq
    simp
  · have hne : ¬fd = fd' := fun hfd => heq hfd.symm
    simp [heq, hne]

theorem AcceptKept.give (h : AcceptKept (some (i, some fd)) w) :
    AcceptKept (some (i, none))
      { w.setObj i { fd := none, ref := .stack } with given := fd :: w.given } := by
  have hi := h.refs.own i (some fd) rfl
  refine ⟨h.fds.pass rfl rfl fun fd' => ?_, h.refs.stay none, h.rets.mine hi _⟩
  have hset := @countP_holdsFd_set i fd' _ { fd := none, ref := .stack } _ hi
  show (w.objs.set i _).countP (holdsFd fd') + (fd :: w.given).count fd' = _
  rw [show holdsFd fd' { fd := none, ref := .stack } = false from rfl] at hset
  rw [AcceptWorld.holders, List.count_cons]
  by_cases heq : fd' = fd
  · subst heq
    rw [holdsFd_self] at hset
    simp only [Bool.toNat_true, Bool.toNat_false, beq_self_eq_true, if_true] at hset ⊢
    omega
  · have hne : ¬fd = fd' := fun hfd => heq hfd.symm
    rw [holdsFd_other hne] at hset
    simp only [Bool.toNat_false, beq_iff_eq, hne, if_false] at hset ⊢
    omega

theorem FdsKept.refer (h : FdsKept w) {fd : Option Nat} {r r' : Referrer}
    (hi : w.objs[i]? = some { fd := fd, ref := r }) : FdsKept (w.setObj i { fd := fd, ref := r' }) := by
  refine h.pass rfl rfl fun fd' => ?_
  have hset := @countP_holdsFd_set i fd' _ { fd := fd, ref := r' } _ hi
  show (w.objs.set i _).countP (holdsFd fd') + w.given.count fd' = _
  rw [show holdsFd fd' { fd := fd, ref := r' } = holdsFd fd' { fd := fd, ref := r } from rfl] at hset
  rw [AcceptWorld.holders, Nat.add_right_cancel hset]

theorem AcceptKept.keep (h : AcceptKept (some (i, some fd)) w) :
    AcceptKept none (w.setObj i { fd := some fd, ref := .user }) ∧
      i ∉ returnedSockets w.events := by
  have hi := h.refs.own i (some fd) rfl
  refine ⟨⟨h.fds.refer hi, h.refs.leave fd, h.rets.mine hi _⟩, fun hmem => ?_⟩
  obtain ⟨o, ho, href⟩ := h.rets.returned i hmem
  rw [hi] at ho
  cases ho
  exact href rfl

theorem AcceptKept.drop (h : AcceptKept on w) {fd : Option Nat}
    (hi : w.objs[i]? = some { fd := fd, ref := .user }) :
    AcceptKept on (w.setObj i { fd := fd, ref := .nobody }) :=
  ⟨h.fds.refer hi, h.refs.nobody hi nofun, h.rets.set hi fun _ => nofun⟩

theorem AcceptKept.closeGiven (h : AcceptKept on w) (hfd : fd ∈ w.given) :
    AcceptKept on ({ w with given := w.given.erase fd }.closeFd fd) :=
  ⟨h.fds.closeGiven hfd, h.refs, h.rets.quiet nofun⟩

theorem AcceptKept.leaveStack (h : AcceptKept on w) : AcceptKept none w.leaveStack := by
  have hfd (o : FdObject) : (if o.ref = .stack then { o with ref := .nobody } else o).fd = o.fd := by
    split <;> rfl
  have href (o : FdObject) :
      (if o.ref = .stack then { o with ref := .nobody } else o).ref ≠ .stack := by
    split
    · exact nofun
    · assumption
  have huser (o : FdObject)
      (ho : (if o.ref = .stack then { o with ref := .nobody } else o).ref = .user) :
      o.ref = .user := by
    split at ho
    · cases ho
    · exact ho
  refine ⟨h.fds.pass rfl rfl fun fd => ?_, ⟨fun j p hj hp => ?_, fun j p hj hp => ?_, nofun⟩,
    h.rets.objects fun j o hj _ => ⟨_, by rw [AcceptWorld.leaveStack, List.getElem?_map, hj]; rfl,
      href o⟩⟩
  · show (w.objs.map _).countP (holdsFd fd) + w.given.count fd = _
    rw [List.countP_map]
    congr 2
    funext o
    exact congrArg (fun x => decide (x = some fd)) (hfd o)
  all_goals
    rw [AcceptWorld.leaveStack, List.getElem?_map, Option.map_eq_some_iff] at hj
    obtain ⟨o, hj, rfl⟩ := hj
  · rw [hfd]
    exact h.refs.user j o hj (huser o hp)
  · exact absurd hp (href o)

end Steps

section Turns

open Raising (Triple)

variable {on : Option (Nat × Option Nat)} {i : Nat}

def AcceptLeft (_ : Unit) (w : AcceptWorld) : Prop := ∃ on, AcceptKept on w

def TurnEnds : AcceptStep → AcceptWorld → Prop
  | .again, w => ∃ on, AcceptKept on w
  | .ret r, w => (∃ on, AcceptKept on w) ∧ r.outcomes = 1 ∧
      ∀ i, r.handle = some (.socket i) → i ∉ returnedSockets w.events ∧
        ∃ o : FdObject, w.objs[i]? = some o ∧ o.ref ≠ .stack

theorem allocate_kept :
    Triple (AcceptKept on) allocate (fun _ => AcceptKept on) AcceptLeft := by
  intro w h
  match hmemory : w.memory with
  | [] =>
    have hrun : allocate w = (.ok (), w) := by rw [allocate, hmemory]
    rw [hrun]
    exact h
  | a :: rest =>
    have hrun : allocate w = (if a.granted then .ok () else .error (),
        { w with memory := rest }.collect a.collected) := by rw [allocate, hmemory]
    have hkept := (h.withMemory rest).collect a.collected
    rw [hrun]
    cases a.granted with
    | true => exact hkept
    | false => exact ⟨on, hkept⟩

theorem pushObject_kept :
    Triple (AcceptKept none) pushObject (fun i => AcceptKept (some (i, none))) AcceptLeft :=
  fun _ h => h.push

theorem acceptInto_kept (ans : AcceptAnswer) :
    Triple (AcceptKept (some (i, none)))
      (acceptInto (fun fd w => w.setObj i { fd := some fd, ref := .stack }) ans)
      (fun r w => AcceptKept (some (i, r.toOption)) w) AcceptLeft := by
  intro w h
  unfold acceptInto
  cases w.server.isNone with
  | true => exact h
  | false =>
    cases ans with
    | failed e => exact h
    | made pick => exact h.take (freshFd_not_mem w pick)

theorem acceptGiven_kept (ans : AcceptAnswer) :
    Triple (AcceptKept none) (acceptInto (fun fd w => { w with given := fd :: w.given }) ans)
      (fun _ => AcceptKept none) AcceptLeft := by
  intro w h
  unfold acceptInto
  cases w.server.isNone with
  | true => exact h
  | false =>
    cases ans with
    | failed e => exact h
    | made pick => exact h.takeGiven (freshFd_not_mem w pick)

theorem failed_ends {err : AcceptErr} :
    Triple (AcceptKept on) (pure (.ret { err := some err }) : AcceptM AcceptStep) TurnEnds
      AcceptLeft := fun _ h => ⟨⟨on, h⟩, rfl, nofun⟩

theorem acceptFailed_ends (e : Tls.Errno) :
    Triple (AcceptKept on) (acceptFailed e) TurnEnds AcceptLeft := by
  unfold acceptFailed
  split
  · exact fun _ h => ⟨on, h⟩
  · exact allocate_kept.bind fun _ => failed_ends

theorem returnSocket_ends (fd : Nat) (ai : Bool) :
    Triple (AcceptKept (some (i, some fd))) (returnSocket i ai) TurnEnds AcceptLeft := by
  intro w h
  have hi := h.refs.own i (some fd) rfl
  obtain ⟨hkept, hnew⟩ := h.keep
  unfold returnSocket
  rw [hi]
  refine ⟨⟨none, hkept⟩, rfl, fun j hj => ?_⟩
  cases hj
  refine ⟨hnew, _, List.getElem?_set_self (List.getElem?_eq_some_iff.mp hi).1, ?_⟩
  exact nofun

theorem returnFd_ends (fd : Nat) (ai : Bool) :
    Triple (AcceptKept (some (i, some fd))) (returnFd (some i) fd ai) TurnEnds AcceptLeft :=
  fun _ h => ⟨⟨_, h.give⟩, rfl, nofun⟩

theorem newConnection_kept (kind : ServerKind) (fd : Nat) (tls : Bool) :
    Triple (AcceptKept (some (i, some fd))) (newConnection kind i tls)
      (fun r => AcceptKept (some (i, if r.isNone then some fd else none))) AcceptLeft := by
  cases kind with
  | plain => exact allocate_kept.bind fun _ => .pure fun _ h => h
  | tls =>
    refine allocate_kept.bind fun _ => ?_
    cases tls with
    | true => exact allocate_kept.bind fun _ => .pure fun _ h => h
    | false =>
      have hclose : Triple (AcceptKept (some (i, some fd)))
          (Raising.update (·.closeObj .stack i) : AcceptM Unit)
          (fun _ => AcceptKept (some (i, none))) AcceptLeft := fun _ h => h.closeMine
      exact hclose.bind fun _ => .pure fun _ h => h

theorem acceptTurn_ends (kind : ServerKind) (withAi : Bool) (t : AcceptTurn) :
    Triple (AcceptKept none) (acceptTurn kind withAi t) TurnEnds AcceptLeft := by
  refine allocate_kept.bind fun _ => pushObject_kept.bind fun i =>
    (acceptInto_kept t.ans).bind fun r => ?_
  cases r with
  | error e => exact acceptFailed_ends e
  | ok fd =>
    have hconnected : Triple (AcceptKept (some (i, some fd)))
        (newConnection kind i t.tls >>= accepted withAi i) TurnEnds AcceptLeft := by
      refine (newConnection_kept kind fd t.tls).bind fun r => ?_
      cases r with
      | some err => exact failed_ends
      | none => exact returnSocket_ends fd withAi
    cases withAi with
    | true => exact allocate_kept.bind fun _ => hconnected
    | false => exact hconnected

theorem acceptfdTurn_ends (withAi : Bool) (t : AcceptTurn) :
    Triple (AcceptKept none) (acceptfdTurn withAi t) TurnEnds AcceptLeft := by
  cases withAi with
  | true =>
    refine allocate_kept.bind fun _ => pushObject_kept.bind fun i =>
      (acceptInto_kept t.ans).bind fun r => ?_
    cases r with
    | error e => exact acceptFailed_ends e
    | ok fd => exact allocate_kept.bind fun _ => returnFd_ends fd true
  | false =>
    refine (acceptGiven_kept t.ans).bind fun r => ?_
    cases r with
    | error e => exact acceptFailed_ends e
    | ok fd => exact fun _ h => ⟨⟨none, h⟩, rfl, nofun⟩

theorem RetsKept.hand {objs : List FdObject} {es : List AcceptEvent} (h : RetsKept objs es)
    {r : AcceptRet} (houtcome : r.outcomes = 1)
    (hnew : ∀ i, r.handle = some (.socket i) → i ∉ returnedSockets es ∧
      ∃ o : FdObject, objs[i]? = some o ∧ o.ref ≠ .stack) :
    RetsKept objs (es ++ [.returned r]) := by
  have hsockets : returnedSockets (es ++ [.returned r]) =
      returnedSockets es ++ (AcceptEvent.socket (.returned r)).toList := by
    rw [returnedSockets, List.filterMap_append]
    cases hr : AcceptEvent.socket (.returned r) with
    | none => rw [List.filterMap_cons_none hr]; rfl
    | some i => rw [List.filterMap_cons_some hr]; rfl
  have hsocket (i : Nat) (hi : i ∈ (AcceptEvent.socket (.returned r)).toList) :
      r.handle = some (.socket i) := by
    obtain ⟨_ | (j | n), err, timeout, ai⟩ := r
    · cases hi
    · exact congrArg (fun j => some (AcceptHandle.socket j)) (List.mem_singleton.mp hi).symm
    · cases hi
  refine ⟨fun i hi => ?_, ?_, fun r' hr' => ?_⟩
  · rw [hsockets] at hi
    rcases List.mem_append.mp hi with hi | hi
    · exact h.returned i hi
    · exact (hnew i (hsocket i hi)).2
  · rw [hsockets]
    cases hr : AcceptEvent.socket (.returned r) with
    | none => exact (List.append_nil _).symm ▸ h.once
    | some i =>
      have hi := (hnew i (hsocket i (hr ▸ List.mem_singleton_self i))).1
      exact List.Nodup.append h.once (List.nodup_singleton i) (List.disjoint_singleton.mpr hi)
  · rcases List.mem_append.mp hr' with hr' | hr'
    · exact h.outcome r' hr'
    · cases List.mem_singleton.mp hr'
      exact houtcome

theorem acceptEnd_kept {m : AcceptM AcceptStep}
    (hm : Triple (AcceptKept none) m TurnEnds AcceptLeft) {w : AcceptWorld}
    (h : AcceptKept none w) : AcceptKept none (acceptEnd (m w)) := by
  have hends := hm w h
  match hw : m w with
  | (.error e, v) =>
    rw [hw] at hends
    obtain ⟨on, hkept⟩ := hends
    have hleft := hkept.leaveStack
    exact ⟨hleft.fds.log nofun, hleft.refs, hleft.rets.quiet nofun⟩
  | (.ok .again, v) =>
    rw [hw] at hends
    obtain ⟨on, hkept⟩ := hends
    exact hkept.leaveStack
  | (.ok (.ret r), v) =>
    rw [hw] at hends
    obtain ⟨⟨on, hkept⟩, houtcome, hnew⟩ := hends
    have hleft := hkept.leaveStack
    refine ⟨hleft.fds.log nofun, hleft.refs, hleft.rets.hand houtcome fun i hi => ?_⟩
    obtain ⟨hfresh, o, ho, -⟩ := hnew i hi
    refine ⟨hfresh, ?_⟩
    obtain ⟨p, hp⟩ : ∃ p, v.leaveStack.objs[i]? = some p := by
      rw [AcceptWorld.leaveStack, List.getElem?_map, ho]
      exact ⟨_, rfl⟩
    refine ⟨p, hp, fun hstack => ?_⟩
    cases hleft.refs.stack i p hp hstack

end Turns

/-! The coroutines. -/

section Pool

/-- Whoever runs leaves everything in custody at every suspension. -/
abbrev KeepsCustody {α : Type} (c : ServerCoroutine α) : Prop :=
  Obeys (AcceptKept none) (fun _ _ _ => True) (AcceptKept none) c fun _ => AcceptKept none

theorem acceptAct_keeps {m : AcceptM AcceptStep}
    (hm : Raising.Triple (AcceptKept none) m TurnEnds AcceptLeft) : KeepsCustody (acceptAct m) :=
  Obeys.atomic fun _ h => ⟨trivial, acceptEnd_kept hm h⟩

theorem acceptUpdate_keeps {f : AcceptWorld → AcceptWorld}
    (hf : ∀ w, AcceptKept none w → AcceptKept none (f w)) : KeepsCustody (acceptUpdate f) :=
  Obeys.atomic fun w h => ⟨trivial, hf w h⟩

theorem yield_keeps : KeepsCustody (yield : ServerCoroutine Unit) :=
  Obeys.yield (fun _ h => h) fun _ h => h

theorem acceptReturn_keeps {r : AcceptRet} (hhandle : r.handle = none) (hr : r.outcomes = 1) :
    KeepsCustody (acceptReturn r) := by
  have hm : Raising.Triple (AcceptKept none) (pure (.ret r) : AcceptM AcceptStep) TurnEnds
      AcceptLeft := by
    refine .pure fun w h => ⟨⟨none, h⟩, hr, fun i hi => ?_⟩
    rw [hhandle] at hi
    cases hi
  exact (acceptAct_keeps hm).bind fun _ => Obeys.pure fun _ h => h

theorem acceptLoop_keeps {turn : AcceptTurn → AcceptM AcceptStep}
    (hturn : ∀ t, Raising.Triple (AcceptKept none) (turn t) TurnEnds AcceptLeft) (deadline : Bool)
    (ts : List AcceptTurn) : KeepsCustody (acceptLoop turn deadline ts) := by
  induction ts with
  | nil => exact Obeys.idle fun _ h => h
  | cons t ts ih =>
    refine (acceptAct_keeps (hturn t)).bind fun step => ?_
    match step with
    | none => exact Obeys.pure fun _ h => h
    | some (.ret _) => exact Obeys.pure fun _ h => h
    | some .again =>
      refine Obeys.ite (fun _ => acceptReturn_keeps rfl rfl) fun _ => ?_
      refine yield_keeps.bind fun _ => ?_
      match t.wait with
      | .ready => exact ih
      | .failed code => exact acceptReturn_keeps rfl rfl
      | .timeout => cases deadline <;> exact acceptReturn_keeps rfl rfl

theorem acceptCall_keeps {turn : AcceptTurn → AcceptM AcceptStep}
    (hturn : ∀ t, Raising.Triple (AcceptKept none) (turn t) TurnEnds AcceptLeft) (sec : SecArg)
    (ts : List AcceptTurn) : KeepsCustody (acceptCall turn sec ts) := by
  cases sec with
  | omitted => exact acceptLoop_keeps hturn false ts
  | finite => exact acceptLoop_keeps hturn true ts
  | other =>
    have hraise : KeepsCustody (acceptAct (Raising.raise ())) :=
      acceptAct_keeps fun _ h => ⟨none, h⟩
    exact hraise.bind fun _ => Obeys.pure fun _ h => h

theorem AcceptKept.closeSocket {w : AcceptWorld} (h : AcceptKept none w) (i : Nat) :
    AcceptKept none (w.closeSocket i) := by
  unfold AcceptWorld.closeSocket
  split
  · next fd hi =>
    have hne : Referrer.user ≠ .stack := nofun
    exact h.closeOther hne hi
  · exact h

theorem AcceptKept.dropSocket {w : AcceptWorld} (h : AcceptKept none w) (i : Nat) :
    AcceptKept none (w.dropSocket i) := by
  unfold AcceptWorld.dropSocket
  split
  · next fd hi => exact h.drop hi
  · exact h

theorem body_keeps (kind : ServerKind) (c : ServerCall) : KeepsCustody (c.body kind) := by
  cases c with
  | accept withAi sec turns => exact acceptCall_keeps (acceptTurn_ends kind withAi) sec turns
  | acceptfd withAi sec turns => exact acceptCall_keeps (acceptfdTurn_ends withAi) sec turns
  | closeServer =>
    exact acceptUpdate_keeps fun _ h => ⟨h.fds.pass rfl rfl fun _ => rfl, h.refs, h.rets⟩
  | closeSocket i => exact acceptUpdate_keeps fun _ h => h.closeSocket i
  | dropSocket i => exact acceptUpdate_keeps fun _ h => h.dropSocket i
  | closeGiven fd =>
    refine acceptUpdate_keeps fun w h => ?_
    unfold AcceptWorld.closeGiven
    split
    · next hfd => exact h.closeGiven hfd
    · exact h
  | collect is => exact acceptUpdate_keeps fun _ h => h.collect is

theorem serverProgram_keeps (kind : ServerKind) (calls : List ServerCall) :
    KeepsCustody (serverProgram kind calls) := by
  induction calls with
  | nil => exact Obeys.pure fun _ h => h
  | cons c cs ih =>
    exact (body_keeps kind c).bind fun _ => yield_keeps.bind fun _ => ih

theorem listening_kept (server : Nat) (memory : List Allocation) :
    AcceptKept none (listening server memory) := by
  have hobjs (i : Nat) (o : FdObject) : (listening server memory).objs[i]? ≠ some o := nofun
  refine ⟨⟨List.nodup_nil, fun _ => rfl, nofun⟩, ⟨fun i o hi => absurd hi (hobjs i o),
    fun i o hi => absurd hi (hobjs i o), nofun⟩, ⟨nofun, List.nodup_nil, nofun⟩⟩

end Pool

/-! A collection of everything. -/

section Collection

variable {w : AcceptWorld} {i j : Nat}

theorem closeObj_objs (w : AcceptWorld) (i j : Nat) :
    (w.closeObj .nobody i).objs[j]? = w.objs[j]? ∨
      (w.closeObj .nobody i).objs[j]? = some { fd := none, ref := .nobody } := by
  unfold AcceptWorld.closeObj
  split
  · next fd r hi =>
    split
    · next heq =>
      rw [heq]
      show (w.objs.set i { fd := none, ref := .nobody })[j]? = _ ∨ _
      by_cases hij : i = j
      · subst hij
        exact .inr (List.getElem?_set_self (List.getElem?_eq_some_iff.mp hi).1)
      · exact .inl (List.getElem?_set_ne hij)
    · exact .inl rfl
  · exact .inl rfl

theorem closeObj_given (w : AcceptWorld) (i : Nat) : (w.closeObj .nobody i).given = w.given := by
  unfold AcceptWorld.closeObj
  split
  · split <;> rfl
  · rfl

def Swept (o : Option FdObject) : Prop := ∀ fd, o ≠ some { fd := some fd, ref := .nobody }

theorem closeObj_swept (w : AcceptWorld) (i : Nat) : Swept (w.closeObj .nobody i).objs[i]? := by
  intro fd hfd
  unfold AcceptWorld.closeObj at hfd
  split at hfd
  · next fd' r hi =>
    split at hfd
    · have hself : (w.objs.set i { fd := none, ref := r })[i]? = some { fd := none, ref := r } :=
        List.getElem?_set_self (List.getElem?_eq_some_iff.mp hi).1
      cases hself.symm.trans hfd
    · next hne =>
      rw [hi] at hfd
      cases hfd
      exact hne rfl
  · next hnone => exact hnone fd .nobody hfd

theorem Swept.step (h : Swept w.objs[j]?) : Swept (w.closeObj .nobody i).objs[j]? := by
  rcases closeObj_objs w i j with hsame | hempty
  · rwa [hsame]
  · rw [hempty]
    exact nofun

theorem collect_spec (w : AcceptWorld) (is : List Nat) :
    (w.collect is).given = w.given ∧
      (∀ j : Nat, (w.collect is).objs[j]? = w.objs[j]? ∨
        (w.collect is).objs[j]? = some { fd := none, ref := .nobody }) ∧
      ∀ j : Nat, j ∈ is ∨ Swept w.objs[j]? → Swept (w.collect is).objs[j]? := by
  induction is generalizing w with
  | nil =>
    refine ⟨rfl, fun j => .inl rfl, fun j hj => ?_⟩
    rcases hj with hj | hj
    · cases hj
    · exact hj
  | cons i is ih =>
    obtain ⟨hgiven, hobjs, hswept⟩ := ih (w.closeObj .nobody i)
    refine ⟨hgiven.trans (closeObj_given w i), fun j => ?_, fun j hj => hswept j ?_⟩
    · rcases hobjs j with hsame | hempty
      · show (AcceptWorld.collect _ is).objs[j]? = _ ∨ (AcceptWorld.collect _ is).objs[j]? = _
        rw [hsame]
        exact closeObj_objs w i j
      · exact .inr hempty
    · rcases hj with hj | hj
      · rcases List.mem_cons.mp hj with rfl | hj
        · exact .inr (closeObj_swept w j)
        · exact .inl hj
      · exact .inr hj.step

theorem AcceptKept.collected (h : AcceptKept none w) {fd : Nat}
    (hfd : fd ∈ (w.collect (List.range w.objs.length)).opened) :
    fd ∈ w.given ∨ ∃ i : Nat, w.objs[i]? = some { fd := some fd, ref := .user } := by
  have hkept := h.collect (List.range w.objs.length)
  obtain ⟨hgiven, hobjs, hswept⟩ := collect_spec w (List.range w.objs.length)
  have hcount := hkept.fds.custody fd
  rw [AcceptWorld.holders, hgiven] at hcount
  have hpos := List.count_pos_iff.mpr hfd
  rcases Nat.eq_zero_or_pos (w.given.count fd) with hzero | hposGiven
  · right
    rw [hzero, Nat.add_zero] at hcount
    obtain ⟨o, ho, hholds⟩ := List.countP_pos_iff.mp (hcount ▸ hpos)
    obtain ⟨i, hi⟩ := List.getElem?_of_mem ho
    have hofd : o.fd = some fd := of_decide_eq_true hholds
    have hsame : w.objs[i]? = some o := by
      rcases hobjs i with hsame | hempty
      · exact hsame.symm.trans hi
      · rw [hi] at hempty
        cases hempty
        cases hofd
    have hlt : i < w.objs.length := (List.getElem?_eq_some_iff.mp hsame).1
    have hnot := hswept i (.inl (List.mem_range.mpr hlt))
    obtain ⟨ofd, oref⟩ := o
    cases hofd
    cases oref with
    | user => exact ⟨i, hsame⟩
    | stack => cases hkept.refs.stack i _ hi rfl
    | nobody => exact absurd hi (hnot fd)
  · exact .inl (List.count_pos_iff.mp hposGiven)

end Collection

/-- Any number of coroutines that accept connections from one server and close what they get, with
allocations that fail and finalizers that run at any point: each accepted descriptor that is open
has exactly one holder; no close(2) misses; a socket of the user holds an open descriptor, and
after a collection nothing else does; no socket is returned twice; and a call returns a handle, an
error or a timeout. -/
theorem accept_custody (kind : ServerKind) (server : Nat) (memory : List Allocation)
    (programs : List (List ServerCall)) (sched : List Nat) :
    let w := (runs poolStep (listening server memory, programs.map (serverProgram kind)) sched).1.1
    (∀ fd, w.opened.count fd = w.holders fd ∧ w.holders fd ≤ 1) ∧
      (∀ fd, .closed fd false ∉ w.events) ∧
      (∀ (i : Nat) (o : FdObject), w.objs[i]? = some o → o.ref = .user →
        ∃ fd ∈ w.opened, o.fd = some fd) ∧
      (∀ fd ∈ (w.collect (List.range w.objs.length)).opened,
        fd ∈ w.given ∨ ∃ i : Nat, w.objs[i]? = some { fd := some fd, ref := .user }) ∧
      (returnedSockets w.events).Nodup ∧ ∀ r, .returned r ∈ w.events → r.outcomes = 1 := by
  intro w
  have hprograms : ∀ c ∈ programs.map (serverProgram kind),
      Started (AcceptKept none) (fun _ _ _ => True) c := by
    intro c hc
    obtain ⟨calls, -, rfl⟩ := List.mem_map.mp hc
    exact serverProgram_keeps kind calls
  have hkept : AcceptKept none w :=
    (pool_runs (fun _ => trivial) (fun _ _ => trivial) (listening_kept server memory) hprograms
      sched).1
  refine ⟨fun fd => ⟨hkept.fds.custody fd, ?_⟩, hkept.fds.closes, fun i o hi ho => ?_,
    fun fd hfd => hkept.collected hfd, hkept.rets.once, hkept.rets.outcome⟩
  · rw [← hkept.fds.custody fd]
    exact List.nodup_iff_count_le_one.mp hkept.fds.nodup fd
  · obtain ⟨fd, hfd⟩ := Option.isSome_iff_exists.mp (hkept.refs.user i o hi ho)
    refine ⟨fd, ?_, hfd⟩
    have hholds : 0 < w.objs.countP (holdsFd fd) :=
      List.countP_pos_iff.mpr ⟨o, List.mem_of_getElem? hi, decide_eq_true hfd⟩
    rw [← List.count_pos_iff, hkept.fds.custody fd]
    exact Nat.lt_of_lt_of_le hholds (Nat.le_add_right _ _)

/-- The address of a connection cannot be allocated: the context closes the descriptor. -/
example : (runs poolStep (listening 3 [⟨true, []⟩, ⟨false, []⟩],
    [serverProgram .plain [.acceptfd true .omitted [⟨.made 7, false, false, .ready⟩],
      .collect [0]]]) [0, 0]).1.1.events = [.accepted 7, .raised, .closed 7 true] := by decide

end LuaNet.Socket
