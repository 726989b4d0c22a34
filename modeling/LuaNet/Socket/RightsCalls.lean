import LuaNet.Socket.Recvmsg

/-! What a receive does with the descriptors that it gets, whatever allocation fails. -/

namespace LuaNet.Socket

open LuaNet.Lib
open scoped List

def RightsEvent.left : RightsEvent → Option (Nat × Int)
  | .handed q fd => some (q, fd)
  | .closed q fd => some (q, fd)
  | _ => none

def RightsEvent.receivedFds : RightsEvent → List Int
  | .received fds => fds
  | _ => []

def RightsEvent.handed? : RightsEvent → Option Int
  | .handed _ fd => some fd
  | _ => none

def RightsEvent.closed? : RightsEvent → Option Int
  | .closed _ fd => some fd
  | _ => none

def receivedIn (es : List RightsEvent) : List Int := es.flatMap RightsEvent.receivedFds

def handedFds (es : List RightsEvent) : List Int := es.filterMap RightsEvent.handed?

def closedFds (es : List RightsEvent) : List Int := es.filterMap RightsEvent.closed?

def leftFds (es : List RightsEvent) : List Int := es.filterMap fun e => e.left.map Prod.snd

def leftBy (q : Nat) (es : List RightsEvent) : List Int :=
  es.filterMap fun e => (e.left.filter fun v => v.1 = q).map Prod.snd

@[simp] theorem receivedIn_call (flg : Nat) (fds : List Int) :
    receivedIn [.call flg, .received fds] = fds := List.append_nil fds

theorem receivedIn_closed (es : List RightsEvent) (q : Nat) (fds : List Int) :
    receivedIn (es ++ fds.map (.closed q)) = receivedIn es := by
  have hnone : receivedIn (fds.map (.closed q)) = [] := by
    refine List.flatMap_eq_nil_iff.2 fun e he => ?_
    obtain ⟨fd, -, rfl⟩ := List.mem_map.1 he
    rfl
  rw [receivedIn, List.flatMap_append]
  exact (congrArg (receivedIn es ++ ·) hnone).trans (List.append_nil _)

theorem leftFds_perm (es : List RightsEvent) :
    (handedFds es ++ closedFds es).Perm (leftFds es) := by
  induction es with
  | nil => exact List.Perm.refl _
  | cons e es ih =>
    cases e with
    | call flags => exact ih
    | received fds => exact ih
    | handed q fd => exact ih.cons fd
    | closed q fd => exact List.perm_middle.trans (ih.cons fd)

/-- What a stretch of events does to the queues. Those that were there only lose descriptors from
their end, each with an event. -/
structure Custody (qs : List (List Int)) (es : List RightsEvent) (qs' : List (List Int)) :
    Prop where
  mono : qs.length ≤ qs'.length
  popped : ∀ q < qs.length, qs.getD q [] = qs'.getD q [] ++ (leftBy q es).reverse
  account : (qs'.flatten ++ leftFds es).Perm (qs.flatten ++ receivedIn es)

theorem Custody.refl (qs : List (List Int)) : Custody qs [] qs :=
  ⟨Nat.le_refl _, fun _ _ => (List.append_nil _).symm, List.Perm.refl _⟩

theorem Custody.trans {qs qs₁ qs₂ : List (List Int)} {es es' : List RightsEvent}
    (h : Custody qs es qs₁) (h' : Custody qs₁ es' qs₂) : Custody qs (es ++ es') qs₂ where
  mono := Nat.le_trans h.mono h'.mono
  popped := by
    intro q hq
    rw [h.popped q hq, h'.popped q (Nat.lt_of_lt_of_le hq h.mono), leftBy, leftBy, leftBy,
      List.filterMap_append, List.reverse_append, List.append_assoc]
  account := by
    have hleft : leftFds (es ++ es') = leftFds es ++ leftFds es' := List.filterMap_append
    have hreceived : receivedIn (es ++ es') = receivedIn es ++ receivedIn es' :=
      List.flatMap_append
    rw [hleft, hreceived]
    calc qs₂.flatten ++ (leftFds es ++ leftFds es')
      _ ~ qs₂.flatten ++ leftFds es' ++ leftFds es := by
        rw [List.append_assoc]
        exact List.perm_append_comm.append_left _
      _ ~ qs₁.flatten ++ receivedIn es' ++ leftFds es := h'.account.append_right _
      _ ~ qs₁.flatten ++ leftFds es ++ receivedIn es' := by
        rw [List.append_assoc, List.append_assoc]
        exact List.perm_append_comm.append_left _
      _ ~ qs.flatten ++ receivedIn es ++ receivedIn es' := h.account.append_right _
      _ = qs.flatten ++ (receivedIn es ++ receivedIn es') := List.append_assoc _ _ _

theorem Custody.pop {qs : List (List Int)} {q : Nat} {rest : List Int} {es : List RightsEvent}
    (hq : q < qs.length) (hes : ∀ e ∈ es, ∃ fd, e = .handed q fd ∨ e = .closed q fd)
    (hfds : qs.getD q [] = rest ++ (leftFds es).reverse) : Custody qs es (qs.set q rest) := by
  have hby : leftBy q es = leftFds es := by
    refine List.filterMap_congr fun e he => ?_
    obtain ⟨fd, rfl | rfl⟩ := hes e he <;> simp [RightsEvent.left]
  have hother : ∀ r, r ≠ q → leftBy r es = [] := by
    intro r hr
    refine List.filterMap_eq_nil_iff.2 fun e he => ?_
    obtain ⟨fd, rfl | rfl⟩ := hes e he <;> simp [RightsEvent.left, hr.symm]
  have hreceived : receivedIn es = [] := by
    refine List.flatMap_eq_nil_iff.2 fun e he => ?_
    obtain ⟨fd, rfl | rfl⟩ := hes e he <;> rfl
  refine ⟨by rw [List.length_set], fun r hr => ?_, ?_⟩
  · by_cases hrq : r = q
    · rw [hrq, set_getD_self hq, hby, hfds]
    · rw [set_getD_of_ne _ (Ne.symm hrq), hother r hrq, List.reverse_nil, List.append_nil]
  · rw [hreceived, List.append_nil]
    exact ((leftFds es).reverse_perm.symm.append_left _).trans (flatten_set_perm hq hfds)

theorem Rearranged.of_new {qs old qs' : List (List Int)}
    (h : Rearranged qs.length (qs ++ old) qs') :
    ∃ new, qs' = qs ++ new ∧ new.flatten ~ old.flatten := by
  have hlen : (qs ++ old).length = qs.length + old.length := List.length_append
  have hmono := h.mono
  have htake : qs'.take qs.length = qs := by
    refine List.ext_getElem (by rw [List.length_take]; omega) fun q hq hq' => ?_
    have hframe := h.frame q (by omega) (Nat.ne_of_lt hq')
    rw [List.getD_append _ _ _ _ hq', List.getD_eq_getElem _ _ hq',
      List.getD_eq_getElem _ _ (by omega)] at hframe
    rw [List.getElem_take, hframe]
  have hqs' : qs' = qs ++ qs'.drop qs.length := by
    conv => lhs; rw [← List.take_append_drop qs.length qs', htake]
  refine ⟨_, hqs', ?_⟩
  have hperm := h.perm
  rw [hqs', List.flatten_append, List.flatten_append] at hperm
  exact (List.perm_append_left_iff _).1 hperm

theorem set_nil_of_getD {qs : List (List Int)} {q : Nat} (h : qs.getD q [] = []) :
    qs.set q [] = qs := by
  by_cases hq : q < qs.length
  · rw [← h, List.getD_eq_getElem _ _ hq, List.set_getElem_self]
  · exact List.set_eq_of_length_le (Nat.le_of_not_lt hq)

theorem closeRights_eq {q : Nat} {fds : List Int} (answers : List (Option Tls.Errno))
    (err : Option Tls.Errno) {s : RecvState} (h : s.fds q = fds) :
    ∃ err', closeRights q fds.length answers err s = (err', { s with
      queues := s.queues.set q []
      events := s.events ++ fds.reverse.map (.closed q) }) := by
  induction fds using List.reverseRecOn generalizing answers err s with
  | nil =>
    refine ⟨err, ?_⟩
    rw [set_nil_of_getD h, List.reverse_nil, List.map_nil, List.append_nil]
    rfl
  | append_singleton fds fd ih =>
    have hq : q < s.queues.length := lt_length_of_getD_ne_nil fun hnil =>
      List.append_ne_nil_of_right_ne_nil fds (List.cons_ne_nil fd []) (h.symm.trans hnil)
    rw [List.length_append, List.length_singleton, closeRights, h, List.getLast?_concat,
      List.dropLast_concat]
    obtain ⟨err', hrest⟩ := ih answers.tail (err.or (answers.head?.getD none))
      (s := { s with
        queues := s.queues.set q fds
        events := s.events ++ [.closed q fd] }) (set_getD_self hq fds)
    refine ⟨err', hrest.trans ?_⟩
    rw [List.reverse_append, List.map_append, List.set_set, List.append_assoc]
    rfl

/-! Computations from given queues and events. Allocations fail only where `faulty`. -/

section Calls

variable {α β : Type} {faulty : Prop} {qs : List (List Int)} {es : List RightsEvent}
  {Post : Except LuaError β → List (List Int) → List RightsEvent → Prop}

def At (faulty : Prop) (qs : List (List Int)) (es : List RightsEvent) (s : RecvState) : Prop :=
  (s.budget.isSome = true → faulty) ∧ s.queues = qs ∧ s.events = es

def Ends (faulty : Prop) (qs : List (List Int)) (es : List RightsEvent) (m : RecvM α)
    (Post : Except LuaError α → List (List Int) → List RightsEvent → Prop) : Prop :=
  Raising.Triple (At faulty qs es) m (fun a s => Post (.ok a) s.queues s.events)
    fun e s => Post (.error e) s.queues s.events

theorem Ends.pure {b : β} (h : Post (.ok b) qs es) :
    Ends faulty qs es (Pure.pure b : RecvM β) Post := by
  refine Raising.Triple.pure ?_
  rintro s ⟨-, rfl, rfl⟩
  exact h

theorem Ends.raise {e : LuaError} (h : Post (.error e) qs es) :
    Ends faulty qs es (Raising.raise e : RecvM β) Post := by
  refine Raising.Triple.raise ?_
  rintro s ⟨-, rfl, rfl⟩
  exact h

theorem Ends.emit {new : List RightsEvent} {f : Unit → RecvM β}
    (h : Ends faulty qs (es ++ new) (f ()) Post) :
    Ends faulty qs es (emit new >>= f) Post := by
  refine Raising.Triple.bind (Q := fun _ => At faulty qs (es ++ new)) (Raising.Triple.update ?_)
    fun _ => h
  rintro s ⟨hfaulty, rfl, rfl⟩
  exact ⟨hfaulty, rfl, rfl⟩

theorem Ends.state {f : RecvState → RecvM β}
    (h : ∀ s, s.queues = qs → Ends faulty qs es (f s) Post) :
    Ends faulty qs es (Raising.state >>= f) Post :=
  fun s hs => h s hs.2.1 s hs

theorem Ends.rights {m : RightsM α} {f : α → RecvM β} {Q : α → List (List Int) → Prop}
    {E : List (List Int) → Prop}
    (hm : Raising.Triple (Queues faulty (· = qs)) m (fun a => Queues faulty (Q a))
      (OutOfMemory faulty E))
    (hf : ∀ a qs', Q a qs' → Ends faulty qs' es (f a) Post)
    (herror : ∀ qs', faulty → E qs' → Post (.error memoryError) qs' es) :
    Ends faulty qs es (onRights m >>= f) Post := by
  rintro s ⟨hfaulty, hqs, rfl⟩
  have hrun := hm s.toRightsState ⟨hfaulty, hqs⟩
  match hres : m s.toRightsState with
  | (.ok a, t) =>
    rw [hres] at hrun
    have honto : onRights m s = (.ok a, { s with toRightsState := t }) := by
      rw [onRights, hres]
    rw [Raising.bind_of_ok honto]
    exact hf a _ hrun.2 _ ⟨hrun.1, rfl, rfl⟩
  | (.error e, t) =>
    rw [hres] at hrun
    obtain ⟨⟨rfl, hfail⟩, hE⟩ := hrun
    have honto : onRights m s = (.error memoryError, { s with toRightsState := t }) := by
      rw [onRights, hres]
    rw [Raising.bind_of_error honto]
    exact herror _ hfail hE

theorem Ends.alloc {n : Nat} {f : Unit → RecvM β} (hf : Ends faulty qs es (f ()) Post)
    (herror : faulty → Post (.error memoryError) qs es) :
    Ends faulty qs es (onRights (alloc n) >>= f) Post :=
  Ends.rights (alloc_triple n fun _ h => h) (fun _ _ h => h ▸ hf) fun _ hfail h => h ▸ herror hfail

theorem Ends.errno {e : Tls.Errno} {op : String} {f : Tls.Errno × String → RecvM β}
    (hf : Ends faulty qs es (f (e, op)) Post)
    (herror : faulty → Post (.error memoryError) qs es) :
    Ends faulty qs es (luaErrnoNew e op >>= f) Post := by
  rw [luaErrnoNew, Raising.bind_bind]
  exact Ends.alloc hf herror

theorem Ends.fill {q : Nat} {ctl : Bytes} {f : Bool → RecvM β}
    (h : Ends faulty (qs.set q (netScmRightsFill ctl).fds)
      (es ++ (netScmRightsFill ctl).closed.map (.closed q)) (f (netScmRightsFill ctl).overflow)
      Post) :
    Ends faulty qs es (scmRightsFill q ctl >>= f) Post := by
  rintro s ⟨hfaulty, rfl, rfl⟩
  exact h _ ⟨hfaulty, rfl, rfl⟩

theorem Ends.close {q : Nat} {answers : List (Option Tls.Errno)} {f : Option Tls.Errno → RecvM β}
    (h : ∀ err, Ends faulty (qs.set q []) (es ++ (qs.getD q []).reverse.map (.closed q)) (f err)
      Post) :
    Ends faulty qs es (netScmRightsClose q answers >>= f) Post := by
  rintro s ⟨hfaulty, rfl, rfl⟩
  obtain ⟨err, hclose⟩ := closeRights_eq answers none (s := s) (q := q) rfl
  have hrun : netScmRightsClose q answers s = (.ok err, { s with
      queues := s.queues.set q []
      events := s.events ++ (s.fds q).reverse.map (.closed q) }) := by
    rw [netScmRightsClose, hclose]
  rw [Raising.bind_of_ok hrun]
  exact h err _ ⟨hfaulty, rfl, rfl⟩

end Calls

def givenQueues : Except LuaError RecvRet → List Nat
  | .ok (.queue q) => [q]
  | .ok (.message m) => (m.cmsgs.getD []).filterMap CmsgItem.queue?
  | _ => []

def Oversized (faulty : Prop) (ret : Except LuaError RecvRet) : Prop :=
  ret = .ok (.failed (emsgsize, "recvmsg")) ∨ ret = .ok (.raised (emsgsize, "recvmsg")) ∨
    ret = .error memoryError ∧ faulty

/-- A message table holds the descriptors of each rights message in a queue of its own. -/
def Split (ctl : Bytes) (qs : List (List Int)) (m : RecvMessage) : Prop :=
  ∃ items, m.cmsgs = (cmsgFirsthdr ctl).map (fun _ => items) ∧
    List.Forall₂ (Decoded ctl qs) (visited ctl) items ∧
    (items.filterMap CmsgItem.queue?).Nodup

/-- What a receive does: to the queues that were there nothing, and of what it receives it closes
what is not in new queues. -/
structure Receives (faulty : Prop) (ctl : Bytes) (qs : List (List Int))
    (ret : Except LuaError RecvRet) (qs' : List (List Int)) (es : List RightsEvent) : Prop where
  own : ∃ new, qs' = qs ++ new ∧ new.flatten ++ closedFds es ~ receivedIn es
  left : ∀ e ∈ es, ∀ v, e.left = some v → e = .closed v.1 v.2 ∧ qs.length ≤ v.1
  given : ∀ q ∈ givenQueues ret, qs.length ≤ q ∧ q < qs'.length
  oversized : netScmMaxFd < (receivedIn es).length →
    Oversized faulty ret ∧ ∃ rest, qs' = qs ++ [rest]
  message : ∀ m, ret = .ok (.message m) → receivedIn es = receivedFds ctl ∧ Split ctl qs' m
  queue : ∀ q, ret = .ok (.queue q) →
    receivedIn es = receivedFds ctl ∧ qs'.getD q [] = (receivedFds ctl).reverse

def Barren : Except LuaError RecvRet → Prop
  | .ok (.queue _) => False
  | .ok (.message _) => False
  | _ => True

theorem Oversized.barren {faulty : Prop} {ret : Except LuaError RecvRet}
    (h : Oversized faulty ret) : Barren ret := by
  obtain rfl | rfl | ⟨rfl, -⟩ := h <;> trivial

theorem Barren.given {ret : Except LuaError RecvRet} (h : Barren ret) : givenQueues ret = [] := by
  unfold Barren at h
  unfold givenQueues
  split at h <;> first | exact h.elim | simp_all

section Calls

variable {faulty : Prop} {ctl : Bytes} {qs qs' : List (List Int)} {es : List RightsEvent}
  {ret : Except LuaError RecvRet}

theorem Receives.barren (hret : Barren ret)
    (hown : ∃ new, qs' = qs ++ new ∧ new.flatten ++ closedFds es ~ receivedIn es)
    (hleft : ∀ e ∈ es, ∀ v, e.left = some v → e = .closed v.1 v.2 ∧ qs.length ≤ v.1)
    (hover : netScmMaxFd < (receivedIn es).length →
      Oversized faulty ret ∧ ∃ rest, qs' = qs ++ [rest]) : Receives faulty ctl qs ret qs' es where
  own := hown
  left := hleft
  given := by
    rw [hret.given]
    exact fun q hq => absurd hq List.not_mem_nil
  oversized := hover
  message := by
    rintro m rfl
    exact hret.elim
  queue := by
    rintro q rfl
    exact hret.elim

/-- As long as nothing has been received, a new queue is empty. -/
theorem Receives.quiet {old : List (List Int)} (hret : Barren ret)
    (hqs : Rearranged qs.length (qs ++ old) qs') (hold : old.flatten = [])
    (hes : ∀ e ∈ es, ∃ flags, e = .call flags) : Receives faulty ctl qs ret qs' es := by
  have hreceived : receivedIn es = [] := by
    refine List.flatMap_eq_nil_iff.2 fun e he => ?_
    obtain ⟨flags, rfl⟩ := hes e he
    rfl
  have hclosed : closedFds es = [] := by
    refine List.filterMap_eq_nil_iff.2 fun e he => ?_
    obtain ⟨flags, rfl⟩ := hes e he
    rfl
  refine Receives.barren hret ?_ (fun e he v hv => ?_) ?_
  · obtain ⟨new, hnew, hperm⟩ := hqs.of_new
    refine ⟨new, hnew, ?_⟩
    rw [hclosed, hreceived, List.append_nil, ← hold]
    exact hperm
  · obtain ⟨flags, rfl⟩ := hes e he
    cases hv
  · rw [hreceived]
    exact fun h => absurd h (Nat.not_lt_zero _)

theorem Receives.taken {flg : Nat} (hret : Barren ret)
    (hqs : Rearranged qs.length (qs ++ [(receivedFds ctl).reverse]) qs')
    (hfits : (receivedFds ctl).length ≤ netScmMaxFd) :
    Receives faulty ctl qs ret qs' [.call flg, .received (receivedFds ctl)] := by
  refine Receives.barren hret ?_ ?_ ?_
  · obtain ⟨new, hnew, hperm⟩ := hqs.of_new
    refine ⟨new, hnew, ?_⟩
    rw [receivedIn_call, show closedFds [.call flg, .received (receivedFds ctl)] = [] from rfl,
      List.append_nil]
    rw [List.flatten_singleton] at hperm
    exact hperm.trans (List.reverse_perm _)
  · intro e he v hv
    rw [List.mem_cons, List.mem_singleton] at he
    obtain rfl | rfl := he <;> cases hv
  · rw [receivedIn_call]
    exact fun h => absurd hfits (Nat.not_le.2 h)

theorem Receives.message_of {flg : Nat} {m : RecvMessage} {items : List CmsgItem}
    (hm : m.cmsgs = (cmsgFirsthdr ctl).map fun _ => items)
    (hpushed : Pushed ctl qs.length (visited ctl) (qs ++ [(receivedFds ctl).reverse]) items qs')
    (hfits : (receivedFds ctl).length ≤ netScmMaxFd) :
    Receives faulty ctl qs (.ok (.message m)) qs' [.call flg, .received (receivedFds ctl)] := by
  have htaken : Receives faulty ctl qs (.ok .again) qs' [.call flg, .received (receivedFds ctl)] :=
    Receives.taken trivial hpushed.toRearranged hfits
  refine ⟨htaken.own, htaken.left, fun q hq => ?_, fun h => ?_, ?_, nofun⟩
  · have hmem : q ∈ items.filterMap CmsgItem.queue? := by
      rw [givenQueues, hm] at hq
      cases hfirst : cmsgFirsthdr ctl with
      | none =>
        rw [hfirst] at hq
        exact absurd hq List.not_mem_nil
      | some cm => rwa [hfirst] at hq
    obtain ⟨hplace, hlt⟩ := hpushed.place q hmem
    refine ⟨?_, hlt⟩
    obtain rfl | hle := hplace
    · exact Nat.le_refl _
    · rw [List.length_append] at hle
      exact Nat.le_of_add_right_le hle
  · rw [receivedIn_call] at h
    exact absurd hfits (Nat.not_le.2 h)
  · intro m' hm'
    cases hm'
    exact ⟨receivedIn_call _ _, items, hm, hpushed.decoded, hpushed.distinct⟩

theorem luaErrnoNew_ends {e : Tls.Errno} {op : String} {qs₁ : List (List Int)}
    {make : Tls.Errno × String → RecvRet}
    (hret : Receives faulty ctl qs (.ok (make (e, op))) qs₁ es)
    (herror : faulty → Receives faulty ctl qs (.error memoryError) qs₁ es) :
    Ends faulty qs₁ es (luaErrnoNew e op >>= fun err => pure (make err)) (Receives faulty ctl qs) :=
  Ends.errno (Ends.pure hret) herror

theorem recvmsgError_ends (e : Tls.Errno) {old : List (List Int)} (hold : old.flatten = [])
    (hes : ∀ e ∈ es, ∃ flags, e = .call flags) :
    Ends faulty (qs ++ old) es (recvmsgError e) (Receives faulty ctl qs) := by
  have hquiet (ret : Except LuaError RecvRet) (hret : Barren ret) :
      Receives faulty ctl qs ret (qs ++ old) es :=
    Receives.quiet hret (Rearranged.refl _ _) hold hes
  unfold recvmsgError
  split
  · exact Ends.pure (hquiet _ trivial)
  · exact luaErrnoNew_ends (hquiet _ trivial) fun _ => hquiet _ trivial

theorem pushRecvMessage_ends {flg : Nat} (bufsize : Int) (r : Received)
    (hfits : (receivedFds ctl).length ≤ netScmMaxFd) :
    Ends faulty (qs ++ [(receivedFds ctl).reverse]) [.call flg, .received (receivedFds ctl)]
      (pushRecvMessage bufsize qs.length ctl r) (Receives faulty ctl qs) := by
  have hmemory (qs' : List (List Int))
      (h : Rearranged qs.length (qs ++ [(receivedFds ctl).reverse]) qs') :
      Receives faulty ctl qs (.error memoryError) qs' [.call flg, .received (receivedFds ctl)] :=
    Receives.taken trivial h hfits
  refine Ends.alloc (Ends.rights (netCmsgPushTable_triple (length_lt_concat _ _)
    (concat_getD_length _ _)) ?_ fun qs' _ h => hmemory qs' h)
      fun _ => hmemory _ (Rearranged.refl _ _)
  rintro cmsgs qs' ⟨items, rfl, hpushed⟩
  exact Ends.alloc (Ends.pure (Receives.message_of rfl hpushed hfits))
    fun _ => hmemory qs' hpushed.toRearranged

theorem Receives.oversized_of {flg : Nat} {rest closed : List Int} (hret : Oversized faulty ret)
    (hfds : rest ++ closed ~ receivedFds ctl) :
    Receives faulty ctl qs ret (qs ++ [rest])
      ([.call flg, .received (receivedFds ctl)] ++ closed.map (.closed qs.length)) := by
  have hclosed : closedFds ([.call flg, .received (receivedFds ctl)] ++
      closed.map (.closed qs.length)) = closed := by
    show (closed.map (RightsEvent.closed qs.length)).filterMap RightsEvent.closed? = closed
    rw [List.filterMap_map]
    exact List.filterMap_some
  have hreceived : receivedIn ([.call flg, .received (receivedFds ctl)] ++
      closed.map (.closed qs.length)) = receivedFds ctl := by
    rw [receivedIn_closed, receivedIn_call]
  refine Receives.barren hret.barren ⟨[rest], rfl, ?_⟩ (fun e he v hv => ?_)
    fun _ => ⟨hret, rest, rfl⟩
  · rw [hclosed, hreceived, List.flatten_singleton]
    exact hfds
  · obtain he | he := List.mem_append.1 he
    · rw [List.mem_cons, List.mem_singleton] at he
      obtain rfl | rfl := he <;> cases hv
    · obtain ⟨fd, -, rfl⟩ := List.mem_map.1 he
      cases hv
      exact ⟨rfl, Nat.le_refl _⟩

theorem Ends.fill_new {β : Type} {f : Bool → RecvM β}
    {Post : Except LuaError β → List (List Int) → List RightsEvent → Prop}
    (hfits : (receivedFds ctl).length ≤ netScmMaxFd →
      Ends faulty (qs ++ [(receivedFds ctl).reverse]) es (f false) Post)
    (hover : ∀ kept dropped, kept ++ dropped ~ receivedFds ctl →
      Ends faulty (qs ++ [kept]) (es ++ dropped.map (.closed qs.length)) (f true) Post) :
    Ends faulty (qs ++ [[]]) es (scmRightsFill qs.length ctl >>= f) Post := by
  refine Ends.fill ?_
  rw [concat_set_length, netScmRightsFill_eq]
  show Ends faulty (qs ++ [((receivedFds ctl).take netScmMaxFd).reverse])
    (es ++ ((receivedFds ctl).drop netScmMaxFd).map (.closed qs.length)) _ Post
  by_cases hlen : (receivedFds ctl).length ≤ netScmMaxFd
  · rw [decide_eq_false (Nat.not_lt.2 hlen), List.take_of_length_le hlen,
      List.drop_of_length_le hlen, List.map_nil, List.append_nil]
    exact hfits hlen
  · rw [decide_eq_true (Nat.not_le.1 hlen)]
    refine hover _ _ (((List.reverse_perm _).append_right _).trans ?_)
    rw [List.take_append_drop]

theorem takeRights_ends {flg : Nat} (socktype : Nat) (bufsize : Int) (r : Received) :
    Ends faulty (qs ++ [[]]) [.call flg, .received (receivedFds ctl)]
      (takeRights socktype bufsize qs.length ctl r) (Receives faulty ctl qs) := by
  refine Ends.fill_new (fun hfits => ?_) fun kept dropped hperm => ?_
  · show Ends faulty _ _ (finishRecvmsg socktype bufsize qs.length ctl r) _
    unfold finishRecvmsg
    split
    · exact Ends.pure (Receives.taken trivial (Rearranged.refl _ _) hfits)
    · exact pushRecvMessage_ends bufsize r hfits
  · exact luaErrnoNew_ends (Receives.oversized_of (Or.inr (Or.inl rfl)) hperm)
      fun hfail => Receives.oversized_of (Or.inr (Or.inr ⟨rfl, hfail⟩)) hperm

theorem takeQueue_ends {flg : Nat} (socktype : Nat) (data : Bytes) :
    Ends faulty (qs ++ [[]]) [.call flg, .received (receivedFds ctl)]
      (takeQueue socktype qs.length ctl data) (Receives faulty ctl qs) := by
  refine Ends.fill_new (fun hfits => ?_) fun kept dropped hperm => ?_
  · have htaken (ret : Except LuaError RecvRet) (hret : Barren ret) :
        Receives faulty ctl qs ret (qs ++ [(receivedFds ctl).reverse])
          [.call flg, .received (receivedFds ctl)] :=
      Receives.taken hret (Rearranged.refl _ _) hfits
    refine Ends.state fun s _ => ?_
    split
    · refine Ends.pure ⟨(htaken (.ok .again) trivial).own, (htaken (.ok .again) trivial).left,
        List.forall_mem_singleton.2 ⟨Nat.le_refl _, length_lt_concat _ _⟩, fun h => ?_, nofun,
        fun q hq => ?_⟩
      · rw [receivedIn_call] at h
        exact absurd hfits (Nat.not_le.2 h)
      · cases hq
        exact ⟨receivedIn_call _ _, concat_getD_length _ _⟩
    · split
      · exact Ends.pure (htaken _ trivial)
      · exact Ends.pure (htaken _ trivial)
  · -- the fill has closed the surplus, and the close takes the rest
    refine Ends.close fun err => ?_
    rw [concat_getD_length, concat_set_length, List.append_assoc, ← List.map_append]
    have hall : [] ++ (dropped ++ kept.reverse) ~ receivedFds ctl :=
      (List.perm_append_comm.trans ((List.reverse_perm kept).append_right _)).trans hperm
    exact luaErrnoNew_ends (Receives.oversized_of (Or.inl rfl) hall)
      fun hfail => Receives.oversized_of (Or.inr (Or.inr ⟨rfl, hfail⟩)) hall

def controlOf (room : Nat) : RecvResult → Bytes
  | .received r => r.ctl.take room
  | .failed _ => []

theorem finishRecvmsg_ends {flg : Nat} (socktype : Nat) (bufsize : Int) (r : Received) :
    Ends faulty qs [.call flg] (finishRecvmsg socktype bufsize 0 [] r) (Receives faulty [] qs) := by
  have hquiet (ret : Except LuaError RecvRet) (hret : Barren ret) :
      Receives faulty [] qs ret qs [.call flg] := by
    have hqs : Rearranged qs.length (qs ++ []) qs := by
      rw [List.append_nil]
      exact Rearranged.refl _ _
    exact Receives.quiet hret hqs rfl (List.forall_mem_singleton.2 ⟨flg, rfl⟩)
  have hmessage (m : RecvMessage) (hm : m.cmsgs = none) :
      Receives faulty [] qs (.ok (.message m)) qs [.call flg] := by
    have hagain := hquiet (.ok .again) trivial
    refine ⟨hagain.own, hagain.left, fun q hq => ?_, fun h => absurd h (Nat.not_lt_zero _), ?_,
      nofun⟩
    · rw [givenQueues, hm] at hq
      exact absurd hq List.not_mem_nil
    · intro m' hm'
      cases hm'
      exact ⟨rfl, [], hm, List.Forall₂.nil, List.nodup_nil⟩
  have hnone : Raising.Triple (Queues faulty (· = qs)) (netCmsgPushTable [] 0)
      (fun cmsgs => Queues faulty fun qs' => cmsgs = none ∧ qs' = qs)
      (OutOfMemory faulty (· = qs)) :=
    Raising.Triple.pure fun s hs => ⟨hs.1, rfl, hs.2⟩
  unfold finishRecvmsg
  split
  · exact Ends.pure (hquiet _ trivial)
  · refine Ends.alloc (Ends.rights hnone ?_ ?_) fun _ => hquiet _ trivial
    · rintro cmsgs qs' ⟨rfl, rfl⟩
      exact Ends.alloc (Ends.pure (hmessage _ rfl)) fun _ => hquiet _ trivial
    · rintro qs' - rfl
      exact hquiet _ trivial

theorem netScmRightsNew_ends {α : Type} {f : Nat → RecvM α}
    {Post : Except LuaError α → List (List Int) → List RightsEvent → Prop}
    (h : Ends faulty (qs ++ [[]]) es (f qs.length) Post)
    (herror : ∀ qs', faulty → Rearranged qs.length qs qs' → Post (.error memoryError) qs' es) :
    Ends faulty qs es (onRights netScmRightsNew >>= f) Post := by
  refine Ends.rights (netScmRightsNew_triple qs.length qs) ?_ herror
  rintro q qs' ⟨rfl, rfl⟩
  exact h

theorem Receives.before (hret : Barren ret) (hqs : Rearranged qs.length qs qs') :
    Receives faulty ctl qs ret qs' [] := by
  have hqs' : Rearranged qs.length (qs ++ []) qs' := by rwa [List.append_nil]
  exact Receives.quiet hret hqs' rfl fun _ he => absurd he List.not_mem_nil

theorem recvmsgCall_ends (socktype : Nat) (args : RecvmsgArgs) (flg : Nat) (ans : RecvResult) :
    Ends faulty qs [] (recvmsgCall socktype args flg ans)
      (Receives faulty (controlOf args.cmsgbuf.toNat ans) qs) := by
  have hmemory (qs' : List (List Int)) (h : Rearranged qs.length qs qs') :
      Receives faulty (controlOf args.cmsgbuf.toNat ans) qs (.error memoryError) qs' [] :=
    Receives.before trivial h
  have hsame := hmemory qs (Rearranged.refl _ _)
  refine Ends.alloc ?_ fun _ => hsame
  split
  · refine Ends.alloc (netScmRightsNew_ends (Ends.emit ?_) fun qs' _ h => hmemory qs' h)
      fun _ => hsame
    cases ans with
    | failed e => exact recvmsgError_ends e rfl (List.forall_mem_singleton.2 ⟨_, rfl⟩)
    | received r => exact Ends.emit (takeRights_ends socktype args.bufsize r)
  next hnone =>
    refine Ends.emit ?_
    cases ans with
    | failed e =>
      have hfailed : Ends faulty (qs ++ []) [.call (flg ||| msgCmsgCloexec)] (recvmsgError e)
          (Receives faulty (controlOf args.cmsgbuf.toNat (.failed e)) qs) :=
        recvmsgError_ends e rfl (List.forall_mem_singleton.2 ⟨_, rfl⟩)
      rwa [List.append_nil] at hfailed
    | received r =>
      have hctl : controlOf args.cmsgbuf.toNat (.received r) = [] := by
        rw [controlOf, Int.toNat_of_nonpos (Int.not_lt.1 hnone), List.take_zero]
      rw [hctl]
      exact finishRecvmsg_ends socktype args.bufsize r

theorem ofExcept_ends {α : Type} {x : Except LuaError α} {f : α → RecvM RecvRet}
    (h : ∀ a, Ends faulty qs [] (f a) (Receives faulty ctl qs)) :
    Ends faulty qs [] (ofExcept x >>= f) (Receives faulty ctl qs) := by
  cases x with
  | ok a => exact h a
  | error e => exact Ends.raise (Receives.before trivial (Rearranged.refl _ _))

theorem recvmsgLua_ends (socktype : Nat) (args : RecvmsgArgs) (ans : RecvResult) :
    Ends faulty qs [] (recvmsgLua socktype args ans)
      (Receives faulty (controlOf args.cmsgbuf.toNat ans) qs) := by
  have hbefore (ret : Except LuaError RecvRet) (hret : Barren ret) :
      Receives faulty (controlOf args.cmsgbuf.toNat ans) qs ret qs [] :=
    Receives.before hret (Rearranged.refl _ _)
  refine ofExcept_ends fun flg => ?_
  split
  · exact Ends.raise (hbefore _ trivial)
  split
  · exact Ends.raise (hbefore _ trivial)
  split
  · exact Ends.raise (hbefore _ trivial)
  split
  · exact luaErrnoNew_ends (hbefore _ trivial) fun _ => hbefore _ trivial
  · exact recvmsgCall_ends socktype args flg ans

theorem recvfdLua_ends (socktype : Nat) (flags : List FlagArg) (ans : RecvResult) :
    Ends faulty qs [] (recvfdLua socktype flags ans)
      (Receives faulty (controlOf recvfdControl ans) qs) := by
  refine ofExcept_ends fun flg => netScmRightsNew_ends ?_ fun qs' _ h => Receives.before trivial h
  split
  · exact Ends.raise (Receives.before trivial (Rearranged.new _ _))
  · refine Ends.emit ?_
    cases ans with
    | failed e => exact recvmsgError_ends e rfl (List.forall_mem_singleton.2 ⟨_, rfl⟩)
    | received r => exact Ends.emit (takeQueue_ends socktype r.data)

theorem Receives.popped_nil (h : Receives faulty ctl qs ret qs' es) {q : Nat} (hq : q < qs.length) :
    leftBy q es = [] := by
  refine List.filterMap_eq_nil_iff.2 fun e he => ?_
  cases hv : e.left with
  | none => rfl
  | some v =>
    have hne : v.1 ≠ q := by
      have hle := (h.left e he v hv).2
      omega
    simp [Option.filter, hne]

theorem Receives.leftFds_eq (h : Receives faulty ctl qs ret qs' es) :
    leftFds es = closedFds es := by
  refine List.filterMap_congr fun e he => ?_
  cases hv : e.left with
  | none => cases e <;> first | rfl | cases hv
  | some v =>
    rw [(h.left e he v hv).1]
    rfl

theorem Receives.custody (h : Receives faulty ctl qs ret qs' es) : Custody qs es qs' := by
  obtain ⟨new, rfl, hperm⟩ := h.own
  refine ⟨by rw [List.length_append]; exact Nat.le_add_right _ _, fun q hq => ?_, ?_⟩
  · rw [h.popped_nil hq, List.reverse_nil, List.append_nil, List.getD_append _ _ _ _ hq]
  · rw [h.leftFds_eq, List.flatten_append, List.append_assoc]
    exact hperm.append_left _

end Calls

end LuaNet.Socket
