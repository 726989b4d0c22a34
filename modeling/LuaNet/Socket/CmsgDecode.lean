import Mathlib.Data.List.GetD
import Mathlib.Data.List.Induction
import Mathlib.Data.List.Perm.Basic
import LuaNet.Socket.Cmsg

/-! The two passes over a control buffer. Both go through the same messages; the first collects
their descriptors, the second deals them out again, a queue for each rights message. -/

namespace LuaNet.Socket

open LuaNet.Lib

def cmsgVisited (ctl : Bytes) : Nat → Option Nat → List (Nat × Nat)
  | 0, _ => []
  | _, none => []
  | fuel + 1, some cm =>
    let len := netCmsgLength ctl cm
    if len = 0 then []
    else
      (cm, len) ::
        if len < cmsgLenAt ctl cm then [] else cmsgVisited ctl fuel (cmsgNxthdr ctl cm)

def visited (ctl : Bytes) : List (Nat × Nat) := cmsgVisited ctl (cmsgFuel ctl) (cmsgFirsthdr ctl)

def rightsOf (ctl : Bytes) (v : Nat × Nat) : List Int :=
  if isRights ctl v.1 then
    (List.range (rightsCount v.2)).map fun i => readInt ctl (cmsgData v.1 + i * 4)
  else []

def receivedFds (ctl : Bytes) : List Int := (visited ctl).flatMap (rightsOf ctl)

/-! The first pass. -/

theorem swapFds_length (fds : List Int) (i j : Nat) : (swapFds fds i j).length = fds.length := by
  rw [swapFds, List.length_set, List.length_set]

theorem swapFds_getD {fds : List Int} {i j m : Nat} (hi : i < fds.length) (hj : j < fds.length) :
    (swapFds fds i j).getD m 0 =
      if m = j then fds.getD i 0 else if m = i then fds.getD j 0 else fds.getD m 0 := by
  unfold swapFds
  by_cases hmj : m = j
  · subst hmj
    rw [if_pos rfl, List.getD_eq_getElem?_getD, List.getElem?_set_self (by rwa [List.length_set])]
    rfl
  · rw [if_neg hmj, List.getD_eq_getElem?_getD, List.getElem?_set_ne (Ne.symm hmj)]
    by_cases hmi : m = i
    · subst hmi
      rw [if_pos rfl, List.getElem?_set_self hi]
      rfl
    · rw [if_neg hmi, List.getElem?_set_ne (Ne.symm hmi), ← List.getD_eq_getElem?_getD]

theorem swaps_getD (fds : List Int) {k : Nat} (hk : k ≤ fds.length / 2) :
    let r := (List.range k).foldl (fun fs i => swapFds fs i (fds.length - 1 - i)) fds
    r.length = fds.length ∧ ∀ m < fds.length, r.getD m 0 =
      if m < k ∨ fds.length - k ≤ m then fds.getD (fds.length - 1 - m) 0 else fds.getD m 0 := by
  induction k with
  | zero =>
    refine ⟨rfl, fun m hm => ?_⟩
    rw [if_neg (by omega)]
    rfl
  | succ k ih =>
    obtain ⟨hlen, hget⟩ := ih (by omega)
    rw [List.range_succ, List.foldl_append]
    refine ⟨(swapFds_length _ _ _).trans hlen, fun m hm => ?_⟩
    refine (swapFds_getD (by omega) (by omega)).trans ?_
    rw [hget k (by omega), hget _ (by omega), hget m hm]
    by_cases hhigh : m = fds.length - 1 - k
    · rw [if_pos hhigh, if_neg (by omega), if_pos (by omega)]
      exact congrArg (fds.getD · 0) (by omega)
    · rw [if_neg hhigh]
      by_cases hlow : m = k
      · rw [if_pos hlow, if_neg (by omega), if_pos (by omega), hlow]
      · rw [if_neg hlow]
        by_cases hin : m < k ∨ fds.length - k ≤ m
        · rw [if_pos hin, if_pos (by omega)]
        · rw [if_neg hin, if_neg (by omega)]

theorem reverseRights_eq (fds : List Int) : reverseRights fds = fds.reverse := by
  unfold reverseRights
  obtain ⟨hlen, hget⟩ := swaps_getD fds (Nat.le_refl _)
  refine List.ext_getElem (hlen.trans List.length_reverse.symm) fun m hm hm' => ?_
  have hmlen : m < fds.length := by rwa [List.length_reverse] at hm'
  have hval := hget m hmlen
  rw [List.getElem_reverse, ← List.getD_eq_getElem _ 0 hm]
  refine hval.trans ?_
  split
  · exact List.getD_eq_getElem _ 0 (by omega)
  · rw [List.getD_eq_getElem _ 0 hmlen]
    congr 1
    omega

theorem foldl_add (xs : List Int) (q : RightsFill) (hq : q.fds.length ≤ netScmMaxFd) :
    xs.foldl RightsFill.add q =
      { fds := (q.fds ++ xs).take netScmMaxFd
        closed := q.closed ++ xs.drop (netScmMaxFd - q.fds.length)
        overflow := q.overflow || decide (netScmMaxFd < q.fds.length + xs.length) } := by
  induction xs generalizing q with
  | nil =>
    have htake : (q.fds ++ []).take netScmMaxFd = q.fds := by
      rw [List.append_nil, List.take_of_length_le hq]
    have hover : decide (netScmMaxFd < q.fds.length + ([] : List Int).length) = false :=
      decide_eq_false (Nat.not_lt.2 hq)
    rw [htake, hover, List.drop_nil, List.append_nil, Bool.or_false]
    rfl
  | cons x xs ih =>
    rw [List.foldl_cons]
    by_cases hroom : q.fds.length < netScmMaxFd
    · have hadd : q.add x = { q with fds := q.fds ++ [x] } := if_pos hroom
      have hlen : (q.fds ++ [x]).length = q.fds.length + 1 := List.length_append
      obtain ⟨k, hk⟩ := Nat.exists_eq_add_of_lt hroom
      rw [hadd, ih _ (by rw [hlen]; exact hroom)]
      have hhere : netScmMaxFd - q.fds.length = k + 1 := by omega
      have hnext : netScmMaxFd - (q.fds.length + 1) = k := by omega
      simp only [hlen, hhere, hnext, List.append_assoc, List.singleton_append, List.length_cons,
        List.drop_succ_cons, Nat.add_assoc, Nat.add_comm 1]
    · have hadd : q.add x = { q with closed := q.closed ++ [x], overflow := true } := if_neg hroom
      have hfull : netScmMaxFd - q.fds.length = 0 := by omega
      have htake (ys : List Int) : (q.fds ++ ys).take netScmMaxFd = q.fds := by
        rw [← Nat.le_antisymm hq (Nat.not_lt.1 hroom), List.take_left]
      have hover : decide (netScmMaxFd < q.fds.length + (x :: xs).length) = true :=
        decide_eq_true (by rw [List.length_cons]; omega)
      rw [hadd, ih { q with closed := q.closed ++ [x], overflow := true } hq]
      simp only [hfull, htake, hover, List.drop_zero, List.append_assoc, List.singleton_append,
        Bool.true_or, Bool.or_true]

theorem fillRights_eq (ctl : Bytes) (fuel : Nat) (cm : Option Nat) (q : RightsFill) :
    fillRights ctl fuel cm q = ((cmsgVisited ctl fuel cm).flatMap (rightsOf ctl)).foldl .add q := by
  induction fuel generalizing cm q with
  | zero => rfl
  | succ fuel ih =>
    cases cm with
    | none => rfl
    | some cm =>
      rw [fillRights, cmsgVisited]
      by_cases hlen : netCmsgLength ctl cm = 0
      · simp only [hlen, if_true]
        rfl
      simp only [hlen, if_false, List.flatMap_cons, List.foldl_append]
      have hadd : (rightsOf ctl (cm, netCmsgLength ctl cm)).foldl .add q =
          if isRights ctl cm then
            (List.range (rightsCount (netCmsgLength ctl cm))).foldl
              (fun q i => q.add (readInt ctl (cmsgData cm + i * 4))) q
          else q := by
        unfold rightsOf
        split
        · rw [List.foldl_map]
        · rfl
      rw [← hadd]
      split
      · rfl
      · exact ih _ _

/-- The queue holds the descriptors last first, as many as it has room for; the rest are closed. -/
theorem netScmRightsFill_eq (ctl : Bytes) :
    netScmRightsFill ctl =
      { fds := ((receivedFds ctl).take netScmMaxFd).reverse
        closed := (receivedFds ctl).drop netScmMaxFd
        overflow := decide (netScmMaxFd < (receivedFds ctl).length) } := by
  rw [netScmRightsFill, fillRights_eq, foldl_add _ _ (Nat.zero_le _), reverseRights_eq]
  simp only [List.nil_append, List.length_nil, Nat.sub_zero, Bool.false_or, Nat.zero_add]
  rfl

/-! The second pass. -/

def pushMessages (ctl : Bytes) (owner : Nat) :
    List (Nat × Nat) → List CmsgItem → RightsM (List CmsgItem)
  | [], items => pure items
  | v :: vs, items => do
    let item ← pushMessage ctl owner v.1 v.2
    pushMessages ctl owner vs (items ++ [item])

theorem pushTable_eq (ctl : Bytes) (owner fuel : Nat) (cm : Option Nat) (items : List CmsgItem) :
    pushTable ctl owner fuel cm items =
      pushMessages ctl owner (cmsgVisited ctl fuel cm) items := by
  induction fuel generalizing cm items with
  | zero => rfl
  | succ fuel ih =>
    cases cm with
    | none => rfl
    | some cm =>
      rw [pushTable, cmsgVisited]
      by_cases hlen : netCmsgLength ctl cm = 0
      · simp only [hlen, if_true]
        rfl
      simp only [hlen, if_false, pushMessages]
      refine congrArg (pushMessage ctl owner cm _ >>= ·) (funext fun item => ?_)
      split
      · rfl
      · exact ih _ _

/-- Descriptors have been moved about, out of `owner` and into queues that are new. -/
structure Rearranged (owner : Nat) (qs qs' : List (List Int)) : Prop where
  frame : ∀ q < qs.length, q ≠ owner → qs'.getD q [] = qs.getD q []
  perm : qs'.flatten.Perm qs.flatten
  mono : qs.length ≤ qs'.length

theorem Rearranged.refl (owner : Nat) (qs : List (List Int)) : Rearranged owner qs qs :=
  ⟨fun _ _ _ => rfl, List.Perm.refl _, Nat.le_refl _⟩

theorem Rearranged.trans {owner : Nat} {qs qs₁ qs₂ : List (List Int)}
    (h : Rearranged owner qs qs₁) (h' : Rearranged owner qs₁ qs₂) : Rearranged owner qs qs₂ where
  frame := fun q hq hne =>
    (h'.frame q (Nat.lt_of_lt_of_le hq h.mono) hne).trans (h.frame q hq hne)
  perm := h'.perm.trans h.perm
  mono := Nat.le_trans h.mono h'.mono

theorem Rearranged.new (owner : Nat) (qs : List (List Int)) :
    Rearranged owner qs (qs ++ [[]]) where
  frame := fun _ hq _ => List.getD_append _ _ _ _ hq
  perm := by rw [List.flatten_append, List.flatten_singleton, List.append_nil]
  mono := by rw [List.length_append]; exact Nat.le_add_right _ _

def Queues (faulty : Prop) (p : List (List Int) → Prop) (s : RightsState) : Prop :=
  (s.budget.isSome = true → faulty) ∧ p s.queues

def OutOfMemory (faulty : Prop) (p : List (List Int) → Prop) (e : LuaError) (s : RightsState) :
    Prop :=
  (e = memoryError ∧ faulty) ∧ p s.queues

section Triples

variable {faulty : Prop} {p p' : List (List Int) → Prop}

theorem alloc_triple (n : Nat) (hp : ∀ qs, p qs → p' qs) :
    Raising.Triple (Queues faulty p) (alloc n) (fun _ => Queues faulty p)
      (OutOfMemory faulty p') := by
  rintro ⟨queues, budget⟩ ⟨hfaulty, hqueues⟩
  cases budget with
  | none => exact ⟨nofun, hqueues⟩
  | some b =>
    by_cases hn : n ≤ b
    · simp only [alloc, RightsState.spend, if_pos hn]
      exact ⟨fun _ => hfaulty rfl, hqueues⟩
    · simp only [alloc, RightsState.spend, if_neg hn]
      exact ⟨⟨rfl, hfaulty rfl⟩, hp _ hqueues⟩

theorem pushLevel2name_triple (level : Int) (hp : ∀ qs, p qs → p' qs) :
    Raising.Triple (Queues faulty p) (pushLevel2name level)
      (fun name s => name = nameOrInt (netCmsgLevelName level) level ∧ Queues faulty p s)
      (OutOfMemory faulty p') := by
  unfold pushLevel2name
  split
  · exact (alloc_triple 1 hp).bind fun _ => Raising.Triple.pure fun s hs => ⟨rfl, hs⟩
  · exact Raising.Triple.pure fun s hs => ⟨rfl, hs⟩

theorem pushType2name_triple (level type : Int) (hp : ∀ qs, p qs → p' qs) :
    Raising.Triple (Queues faulty p) (pushType2name level type)
      (fun name s => name = nameOrInt (netCmsgTypeName level type) type ∧ Queues faulty p s)
      (OutOfMemory faulty p') := by
  unfold pushType2name
  split
  · exact (alloc_triple 1 hp).bind fun _ => Raising.Triple.pure fun s hs => ⟨rfl, hs⟩
  · exact Raising.Triple.pure fun s hs => ⟨rfl, hs⟩

def plainData (ctl : Bytes) (v : Nat × Nat) : CmsgValue :=
  if v.2 < sizeofCmsghdr then .string []
  else if cmsgLevelAt ctl v.1 = solSocket ∧ cmsgTypeAt ctl v.1 = scmTimestamp then
    if v.2 - sizeofCmsghdr < sizeofTimeval then .nil
    else
      .timestamp (toSigned 64 (readNat ctl (cmsgData v.1) 8))
        (toSigned 64 (readNat ctl (cmsgData v.1 + 8) 8))
  else .string ((ctl.drop (cmsgData v.1)).take (v.2 - sizeofCmsghdr))

theorem pushData_triple (ctl : Bytes) (v : Nat × Nat) (hp : ∀ qs, p qs → p' qs) :
    Raising.Triple (Queues faulty p) (pushData ctl v.1 v.2)
      (fun data s => data = plainData ctl v ∧ Queues faulty p s) (OutOfMemory faulty p') := by
  unfold pushData plainData
  split
  · exact (alloc_triple 1 hp).bind fun _ => Raising.Triple.pure fun s hs => ⟨rfl, hs⟩
  · simp only
    split
    · split
      · exact Raising.Triple.pure fun s hs => ⟨rfl, hs⟩
      · exact (alloc_triple 3 hp).bind fun _ => Raising.Triple.pure fun s hs => ⟨rfl, hs⟩
    · exact (alloc_triple 1 hp).bind fun _ => Raising.Triple.pure fun s hs => ⟨rfl, hs⟩

theorem netScmRightsNew_triple (owner : Nat) (qs : List (List Int)) :
    Raising.Triple (Queues faulty (· = qs)) netScmRightsNew
      (fun q => Queues faulty fun qs' => q = qs.length ∧ qs' = qs ++ [[]])
      (OutOfMemory faulty (Rearranged owner qs)) := by
  unfold netScmRightsNew
  refine (alloc_triple 1 ?_).bind fun _ => Raising.Triple.state.bind fun s => ?_
  · rintro _ rfl
    exact Rearranged.refl owner _
  refine Raising.Triple.bind (Q := fun _ => Queues faulty fun qs' =>
    s.queues.length = qs.length ∧ qs' = qs ++ [[]]) (Raising.Triple.update ?_) fun _ => ?_
  · rintro t ⟨rfl, hfaulty, rfl⟩
    exact ⟨hfaulty, rfl, rfl⟩
  · refine (alloc_triple 1 ?_).bind fun _ => Raising.Triple.pure fun _ hs => hs
    rintro _ ⟨-, rfl⟩
    exact Rearranged.new owner qs

end Triples

theorem set_getD_self {qs : List (List Int)} {q : Nat} (hq : q < qs.length) (fds : List Int) :
    (qs.set q fds).getD q [] = fds := by
  rw [List.getD_eq_getElem?_getD, List.getElem?_set_self hq]
  rfl

theorem set_getD_of_ne (qs : List (List Int)) {q r : Nat} (h : q ≠ r) (fds : List Int) :
    (qs.set q fds).getD r [] = qs.getD r [] := by
  rw [List.getD_eq_getElem?_getD, List.getElem?_set_ne h, ← List.getD_eq_getElem?_getD]

theorem lt_length_of_getD_ne_nil {qs : List (List Int)} {q : Nat} (h : qs.getD q [] ≠ []) :
    q < qs.length := by
  by_contra hge
  exact h (List.getD_eq_default _ _ (Nat.le_of_not_lt hge))

/-! The queue that was made last. -/

theorem concat_getD_length (qs : List (List Int)) (fds : List Int) :
    (qs ++ [fds]).getD qs.length [] = fds := by
  rw [List.getD_append_right _ _ _ _ (Nat.le_refl _), Nat.sub_self]
  rfl

theorem concat_set_length (qs : List (List Int)) (fds fds' : List Int) :
    (qs ++ [fds]).set qs.length fds' = qs ++ [fds'] := by
  rw [List.set_append_right _ _ (Nat.le_refl _), Nat.sub_self]
  rfl

theorem length_lt_concat (qs : List (List Int)) (fds : List Int) :
    qs.length < (qs ++ [fds]).length := by
  rw [List.length_append]
  exact Nat.lt_succ_self _

theorem splitRights_eq {owner : Nat} {rest : List Int} (moved : List Int) (acc : List Int)
    (s : RightsState) (qs : List (List Int)) (howner : owner < qs.length)
    (hs : s.queues = qs ++ [acc]) (hfds : qs.getD owner [] = rest ++ moved) :
    splitRights owner qs.length moved.length s =
      { s with queues := qs.set owner rest ++ [acc ++ moved.reverse] } := by
  induction moved using List.reverseRecOn generalizing acc s qs with
  | nil =>
    rw [List.append_nil] at hfds
    have hset : qs.set owner rest = qs := by
      rw [← hfds, List.getD_eq_getElem _ _ howner, List.set_getElem_self]
    rw [hset, List.reverse_nil, List.append_nil, ← hs]
    rfl
  | append_singleton moved fd ih =>
    rw [List.length_append, List.length_singleton, splitRights]
    have hget : s.fds owner = rest ++ moved ++ [fd] := by
      rw [RightsState.fds, hs, List.getD_append _ _ _ _ howner, hfds, List.append_assoc]
    have hnew : s.fds qs.length = acc := by rw [RightsState.fds, hs, concat_getD_length]
    have hstep : ((s.setFds qs.length (s.fds qs.length ++ [fd])).setFds owner
        (s.fds owner).dropLast) =
          { s with queues := qs.set owner (rest ++ moved) ++ [acc ++ [fd]] } := by
      rw [hnew, hget, List.dropLast_concat]
      unfold RightsState.setFds
      rw [hs, concat_set_length, List.set_append_left _ _ howner]
    have hlen : (qs.set owner (rest ++ moved)).length = qs.length := List.length_set
    have hrec := ih (acc ++ [fd]) { s with queues := qs.set owner (rest ++ moved) ++ [acc ++ [fd]] }
      (qs.set owner (rest ++ moved)) (by rwa [hlen]) rfl (set_getD_self howner _)
    rw [hlen, List.set_set] at hrec
    rw [hget, List.getLast?_concat]
    show splitRights owner qs.length moved.length _ = _
    rw [← hget, hstep, hrec, List.reverse_append, List.append_assoc]
    rfl

theorem flatten_set_perm {qs : List (List Int)} {owner : Nat} {rest moved : List Int}
    (howner : owner < qs.length) (hfds : qs.getD owner [] = rest ++ moved) :
    ((qs.set owner rest).flatten ++ moved).Perm qs.flatten := by
  induction qs generalizing owner with
  | nil => exact absurd howner (Nat.not_lt_zero _)
  | cons fds qs ih =>
    cases owner with
    | zero =>
      rw [List.getD_cons_zero] at hfds
      subst hfds
      rw [List.set_cons_zero, List.flatten_cons, List.flatten_cons, List.append_assoc,
        List.append_assoc]
      exact List.perm_append_comm.append_left rest
    | succ owner =>
      rw [List.getD_cons_succ] at hfds
      rw [List.set_cons_succ, List.flatten_cons, List.flatten_cons, List.append_assoc]
      exact (ih (Nat.lt_of_succ_lt_succ howner) hfds).append_left fds

/-- What becomes of the queues when the `fds` of a message are dealt out of `owner`, which holds
them after `rest`: `owner` itself is handed out when nothing else is in it. -/
def Dealt (owner : Nat) (rest fds : List Int) (qs : List (List Int)) (q : Nat)
    (qs' : List (List Int)) : Prop :=
  (fds ≠ [] ∧ rest = []) ∧ q = owner ∧ qs' = qs ∨
    ¬(fds ≠ [] ∧ rest = []) ∧ q = qs.length ∧ qs' = qs.set owner rest ++ [fds.reverse]

theorem Dealt.new_getD {owner : Nat} {rest fds : List Int} {qs qs' : List (List Int)}
    (h : qs' = qs.set owner rest ++ [fds.reverse]) :
    qs'.length = qs.length + 1 ∧ qs'.getD qs.length [] = fds.reverse ∧
      (owner < qs.length → qs'.getD owner [] = rest) ∧
      ∀ q < qs.length, q ≠ owner → qs'.getD q [] = qs.getD q [] := by
  have hlen : (qs.set owner rest).length = qs.length := List.length_set
  subst h
  refine ⟨by rw [List.length_append, hlen]; rfl, ?_, fun howner => ?_, fun q hq hne => ?_⟩
  · rw [← hlen, concat_getD_length]
  · rw [List.getD_append _ _ _ _ (by rwa [hlen]), set_getD_self howner]
  · rw [List.getD_append _ _ _ _ (by rwa [hlen]), set_getD_of_ne _ hne.symm]

theorem Dealt.rearranged {owner q : Nat} {rest fds : List Int} {qs qs' : List (List Int)}
    (howner : owner < qs.length) (hfds : qs.getD owner [] = rest ++ fds.reverse)
    (h : Dealt owner rest fds qs q qs') : Rearranged owner qs qs' := by
  obtain ⟨-, -, rfl⟩ | ⟨-, -, hqs⟩ := h
  · exact Rearranged.refl owner _
  · obtain ⟨hlen, -, -, hframe⟩ := Dealt.new_getD hqs
    refine ⟨hframe, ?_, by omega⟩
    rw [hqs, List.flatten_append, List.flatten_singleton]
    exact flatten_set_perm howner hfds

theorem pushRightsData_triple {faulty : Prop} {owner : Nat} {rest fds : List Int}
    {qs : List (List Int)} (howner : owner < qs.length)
    (hfds : qs.getD owner [] = rest ++ fds.reverse) :
    Raising.Triple (Queues faulty (· = qs)) (pushRightsData fds.length owner)
      (fun q => Queues faulty (Dealt owner rest fds qs q))
      (OutOfMemory faulty (Rearranged owner qs)) := by
  have hlen : (qs.getD owner []).length = rest.length + fds.length := by
    rw [hfds, List.length_append, List.length_reverse]
  have halone : (fds.length ≠ 0 ∧ fds.length = rest.length + fds.length) ↔
      fds ≠ [] ∧ rest = [] := by
    refine and_congr (not_congr List.length_eq_zero_iff) ?_
    rw [← List.length_eq_zero_iff]
    omega
  refine Raising.Triple.state.bind fun s => ?_
  rintro _ ⟨rfl, hfaulty, hqs⟩
  have hs : s.fds owner = qs.getD owner [] := by rw [RightsState.fds, hqs]
  rw [hs, hlen, if_neg (by omega)]
  by_cases hcase : fds ≠ [] ∧ rest = []
  · rw [if_pos (halone.2 hcase)]
    exact ⟨hfaulty, Or.inl ⟨hcase, rfl, hqs⟩⟩
  rw [if_neg (mt halone.1 hcase)]
  refine Raising.Triple.bind (P := Queues faulty (· = qs)) (Q := fun q => Queues faulty fun qs' =>
    q = qs.length ∧ qs' = qs ++ [[]]) (netScmRightsNew_triple owner qs) (fun q => ?_) s
      ⟨hfaulty, hqs⟩
  rintro t ⟨hfaulty', rfl, hqs'⟩
  have hsplit : splitRights owner qs.length fds.length t =
      { t with queues := qs.set owner rest ++ [fds] } := by
    have hmoved := splitRights_eq fds.reverse [] t qs howner hqs' hfds
    rwa [List.length_reverse, List.reverse_reverse, List.nil_append] at hmoved
  have hqlen : (qs.set owner rest).length = qs.length := List.length_set
  show Queues faulty _ (((splitRights owner qs.length fds.length t)).setFds qs.length
    (reverseRights ((splitRights owner qs.length fds.length t).fds qs.length)))
  rw [hsplit, reverseRights_eq]
  refine ⟨hfaulty', Or.inr ⟨hcase, rfl, ?_⟩⟩
  show (qs.set owner rest ++ [fds]).set qs.length
    ((qs.set owner rest ++ [fds]).getD qs.length []).reverse = _
  rw [← hqlen, concat_getD_length, concat_set_length]

structure Message (ctl : Bytes) (owner : Nat) (rest : List Int) (v : Nat × Nat)
    (qs : List (List Int)) (item : CmsgItem) (qs' : List (List Int)) : Prop where
  level : item.level = nameOrInt (netCmsgLevelName (cmsgLevelAt ctl v.1)) (cmsgLevelAt ctl v.1)
  type : item.type = nameOrInt (netCmsgTypeName (cmsgLevelAt ctl v.1) (cmsgTypeAt ctl v.1))
    (cmsgTypeAt ctl v.1)
  data : if isRights ctl v.1 then
      ∃ q, item.data = .rights q ∧ Dealt owner rest (rightsOf ctl v) qs q qs'
    else item.data = plainData ctl v ∧ qs' = qs

theorem pushMessageData_triple {faulty : Prop} {ctl : Bytes} {owner : Nat} {rest : List Int}
    {v : Nat × Nat} {qs : List (List Int)} (howner : owner < qs.length)
    (hfds : qs.getD owner [] = rest ++ (rightsOf ctl v).reverse) :
    Raising.Triple (Queues faulty (· = qs)) (pushMessageData ctl owner v.1 v.2)
      (fun data => Queues faulty fun qs' => if isRights ctl v.1 then
        ∃ q, data = .rights q ∧ Dealt owner rest (rightsOf ctl v) qs q qs'
        else data = plainData ctl v ∧ qs' = qs)
      (OutOfMemory faulty (Rearranged owner qs)) := by
  unfold pushMessageData
  by_cases hrights : isRights ctl v.1 = true
  · simp only [hrights, if_true]
    have hcount : rightsCount v.2 = (rightsOf ctl v).length := by
      rw [rightsOf, if_pos hrights, List.length_map, List.length_range]
    rw [hcount]
    refine (pushRightsData_triple howner hfds).bind fun q => Raising.Triple.pure fun t ht => ?_
    exact ⟨ht.1, q, rfl, ht.2⟩
  · rw [Bool.not_eq_true] at hrights
    simp only [hrights, Bool.false_eq_true, if_false]
    have hdata : Raising.Triple (Queues faulty (· = qs)) (pushData ctl v.1 v.2)
        (fun data s => data = plainData ctl v ∧ Queues faulty (· = qs) s)
        (OutOfMemory faulty (Rearranged owner qs)) :=
      pushData_triple ctl v fun _ h => h ▸ Rearranged.refl owner _
    exact hdata.post fun _ _ h => ⟨h.2.1, h.1, h.2.2⟩

theorem pushMessage_triple {faulty : Prop} {ctl : Bytes} {owner : Nat} {rest : List Int}
    {v : Nat × Nat} {qs : List (List Int)} (howner : owner < qs.length)
    (hfds : qs.getD owner [] = rest ++ (rightsOf ctl v).reverse) :
    Raising.Triple (Queues faulty (· = qs)) (pushMessage ctl owner v.1 v.2)
      (fun item => Queues faulty (Message ctl owner rest v qs item))
      (OutOfMemory faulty (Rearranged owner qs)) := by
  have hsame : ∀ qs', qs' = qs → Rearranged owner qs qs' := by
    rintro _ rfl
    exact Rearranged.refl owner _
  refine (alloc_triple 1 hsame).bind fun _ => (pushLevel2name_triple _ hsame).bind fun level => ?_
  rintro s ⟨rfl, hs⟩
  refine (alloc_triple 1 hsame).bind (fun _ => (pushType2name_triple _ _ hsame).bind fun type => ?_)
    s hs
  rintro s ⟨rfl, hs⟩
  refine (alloc_triple 1 hsame).bind (fun _ => (pushMessageData_triple howner hfds).bind
    fun data => (alloc_triple 2 fun qs' hdata => ?_).bind fun _ => Raising.Triple.pure
      fun t ht => ?_) s hs
  · split at hdata
    · obtain ⟨q, -, hdealt⟩ := hdata
      exact hdealt.rearranged howner hfds
    · exact hsame _ hdata.2
  · exact ⟨ht.1, rfl, rfl, ht.2⟩

def CmsgItem.queue? (item : CmsgItem) : Option Nat :=
  match item.data with
  | .rights q => some q
  | _ => none

structure Decoded (ctl : Bytes) (qs : List (List Int)) (v : Nat × Nat) (item : CmsgItem) :
    Prop where
  level : item.level = nameOrInt (netCmsgLevelName (cmsgLevelAt ctl v.1)) (cmsgLevelAt ctl v.1)
  type : item.type = nameOrInt (netCmsgTypeName (cmsgLevelAt ctl v.1) (cmsgTypeAt ctl v.1))
    (cmsgTypeAt ctl v.1)
  data : if isRights ctl v.1 then
      ∃ q, item.data = .rights q ∧ qs.getD q [] = (rightsOf ctl v).reverse
    else item.data = plainData ctl v

/-- All of the messages are decoded, each rights message into a queue of its own, and nothing is
left in `owner` unless it is one of these. -/
structure Pushed (ctl : Bytes) (owner : Nat) (vs : List (Nat × Nat)) (qs : List (List Int))
    (items : List CmsgItem) (qs' : List (List Int)) : Prop extends Rearranged owner qs qs' where
  decoded : List.Forall₂ (Decoded ctl qs') vs items
  distinct : (items.filterMap CmsgItem.queue?).Nodup
  place : ∀ q ∈ items.filterMap CmsgItem.queue?,
    (q = owner ∨ qs.length ≤ q) ∧ q < qs'.length
  spare : vs.flatMap (rightsOf ctl) = [] →
    qs'.getD owner [] = qs.getD owner [] ∧ owner ∉ items.filterMap CmsgItem.queue?
  emptied : qs.getD owner [] = (vs.flatMap (rightsOf ctl)).reverse →
    owner ∉ items.filterMap CmsgItem.queue? → qs'.getD owner [] = []

theorem rightsOf_eq_nil {ctl : Bytes} {v : Nat × Nat} (h : isRights ctl v.1 = false) :
    rightsOf ctl v = [] := by
  rw [rightsOf, h, if_neg Bool.false_ne_true]

theorem Pushed.nil (ctl : Bytes) (owner : Nat) (qs : List (List Int)) :
    Pushed ctl owner [] qs [] qs where
  toRearranged := Rearranged.refl owner qs
  decoded := List.Forall₂.nil
  distinct := List.nodup_nil
  place := fun _ hq => absurd hq List.not_mem_nil
  spare := fun _ => ⟨rfl, List.not_mem_nil⟩
  emptied := fun h _ => h

theorem Pushed.cons_plain {ctl : Bytes} {owner : Nat} {v : Nat × Nat} {vs : List (Nat × Nat)}
    {item : CmsgItem} {items : List CmsgItem} {qs qs' : List (List Int)}
    (hrights : isRights ctl v.1 = false) (hplain : item.data = plainData ctl v)
    (hdecoded : Decoded ctl qs' v item) (hvs : Pushed ctl owner vs qs items qs') :
    Pushed ctl owner (v :: vs) qs (item :: items) qs' := by
  have hflat : (v :: vs).flatMap (rightsOf ctl) = vs.flatMap (rightsOf ctl) := by
    rw [List.flatMap_cons, rightsOf_eq_nil hrights, List.nil_append]
  have hqueue : item.queue? = none := by
    rw [CmsgItem.queue?, hplain]
    unfold plainData
    split_ifs <;> rfl
  have hids : (item :: items).filterMap CmsgItem.queue? = items.filterMap CmsgItem.queue? :=
    List.filterMap_cons_none hqueue
  refine ⟨hvs.toRearranged, List.Forall₂.cons hdecoded hvs.decoded, ?_, ?_, ?_, ?_⟩
  · exact hids ▸ hvs.distinct
  · exact hids ▸ hvs.place
  · rw [hflat, hids]
    exact hvs.spare
  · rw [hflat, hids]
    exact hvs.emptied

theorem Pushed.cons_owner {ctl : Bytes} {owner : Nat} {v : Nat × Nat} {vs : List (Nat × Nat)}
    {item : CmsgItem} {items : List CmsgItem} {qs qs' : List (List Int)}
    (howner : owner < qs.length) (hne : rightsOf ctl v ≠ [])
    (hnil : vs.flatMap (rightsOf ctl) = []) (hq : item.data = .rights owner)
    (hdecoded : Decoded ctl qs' v item) (hvs : Pushed ctl owner vs qs items qs') :
    Pushed ctl owner (v :: vs) qs (item :: items) qs' := by
  have hids : (item :: items).filterMap CmsgItem.queue? =
      owner :: items.filterMap CmsgItem.queue? :=
    List.filterMap_cons_some (by rw [CmsgItem.queue?, hq])
  obtain ⟨-, hnot⟩ := hvs.spare hnil
  refine ⟨hvs.toRearranged, List.Forall₂.cons hdecoded hvs.decoded, ?_, ?_, ?_, ?_⟩
  · rw [hids]
    exact List.nodup_cons.2 ⟨hnot, hvs.distinct⟩
  · rw [hids]
    exact List.forall_mem_cons.2
      ⟨⟨Or.inl rfl, Nat.lt_of_lt_of_le howner hvs.mono⟩, hvs.place⟩
  · intro hall
    rw [List.flatMap_cons] at hall
    exact absurd (List.append_eq_nil_iff.1 hall).1 hne
  · rw [hids]
    exact fun _ hnot' => absurd List.mem_cons_self hnot'

theorem Pushed.cons_new {ctl : Bytes} {owner : Nat} {rest : List Int} {v : Nat × Nat}
    {vs : List (Nat × Nat)} {item : CmsgItem} {items : List CmsgItem}
    {qs qs₁ qs' : List (List Int)} (howner : owner < qs.length)
    (hfds : qs.getD owner [] = rest ++ (rightsOf ctl v).reverse)
    (hqs : qs₁ = qs.set owner rest ++ [(rightsOf ctl v).reverse])
    (hmoved : Rearranged owner qs qs₁) (hq : item.data = .rights qs.length)
    (hdecoded : Decoded ctl qs' v item) (hvs : Pushed ctl owner vs qs₁ items qs') :
    Pushed ctl owner (v :: vs) qs (item :: items) qs' := by
  have hids : (item :: items).filterMap CmsgItem.queue? =
      qs.length :: items.filterMap CmsgItem.queue? :=
    List.filterMap_cons_some (by rw [CmsgItem.queue?, hq])
  obtain ⟨hlen, -, howner', -⟩ := Dealt.new_getD hqs
  have hnot : qs.length ∉ items.filterMap CmsgItem.queue? := fun hmem => by
    have hplace := (hvs.place _ hmem).1
    omega
  refine ⟨hmoved.trans hvs.toRearranged, List.Forall₂.cons hdecoded hvs.decoded, ?_, ?_, ?_, ?_⟩
  · rw [hids]
    exact List.nodup_cons.2 ⟨hnot, hvs.distinct⟩
  · rw [hids]
    have hmono := hvs.mono
    refine List.forall_mem_cons.2 ⟨⟨Or.inr (Nat.le_refl _), by omega⟩, fun r hr => ?_⟩
    exact (hvs.place r hr).imp_left fun h => h.imp_right fun hle => by omega
  · intro hall
    rw [List.flatMap_cons, List.append_eq_nil_iff] at hall
    obtain ⟨hkept, hnot'⟩ := hvs.spare hall.2
    rw [hids, List.mem_cons, not_or]
    refine ⟨?_, Nat.ne_of_lt howner, hnot'⟩
    rw [hkept, howner' howner, hfds, hall.1, List.reverse_nil, List.append_nil]
  · intro hall hnot'
    rw [hids, List.mem_cons, not_or] at hnot'
    rw [hfds, List.flatMap_cons, List.reverse_append] at hall
    exact hvs.emptied ((howner' howner).trans (List.append_cancel_right hall)) hnot'.2

theorem Pushed.cons {ctl : Bytes} {owner : Nat} {rest : List Int} {v : Nat × Nat}
    {vs : List (Nat × Nat)} {item : CmsgItem} {items : List CmsgItem}
    {qs qs₁ qs' : List (List Int)} (howner : owner < qs.length)
    (hfds : qs.getD owner [] = rest ++ (rightsOf ctl v).reverse)
    (hrest : rest = (vs.flatMap (rightsOf ctl)).reverse ∨
      rightsOf ctl v = [] ∧ vs.flatMap (rightsOf ctl) = [])
    (hv : Message ctl owner rest v qs item qs₁) (hvs : Pushed ctl owner vs qs₁ items qs') :
    Pushed ctl owner (v :: vs) qs (item :: items) qs' := by
  obtain ⟨hlevel, htype, hdata⟩ := hv
  by_cases hrights : isRights ctl v.1 = true
  swap
  · rw [if_neg hrights] at hdata
    obtain ⟨hplain, rfl⟩ := hdata
    rw [Bool.not_eq_true] at hrights
    refine Pushed.cons_plain hrights hplain ⟨hlevel, htype, ?_⟩ hvs
    rw [hrights, if_neg Bool.false_ne_true]
    exact hplain
  rw [if_pos hrights] at hdata
  obtain ⟨q, hq, hdealt⟩ := hdata
  have hmoved := hdealt.rearranged howner hfds
  obtain ⟨⟨hne, rfl⟩, rfl, rfl⟩ | ⟨-, rfl, hqs⟩ := hdealt
  · have hnil : vs.flatMap (rightsOf ctl) = [] := by
      obtain hrest | ⟨hv, -⟩ := hrest
      · exact List.reverse_eq_nil_iff.1 hrest.symm
      · exact absurd hv hne
    refine Pushed.cons_owner howner hne hnil hq ⟨hlevel, htype, ?_⟩ hvs
    rw [if_pos hrights]
    exact ⟨q, hq, (hvs.spare hnil).1.trans hfds⟩
  · -- no later message touches the new queue, so it holds in the end what it was given
    refine Pushed.cons_new howner hfds hqs hmoved hq ⟨hlevel, htype, ?_⟩ hvs
    rw [if_pos hrights]
    obtain ⟨hlen, hnew, -, -⟩ := Dealt.new_getD hqs
    exact ⟨qs.length, hq, (hvs.frame _ (by omega) (by omega)).trans hnew⟩

theorem Message.next {ctl : Bytes} {owner : Nat} {rest : List Int} {v : Nat × Nat}
    {vs : List (Nat × Nat)} {item : CmsgItem} {qs qs₁ : List (List Int)}
    (howner : owner < qs.length) (hfds : qs.getD owner [] = rest ++ (rightsOf ctl v).reverse)
    (hrest : rest = (vs.flatMap (rightsOf ctl)).reverse ∨
      rightsOf ctl v = [] ∧ vs.flatMap (rightsOf ctl) = [])
    (h : Message ctl owner rest v qs item qs₁) :
    (Rearranged owner qs qs₁ ∧ owner < qs₁.length) ∧
      (qs₁.getD owner [] = (vs.flatMap (rightsOf ctl)).reverse ∨
        vs.flatMap (rightsOf ctl) = []) := by
  obtain ⟨-, -, hdata⟩ := h
  split at hdata
  · obtain ⟨q, -, hdealt⟩ := hdata
    have hmoved := hdealt.rearranged howner hfds
    obtain ⟨⟨-, rfl⟩, -, rfl⟩ | ⟨-, -, hqs⟩ := hdealt
    · refine ⟨⟨hmoved, howner⟩, Or.inr ?_⟩
      exact hrest.elim (fun h => List.reverse_eq_nil_iff.1 h.symm) And.right
    · obtain ⟨hlen, -, hkept, -⟩ := Dealt.new_getD hqs
      refine ⟨⟨hmoved, by omega⟩, ?_⟩
      rw [hkept howner]
      exact hrest.imp_right And.right
  next hrights =>
    obtain ⟨-, rfl⟩ := hdata
    rw [rightsOf_eq_nil (Bool.eq_false_iff.2 hrights), List.reverse_nil, List.append_nil] at hfds
    rw [hfds]
    exact ⟨⟨Rearranged.refl owner _, howner⟩, hrest.imp_right And.right⟩

theorem pushMessages_triple {faulty : Prop} {ctl : Bytes} {owner : Nat} {vs : List (Nat × Nat)}
    {qs : List (List Int)} (howner : owner < qs.length)
    (hfds : qs.getD owner [] = (vs.flatMap (rightsOf ctl)).reverse ∨
      vs.flatMap (rightsOf ctl) = []) (items : List CmsgItem) :
    Raising.Triple (Queues faulty (· = qs)) (pushMessages ctl owner vs items)
      (fun all => Queues faulty fun qs' => ∃ new, all = items ++ new ∧
        Pushed ctl owner vs qs new qs')
      (OutOfMemory faulty (Rearranged owner qs)) := by
  induction vs generalizing qs items with
  | nil =>
    refine Raising.Triple.pure fun s hs => ⟨hs.1, [], (List.append_nil _).symm, ?_⟩
    rw [hs.2]
    exact Pushed.nil ctl owner qs
  | cons v vs ih =>
    have hsplit : ∃ rest, qs.getD owner [] = rest ++ (rightsOf ctl v).reverse ∧
        (rest = (vs.flatMap (rightsOf ctl)).reverse ∨
          rightsOf ctl v = [] ∧ vs.flatMap (rightsOf ctl) = []) := by
      rw [List.flatMap_cons, List.reverse_append, List.append_eq_nil_iff] at hfds
      obtain hall | ⟨hv, hvs⟩ := hfds
      · exact ⟨_, hall, Or.inl rfl⟩
      · exact ⟨qs.getD owner [], by rw [hv, List.reverse_nil, List.append_nil], Or.inr ⟨hv, hvs⟩⟩
    obtain ⟨rest, hfds', hrest⟩ := hsplit
    refine (pushMessage_triple howner hfds').bind fun item => ?_
    rintro s ⟨hfaulty, hmessage⟩
    obtain ⟨⟨hmoved, howner₁⟩, hnext⟩ := hmessage.next howner hfds' hrest
    refine ((ih howner₁ hnext (items ++ [item])).mono (fun _ h => h) ?_ ?_) s ⟨hfaulty, rfl⟩
    · rintro all t ⟨hfaulty', new, rfl, hpushed⟩
      refine ⟨hfaulty', item :: new, ?_, hpushed.cons howner hfds' hrest hmessage⟩
      rw [List.append_assoc, List.singleton_append]
    · exact fun e t h => ⟨h.1, hmoved.trans h.2⟩

/-- The whole pass: with its descriptors in `owner`, a control buffer becomes the items of its
messages, unless an allocation fails. No descriptor is lost or doubled either way. -/
theorem netCmsgPushTable_triple {faulty : Prop} {ctl : Bytes} {owner : Nat}
    {qs : List (List Int)} (howner : owner < qs.length)
    (hfds : qs.getD owner [] = (receivedFds ctl).reverse) :
    Raising.Triple (Queues faulty (· = qs)) (netCmsgPushTable ctl owner)
      (fun ret => Queues faulty fun qs' => ∃ items, ret = (cmsgFirsthdr ctl).map (fun _ => items) ∧
        Pushed ctl owner (visited ctl) qs items qs')
      (OutOfMemory faulty (Rearranged owner qs)) := by
  unfold netCmsgPushTable receivedFds at *
  cases hfirst : cmsgFirsthdr ctl with
  | none =>
    have hnil : visited ctl = [] := by
      rw [visited, hfirst]
      rfl
    refine Raising.Triple.pure fun s hs => ⟨hs.1, [], rfl, ?_⟩
    rw [hs.2, hnil]
    exact Pushed.nil ctl owner qs
  | some cm =>
    have hmessages : Raising.Triple (Queues faulty (· = qs)) _ _ _ :=
      pushMessages_triple howner (Or.inl hfds) []
    simp only [← hfirst, pushTable_eq]
    refine (alloc_triple 1 fun _ h => h ▸ Rearranged.refl owner _).bind fun _ =>
      hmessages.bind fun all => Raising.Triple.pure ?_
    rintro s ⟨hfaulty, items, hall, hpushed⟩
    refine ⟨hfaulty, items, ?_, hpushed⟩
    rw [hall, hfirst]
    rfl

end LuaNet.Socket
