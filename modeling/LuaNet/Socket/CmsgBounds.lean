import LuaNet.Lib.Walk
import LuaNet.Socket.CmsgDecode

/-! The two passes over a control buffer with every read of it checked. Whatever the bytes are,
no read lies outside the buffer, no pass runs out of turns, and both go through the same
messages. -/

namespace LuaNet.Socket

open LuaNet.Lib

/-- A pass over a control buffer, which notes the headers it takes and their lengths. -/
abbrev CmsgWalk (σ : Type) := Walk σ LuaError (Nat × Nat)

variable {σ : Type}

def fetchNat (ctl : Bytes) (offset width : Nat) : CmsgWalk σ Nat := do
  let bytes ← Walk.fetch ctl offset width
  pure (leNat bytes)

def fetchInt (ctl : Bytes) (offset : Nat) : CmsgWalk σ Int := do
  let n ← fetchNat ctl offset 4
  pure (toSigned 32 n)

/-! The functions of `Cmsg`, as they read the buffer. -/

def netCmsgLengthChecked (ctl : Bytes) (cm : Nat) : CmsgWalk σ Nat :=
  if ctl.length < cm then pure 0
  else
    let available := ctl.length - cm
    if available < cmsgLen 0 then pure 0
    else do
      let len ← fetchNat ctl cm 8
      if len < cmsgLen 0 then pure 0
      else if len < available then pure len
      else pure available

def cmsgNxthdrChecked (ctl : Bytes) (cm : Nat) : CmsgWalk σ (Option Nat) := do
  let len ← fetchNat ctl cm 8
  let needed := sizeofCmsghdr + cmsgPadding len
  if len < sizeofCmsghdr then pure none
  else if ctl.length - cm < needed ∨ ctl.length - cm - needed < len then pure none
  else pure (some (cm + cmsgAlign len))

def isRightsChecked (ctl : Bytes) (cm : Nat) : CmsgWalk σ Bool := do
  let level ← fetchInt ctl (cm + 8)
  if level = solSocket then do
    let type ← fetchInt ctl (cm + 12)
    pure (type = scmRights)
  else pure false

def addRightsChecked (ctl : Bytes) (offset : Nat) : Nat → CmsgWalk RightsFill Unit
  | 0 => pure ()
  | n + 1 => do
    let fd ← fetchInt ctl offset
    Raising.update fun s => (s.1, s.2.add fd)
    addRightsChecked ctl (offset + 4) n

def addMessageChecked (ctl : Bytes) (cm len : Nat) : CmsgWalk RightsFill Unit := do
  let rights ← isRightsChecked ctl cm
  if rights then addRightsChecked ctl (cmsgData cm) (rightsCount len) else pure ()

def fillRightsChecked (ctl : Bytes) : Nat → Option Nat → CmsgWalk RightsFill Unit
  | _, none => pure ()
  | 0, some _ => Walk.stuck
  | fuel + 1, some cm => do
    let len ← netCmsgLengthChecked ctl cm
    if len = 0 then pure ()
    else do
      Walk.visit (cm, len)
      addMessageChecked ctl cm len
      -- a message that was cut off is the last
      let whole ← fetchNat ctl cm 8
      if len < whole then pure ()
      else do
        let next ← cmsgNxthdrChecked ctl cm
        fillRightsChecked ctl fuel next

def netScmRightsFillChecked (ctl : Bytes) (fuel : Nat) : CmsgWalk RightsFill Unit := do
  fillRightsChecked ctl fuel (cmsgFirsthdr ctl)
  Raising.update fun s => (s.1, { s.2 with fds := reverseRights s.2.fds })

def pushDataChecked (ctl : Bytes) (cm len : Nat) : CmsgWalk RightsState CmsgValue :=
  if len < sizeofCmsghdr then do
    Walk.lift (alloc 1)
    pure (.string [])
  else do
    let datalen := len - sizeofCmsghdr
    let level ← fetchInt ctl (cm + 8)
    let raw : CmsgWalk RightsState CmsgValue := do
      -- `lua_pushlstring` reads all that the message is said to hold
      let payload ← Walk.fetch ctl (cmsgData cm) datalen
      Walk.lift (alloc 1)
      pure (.string payload)
    if level = solSocket then do
      let type ← fetchInt ctl (cm + 12)
      if type = scmTimestamp then
        if datalen < sizeofTimeval then pure .nil
        else do
          let sec ← fetchNat ctl (cmsgData cm) 8
          let usec ← fetchNat ctl (cmsgData cm + 8) 8
          Walk.lift (alloc 3)
          pure (.timestamp (toSigned 64 sec) (toSigned 64 usec))
      else raw
    else raw

def pushMessageDataChecked (ctl : Bytes) (owner cm len : Nat) :
    CmsgWalk RightsState CmsgValue := do
  let rights ← isRightsChecked ctl cm
  if rights then do
    let q ← Walk.lift (pushRightsData (rightsCount len) owner)
    pure (.rights q)
  else pushDataChecked ctl cm len

def pushMessageChecked (ctl : Bytes) (owner cm len : Nat) : CmsgWalk RightsState CmsgItem := do
  Walk.lift (alloc 1)
  let level ← fetchInt ctl (cm + 8)
  let levelName ← Walk.lift (pushLevel2name level)
  Walk.lift (alloc 1)
  let level ← fetchInt ctl (cm + 8)
  let type ← fetchInt ctl (cm + 12)
  let typeName ← Walk.lift (pushType2name level type)
  Walk.lift (alloc 1)
  let data ← pushMessageDataChecked ctl owner cm len
  Walk.lift (alloc 2)
  pure { level := levelName, type := typeName, data := data }

def pushTableChecked (ctl : Bytes) (owner : Nat) :
    Nat → Option Nat → List CmsgItem → CmsgWalk RightsState (List CmsgItem)
  | _, none, items => pure items
  | 0, some _, _ => Walk.stuck
  | fuel + 1, some cm, items => do
    let len ← netCmsgLengthChecked ctl cm
    if len = 0 then pure items
    else do
      Walk.visit (cm, len)
      let item ← pushMessageChecked ctl owner cm len
      let whole ← fetchNat ctl cm 8
      if len < whole then pure (items ++ [item])
      else do
        let next ← cmsgNxthdrChecked ctl cm
        pushTableChecked ctl owner fuel next (items ++ [item])

def netCmsgPushTableChecked (ctl : Bytes) (owner fuel : Nat) :
    CmsgWalk RightsState (Option (List CmsgItem)) :=
  match cmsgFirsthdr ctl with
  | none => pure none
  | some cm => do
    Walk.lift (alloc 1)
    let items ← pushTableChecked ctl owner fuel (some cm) []
    pure (some items)

/-! What is read where the header at `cm` lies in the buffer. -/

section Reads

variable {ctl : Bytes} {cm : Nat}

theorem fetchNat_of_le {offset width : Nat} (h : offset + width ≤ ctl.length) :
    (fetchNat ctl offset width : CmsgWalk σ Nat) = pure (readNat ctl offset width) := by
  rw [fetchNat, Walk.fetch_of_le h]
  rfl

theorem fetchInt_of_le {offset : Nat} (h : offset + 4 ≤ ctl.length) :
    (fetchInt ctl offset : CmsgWalk σ Int) = pure (readInt ctl offset) := by
  rw [fetchInt, fetchNat_of_le h]
  rfl

theorem netCmsgLengthChecked_eq (ctl : Bytes) (cm : Nat) :
    (netCmsgLengthChecked ctl cm : CmsgWalk σ Nat) = pure (netCmsgLength ctl cm) := by
  unfold netCmsgLengthChecked netCmsgLength
  by_cases hpast : ctl.length < cm
  · rw [if_pos hpast, if_pos hpast]
  rw [if_neg hpast, if_neg hpast]
  by_cases hshort : ctl.length - cm < cmsgLen 0
  · simp only [hshort, if_true, true_or]
  have hheader : cm + 8 ≤ ctl.length := by
    have hlen : cmsgLen 0 = 16 := rfl
    omega
  have hread : (fetchNat ctl cm 8 : CmsgWalk σ Nat) = pure (cmsgLenAt ctl cm) :=
    fetchNat_of_le hheader
  simp only [hshort, if_false, false_or, hread, Walk.pure_bind]
  split
  · rfl
  · split <;> rfl

theorem cmsgNxthdrChecked_eq (h : cm + sizeofCmsghdr ≤ ctl.length) :
    (cmsgNxthdrChecked ctl cm : CmsgWalk σ (Option Nat)) = pure (cmsgNxthdr ctl cm) := by
  have hread : (fetchNat ctl cm 8 : CmsgWalk σ Nat) = pure (cmsgLenAt ctl cm) :=
    fetchNat_of_le (by simp only [sizeofCmsghdr] at h; omega)
  unfold cmsgNxthdrChecked cmsgNxthdr
  simp only [hread, Walk.pure_bind]
  split
  · rfl
  · split <;> rfl

theorem fetchLevel (h : cm + sizeofCmsghdr ≤ ctl.length) :
    (fetchInt ctl (cm + 8) : CmsgWalk σ Int) = pure (cmsgLevelAt ctl cm) :=
  fetchInt_of_le (by simp only [sizeofCmsghdr] at h; omega)

theorem fetchType (h : cm + sizeofCmsghdr ≤ ctl.length) :
    (fetchInt ctl (cm + 12) : CmsgWalk σ Int) = pure (cmsgTypeAt ctl cm) :=
  fetchInt_of_le (by simp only [sizeofCmsghdr] at h; omega)

theorem isRightsChecked_eq (h : cm + sizeofCmsghdr ≤ ctl.length) :
    (isRightsChecked ctl cm : CmsgWalk σ Bool) = pure (isRights ctl cm) := by
  unfold isRightsChecked isRights
  simp only [fetchLevel h, fetchType h, Walk.pure_bind]
  split
  next hlevel => rw [decide_eq_true hlevel, Bool.true_and]
  next hlevel => rw [decide_eq_false hlevel, Bool.false_and]

theorem addRightsChecked_eq (offset n : Nat) (h : offset + n * 4 ≤ ctl.length) :
    addRightsChecked ctl offset n = Raising.update fun s =>
      (s.1, (List.range n).foldl (fun q i => q.add (readInt ctl (offset + i * 4))) s.2) := by
  induction n generalizing offset with
  | zero => rfl
  | succ n ih =>
    have hfirst : (fetchInt ctl offset : CmsgWalk RightsFill Int) = pure (readInt ctl offset) :=
      fetchInt_of_le (by omega)
    have hindex (i : Nat) : offset + 4 + i * 4 = offset + (i + 1) * 4 := by omega
    rw [addRightsChecked, hfirst, Walk.pure_bind, ih (offset + 4) (by omega)]
    funext s
    show (Except.ok (), s.1, (List.range n).foldl _ (s.2.add _)) =
      (Except.ok (), s.1, (List.range (n + 1)).foldl _ s.2)
    simp only [List.range_succ_eq_map, List.foldl_cons, List.foldl_map, hindex,
      Nat.succ_eq_add_one, Nat.zero_mul, Nat.add_zero]

theorem netCmsgLength_bounds (h : netCmsgLength ctl cm ≠ 0) :
    sizeofCmsghdr ≤ netCmsgLength ctl cm ∧ cm + netCmsgLength ctl cm ≤ ctl.length := by
  have hheader : cmsgLen 0 = sizeofCmsghdr := rfl
  revert h
  unfold netCmsgLength
  rw [hheader]
  split
  · exact fun h => absurd rfl h
  · simp only
    split
    · exact fun h => absurd rfl h
    · split <;> omega

theorem cmsgNxthdr_bounds {next : Nat} (h : cmsgNxthdr ctl cm = some next) :
    cm + sizeofCmsghdr ≤ next ∧ next + sizeofCmsghdr ≤ ctl.length := by
  unfold cmsgNxthdr at h
  simp only at h
  split at h
  · exact absurd h nofun
  next hlen =>
    split at h
    · exact absurd h nofun
    next hroom =>
      rw [Option.some.injEq] at h
      simp only [cmsgAlign, cmsgPadding, sizeofCmsghdr] at *
      omega

theorem cmsgFirsthdr_bounds (h : cmsgFirsthdr ctl = some cm) :
    cm = 0 ∧ sizeofCmsghdr ≤ ctl.length := by
  unfold cmsgFirsthdr at h
  split at h
  next hlen => exact ⟨(Option.some.inj h).symm, hlen⟩
  next => exact absurd h nofun

end Reads

/-! The first pass. -/

/-- A walk goes on from a header of the buffer, with a turn for every byte from it on. -/
def Going (ctl : Bytes) (fuel : Nat) (cm : Option Nat) : Prop :=
  ∀ at', cm = some at' → at' + sizeofCmsghdr ≤ ctl.length ∧ ctl.length < at' + fuel

theorem Going.first {ctl : Bytes} {fuel : Nat} (h : cmsgFuel ctl ≤ fuel) :
    Going ctl fuel (cmsgFirsthdr ctl) := by
  intro cm hcm
  obtain ⟨rfl, hlen⟩ := cmsgFirsthdr_bounds hcm
  unfold cmsgFuel at h
  exact ⟨by rwa [Nat.zero_add], by omega⟩

theorem Going.next {ctl : Bytes} {fuel cm : Nat} (h : Going ctl (fuel + 1) (some cm)) :
    Going ctl fuel (cmsgNxthdr ctl cm) := by
  intro next hnext
  have hbounds := cmsgNxthdr_bounds hnext
  have hfuel := (h cm rfl).2
  simp only [sizeofCmsghdr] at *
  exact ⟨hbounds.2, by omega⟩

theorem Going.turn {ctl : Bytes} {cm : Nat} (h : Going ctl 0 (some cm)) : False := by
  have hcm := h cm rfl
  simp only [sizeofCmsghdr] at hcm
  omega

theorem cmsgVisited_fuel {ctl : Bytes} {fuel fuel' : Nat} {cm : Option Nat}
    (h : Going ctl fuel cm) (h' : Going ctl fuel' cm) :
    cmsgVisited ctl fuel cm = cmsgVisited ctl fuel' cm := by
  induction fuel generalizing fuel' cm with
  | zero =>
    cases cm with
    | none => cases fuel' <;> rfl
    | some cm => exact h.turn.elim
  | succ fuel ih =>
    cases cm with
    | none => cases fuel' <;> rfl
    | some cm =>
      cases fuel' with
      | zero => exact h'.turn.elim
      | succ fuel' =>
        rw [cmsgVisited, cmsgVisited]
        simp only [ih h.next h'.next]

theorem visited_of_fuel {ctl : Bytes} {fuel : Nat} (h : cmsgFuel ctl ≤ fuel) :
    cmsgVisited ctl fuel (cmsgFirsthdr ctl) = visited ctl :=
  cmsgVisited_fuel (Going.first h) (Going.first (Nat.le_refl _))

theorem cmsgVisited_bounds {ctl : Bytes} {fuel : Nat} {cm : Option Nat} {v : Nat × Nat}
    (hv : v ∈ cmsgVisited ctl fuel cm) :
    sizeofCmsghdr ≤ v.2 ∧ v.1 + v.2 ≤ ctl.length := by
  induction fuel generalizing cm with
  | zero => exact absurd hv List.not_mem_nil
  | succ fuel ih =>
    cases cm with
    | none => exact absurd hv List.not_mem_nil
    | some cm =>
      rw [cmsgVisited] at hv
      by_cases hlen : netCmsgLength ctl cm = 0
      · simp only [hlen, if_true] at hv
        exact absurd hv List.not_mem_nil
      simp only [hlen, if_false, List.mem_cons] at hv
      rcases hv with rfl | hv
      · exact netCmsgLength_bounds hlen
      · split at hv
        · exact absurd hv List.not_mem_nil
        · exact ih hv

theorem addMessageChecked_eq {ctl : Bytes} {cm len : Nat} (hlen : cm + len ≤ ctl.length)
    (hheader : sizeofCmsghdr ≤ len) :
    addMessageChecked ctl cm len = Raising.update fun s => (s.1,
      if isRights ctl cm = true then
        (List.range (rightsCount len)).foldl
          (fun q i => q.add (readInt ctl (cmsgData cm + i * 4))) s.2
      else s.2) := by
  have hcm : cm + sizeofCmsghdr ≤ ctl.length := by omega
  rw [addMessageChecked, isRightsChecked_eq hcm, Walk.pure_bind]
  by_cases hrights : isRights ctl cm = true
  · have hroom : cmsgData cm + rightsCount len * 4 ≤ ctl.length := by
      have hempty : cmsgLen 0 = 16 := rfl
      simp only [cmsgData, rightsCount, sizeofCmsghdr, hempty] at *
      omega
    simp only [hrights, if_true]
    exact addRightsChecked_eq _ _ hroom
  · simp only [hrights]
    rfl

theorem fillRightsChecked_eq {ctl : Bytes} {fuel : Nat} {cm : Option Nat}
    (h : Going ctl fuel cm) :
    fillRightsChecked ctl fuel cm = Raising.update fun s =>
      (s.1 ++ cmsgVisited ctl fuel cm, fillRights ctl fuel cm s.2) := by
  induction fuel generalizing cm with
  | zero =>
    cases cm with
    | none =>
      funext s
      simp only [cmsgVisited, List.append_nil]
      rfl
    | some cm => exact h.turn.elim
  | succ fuel ih =>
    cases cm with
    | none =>
      funext s
      simp only [cmsgVisited, List.append_nil]
      rfl
    | some cm =>
      have hcm := (h cm rfl).1
      have hwhole : (fetchNat ctl cm 8 : CmsgWalk RightsFill Nat) = pure (cmsgLenAt ctl cm) :=
        fetchNat_of_le (by simp only [sizeofCmsghdr] at hcm; omega)
      rw [fillRightsChecked, netCmsgLengthChecked_eq, Walk.pure_bind]
      by_cases hlen : netCmsgLength ctl cm = 0
      · funext s
        simp only [hlen, if_true, cmsgVisited, fillRights, List.append_nil]
        rfl
      have hbounds := netCmsgLength_bounds hlen
      have hadd := addMessageChecked_eq hbounds.2 hbounds.1
      simp only [hlen, if_false, cmsgNxthdrChecked_eq hcm, hwhole, Walk.pure_bind, hadd,
        ih h.next]
      funext s
      simp only [cmsgVisited, fillRights, hlen, if_false]
      by_cases hcut : netCmsgLength ctl cm < cmsgLenAt ctl cm
      · simp only [hcut, if_true]
        rfl
      · have hnoted : s.1 ++ [(cm, netCmsgLength ctl cm)] ++
            cmsgVisited ctl fuel (cmsgNxthdr ctl cm) =
              s.1 ++ (cm, netCmsgLength ctl cm) :: cmsgVisited ctl fuel (cmsgNxthdr ctl cm) :=
          List.append_assoc _ _ _
        simp only [hcut, if_false]
        exact congrArg (fun noted => (Except.ok (), (noted, _))) hnoted

theorem netScmRightsFillChecked_eq {ctl : Bytes} {fuel : Nat} (h : cmsgFuel ctl ≤ fuel) :
    netScmRightsFillChecked ctl fuel ([], {}) =
      (.ok (), (visited ctl, netScmRightsFill ctl)) := by
  have hfill : fillRights ctl fuel (cmsgFirsthdr ctl) {} =
      fillRights ctl (cmsgFuel ctl) (cmsgFirsthdr ctl) {} := by
    rw [fillRights_eq, fillRights_eq, visited_of_fuel h]
    rfl
  rw [netScmRightsFillChecked, fillRightsChecked_eq (Going.first h), visited_of_fuel h]
  show (Except.ok (), visited ctl, { fillRights ctl fuel (cmsgFirsthdr ctl) {} with
    fds := reverseRights (fillRights ctl fuel (cmsgFirsthdr ctl) {}).fds }) = _
  rw [hfill]
  rfl

/-! The second pass. -/

theorem fetchTimeval {ctl : Bytes} {offset : Nat} (h : offset + sizeofTimeval ≤ ctl.length) :
    (fetchNat ctl offset 8 : CmsgWalk σ Nat) = pure (readNat ctl offset 8) ∧
      (fetchNat ctl (offset + 8) 8 : CmsgWalk σ Nat) = pure (readNat ctl (offset + 8) 8) := by
  simp only [sizeofTimeval] at h
  exact ⟨fetchNat_of_le (by omega), fetchNat_of_le (by omega)⟩

theorem pushDataChecked_eq {ctl : Bytes} {cm len : Nat} (hheader : sizeofCmsghdr ≤ len)
    (hlen : cm + len ≤ ctl.length) :
    pushDataChecked ctl cm len = Walk.lift (pushData ctl cm len) := by
  have hcm : cm + sizeofCmsghdr ≤ ctl.length := by omega
  have hpayload : (Walk.fetch ctl (cmsgData cm) (len - sizeofCmsghdr) :
      CmsgWalk RightsState Bytes) =
        pure ((ctl.drop (cmsgData cm)).take (len - sizeofCmsghdr)) :=
    Walk.fetch_of_le (by unfold cmsgData; omega)
  unfold pushDataChecked pushData
  simp only [Nat.not_lt.2 hheader, if_false, fetchLevel hcm, fetchType hcm, hpayload,
    Walk.pure_bind]
  by_cases hlevel : cmsgLevelAt ctl cm = solSocket
  · simp only [hlevel, if_true, true_and]
    by_cases htype : cmsgTypeAt ctl cm = scmTimestamp
    · simp only [htype, if_true]
      split
      · rfl
      next hfull =>
        have htimes : (fetchNat ctl (cmsgData cm) 8 : CmsgWalk RightsState Nat) = pure _ ∧
            (fetchNat ctl (cmsgData cm + 8) 8 : CmsgWalk RightsState Nat) = pure _ :=
          fetchTimeval (by unfold cmsgData; omega)
        rw [htimes.1, htimes.2, Walk.pure_bind, Walk.pure_bind, Walk.lift_bind]
        rfl
    · simp only [htype, if_false, Walk.lift_bind]
      rfl
  · simp only [hlevel, if_false, false_and, Walk.lift_bind]
    rfl

theorem pushMessageChecked_eq {ctl : Bytes} {cm len : Nat} (owner : Nat)
    (hheader : sizeofCmsghdr ≤ len) (hlen : cm + len ≤ ctl.length) :
    pushMessageChecked ctl owner cm len = Walk.lift (pushMessage ctl owner cm len) := by
  have hcm : cm + sizeofCmsghdr ≤ ctl.length := by omega
  have hdata : pushMessageDataChecked ctl owner cm len =
      Walk.lift (pushMessageData ctl owner cm len) := by
    unfold pushMessageDataChecked pushMessageData
    rw [isRightsChecked_eq hcm, Walk.pure_bind]
    split
    · rw [Walk.lift_bind]
      rfl
    · exact pushDataChecked_eq hheader hlen
  unfold pushMessageChecked pushMessage
  simp only [fetchLevel hcm, fetchType hcm, Walk.pure_bind, hdata, Walk.lift_bind]
  rfl

def pushVisits (ctl : Bytes) (owner : Nat) :
    List (Nat × Nat) → List CmsgItem → CmsgWalk RightsState (List CmsgItem)
  | [], items => pure items
  | v :: vs, items => do
    Walk.visit v
    let item ← Walk.lift (pushMessage ctl owner v.1 v.2)
    pushVisits ctl owner vs (items ++ [item])

theorem pushTableChecked_eq {ctl : Bytes} {fuel : Nat} {cm : Option Nat} (owner : Nat)
    (items : List CmsgItem) (h : Going ctl fuel cm) :
    pushTableChecked ctl owner fuel cm items =
      pushVisits ctl owner (cmsgVisited ctl fuel cm) items := by
  induction fuel generalizing cm items with
  | zero =>
    cases cm with
    | none => rfl
    | some cm => exact h.turn.elim
  | succ fuel ih =>
    cases cm with
    | none => rfl
    | some cm =>
      have hcm := (h cm rfl).1
      have hwhole : (fetchNat ctl cm 8 : CmsgWalk RightsState Nat) =
          pure (cmsgLenAt ctl cm) :=
        fetchNat_of_le (by simp only [sizeofCmsghdr] at hcm; omega)
      rw [pushTableChecked, netCmsgLengthChecked_eq, Walk.pure_bind, cmsgVisited]
      by_cases hlen : netCmsgLength ctl cm = 0
      · simp only [hlen, if_true]
        rfl
      have hbounds := netCmsgLength_bounds hlen
      simp only [hlen, if_false, pushMessageChecked_eq owner hbounds.1 hbounds.2, hwhole,
        cmsgNxthdrChecked_eq hcm, Walk.pure_bind, ih _ h.next, pushVisits]
      split <;> rfl

theorem pushVisits_run (ctl : Bytes) (owner : Nat) (vs : List (Nat × Nat))
    (items : List CmsgItem) (noted : List (Nat × Nat)) (s : RightsState) :
    (∃ all t, pushMessages ctl owner vs items s = (.ok all, t) ∧
      pushVisits ctl owner vs items (noted, s) = (.ok all, (noted ++ vs, t))) ∨
    ∃ e t seen, seen <+: vs ∧ pushMessages ctl owner vs items s = (.error e, t) ∧
      pushVisits ctl owner vs items (noted, s) = (.error (.raised e), (noted ++ seen, t)) := by
  induction vs generalizing items noted s with
  | nil => exact Or.inl ⟨items, s, rfl, by rw [List.append_nil]; rfl⟩
  | cons v vs ih =>
    have hvisit : (Walk.visit v : CmsgWalk RightsState Unit) (noted, s) =
        (.ok (), (noted ++ [v], s)) := rfl
    rw [pushMessages, pushVisits, Raising.bind_of_ok hvisit]
    rcases hmessage : pushMessage ctl owner v.1 v.2 s with ⟨e | item, t⟩
    · refine Or.inr ⟨e, t, [v], ⟨vs, rfl⟩, Raising.bind_of_error hmessage, ?_⟩
      exact Raising.bind_of_error (Walk.lift_of_error hmessage _)
    · rw [Raising.bind_of_ok hmessage, Raising.bind_of_ok (Walk.lift_of_ok hmessage _)]
      rcases ih (items ++ [item]) (noted ++ [v]) t with ⟨all, u, hall, hvisits⟩ |
        ⟨e, u, seen, hseen, hraise, hvisits⟩
      · rw [hvisits, List.append_assoc]
        exact Or.inl ⟨all, u, hall, rfl⟩
      · rw [hvisits, List.append_assoc]
        exact Or.inr ⟨e, u, v :: seen, List.cons_prefix_cons.2 ⟨rfl, hseen⟩, hraise, rfl⟩

theorem netCmsgPushTableChecked_run {ctl : Bytes} {fuel : Nat} (h : cmsgFuel ctl ≤ fuel)
    (owner : Nat) (s : RightsState) :
    (∃ ret t, netCmsgPushTable ctl owner s = (.ok ret, t) ∧
      netCmsgPushTableChecked ctl owner fuel ([], s) = (.ok ret, (visited ctl, t))) ∨
    ∃ e t noted, noted <+: visited ctl ∧ netCmsgPushTable ctl owner s = (.error e, t) ∧
      netCmsgPushTableChecked ctl owner fuel ([], s) = (.error (.raised e), (noted, t)) := by
  have hgoing := Going.first h
  have hvisited := visited_of_fuel h
  unfold netCmsgPushTable netCmsgPushTableChecked
  cases hfirst : cmsgFirsthdr ctl with
  | none =>
    have hnil : visited ctl = [] := by
      rw [visited, hfirst]
      rfl
    exact Or.inl ⟨none, s, rfl, by rw [hnil]; rfl⟩
  | some cm =>
    rw [hfirst] at hgoing hvisited
    have hmessages : pushTable ctl owner (cmsgFuel ctl) (some cm) [] =
        pushMessages ctl owner (visited ctl) [] := by
      rw [pushTable_eq, visited, hfirst]
    simp only [pushTableChecked_eq owner [] hgoing, hvisited, hmessages]
    rcases halloc : alloc 1 s with ⟨e | ⟨⟩, t⟩
    · refine Or.inr ⟨e, t, [], List.nil_prefix, Raising.bind_of_error halloc, ?_⟩
      exact Raising.bind_of_error (Walk.lift_of_error halloc [])
    · rw [Raising.bind_of_ok halloc, Raising.bind_of_ok (Walk.lift_of_ok halloc [])]
      rcases pushVisits_run ctl owner (visited ctl) [] [] t with ⟨all, u, hall, hvisits⟩ |
        ⟨e, u, seen, hseen, hraise, hvisits⟩
      · exact Or.inl ⟨some all, u, Raising.bind_of_ok hall, Raising.bind_of_ok hvisits⟩
      · exact Or.inr ⟨e, u, seen, hseen, Raising.bind_of_error hraise,
          Raising.bind_of_error hvisits⟩

/-- Whatever a control buffer holds, both passes end, read nothing beyond it and go through the
same messages. With the descriptors of the first pass, the second fails for want of memory only;
else each rights message has its own descriptors, and none are left over. -/
theorem control_buffer_passes (ctl : Bytes) (fuel : Nat) (hfuel : cmsgFuel ctl ≤ fuel) :
    ∃ vs : List (Nat × Nat),
      netScmRightsFillChecked ctl fuel ([], {}) = (.ok (), (vs, netScmRightsFill ctl)) ∧
      (∀ v ∈ vs, sizeofCmsghdr ≤ v.2 ∧ v.1 + v.2 ≤ ctl.length) ∧
      (∀ owner s, match netCmsgPushTableChecked ctl owner fuel ([], s) with
        | (.ok _, (noted, _)) => noted = vs
        | (.error halt, (noted, _)) => (∃ e, halt = .raised e) ∧ noted <+: vs) ∧
      ∀ owner s, (netScmRightsFill ctl).overflow = false → owner < s.queues.length →
        s.fds owner = (netScmRightsFill ctl).fds →
        match netCmsgPushTableChecked ctl owner fuel ([], s) with
        | (.ok ret, (_, t)) => ∃ items, ret = (cmsgFirsthdr ctl).map (fun _ => items) ∧
            List.Forall₂ (Decoded ctl t.queues) vs items ∧
            (items.filterMap CmsgItem.queue?).Nodup ∧
            (t.fds owner = [] ∨ owner ∈ items.filterMap CmsgItem.queue?) ∧
            t.queues.flatten.Perm s.queues.flatten
        | (.error halt, (_, t)) => halt = .raised memoryError ∧ s.budget.isSome = true ∧
            t.queues.flatten.Perm s.queues.flatten := by
  refine ⟨visited ctl, netScmRightsFillChecked_eq hfuel, fun v hv => cmsgVisited_bounds hv,
    fun owner s => ?_, fun owner s hroom howner hfds => ?_⟩
  · rcases netCmsgPushTableChecked_run hfuel owner s with ⟨ret, t, -, hrun⟩ |
      ⟨e, t, noted, hnoted, -, hrun⟩
    · rw [hrun]
    · rw [hrun]
      exact ⟨⟨e, rfl⟩, hnoted⟩
  · have hall : (receivedFds ctl).length ≤ netScmMaxFd := by
      rw [netScmRightsFill_eq] at hroom
      exact Nat.not_lt.1 (of_decide_eq_false hroom)
    have hqueue : s.queues.getD owner [] = (receivedFds ctl).reverse := by
      have hqueue : s.queues.getD owner [] = (netScmRightsFill ctl).fds := hfds
      rw [hqueue, netScmRightsFill_eq, List.take_of_length_le hall]
    have htriple : Raising.Triple (Queues (s.budget.isSome = true) (· = s.queues))
        (netCmsgPushTable ctl owner) _ _ := netCmsgPushTable_triple howner hqueue
    have htriple := htriple s ⟨fun h => h, rfl⟩
    rcases netCmsgPushTableChecked_run hfuel owner s with ⟨ret, t, hpush, hrun⟩ |
      ⟨e, t, noted, -, hpush, hrun⟩
    · rw [hpush] at htriple
      obtain ⟨-, items, hret, hpushed⟩ := htriple
      rw [hrun]
      refine ⟨items, hret, hpushed.decoded, hpushed.distinct, ?_, hpushed.perm⟩
      by_cases hgiven : owner ∈ items.filterMap CmsgItem.queue?
      · exact Or.inr hgiven
      · exact Or.inl (hpushed.emptied hqueue hgiven)
    · rw [hpush] at htriple
      obtain ⟨⟨rfl, hbudget⟩, hkept⟩ := htriple
      rw [hrun]
      exact ⟨rfl, hbudget, hkept.perm⟩

def cutRights : Bytes := leBytes 8 24 ++ leBytes 4 solSocket ++ leBytes 4 scmRights ++ leBytes 4 7

theorem control_buffer_passes_cut :
    ∃ vs : List (Nat × Nat),
      netScmRightsFillChecked cutRights 21 ([], {}) =
        (.ok (), (vs, netScmRightsFill cutRights)) ∧
      match netCmsgPushTableChecked cutRights 0 21 ([], { queues := [[7]] }) with
      | (.ok ret, (noted, t)) => noted = vs ∧ ∃ items, ret = some items ∧
          List.Forall₂ (Decoded cutRights t.queues) vs items
      | (.error _, _) => False := by
  obtain ⟨vs, hfill, -, hnoted, hpush⟩ := control_buffer_passes cutRights 21 (by decide)
  have hnoted := hnoted 0 { queues := [[7]] }
  have hpush := hpush 0 { queues := [[7]] } (by decide) (by decide) (by decide)
  refine ⟨vs, hfill, ?_⟩
  rcases hrun : netCmsgPushTableChecked cutRights 0 21 ([], { queues := [[7]] }) with
    ⟨halt | ret, noted, t⟩
  · rw [hrun] at hpush
    exact absurd hpush.2.1 Bool.false_ne_true
  · rw [hrun] at hnoted hpush
    obtain ⟨items, hret, hdecoded, -⟩ := hpush
    exact ⟨hnoted, items, hret, hdecoded⟩

end LuaNet.Socket
