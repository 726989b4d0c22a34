import LuaNet.Shared.PcallHook

/-! The two versions of `net_pcall_ex` come to the same: the values that the caller finds on the
stack, the status, and the registry. -/

namespace LuaNet.Shared

open LuaNet.Lib LuaNet.Lib.Raising

variable {ω : Type}

section Steps

variable {callees : Callees ω} {nresults : Nat} {w : ω} {v : LuaVersion} {o : Outside}
  {x : View ω} {E : StackHalt Thrown → PcallState ω → Prop}

def View.hooked (callees : Callees ω) (o : Outside) (nresults : Nat) (v : LuaVersion)
    (x : View ω) (vals : List LuaVal) : View ω :=
  ((x.entered v [lightuserdata]).ended callees o nresults v vals).back x

def HookReturned (callees : Callees ω) (nresults : Nat) (v : LuaVersion) (o : Outside)
    (x : View ω) (out : List LuaVal) (s : PcallState ω) : Prop :=
  ∃ vals, (callees.fn x.world).1 = .ok vals ∧ out = stayed nresults vals v ∧
    Shows v o (x.hooked callees o nresults v vals) s

/-- The hook has the slots that it asks for. -/
def HookFits (nresults : Nat) (v : LuaVersion) (o : Outside) (x : View ω) : Prop :=
  o.ample → nresults + 3 ≤ (x.entered v [lightuserdata]).limit

theorem callC_step (callees : Callees ω) (hn : nresults ≤ luaMinstack)
    (hlimit : HookFits nresults v o x) (hx : x.Fresh) :
    Triple (Shows v o x) (callC v [lightuserdata] (netPcallHook callees nresults v))
      (HookReturned callees nresults v o x) (Fails callees nresults x.world v o) := by
  refine (allocate_step fun s h => h.fails rfl _ _).bind fun _ => ?_
  refine Triple.read fun s₀ hs₀ => ?_
  refine Triple.bind (Q := fun _ => Shows v o (x.entered v [lightuserdata])) ?_ fun _ => ?_
  · exact Triple.update fun s h => h.enter _
  have hhook := netPcallHook_step callees (x := x.entered v [lightuserdata]) (v := v) (o := o) hn
    (fun hample => Nat.add_comm 1 (nresults + 2) ▸ hlimit hample)
    { failed_eq := hx.failed_eq
      status_eq := hx.status_eq
      ref_eq := hx.ref_eq
      retvals_eq := hx.retvals_eq }
  refine hhook.bind fun c => Triple.of_exists fun vals => ?_
  refine Triple.of_fact fun hfn => Triple.of_fact fun hc => ?_
  subst hc
  have hslots : ((x.entered v [lightuserdata]).ended callees o nresults v vals).slots =
      [lightuserdata] ++ stayed nresults vals v := rfl
  refine (results_step hslots).bind fun out => ?_
  refine Triple.of_fact fun hout => ?_
  refine Triple.bind (Q := fun _ => Shows v o (x.hooked callees o nresults v vals)) ?_
    fun _ => ?_
  · exact Triple.update fun s h => hs₀.leave h
  · exact Triple.pure fun s h => ⟨vals, hfn, hout, h⟩

def HookRaised (callees : Callees ω) (nresults : Nat) (v : LuaVersion) (o : Outside)
    (x : View ω) (status : ℕ+) (e : LuaVal) (s : PcallState ω) : Prop :=
  ∃ y : View ω, y.slots = x.slots ∧ y.room = x.room ∧
    Settled callees nresults x.world y.failed (y.result status) [e] ∧ Shows v o y s

def HookEnds (callees : Callees ω) (nresults : Nat) (v : LuaVersion) (k : Nat) (o : Outside)
    (x : View ω) (status : Nat) (s : PcallState ω) : Prop :=
  (∃ vals, status = 0 ∧ (callees.fn x.world).1 = .ok vals ∧
    Shows v o { x.hooked callees o nresults v vals with
      slots := x.slots ++ stayed nresults vals v, room := x.room - k } s) ∨
  ∃ (st : ℕ+) (e : LuaVal) (y : View ω), status = st ∧ y.slots = x.slots ++ [e] ∧
    Settled callees nresults x.world y.failed (y.result st) [e] ∧ Shows v o y s

theorem protectedHook_step {k : Nat} {m : PcallM ω (List LuaVal)}
    (hm : Triple (Shows v o x) m (HookReturned callees nresults v o x)
      (Fails callees nresults x.world v o))
    (hk : ∀ vals, adjust k (stayed nresults vals v) = stayed nresults vals v)
    (hroom : k ≤ x.room) (hfree : 1 ≤ x.room) :
    Triple (Shows v o x) (protectedCall k m) (HookEnds callees nresults v k o x) E := by
  refine protectedCall_rule (V := HookReturned callees nresults v o x)
    (W := HookRaised callees nresults v o x) (fun s hs => ?_) (fun out => ?_) fun status e => ?_
  · refine hm.mono (fun t ht => ht ▸ hs) (fun _ _ h => h) ?_
    rintro halt t ⟨status, e, y, rfl, ht, hsettled⟩
    exact ⟨status, e, rfl, y.back x, rfl, rfl, hsettled, hs.leave ht⟩
  · refine Triple.of_exists fun vals => Triple.of_fact fun hfn => Triple.of_fact fun hout => ?_
    have hlen : (adjust k out).length ≤ (x.hooked callees o nresults v vals).room :=
      (adjust_length k out).symm ▸ hroom
    refine (pushAll_step _ hlen).post fun _ s h => ?_
    rw [adjust_length, hout, hk] at h
    exact .inl ⟨vals, rfl, hfn, h⟩
  · refine Triple.of_exists fun y => Triple.of_fact fun hslots => Triple.of_fact fun hy => ?_
    refine Triple.of_fact fun hsettled => ?_
    refine (push_step e (hy ▸ hfree)).post fun _ s h => ?_
    exact .inr ⟨status, e, { y with slots := y.slots ++ [e], room := y.room - 1 }, rfl,
      congrArg (· ++ [e]) hslots, hsettled, h⟩

theorem luaCpcall_step (hn : nresults ≤ luaMinstack) (hlimit : HookFits nresults .lua51 o x)
    (hx : x.Fresh) (hroom : 2 ≤ x.room) :
    Triple (Shows .lua51 o x) (luaCpcall (netPcallHook callees nresults .lua51))
      (HookEnds callees nresults .lua51 0 o x) E := by
  refine protectedHook_step ?_ (fun _ => rfl) (Nat.zero_le _) (by omega)
  refine (luaPushcfunction_step (by omega)).bind fun _ => ?_
  refine (push_step lightuserdata (Nat.le_sub_of_add_le hroom)).bind fun _ => ?_
  refine (popCall_step (List.append_assoc _ _ _)).bind fun arg => Triple.of_fact fun harg => ?_
  subst harg
  refine (callC_step callees hn hlimit hx).pre fun s h => ?_
  exact h.weaken (by show x.room ≤ x.room - 1 - 1 + 2; omega) (Nat.le_refl _)

def Ends (callees : Callees ω) (nresults : Nat) (w : ω) (v : LuaVersion) (o : Outside)
    (slots : List LuaVal) (status : Nat) (s : PcallState ω) : Prop :=
  ∃ (y : View ω) (vals : List LuaVal), y.slots = slots ++ vals ∧
    Settled callees nresults w y.failed status vals ∧ Shows v o y s

theorem Shows.ends {slots vals : List LuaVal} {status : Nat} {s : PcallState ω}
    (h : Shows v o x s) (hx : x.slots = slots ++ vals)
    (hsettled : Settled callees nresults w x.failed status vals) :
    Ends callees nresults w v o slots status s := ⟨x, vals, hx, hsettled, h⟩

theorem memoryError_step (hx : x.failed = true) (hroom : 1 ≤ x.room) :
    Triple (Shows v o x) memoryError (Ends callees nresults w v o x.slots) E := by
  refine (push_step memoryMessage hroom).bind fun _ => Triple.pure fun s h => ?_
  have hsettled : Settled callees nresults w x.failed luaErrmem [memoryMessage] := by
    rw [hx]
    exact .refused luaErrmem memoryMessage
  exact h.ends rfl hsettled

theorem takeResults_step {ref : Nat} {vals : List LuaVal}
    (hlimit : o.ample → x.slots.length + nresults ≤ x.limit) (href : x.ref = some ref)
    (hretvals : x.retvals = adjust nresults vals) (hroom : 1 ≤ x.room)
    (hreach : x.base + x.slots.length + nresults < x.reach)
    (hsettled : Settled callees nresults w x.failed 0 (adjust nresults vals)) :
    Triple (Shows .lua51 o x) (takeResults nresults)
      (Ends callees nresults w .lua51 o x.slots) E := by
  have hlen : x.retvals.length = nresults := hretvals ▸ adjust_length nresults vals
  refine (luaCheckstack_step nresults hlimit fun _ hle => ?_).bind fun ok => ?_
  · exact absurd hreach (Nat.not_lt_of_le hle)
  cases ok with
  | true =>
    have hmove := xmoveFromRetvals_step (v := .lua51) (o := o) (E := E)
      (x := { x with room := nresults }) href (Nat.le_of_eq hlen)
    rw [hlen] at hmove
    refine hmove.bind fun _ => Triple.pure fun s h => ?_
    exact h.ends (congrArg (x.slots ++ ·) hretvals) hsettled
  | false => exact memoryError_step (x := { x with failed := true }) rfl hroom

theorem finalStatus_step {status : Nat}
    (hlimit : o.ample → x.slots.length + nresults ≤ x.limit) (hx : x.Fresh)
    (hroom : 1 ≤ x.room) :
    Triple (HookEnds callees nresults .lua51 0 o x status) (finalStatus nresults status)
      (Ends callees nresults x.world .lua51 o x.slots) E := by
  refine Triple.or ?_ ?_
  · refine Triple.of_exists fun vals => Triple.of_fact fun hzero => Triple.of_fact fun hfn => ?_
    subst hzero
    rw [show stayed nresults vals .lua51 = [] from rfl, List.append_nil]
    have hsettled : Settled callees nresults x.world x.failed 0 (adjust nresults vals) := by
      rw [hx.failed_eq]
      exact .returned hfn
    refine Triple.read fun s₀ h₀ => ?_
    rw [if_neg (not_not_intro (h₀.status_eq.trans hx.status_eq))]
    by_cases hn : nresults = 0
    · rw [if_neg fun h => h.2 hn]
      refine Triple.pure fun s h => h.ends ?_ hsettled
      subst hn
      exact (List.append_nil _).symm
    · rw [if_pos ⟨rfl, hn⟩]
      have href : anchorRef o.refs nresults .lua51 = some (freshRef o.refs) := if_pos ⟨rfl, hn⟩
      refine takeResults_step hlimit href rfl hroom ?_ hsettled
      show x.base + x.slots.length + nresults < x.base + x.slots.length + 1 + (1 + nresults)
      omega
  · refine Triple.of_exists fun st => Triple.of_exists fun e => Triple.of_exists fun y => ?_
    refine Triple.of_fact fun hst => Triple.of_fact fun hslots => Triple.of_fact fun hsettled => ?_
    subst hst
    refine Triple.read fun s₀ h₀ => ?_
    have hresult : (if s₀.ctx.status ≠ 0 then pure s₀.ctx.status
        else if (st : Nat) = 0 ∧ nresults ≠ 0 then takeResults nresults
        else pure (st : Nat) : PcallM ω Nat) = pure (y.result st) := by
      rw [if_neg fun h : (st : Nat) = 0 ∧ nresults ≠ 0 => st.ne_zero h.1, h₀.status_eq]
      exact (apply_ite pure _ _ _).symm
    rw [hresult]
    exact Triple.pure fun s h => h.ends hslots hsettled

def Leaves (callees : Callees ω) (nresults : Nat) (w : ω) (o : Outside) (slots : List LuaVal)
    (status : Nat) (s : PcallState ω) : Prop :=
  ∃ vals, s.frame.slots = slots ++ vals ∧ s.refs = o.refs ∧
    Settled callees nresults w s.failed status vals ∧ (o.ample → s.failed = false)

theorem unrefRetvals_step {slots : List LuaVal} {status : Nat} :
    Triple (Ends callees nresults w v o slots status) unrefRetvals
      (fun _ => Leaves callees nresults w o slots status) E := by
  refine Triple.of_exists fun y => Triple.of_exists fun vals => Triple.of_fact fun hy => ?_
  refine Triple.of_fact fun hsettled => Triple.read fun s₀ h₀ => ?_
  have hleaves : ∀ s, Shows v o y s → s.frame.slots = slots ++ vals ∧
      Settled callees nresults w s.failed status vals ∧ (o.ample → s.failed = false) :=
    fun s h => ⟨h.slots_eq.trans hy, h.failed_eq ▸ hsettled, h.failed_eq ▸ h.failed_of⟩
  rw [h₀.ref_eq]
  rcases href : y.ref with _ | ref
  · refine Triple.pure fun s h => ⟨vals, (hleaves s h).1, ?_, (hleaves s h).2⟩
    rw [h.refs_eq, href]
    rfl
  · refine Triple.update fun s h => ⟨vals, (hleaves s h).1, ?_, (hleaves s h).2⟩
    show s.refs.erase ref = o.refs
    rw [h.refs_eq, href]
    exact List.erase_cons_head ref o.refs

theorem pcallHook_step (hn : nresults ≤ luaMinstack) (hlimit : HookFits nresults .lua52 o x)
    (hx : x.Fresh) (hroom : x.room = nresults + 2) :
    Triple (Shows .lua52 o x) (pcallHook callees nresults)
      (Ends callees nresults x.world .lua52 o x.slots) E := by
  have hresults : nresults ≤ x.room := hroom ▸ Nat.le_add_right nresults 2
  have htwo : 2 ≤ x.room := hroom ▸ Nat.le_add_left 2 nresults
  have hfree : 1 ≤ x.room := Nat.le_of_succ_le htwo
  refine (push_step cfunction hfree).bind fun _ => ?_
  refine (push_step lightuserdata (Nat.le_sub_of_add_le htwo)).bind fun _ => ?_
  refine Triple.bind (Q := HookEnds callees nresults .lua52 nresults o x) ?_ fun status => ?_
  · refine (popCall_step (List.append_assoc _ _ _)).bind fun arg => Triple.of_fact fun harg => ?_
    subst harg
    have hhook := protectedHook_step (v := .lua52) (E := E)
      (callC_step callees (o := o) hn hlimit hx)
      (adjust_adjust nresults) hresults hfree
    refine hhook.pre fun s h => ?_
    exact h.weaken (by show x.room ≤ x.room - 1 - 1 + 2; omega) (Nat.le_refl _)
  refine Triple.or ?_ ?_
  · refine Triple.of_exists fun vals => Triple.of_fact fun hzero => Triple.of_fact fun hfn => ?_
    refine Triple.read fun s₀ h₀ => Triple.pure fun s h => h.ends rfl ?_
    rw [if_neg (not_not_intro (h₀.status_eq.trans hx.status_eq)), hzero]
    show Settled callees nresults x.world x.failed 0 (adjust nresults vals)
    rw [hx.failed_eq]
    exact .returned hfn
  · refine Triple.of_exists fun st => Triple.of_exists fun e => Triple.of_exists fun y => ?_
    refine Triple.of_fact fun hst => Triple.of_fact fun hslots => Triple.of_fact fun hsettled => ?_
    refine Triple.read fun s₀ h₀ => Triple.pure fun s h => h.ends hslots ?_
    rw [h₀.status_eq, hst]
    exact hsettled

theorem Ends.leaves {slots : List LuaVal} {status : Nat} {s : PcallState ω}
    (h : Ends callees nresults w .lua52 o slots status s) :
    Leaves callees nresults w o slots status s := by
  obtain ⟨y, vals, hslots, hsettled, h⟩ := h
  refine ⟨vals, h.slots_eq.trans hslots, ?_, h.failed_eq ▸ hsettled,
    h.failed_eq ▸ h.failed_of⟩
  rw [h.refs_eq, h.ref_none rfl]
  rfl

end Steps

section Runs

variable {callees : Callees ω} {nresults : Nat}

def errorSlots : LuaVersion → Nat
  | .lua51 => 2
  | .lua52 => 1

structure Ready (v : LuaVersion) (s : PcallState ω) : Prop where
  not_failed : s.failed = false
  slots_le : s.frame.slots.length + errorSlots v ≤ s.frame.ensured

def Ample (nresults : Nat) (s : PcallState ω) : Prop :=
  false ∉ s.memory ∧ s.frame.slots.length + nresults + 4 ≤ s.frame.limit

def View.start (v : LuaVersion) (s : PcallState ω) : View ω :=
  { failed := false
    world := s.world
    status := 0
    ref := none
    retvals := []
    base := s.base
    slots := s.frame.slots
    room := errorSlots v
    reach := 0
    limit := s.frame.limit }

def PcallState.outside (s : PcallState ω) (nresults : Nat) : Outside :=
  { refs := s.refs, ample := Ample nresults s }

theorem Ready.shows {v : LuaVersion} {s : PcallState ω} (h : Ready v s) :
    Shows v (s.outside nresults) (View.start v s) { s with ctx := {} } :=
  { ref_none := fun _ => rfl
    failed_eq := h.not_failed
    world_eq := rfl
    status_eq := rfl
    ref_eq := rfl
    retvals_eq := rfl
    refs_eq := rfl
    base_eq := rfl
    slots_eq := rfl
    room_le := h.slots_le
    reach_le := Nat.zero_le _
    limit_eq := rfl
    memory_of := fun hample => hample.1
    failed_of := fun _ => rfl }

theorem netPcallEx_step (callees : Callees ω) {v : LuaVersion}
    {E : StackHalt Thrown → PcallState ω → Prop} (hn : nresults ≤ luaMinstack)
    {s : PcallState ω} (hready : Ready v s) :
    Triple (· = s) (netPcallEx callees nresults v)
      (Leaves callees nresults s.world (s.outside nresults) s.frame.slots) E := by
  have hstart : Triple (· = s) (Raising.update fun s => { s with ctx := {} } : PcallM ω Unit)
      (fun _ => Shows v (s.outside nresults) (View.start v s)) E :=
    Triple.update fun t ht => ht ▸ hready.shows
  have hfresh : (View.start v s).Fresh := ⟨rfl, rfl, rfl, rfl⟩
  have hlimit : (s.outside nresults).ample →
      s.frame.slots.length + nresults + 4 ≤ s.frame.limit := fun hample => hample.2
  cases v with
  | lua51 =>
    refine hstart.bind fun _ => ?_
    have hhook : HookFits nresults .lua51 (s.outside nresults) (View.start .lua51 s) := by
      intro hample
      have hle := hlimit hample
      show nresults + 3 ≤ s.frame.limit
      omega
    have hresults : (s.outside nresults).ample →
        s.frame.slots.length + nresults ≤ s.frame.limit :=
      fun hample => Nat.le_trans (Nat.le_add_right _ 4) (hlimit hample)
    refine (luaCpcall_step hn hhook hfresh (Nat.le_refl 2)).bind fun status => ?_
    refine (finalStatus_step hresults hfresh (Nat.le_succ 1)).bind fun status' => ?_
    exact unrefRetvals_step.bind fun _ => Triple.pure fun _ h => h
  | lua52 =>
    refine hstart.bind fun _ => ?_
    let x : View ω := { View.start .lua52 s with room := nresults + 2 }
    have hhook : HookFits nresults .lua52 (s.outside nresults) x := by
      intro hample
      have hle := hlimit hample
      show nresults + 3 ≤ s.frame.limit - (s.frame.slots.length + 1)
      omega
    have hresults : (s.outside nresults).ample →
        s.frame.slots.length + (nresults + 2) ≤ s.frame.limit :=
      fun hample => Nat.le_trans (by omega) (hlimit hample)
    refine (luaCheckstack_step (nresults + 2) hresults nofun).bind fun ok => ?_
    cases ok with
    | true =>
      exact (pcallHook_step hn hhook ⟨rfl, rfl, rfl, rfl⟩ rfl).post fun _ _ h => h.leaves
    | false =>
      exact (memoryError_step rfl (Nat.le_refl 1)).post fun _ _ h => h.leaves

structure Returned (callees : Callees ω) (nresults : Nat) (v : LuaVersion) (s : PcallState ω)
    (status : Nat) (vals : List LuaVal) (t : PcallState ω) : Prop where
  run_eq : netPcallEx callees nresults v s = (.ok status, t)
  slots_eq : t.frame.slots = s.frame.slots ++ vals
  length_eq : vals.length = if status = 0 then nresults else 1
  refs_eq : t.refs = s.refs
  settled : Settled callees nresults s.world t.failed status vals
  failed_of : Ample nresults s → t.failed = false

theorem netPcallEx_returns (callees : Callees ω) {v : LuaVersion} (hn : nresults ≤ luaMinstack)
    {s : PcallState ω} (hready : Ready v s) :
    ∃ status vals t, Returned callees nresults v s status vals t := by
  obtain ⟨status, t, hrun, vals, hslots, hrefs, hsettled, hfailed⟩ :=
    (netPcallEx_step callees hn hready).returns rfl
  exact ⟨status, vals, t, hrun, hslots, hsettled.length_eq, hrefs, hsettled, hfailed⟩

end Runs

/-- Both versions return, with the same class of status; where neither has been refused memory, the
status and the values are the same. -/
theorem netPcallEx_versions_agree (callees : Callees ω) {nresults : Nat}
    (hn : nresults ≤ luaMinstack) {s s' : PcallState ω} (hs : Ready .lua51 s)
    (hs' : Ready .lua52 s') (hworld : s.world = s'.world) :
    ∃ status vals t status' vals' t',
      Returned callees nresults .lua51 s status vals t ∧
      Returned callees nresults .lua52 s' status' vals' t' ∧
      (t.failed = t'.failed → (status = 0 ↔ status' = 0)) ∧
      (t.failed = false → t'.failed = false → status = status' ∧ vals = vals') := by
  obtain ⟨status, vals, t, h⟩ := netPcallEx_returns callees hn hs
  obtain ⟨status', vals', t', h'⟩ := netPcallEx_returns callees hn hs'
  have hsettled := h.settled
  have hsettled' := h'.settled
  rw [← hworld] at hsettled'
  refine ⟨status, vals, t, status', vals', t', h, h', fun hfailed => ?_,
    fun hfailed hfailed' => ?_⟩
  · rw [← hfailed] at hsettled'
    cases hrefused : t.failed with
    | false =>
      rw [hrefused] at hsettled hsettled'
      rw [(hsettled.unique hsettled').1]
    | true =>
      rw [hrefused] at hsettled hsettled'
      exact iff_of_false hsettled.ne_zero hsettled'.ne_zero
  · rw [hfailed] at hsettled
    rw [hfailed'] at hsettled'
    exact hsettled.unique hsettled'

def tableRaiser : Callees Unit where
  fn w := (.error (luaErrrun, .other "table" 1), w)
  tostr _ w := (.ok "closed", w)

def idle : PcallState Unit where
  frame := { slots := [.nil], ensured := 21, limit := 8000 }
  base := 0
  capacity := 45
  world := ()
  memory := []
  failed := false
  refs := []
  ctx := {}

theorem netPcallEx_versions_agree_tableRaiser :
    ∃ status vals t status' vals' t',
      Returned tableRaiser 3 .lua51 idle status vals t ∧
      Returned tableRaiser 3 .lua52 idle status' vals' t' ∧
      (t.failed = t'.failed → (status = 0 ↔ status' = 0)) ∧
      (t.failed = false → t'.failed = false → status = status' ∧ vals = vals') :=
  netPcallEx_versions_agree tableRaiser (by decide) ⟨rfl, by decide⟩ ⟨rfl, by decide⟩ rfl

example (v : LuaVersion) : (netPcallEx tableRaiser 3 v idle).1 = .ok 2 ∧
    (netPcallEx tableRaiser 3 v idle).2.frame.slots = [.nil, .string "closed"] ∧
    (netPcallEx tableRaiser 3 v idle).2.failed = false := by
  cases v with
  | lua51 => exact ⟨rfl, rfl, rfl⟩
  | lua52 => exact ⟨rfl, rfl, rfl⟩

end LuaNet.Shared
