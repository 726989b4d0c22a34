import LuaNet.Shared.PcallApi

/-! `net_pcall_hook` settles the call of `fn`: it returns the results, or it raises the one error
that is left. -/

namespace LuaNet.Shared

open LuaNet.Lib LuaNet.Lib.Raising

variable {ω : Type}

def textOf (callees : Callees ω) (e : LuaVal) (w : ω) : Except Thrown String :=
  match e with
  | .string text => .ok text
  | e => (callees.tostr e w).1

/-- What a protected call of `fn` is for: its status and the values that it leaves. -/
def outcome (callees : Callees ω) (nresults : Nat) (w : ω) : Nat × List LuaVal :=
  match (callees.fn w).1 with
  | .ok vals => (0, adjust nresults vals)
  | .error (status, e) =>
    match textOf callees e (callees.fn w).2 with
    | .ok text => (status, [.string text])
    | .error (status, e) => (status, [e])

/-- Where memory has been refused, all that is known is that there is an error. -/
def Settled (callees : Callees ω) (nresults : Nat) (w : ω) (failed : Bool) (status : Nat)
    (vals : List LuaVal) : Prop :=
  if failed then ∃ (st : ℕ+) (e : LuaVal), status = st ∧ vals = [e]
  else (status, vals) = outcome callees nresults w

namespace Settled

variable {callees : Callees ω} {nresults : Nat} {w : ω}

theorem returned {vals : List LuaVal} (hfn : (callees.fn w).1 = .ok vals) :
    Settled callees nresults w false 0 (adjust nresults vals) := by
  show _ = outcome callees nresults w
  rw [outcome, hfn]

theorem raised {status : ℕ+} {e : LuaVal} {text : String}
    (hfn : (callees.fn w).1 = .error (status, e))
    (htext : textOf callees e (callees.fn w).2 = .ok text) :
    Settled callees nresults w false status [.string text] := by
  show _ = outcome callees nresults w
  simp only [outcome, hfn, htext]

theorem unconverted {status status' : ℕ+} {e e' : LuaVal}
    (hfn : (callees.fn w).1 = .error (status, e))
    (htext : textOf callees e (callees.fn w).2 = .error (status', e')) :
    Settled callees nresults w false status' [e'] := by
  show _ = outcome callees nresults w
  simp only [outcome, hfn, htext]

theorem refused (status : ℕ+) (e : LuaVal) : Settled callees nresults w true status [e] :=
  ⟨status, e, rfl, rfl⟩

end Settled

theorem outcome_length (callees : Callees ω) (nresults : Nat) (w : ω) :
    (outcome callees nresults w).2.length =
      if (outcome callees nresults w).1 = 0 then nresults else 1 := by
  rw [outcome]
  rcases (callees.fn w).1 with ⟨status, e⟩ | vals
  · rcases htext : textOf callees e (callees.fn w).2 with ⟨status', e'⟩ | text
    · simp only [htext]
      exact (if_neg status'.ne_zero).symm
    · simp only [htext]
      exact (if_neg status.ne_zero).symm
  · exact adjust_length nresults vals

theorem Settled.unique {callees : Callees ω} {nresults : Nat} {w : ω} {status status' : Nat}
    {vals vals' : List LuaVal} (h : Settled callees nresults w false status vals)
    (h' : Settled callees nresults w false status' vals') : status = status' ∧ vals = vals' := by
  have houtcome : (status, vals) = outcome callees nresults w := h
  have houtcome' : (status', vals') = outcome callees nresults w := h'
  exact Prod.mk.inj (houtcome.trans houtcome'.symm)

theorem Settled.length_eq {callees : Callees ω} {nresults : Nat} {w : ω} {failed : Bool}
    {status : Nat} {vals : List LuaVal} (h : Settled callees nresults w failed status vals) :
    vals.length = if status = 0 then nresults else 1 := by
  cases failed with
  | true =>
    obtain ⟨st, e, rfl, rfl⟩ := h
    exact (if_neg st.ne_zero).symm
  | false =>
    have houtcome : (status, vals) = outcome callees nresults w := h
    have hlen := outcome_length callees nresults w
    rw [← houtcome] at hlen
    exact hlen

theorem Settled.ne_zero {callees : Callees ω} {nresults : Nat} {w : ω} {status : Nat}
    {vals : List LuaVal} (h : Settled callees nresults w true status vals) : status ≠ 0 := by
  obtain ⟨st, e, rfl, rfl⟩ := h
  exact st.ne_zero

def View.result (x : View ω) (status : Nat) : Nat := if x.status ≠ 0 then x.status else status

theorem View.result_pos (x : View ω) (status : ℕ+) : 0 < x.result status := by
  rw [View.result]
  split
  · exact Nat.pos_of_ne_zero ‹_›
  · exact status.pos

def Fails (callees : Callees ω) (nresults : Nat) (w : ω) (v : LuaVersion) (o : Outside)
    (halt : StackHalt Thrown) (s : PcallState ω) : Prop :=
  ∃ status e x, halt = .raised (status, e) ∧ Shows v o x s ∧
    Settled callees nresults w x.failed (x.result status) [e]

variable {callees : Callees ω} {nresults : Nat} {w : ω} {v : LuaVersion} {o : Outside}
  {x : View ω} {E : StackHalt Thrown → PcallState ω → Prop}

theorem Shows.fails {s : PcallState ω} (h : Shows v o x s) (hx : x.failed = true)
    (status : ℕ+) (e : LuaVal) : Fails callees nresults w v o (.raised (status, e)) s := by
  refine ⟨status, e, x, rfl, h, ?_⟩
  rw [hx]
  exact .refused ⟨_, x.result_pos status⟩ e

theorem luaLCheckstack_step (n : Nat) (msg : String)
    (hlimit : o.ample → x.slots.length + n ≤ x.limit) :
    Triple (Shows v o x) (luaLCheckstack v n msg) (fun _ => Shows v o { x with room := n })
      (Fails callees nresults w v o) := by
  refine (luaCheckstack_step n hlimit fun _ _ s h => h.fails rfl _ _).bind fun ok => ?_
  cases ok with
  | true => exact Triple.pure fun s h => h
  | false =>
    refine Triple.bind (Q := fun _ => Shows v o { x with failed := true }) ?_ fun _ => ?_
    · exact allocate_step fun s h => h.fails rfl _ _
    · exact Triple.raise fun s h => h.fails rfl _ _

def freshRef (refs : List Nat) : Nat := refs.foldr max 0 + 1

theorem newRetvals_step (hv : v = .lua51) (href : x.ref = none) (hroom : 1 ≤ x.room) :
    Triple (Shows v o x) newRetvals
      (fun _ => Shows v o { x with ref := some (freshRef o.refs), retvals := [] })
      (Fails callees nresults w v o) := by
  refine (allocate_step fun s h => h.fails rfl _ _).bind fun _ => ?_
  refine (push_step thread hroom).bind fun _ => ?_
  refine Triple.bind (Q := fun ref s => ref = freshRef o.refs ∧
    ∃ t, Shows v o { x with room := x.room - 1 + 1 } t ∧ s = { t with refs := ref :: o.refs })
    ?_ fun ref => ?_
  · refine (allocate_step fun s h => h.fails rfl _ _).bind fun _ => ?_
    let y : View ω := { x with slots := x.slots ++ [thread], room := x.room - 1 }
    have hy : y.slots = x.slots ++ [thread] := rfl
    refine (pop_step hy).bind fun _ => Triple.read fun s₀ h₀ => ?_
    have hrefs : ∀ s, Shows v o { x with room := x.room - 1 + 1 } s → s.refs = o.refs := by
      intro s h
      rw [h.refs_eq, href]
      rfl
    intro s h
    refine ⟨congrArg freshRef (hrefs s₀ h₀), s, h, ?_⟩
    show { s with refs := freshRef s.refs :: s.refs } =
      { s with refs := freshRef s₀.refs :: o.refs }
    rw [hrefs s₀ h₀, hrefs s h]
  · refine Triple.update fun s h => ?_
    obtain ⟨rfl, t, h, rfl⟩ := h
    have hle := h.room_le
    rw [Nat.sub_add_cancel hroom] at hle
    subst hv
    exact { h with
      ref_none := nofun
      ref_eq := rfl
      refs_eq := rfl
      retvals_eq := rfl
      room_le := hle }

def anchorRef (refs : List Nat) (nresults : Nat) (v : LuaVersion) : Option Nat :=
  if v = .lua51 ∧ nresults ≠ 0 then some (freshRef refs) else none

theorem anchorRetvals_step (href : x.ref = none) (hretvals : x.retvals = [])
    (hroom : 1 ≤ x.room) :
    Triple (Shows v o x) (anchorRetvals nresults v)
      (fun _ => Shows v o { x with ref := anchorRef o.refs nresults v })
      (Fails callees nresults w v o) := by
  rw [anchorRetvals, anchorRef]
  split
  case isTrue hv =>
    refine (newRetvals_step hv.1 href hroom).post fun _ s h => ?_
    exact { h with retvals_eq := h.retvals_eq.trans hretvals.symm }
  case isFalse =>
    rw [← href]
    exact Triple.pure fun s h => h

theorem luaPushcfunction_step (hroom : 1 ≤ x.room) :
    Triple (Shows v o x) (luaPushcfunction v)
      (fun _ => Shows v o { x with slots := x.slots ++ [cfunction], room := x.room - 1 })
      (Fails callees nresults w v o) := by
  cases v with
  | lua51 =>
    refine (allocate_step fun s h => h.fails rfl _ _).bind fun _ => ?_
    exact push_step cfunction hroom
  | lua52 => exact push_step cfunction hroom

def FnRaised (callees : Callees ω) (v : LuaVersion) (o : Outside) (x : View ω) (status : ℕ+)
    (e : LuaVal) (s : PcallState ω) : Prop :=
  (∃ text, e = .string text) ∧ Shows v o { x with failed := true } s ∨
    (callees.fn x.world).1 = .error (status, e) ∧
      Shows v o { x with world := (callees.fn x.world).2, reach := 0 } s

def View.called (callees : Callees ω) (x : View ω) : View ω :=
  { x with world := (callees.fn x.world).2, reach := x.base + (x.slots.length + x.room) }

theorem callFn_step :
    Triple (Shows v o x) (callFn callees)
      (fun vals s => (callees.fn x.world).1 = .ok vals ∧ Shows v o (x.called callees) s)
      (fun halt s => ∃ status e, halt = .raised (status, e) ∧
        FnRaised callees v o x status e s) := by
  refine (allocate_step fun s h => ⟨_, _, rfl, .inl ⟨⟨_, rfl⟩, h⟩⟩).bind fun _ => ?_
  refine Triple.read fun s₀ h₀ => ?_
  refine Triple.bind (Q := fun _ => Shows v o (x.called callees)) ?_ fun _ => ?_
  · refine Triple.update fun s h => { h with world_eq := ?_, reach_le := ?_ }
    · exact congrArg (fun w => (callees.fn w).2) h.world_eq
    · show x.base + (x.slots.length + x.room) ≤ s.base + s.frame.ensured
      rw [h.base_eq]
      exact Nat.add_le_add_left h.room_le _
  · rw [h₀.world_eq]
    rcases hfn : (callees.fn x.world).1 with ⟨status, e⟩ | vals
    · refine Triple.raise fun s h => ⟨status, e, rfl, .inr ⟨hfn, ?_⟩⟩
      exact { h with reach_le := Nat.zero_le _ }
    · exact Triple.pure fun s h => ⟨rfl, h⟩

theorem FnRaised.leave {s t : PcallState ω} {status : ℕ+} {e : LuaVal} (hs : Shows v o x s)
    (ht : FnRaised callees v o x status e t) :
    FnRaised callees v o x status e (t.leave s) := by
  rcases ht with ⟨htext, ht⟩ | ⟨hfn, ht⟩
  · exact .inl ⟨htext, hs.leave ht⟩
  · exact .inr ⟨hfn, hs.leave ht⟩

theorem pushRaised_step (hroom : 1 ≤ x.room) (status : ℕ+) (e : LuaVal) :
    Triple (FnRaised callees v o x status e) (onFrame (StackM.push e))
      (fun _ => FnRaised callees v o { x with slots := x.slots ++ [e], room := x.room - 1 }
        status e) E := by
  refine Triple.or ?_ ?_
  · refine Triple.of_fact fun htext => ?_
    have hpush := push_step (v := v) (o := o) (E := E)
      (x := { x with failed := true }) e hroom
    exact hpush.post fun _ _ h => .inl ⟨htext, h⟩
  · refine Triple.of_fact fun hfn => ?_
    have hpush := push_step (v := v) (o := o) (E := E)
      (x := { x with world := (callees.fn x.world).2, reach := 0 }) e hroom
    exact hpush.post fun _ _ h => .inr ⟨hfn, h⟩

def FnEnds (callees : Callees ω) (nresults : Nat) (v : LuaVersion) (o : Outside) (x : View ω)
    (status : Nat) (s : PcallState ω) : Prop :=
  (∃ vals, status = 0 ∧ (callees.fn x.world).1 = .ok vals ∧
    Shows v o { x.called callees with
      slots := x.slots ++ adjust nresults vals, room := x.room - nresults } s) ∨
  ∃ (st : ℕ+) (e : LuaVal), status = st ∧
    FnRaised callees v o { x with slots := x.slots ++ [e], room := x.room - 1 } st e s

theorem protectedFn_step (hroom : nresults ≤ x.room) (hfree : 1 ≤ x.room) :
    Triple (Shows v o x) (protectedCall nresults (callFn callees))
      (FnEnds callees nresults v o x) E := by
  refine protectedCall_rule
    (V := fun vals s => (callees.fn x.world).1 = .ok vals ∧ Shows v o (x.called callees) s)
    (W := FnRaised callees v o x) (fun s hs => ?_) (fun vals => ?_) fun status e => ?_
  · refine (callFn_step (x := x)).mono (fun t ht => ht ▸ hs) (fun _ _ h => h) ?_
    rintro halt t ⟨status, e, rfl, ht⟩
    exact ⟨status, e, rfl, ht.leave hs⟩
  · refine Triple.of_fact fun hfn => ?_
    have hlen : (adjust nresults vals).length ≤ (x.called callees).room :=
      (adjust_length nresults vals).symm ▸ hroom
    refine (pushAll_step _ hlen).post fun _ s h => ?_
    rw [adjust_length] at h
    exact .inl ⟨vals, rfl, hfn, h⟩
  · refine (pushRaised_step hfree status e).post fun _ s h => ?_
    exact .inr ⟨status, e, rfl, h⟩

theorem luaPcall_step {slots : List LuaVal} {f arg : LuaVal} (hx : x.slots = slots ++ [f, arg])
    (hroom : nresults ≤ x.room + 2) :
    Triple (Shows v o x) (luaPcall nresults fun _ => callFn callees)
      (FnEnds callees nresults v o { x with slots := slots, room := x.room + 2 }) E := by
  refine (popCall_step hx).bind fun _ => Triple.of_fact fun _ => ?_
  exact protectedFn_step hroom (Nat.le_add_left 1 _)

def ShowsText (v : LuaVersion) (o : Outside) (x : View ω) (text : String)
    (s : PcallState ω) : Prop :=
  ∃ y : View ω, y.failed = x.failed ∧ (∃ below, y.slots = below ++ [.string text]) ∧
    Shows v o y s

theorem lauxhTostr_step (callees : Callees ω) (e : LuaVal) (hroom : 1 ≤ x.room) :
    Triple (Shows v o x) (lauxhTostr callees e)
      (fun _ s => ∃ text, (callees.tostr e x.world).1 = .ok text ∧ ShowsText v o x text s)
      (fun halt s => ∃ status e', halt = .raised (status, e') ∧
        (callees.tostr e x.world).1 = .error (status, e') ∧
        Shows v o { x with world := (callees.tostr e x.world).2 } s) := by
  refine Triple.read fun s₀ h₀ => ?_
  refine Triple.bind (Q := fun _ => Shows v o { x with world := (callees.tostr e x.world).2 })
    ?_ fun _ => ?_
  · refine Triple.update fun s h => { h with world_eq := ?_ }
    exact congrArg (fun w => (callees.tostr e w).2) h.world_eq
  · rw [h₀.world_eq]
    rcases (callees.tostr e x.world).1 with ⟨status, e'⟩ | text
    · exact Triple.raise fun s h => ⟨status, e', rfl, rfl, h⟩
    · have hpush := push_step (v := v) (o := o) (E := fun _ _ => False)
        (x := { x with world := (callees.tostr e x.world).2 }) (.string text) hroom
      refine hpush.mono (fun _ h => h) (fun _ s h => ⟨text, rfl, ?_⟩) fun _ _ h => h.elim
      exact ⟨{ x with
        world := (callees.tostr e x.world).2, slots := x.slots ++ [.string text],
        room := x.room - 1 }, rfl, ⟨x.slots, rfl⟩, h⟩

theorem stringify_step (callees : Callees ω) {slots : List LuaVal} {e : LuaVal}
    (hx : x.slots = slots ++ [e]) (hroom : 1 ≤ x.room) :
    Triple (Shows v o x) (stringify callees)
      (fun _ s => ∃ text, textOf callees e x.world = .ok text ∧ ShowsText v o x text s)
      (fun halt s => ∃ status e', halt = .raised (status, e') ∧
        textOf callees e x.world = .error (status, e') ∧
        Shows v o { x with world := (callees.tostr e x.world).2 } s) := by
  refine (top_step hx).bind fun a => Triple.of_fact fun ha => ?_
  subst ha
  have htostr := lauxhTostr_step callees (v := v) (o := o) a hroom
  cases a with
  | nil => exact htostr
  | string text => exact Triple.pure fun s h => ⟨text, rfl, x, rfl, ⟨slots, hx⟩, h⟩
  | other typename id => exact htostr

theorem rethrow_step {slots : List LuaVal} {status : ℕ+} {e : LuaVal}
    {Q : Nat → PcallState ω → Prop} (hx : x.slots = slots ++ [e]) (hstatus : x.status = 0)
    (hroom : 1 ≤ x.room)
    (htext : ∀ text, textOf callees e x.world = .ok text →
      Settled callees nresults w x.failed status [.string text])
    (herror : ∀ status' e', textOf callees e x.world = .error (status', e') →
      Settled callees nresults w x.failed status' [e']) :
    Triple (Shows v o x) (rethrow callees status) Q (Fails callees nresults w v o) := by
  have hstringify := stringify_step callees (v := v) (o := o) hx hroom
  refine Triple.bind (hstringify.mono (fun _ h => h) (fun _ _ h => h) ?_) fun _ => ?_
  · rintro halt s ⟨status', e', rfl, h, hs⟩
    refine ⟨status', e', _, rfl, hs, ?_⟩
    have hresult : x.result status' = status' := if_neg (not_not_intro hstatus)
    show Settled callees nresults w x.failed (x.result status') [e']
    rw [hresult]
    exact herror status' e' h
  · refine Triple.of_exists fun text => Triple.of_fact fun h => Triple.of_exists fun y => ?_
    refine Triple.of_fact fun hfailed => Triple.of_fact fun ⟨below, hy⟩ => ?_
    refine Triple.bind (Q := fun _ => Shows v o { y with status := status }) ?_ fun _ => ?_
    · exact Triple.update fun s hs => { hs with status_eq := rfl }
    refine (top_step (x := { y with status := status }) hy).bind fun v => ?_
    refine Triple.raise fun s hs => ⟨_, _, _, rfl, hs.2, ?_⟩
    have hresult : ({ y with status := status } : View ω).result luaErrrun = status :=
      if_pos status.ne_zero
    rw [hresult, hs.1]
    show Settled callees nresults w y.failed _ _
    rw [hfailed]
    exact htext text h

theorem rethrowRaised_step {slots : List LuaVal} {status : ℕ+} {e : LuaVal}
    {Q : Nat → PcallState ω → Prop} (hx : x.slots = slots ++ [e]) (hfailed : x.failed = false)
    (hstatus : x.status = 0) (hroom : 1 ≤ x.room) :
    Triple (FnRaised callees v o x status e) (rethrow callees status) Q
      (Fails callees nresults x.world v o) := by
  refine Triple.or ?_ ?_
  · refine Triple.of_fact fun ⟨text, htext⟩ => ?_
    subst htext
    refine rethrow_step (x := { x with failed := true }) hx hstatus hroom
      (fun text _ => .refused status (.string text)) fun status' e' h => ?_
    cases h
  · refine Triple.of_fact fun hfn => ?_
    refine rethrow_step (x := { x with world := (callees.fn x.world).2, reach := 0 }) hx hstatus
      hroom (fun text h => ?_) fun status' e' h => ?_
    · rw [hfailed]
      exact .raised hfn h
    · rw [hfailed]
      exact .unconverted hfn h

def stayed (nresults : Nat) (vals : List LuaVal) : LuaVersion → List LuaVal
  | .lua51 => []
  | .lua52 => adjust nresults vals

def moved (nresults : Nat) (vals : List LuaVal) : LuaVersion → List LuaVal
  | .lua51 => adjust nresults vals
  | .lua52 => []

theorem returnResults_step {slots vals : List LuaVal}
    (hn : nresults ≤ luaMinstack) (hx : x.slots = slots ++ adjust nresults vals)
    (href : x.ref = anchorRef o.refs nresults v) (hretvals : x.retvals = []) :
    Triple (Shows v o x) (returnResults nresults v)
      (fun c s => c = (stayed nresults vals v).length ∧ Shows v o { x with
        slots := slots ++ stayed nresults vals v, retvals := moved nresults vals v } s) E := by
  cases v with
  | lua52 =>
    refine Triple.pure fun s h => ⟨(adjust_length nresults vals).symm, ?_⟩
    exact { h with
      slots_eq := h.slots_eq.trans hx
      retvals_eq := h.retvals_eq.trans hretvals
      room_le := hx ▸ h.room_le }
  | lua51 =>
    by_cases hzero : nresults = 0
    · subst hzero
      refine Triple.pure fun s h => ⟨rfl, ?_⟩
      exact { h with
        slots_eq := h.slots_eq.trans hx
        retvals_eq := h.retvals_eq.trans hretvals
        room_le := hx ▸ h.room_le }
    · have hlen := adjust_length nresults vals
      have href' : x.ref = some (freshRef o.refs) := by
        rw [href, anchorRef, if_pos ⟨rfl, hzero⟩]
      have hfit : x.retvals.length + (adjust nresults vals).length ≤ luaMinstack := by
        rw [hretvals, hlen, List.length_nil, Nat.zero_add]
        exact hn
      have hmove := xmoveToRetvals_step (v := .lua51) (o := o) (E := E) href' hx hfit
      rw [hlen] at hmove
      rw [returnResults, if_pos hzero]
      refine hmove.bind fun _ => Triple.pure fun s h => ⟨rfl, ?_⟩
      rw [hretvals] at h
      show Shows .lua51 o { x with slots := slots ++ [], retvals := adjust nresults vals } s
      rw [List.append_nil]
      exact h.weaken (Nat.le_add_right _ _) (Nat.le_refl _)

structure View.Fresh (x : View ω) : Prop where
  failed_eq : x.failed = false
  status_eq : x.status = 0
  ref_eq : x.ref = none
  retvals_eq : x.retvals = []

def View.ended (callees : Callees ω) (o : Outside) (nresults : Nat) (v : LuaVersion)
    (x : View ω) (vals : List LuaVal) : View ω :=
  { x with
    world := (callees.fn x.world).2
    ref := anchorRef o.refs nresults v
    retvals := moved nresults vals v
    slots := x.slots ++ stayed nresults vals v
    room := 0
    reach := x.base + (x.slots.length + nresults) }

theorem netPcallHook_step (callees : Callees ω) (hn : nresults ≤ luaMinstack)
    (hlimit : o.ample → x.slots.length + (nresults + 2) ≤ x.limit) (hx : x.Fresh) :
    Triple (Shows v o x) (netPcallHook callees nresults v)
      (fun c s => ∃ vals, (callees.fn x.world).1 = .ok vals ∧
        c = (stayed nresults vals v).length ∧
        Shows v o (x.ended callees o nresults v vals) s)
      (Fails callees nresults x.world v o) := by
  refine (luaLCheckstack_step (nresults + 2) "too many results" hlimit).bind fun _ => ?_
  refine (anchorRetvals_step (x := { x with room := nresults + 2 }) hx.ref_eq hx.retvals_eq
    (Nat.le_add_left 1 (nresults + 1))).bind fun _ => ?_
  refine (luaPushcfunction_step (Nat.le_add_left 1 (nresults + 1))).bind fun _ => ?_
  refine (push_step lightuserdata (Nat.le_add_left 1 nresults)).bind fun _ => ?_
  let y : View ω := { x with ref := anchorRef o.refs nresults v, room := nresults + 2 }
  have hcall : Triple (Shows v o { y with
      slots := x.slots ++ [cfunction] ++ [lightuserdata], room := nresults })
      (luaPcall nresults fun _ => callFn callees) (FnEnds callees nresults v o y)
      (Fails callees nresults x.world v o) :=
    luaPcall_step (List.append_assoc _ _ _) (Nat.le_add_right nresults 2)
  refine hcall.bind fun status => Triple.or ?_ ?_
  · refine Triple.of_exists fun vals => Triple.of_fact fun hzero => Triple.of_fact fun hfn => ?_
    rw [if_neg (not_not_intro hzero)]
    have hreturn := returnResults_step (o := o) (E := Fails callees nresults x.world v o)
      (x := { y.called callees with
        slots := y.slots ++ adjust nresults vals, room := y.room - nresults })
      hn rfl rfl hx.retvals_eq
    refine hreturn.post fun c s h => ⟨vals, hfn, h.1, ?_⟩
    refine h.2.weaken (Nat.zero_le _) ?_
    exact Nat.add_le_add_left (Nat.add_le_add_left (Nat.le_add_right nresults 2) _) _
  · refine Triple.of_exists fun st => Triple.of_exists fun e => Triple.of_fact fun hst => ?_
    subst hst
    rw [if_pos st.ne_zero]
    exact rethrowRaised_step (x := { y with slots := y.slots ++ [e], room := y.room - 1 }) rfl
      hx.failed_eq hx.status_eq (Nat.le_add_left 1 nresults)

end LuaNet.Shared
