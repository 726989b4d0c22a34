import LuaNet.Shared.Pcall

/-! What is known of a state that `net_pcall_ex` runs in, and what each call of the Lua API makes of
it. -/

namespace LuaNet.Shared

open LuaNet.Lib LuaNet.Lib.Raising

variable {ω : Type}

/-- What is known of a frame: its values, so many free slots at least, and the thread of Lua 5.1
with its reference. The stack is there up to `reach` for sure. -/
structure View (ω : Type) where
  failed : Bool
  world : ω
  status : Nat
  ref : Option Nat
  retvals : List LuaVal
  base : Nat
  slots : List LuaVal
  room : Nat
  reach : Nat
  limit : Nat

/-- What is around the call: the references of others, and whether there is memory and stack for
all of it. -/
structure Outside where
  refs : List Nat
  ample : Prop

structure Shows (v : LuaVersion) (o : Outside) (x : View ω) (s : PcallState ω) : Prop where
  ref_none : v = .lua52 → x.ref = none
  failed_eq : s.failed = x.failed
  world_eq : s.world = x.world
  status_eq : s.ctx.status = x.status
  ref_eq : s.ctx.ref = x.ref
  retvals_eq : s.ctx.retvals = x.retvals
  refs_eq : s.refs = x.ref.toList ++ o.refs
  base_eq : s.base = x.base
  slots_eq : s.frame.slots = x.slots
  room_le : x.slots.length + x.room ≤ s.frame.ensured
  reach_le : x.reach ≤ s.capacity
  limit_eq : s.frame.limit = x.limit
  memory_of : o.ample → false ∉ s.memory
  failed_of : o.ample → x.failed = false

variable {nresults : Nat} {v : LuaVersion} {o : Outside} {x : View ω}
  {E : StackHalt Thrown → PcallState ω → Prop}

theorem push_step (e : LuaVal) (hroom : 1 ≤ x.room) :
    Triple (Shows v o x) (onFrame (StackM.push e))
      (fun _ => Shows v o { x with slots := x.slots ++ [e], room := x.room - 1 }) E := by
  intro s h
  have hle := h.room_le
  have hfree : s.frame.slots.length < s.frame.ensured := by
    rw [h.slots_eq]
    omega
  have hrun : (StackM.push e : StackM LuaVal Thrown Unit) s.frame =
      (.ok (), s.frame.withSlots (s.frame.slots ++ [e])) := if_pos hfree
  rw [onFrame, hrun]
  refine { h with slots_eq := congrArg (· ++ [e]) h.slots_eq, room_le := ?_ }
  rw [List.length_append, List.length_singleton]
  show x.slots.length + 1 + (x.room - 1) ≤ s.frame.ensured
  omega

theorem Shows.of_failed_eq {s : PcallState ω} {failed failed' : Bool}
    (h : Shows v o { x with failed := failed } s) (heq : failed = failed') :
    Shows v o { x with failed := failed' } s := heq ▸ h

theorem alloc_step :
    Triple (Shows v o x) alloc
      (fun ok => Shows v o { x with failed := x.failed || !ok }) E := by
  intro s h
  rw [alloc]
  have hmemory_of := h.memory_of
  rcases hmemory : s.memory with _ | ⟨_ | _, memory⟩
  · exact h.of_failed_eq (by simp)
  · rw [hmemory] at hmemory_of
    have hscarce : ¬o.ample := fun hample => hmemory_of hample List.mem_cons_self
    exact { h with
      failed_eq := by simp
      memory_of := fun hample => absurd hample hscarce
      failed_of := fun hample => absurd hample hscarce }
  · rw [hmemory] at hmemory_of
    have hleft : o.ample → false ∉ memory :=
      fun hample hmem => hmemory_of hample (List.mem_cons_of_mem true hmem)
    exact { h.of_failed_eq (by simp) with memory_of := hleft }

theorem allocate_step (hE : ∀ s, Shows v o { x with failed := true } s →
    E (.raised (luaErrmem, memoryMessage)) s) :
    Triple (Shows v o x) allocate (fun _ => Shows v o x) E := by
  refine alloc_step.bind fun ok => ?_
  cases ok with
  | true => exact Triple.pure fun s h => h.of_failed_eq (by simp)
  | false => exact Triple.raise fun s h => hE s (h.of_failed_eq (by simp))

theorem reserve_shows {s : PcallState ω} (h : Shows v o x s) (n : Nat) :
    Shows v o { x with room := n } (s.reserve n) := by
  refine { h with room_le := ?_, reach_le := Nat.le_trans h.reach_le (Nat.le_max_left _ _) }
  show x.slots.length + n ≤ _
  rw [← h.slots_eq]
  exact s.frame.le_ensure n

def Reserved (v : LuaVersion) (o : Outside) (x : View ω) (n : Nat) (ok : Bool)
    (s : PcallState ω) : Prop :=
  if ok then Shows v o { x with room := n } s else Shows v o { x with failed := true } s

theorem reserveIf_step (n : Nat) (grown : Bool) :
    Triple (Shows v o { x with failed := x.failed || !grown }) (reserveIf n grown)
      (Reserved v o x n) E := by
  cases grown with
  | true =>
    refine Triple.bind (Q := fun _ => Shows v o { x with room := n }) ?_ fun _ => ?_
    · exact Triple.update fun s h => reserve_shows (x := x) (h.of_failed_eq (by simp)) n
    · exact Triple.pure fun s h => h
  | false => exact Triple.pure fun s h => h.of_failed_eq (by simp)

theorem growStack_step
    (hE : v = .lua51 → ∀ s, Shows v o { x with failed := true } s →
      E (.raised (luaErrmem, memoryMessage)) s) :
    Triple (Shows v o x) (growStack v)
      (fun grown => Shows v o { x with failed := x.failed || !grown }) E := by
  cases v with
  | lua51 =>
    refine (allocate_step (hE rfl)).bind fun _ => ?_
    exact Triple.pure fun s h => h.of_failed_eq (by simp)
  | lua52 => exact alloc_step

theorem luaCheckstack_step (n : Nat) (hlimit : o.ample → x.slots.length + n ≤ x.limit)
    (hE : v = .lua51 → x.reach ≤ x.base + x.slots.length + n → ∀ s,
      Shows v o { x with failed := true } s → E (.raised (luaErrmem, memoryMessage)) s) :
    Triple (Shows v o x) (luaCheckstack v n) (Reserved v o x n) E := by
  refine Triple.read fun s₀ h₀ => ?_
  split
  case isTrue hfull =>
    have hscarce : ¬o.ample := by
      rw [h₀.limit_eq, h₀.slots_eq] at hfull
      exact fun hample => absurd (hlimit hample) (Nat.not_le_of_lt hfull)
    refine Triple.bind (Q := fun _ => Shows v o { x with failed := true }) ?_ fun _ => ?_
    · exact Triple.update fun s h =>
        { h with failed_eq := rfl, failed_of := fun hample => absurd hample hscarce }
    · exact Triple.pure fun s h => h
  split
  · exact (reserveIf_step n true).pre fun s h => h.of_failed_eq (by simp)
  case isFalse hcapacity =>
    have hreach : x.reach ≤ x.base + x.slots.length + n := by
      rw [← h₀.base_eq, ← h₀.slots_eq]
      exact Nat.le_trans h₀.reach_le (Nat.le_of_not_lt hcapacity)
    exact (growStack_step fun hv => hE hv hreach).bind fun grown => reserveIf_step n grown

theorem pop_step {slots popped : List LuaVal} (hx : x.slots = slots ++ popped) :
    Triple (Shows v o x) (onFrame (StackM.pop popped.length))
      (fun _ => Shows v o { x with slots := slots, room := x.room + popped.length }) E := by
  intro s h
  have hslots : s.frame.slots = slots ++ popped := h.slots_eq.trans hx
  have hlen : s.frame.slots.length = slots.length + popped.length := by
    rw [hslots, List.length_append]
  have hrun : (StackM.pop popped.length : StackM LuaVal Thrown Unit) s.frame =
      (.ok (), s.frame.withSlots (s.frame.slots.take (s.frame.slots.length - popped.length))) :=
    if_pos (by omega)
  rw [onFrame, hrun]
  refine { h with slots_eq := ?_, room_le := ?_ }
  · show s.frame.slots.take _ = slots
    rw [hlen, Nat.add_sub_cancel, hslots, List.take_left]
  · have hle := h.room_le
    rw [hx, List.length_append] at hle
    show slots.length + (x.room + popped.length) ≤ s.frame.ensured
    omega

theorem top_step {slots : List LuaVal} {e : LuaVal} (hx : x.slots = slots ++ [e]) :
    Triple (Shows v o x) (onFrame StackM.top) (fun a s => a = e ∧ Shows v o x s) E := by
  intro s h
  have hrun : (StackM.top : StackM LuaVal Thrown LuaVal) s.frame = (.ok e, s.frame) := by
    simp only [StackM.top, h.slots_eq, hx, List.getLast?_append, List.getLast?_singleton,
      Option.some_or]
  rw [onFrame, hrun]
  exact ⟨rfl, h⟩

theorem results_step {slots vals : List LuaVal} (hx : x.slots = slots ++ vals) :
    Triple (Shows v o x) (results vals.length) (fun a s => a = vals ∧ Shows v o x s) E := by
  refine Triple.read fun s₀ h₀ => ?_
  have hslots : s₀.frame.slots = slots ++ vals := h₀.slots_eq.trans hx
  have hle : vals.length ≤ s₀.frame.slots.length := by
    rw [hslots, List.length_append]
    exact Nat.le_add_left _ _
  rw [if_pos hle]
  refine Triple.pure fun s h => ⟨?_, h⟩
  rw [hslots, List.length_append, Nat.add_sub_cancel, List.drop_left]

theorem adjust_length (n : Nat) (vals : List LuaVal) : (adjust n vals).length = n := by
  simp [adjust]

theorem adjust_adjust (n : Nat) (vals : List LuaVal) :
    adjust n (adjust n vals) = adjust n vals := by
  have hlen := adjust_length n vals
  rw [adjust, List.take_append_of_le_length (Nat.le_of_eq hlen.symm)]
  exact List.take_of_length_le (Nat.le_of_eq hlen)

theorem pushAll_step (vals : List LuaVal) (hroom : vals.length ≤ x.room) :
    Triple (Shows v o x) (pushAll vals)
      (fun _ => Shows v o { x with
        slots := x.slots ++ vals, room := x.room - vals.length }) E := by
  induction vals generalizing x with
  | nil =>
    refine Triple.pure fun s h => ?_
    rw [List.append_nil]
    exact h
  | cons e vals ih =>
    rw [List.length_cons] at hroom
    refine (push_step e (by omega)).bind fun _ => ?_
    refine (ih (by show vals.length ≤ x.room - 1; omega)).post fun _ s h => ?_
    rw [List.append_assoc] at h
    rw [List.length_cons, Nat.add_comm, Nat.sub_add_eq]
    exact h

def View.back (y x : View ω) : View ω :=
  { y with base := x.base, slots := x.slots, room := x.room, limit := x.limit }

theorem Shows.leave {s t : PcallState ω} {y : View ω} (hs : Shows v o x s)
    (ht : Shows v o y t) : Shows v o (y.back x) (t.leave s) :=
  { ht with
    base_eq := hs.base_eq
    slots_eq := hs.slots_eq
    room_le := hs.room_le
    limit_eq := hs.limit_eq }

theorem Shows.weaken {s : PcallState ω} {room reach : Nat} (h : Shows v o x s)
    (hroom : room ≤ x.room) (hreach : reach ≤ x.reach) :
    Shows v o { x with room := room, reach := reach } s :=
  { h with
    room_le := Nat.le_trans (Nat.add_le_add_left hroom _) h.room_le
    reach_le := Nat.le_trans hreach h.reach_le }

def View.entered (x : View ω) (v : LuaVersion) (args : List LuaVal) : View ω :=
  { x with
    base := x.base + x.slots.length + 1
    slots := args
    room := luaMinstack
    limit :=
      match v with
      | .lua51 => x.limit
      | .lua52 => x.limit - (x.slots.length + 1) }

theorem Shows.enter {s : PcallState ω} (h : Shows v o x s) (args : List LuaVal) :
    Shows v o (x.entered v args) (s.enter v args) := by
  refine { h with
    base_eq := ?_
    slots_eq := rfl
    room_le := Nat.le_refl _
    reach_le := ?_
    limit_eq := ?_ }
  · show s.base + s.frame.slots.length + 1 = x.base + x.slots.length + 1
    rw [h.base_eq, h.slots_eq]
  · exact Nat.le_trans h.reach_le (Nat.le_max_left _ _)
  · cases v with
    | lua51 => exact h.limit_eq
    | lua52 =>
      show s.frame.limit - (s.frame.slots.length + 1) = x.limit - (x.slots.length + 1)
      rw [h.limit_eq, h.slots_eq]

/-- What is known of a protected call when its body has ended, of the frame of the caller. -/
theorem protectedCall_rule {P : PcallState ω → Prop} {m : PcallM ω (List LuaVal)}
    {V : List LuaVal → PcallState ω → Prop} {W : ℕ+ → LuaVal → PcallState ω → Prop}
    {Q : Nat → PcallState ω → Prop}
    (hm : ∀ s, P s → Triple (· = s) m V
      fun halt t => ∃ status e, halt = .raised (status, e) ∧ W status e (t.leave s))
    (hok : ∀ vals, Triple (V vals) (pushAll (adjust nresults vals)) (fun _ => Q 0) E)
    (herror : ∀ status e, Triple (W status e) (onFrame (StackM.push e)) (fun _ => Q status) E) :
    Triple P (protectedCall nresults m) Q E := by
  intro s hs
  have hend := hm s hs s rfl
  rw [protectedCall]
  rcases hrun : m s with ⟨halt | vals, t⟩
  · rw [hrun] at hend
    obtain ⟨status, e, rfl, hW⟩ := hend
    exact (herror status e).bind (fun _ => Triple.pure fun _ h => h) _ hW
  · rw [hrun] at hend
    exact (hok vals).bind (fun _ => Triple.pure fun _ h => h) _ hend

theorem popCall_step {slots : List LuaVal} {f arg : LuaVal} (hx : x.slots = slots ++ [f, arg]) :
    Triple (Shows v o x) popCall
      (fun a s => a = arg ∧ Shows v o { x with slots := slots, room := x.room + 2 } s) E := by
  have hx' : x.slots = (slots ++ [f]) ++ [arg] := by rw [hx, List.append_assoc]; rfl
  refine (top_step hx').bind fun a => Triple.of_fact fun ha => ?_
  exact (pop_step hx).bind fun _ => Triple.pure fun s h => ⟨ha, h⟩

theorem anchored_step {ref : Nat} (href : x.ref = some ref) :
    Triple (Shows v o x) anchored (fun _ => Shows v o x) E := by
  refine Triple.read fun s₀ h₀ => ?_
  have hmem : (s₀.ctx.ref.any fun ref => ref ∈ s₀.refs) = true := by
    rw [h₀.ref_eq, h₀.refs_eq, href]
    simp
  rw [if_pos hmem]
  exact Triple.pure fun s h => h

theorem xmoveToRetvals_step {ref : Nat} {slots vals : List LuaVal} (href : x.ref = some ref)
    (hx : x.slots = slots ++ vals) (hfit : x.retvals.length + vals.length ≤ luaMinstack) :
    Triple (Shows v o x) (xmoveToRetvals vals.length)
      (fun _ => Shows v o { x with
        slots := slots, room := x.room + vals.length, retvals := x.retvals ++ vals }) E := by
  refine (anchored_step href).bind fun _ => ?_
  refine (results_step hx).bind fun a => Triple.of_fact fun ha => ?_
  refine (pop_step hx).bind fun _ => Triple.read fun s₀ h₀ => ?_
  have hfits : s₀.ctx.retvals.length + vals.length ≤ luaMinstack := by
    rw [h₀.retvals_eq]
    exact hfit
  rw [if_pos hfits, ha]
  exact Triple.update fun s h => { h with retvals_eq := congrArg (· ++ vals) h.retvals_eq }

theorem xmoveFromRetvals_step {ref : Nat} (href : x.ref = some ref)
    (hroom : x.retvals.length ≤ x.room) :
    Triple (Shows v o x) (xmoveFromRetvals x.retvals.length)
      (fun _ => Shows v o { x with
        slots := x.slots ++ x.retvals, room := x.room - x.retvals.length }) E := by
  refine (anchored_step href).bind fun _ => Triple.read fun s₀ h₀ => ?_
  rw [h₀.retvals_eq, Nat.sub_self, List.drop_zero]
  exact pushAll_step _ hroom

end LuaNet.Shared
