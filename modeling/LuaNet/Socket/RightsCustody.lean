import LuaNet.Socket.CmsgKernel
import LuaNet.Socket.RightsCalls

/-! Custody of received descriptors: along every run of receives and queue methods each is in one
queue, handed out by `get`, or closed. An allocation that fails ends a call in the middle, so that
the states a run can be left in are all the moments of its calls. -/

namespace LuaNet.Socket

open LuaNet.Lib
open scoped List

inductive ReceiveCall
  | recvmsg (socktype : Nat) (args : RecvmsgArgs) (ans : RecvResult)
  | recvfd (socktype : Nat) (flags : List FlagArg) (ans : RecvResult)

def ReceiveCall.lua : ReceiveCall → RecvM RecvRet
  | .recvmsg socktype args ans => recvmsgLua socktype args ans
  | .recvfd socktype flags ans => recvfdLua socktype flags ans

def ReceiveCall.control : ReceiveCall → Bytes
  | .recvmsg _ args ans => controlOf args.cmsgbuf.toNat ans
  | .recvfd _ _ ans => controlOf recvfdControl ans

inductive RightsOp
  | receive (c : ReceiveCall)
  | get (q : Nat)
  | close (q : Nat) (answers : List (Option Tls.Errno))
  | gc (q : Nat)

structure RightsLabel where
  op : RightsOp
  budget : Option Nat

/-- All queues, and those that have been given to the caller. -/
structure RightsWorld where
  queues : List (List Int) := []
  held : List Nat := []

namespace RightsWorld

def start (w : RightsWorld) (budget : Option Nat) : RecvState :=
  { queues := w.queues, budget := budget }

def receive (w : RightsWorld) (c : ReceiveCall) (budget : Option Nat) :
    Except LuaError RecvRet × RecvState := c.lua (w.start budget)

/-- The methods are those of the queues that the caller has; `peek` and `len` change nothing. -/
def step (w : RightsWorld) (lab : RightsLabel) : RightsWorld × List RightsEvent :=
  match lab.op with
  | .receive c =>
    let r := w.receive c lab.budget
    ({ queues := r.2.queues, held := w.held ++ givenQueues r.1 }, r.2.events)
  | .get q =>
    if q ∈ w.held then
      match getLua q (w.start lab.budget).toRightsState with
      | (none, _) => (w, [])
      | (some fd, s) => ({ w with queues := s.queues }, [.handed q fd])
    else (w, [])
  | .close q answers =>
    if q ∈ w.held then
      let r := scmRightsCloseLua q answers (w.start lab.budget)
      ({ w with queues := r.2.queues }, r.2.events)
    else (w, [])
  | .gc q =>
    let r := scmRightsGcLua q (w.start lab.budget)
    ({ w with queues := r.2.queues }, r.2.events)

def run (w : RightsWorld) (ls : List RightsLabel) : RightsWorld × List RightsEvent :=
  runs step w ls

end RightsWorld

theorem receive_call (w : RightsWorld) (c : ReceiveCall) (budget : Option Nat) :
    Receives (budget.isSome = true) c.control w.queues (w.receive c budget).1
      (w.receive c budget).2.queues (w.receive c budget).2.events := by
  have hends : Ends (budget.isSome = true) w.queues [] c.lua
      (Receives (budget.isSome = true) c.control w.queues) := by
    cases c with
    | recvmsg socktype args ans => exact recvmsgLua_ends socktype args ans
    | recvfd socktype flags ans => exact recvfdLua_ends socktype flags ans
  have hrun := hends (w.start budget) ⟨id, rfl, rfl⟩
  unfold RightsWorld.receive
  match hres : c.lua (w.start budget) with
  | (.ok ret, s) => rwa [hres] at hrun
  | (.error e, s) => rwa [hres] at hrun

theorem scmRightsCloseLua_ends {faulty : Prop} {qs : List (List Int)} (q : Nat)
    (answers : List (Option Tls.Errno)) :
    Ends faulty qs [] (scmRightsCloseLua q answers) fun _ qs' es =>
      qs' = qs.set q [] ∧ es = (qs.getD q []).reverse.map (.closed q) := by
  refine Ends.close fun err => ?_
  cases err with
  | none => exact Ends.pure ⟨rfl, rfl⟩
  | some e => exact Ends.errno (Ends.pure ⟨rfl, rfl⟩) fun _ => ⟨rfl, rfl⟩

theorem scmRightsGcLua_ends {faulty : Prop} {qs : List (List Int)} (q : Nat) :
    Ends faulty qs [] (scmRightsGcLua q) fun _ qs' es =>
      qs' = qs.set q [] ∧ es = (qs.getD q []).reverse.map (.closed q) :=
  Ends.close fun _ => Ends.pure ⟨rfl, rfl⟩

theorem Ends.run {α : Type} {m : RecvM α} (w : RightsWorld) (budget : Option Nat)
    {P : List (List Int) → List RightsEvent → Prop}
    (h : Ends (budget.isSome = true) w.queues [] m fun _ => P) :
    P (m (w.start budget)).2.queues (m (w.start budget)).2.events := by
  have hrun := h (w.start budget) ⟨id, rfl, rfl⟩
  match hres : m (w.start budget) with
  | (.ok a, s) => rwa [hres] at hrun
  | (.error e, s) => rwa [hres] at hrun

theorem Custody.close (qs : List (List Int)) (q : Nat) :
    Custody qs ((qs.getD q []).reverse.map (.closed q)) (qs.set q []) := by
  by_cases hq : q < qs.length
  · refine Custody.pop hq (fun e he => ?_) ?_
    · obtain ⟨fd, -, rfl⟩ := List.mem_map.1 he
      exact ⟨fd, Or.inr rfl⟩
    · have hleft : leftFds ((qs.getD q []).reverse.map (.closed q)) = (qs.getD q []).reverse := by
        rw [leftFds, List.filterMap_map]
        exact List.filterMap_some
      rw [hleft, List.reverse_reverse, List.nil_append]
  · have hnil : qs.getD q [] = [] := List.getD_eq_default _ _ (Nat.le_of_not_lt hq)
    rw [hnil, set_nil_of_getD hnil]
    exact Custody.refl qs

/-- What a stretch of a run does. A queue that the caller has not been given when it is made is
never given to it, and none of its descriptors is handed out. -/
structure Traced (w : RightsWorld) (es : List RightsEvent) (w' : RightsWorld) : Prop extends
    Custody w.queues es w'.queues where
  held : ∀ q ∈ w.held, q ∈ w'.held
  unheld : ∀ q < w.queues.length, q ∉ w.held → q ∉ w'.held ∧ ∀ fd, .handed q fd ∉ es

theorem Traced.refl (w : RightsWorld) : Traced w [] w :=
  ⟨Custody.refl _, fun _ hq => hq, fun _ _ hq => ⟨hq, fun _ => List.not_mem_nil⟩⟩

theorem Traced.trans {w w₁ w₂ : RightsWorld} {es es' : List RightsEvent} (h : Traced w es w₁)
    (h' : Traced w₁ es' w₂) : Traced w (es ++ es') w₂ where
  toCustody := h.toCustody.trans h'.toCustody
  held := fun q hq => h'.held q (h.held q hq)
  unheld := by
    intro q hq hheld
    obtain ⟨hheld₁, hes⟩ := h.unheld q hq hheld
    obtain ⟨hheld₂, hes'⟩ := h'.unheld q (Nat.lt_of_lt_of_le hq h.mono) hheld₁
    exact ⟨hheld₂, fun fd hmem => (List.mem_append.1 hmem).elim (hes fd) (hes' fd)⟩

theorem Traced.close (w : RightsWorld) (q : Nat) :
    Traced w ((w.queues.getD q []).reverse.map (.closed q))
      { w with queues := w.queues.set q [] } where
  toCustody := Custody.close w.queues q
  held := fun _ hq => hq
  unheld := by
    refine fun r _ hr => ⟨hr, fun fd hmem => ?_⟩
    obtain ⟨fd', -, heq⟩ := List.mem_map.1 hmem
    cases heq

theorem Traced.receive (w : RightsWorld) (c : ReceiveCall) (budget : Option Nat) :
    Traced w (w.receive c budget).2.events
      { queues := (w.receive c budget).2.queues
        held := w.held ++ givenQueues (w.receive c budget).1 } := by
  have hcall := receive_call w c budget
  refine ⟨hcall.custody, fun q hq => List.mem_append_left _ hq, fun q hq hheld =>
    ⟨fun hmem => ?_, fun fd hmem => ?_⟩⟩
  · obtain hmem | hmem := List.mem_append.1 hmem
    · exact hheld hmem
    · exact Nat.not_le.2 hq (hcall.given q hmem).1
  · have hclosed := (hcall.left _ hmem (q, fd) rfl).1
    cases hclosed

theorem Traced.get {w : RightsWorld} {q : Nat} {fd : Int} (hheld : q ∈ w.held)
    (hlast : (w.queues.getD q []).getLast? = some fd) :
    Traced w [.handed q fd]
      { w with queues := w.queues.set q (w.queues.getD q []).dropLast } := by
  have hq : q < w.queues.length := by
    apply lt_length_of_getD_ne_nil
    intro hnil
    rw [hnil] at hlast
    cases hlast
  refine ⟨Custody.pop hq (List.forall_mem_singleton.2 ⟨fd, Or.inl rfl⟩) ?_, fun _ hr => hr,
    fun r _ hr => ⟨hr, fun fd' hmem => ?_⟩⟩
  · exact (List.dropLast_append_getLast? fd hlast).symm
  · cases List.mem_singleton.1 hmem
    exact hr hheld

theorem step_traced (w : RightsWorld) (lab : RightsLabel) :
    Traced w (w.step lab).2 (w.step lab).1 := by
  unfold RightsWorld.step
  cases lab.op with
  | receive c => exact Traced.receive w c lab.budget
  | get q =>
    dsimp only
    split
    next hheld =>
      unfold getLua
      cases hlast : ((w.start lab.budget).fds q).getLast? with
      | none => exact Traced.refl w
      | some fd => exact Traced.get hheld hlast
    · exact Traced.refl w
  | close q answers =>
    dsimp only
    split
    · obtain ⟨hqs, hes⟩ := (scmRightsCloseLua_ends q answers).run w lab.budget
      rw [hqs, hes]
      exact Traced.close w q
    · exact Traced.refl w
  | gc q =>
    dsimp only
    obtain ⟨hqs, hes⟩ := (scmRightsGcLua_ends q).run w lab.budget
    rw [hqs, hes]
    exact Traced.close w q

def RightsWorld.Valid (w : RightsWorld) : Prop := ∀ q ∈ w.held, q < w.queues.length

theorem step_valid (w : RightsWorld) (lab : RightsLabel) (h : w.Valid) : (w.step lab).1.Valid := by
  have hmono := (step_traced w lab).mono
  have hsame : (w.step lab).1.held = w.held → (w.step lab).1.Valid := fun heq q hq =>
    Nat.lt_of_lt_of_le (h q (heq ▸ hq)) hmono
  obtain ⟨op, budget⟩ := lab
  cases op with
  | receive c =>
    intro q hq
    obtain hq | hq := List.mem_append.1 hq
    · exact Nat.lt_of_lt_of_le (h q hq) hmono
    · exact ((receive_call w c budget).given q hq).2
  | get q =>
    refine hsame ?_
    unfold RightsWorld.step
    dsimp only
    split
    · split <;> rfl
    · rfl
  | close q answers =>
    refine hsame ?_
    unfold RightsWorld.step
    dsimp only
    split <;> rfl
  | gc q => exact hsame rfl

theorem run_traced (w : RightsWorld) (ls : List RightsLabel) :
    Traced w (w.run ls).2 (w.run ls).1 :=
  runs_trace (I := fun _ => True) (fun w lab _ => ⟨trivial, step_traced w lab⟩) Traced.refl
    Traced.trans trivial ls

def RightsOp.closes (q : Nat) : RightsOp → Prop
  | .close q' _ => q' = q
  | .gc q' => q' = q
  | _ => False

/-- The whole future of the queue `q`: one after another its descriptors are handed out or closed,
only closed unless the caller has the queue, and all of them once the queue is closed. -/
def RightsWorld.Passes (w : RightsWorld) (q : Nat) : Prop :=
  ∀ ls, let r := w.run ls
    w.queues.getD q [] = r.1.queues.getD q [] ++ (leftBy q r.2).reverse ∧
    (q ∉ w.held → q ∉ r.1.held ∧ ∀ fd, .handed q fd ∉ r.2) ∧
    (∀ lab ∈ ls, lab.op = .gc q ∨ q ∈ w.held ∧ lab.op.closes q → r.1.queues.getD q [] = [])

theorem set_nil_getD (qs : List (List Int)) (q : Nat) : (qs.set q []).getD q [] = [] := by
  by_cases hq : q < qs.length
  · exact set_getD_self hq []
  · apply List.getD_eq_default
    rw [List.length_set]
    exact Nat.le_of_not_lt hq

theorem step_closes {w : RightsWorld} {lab : RightsLabel} {q : Nat}
    (h : lab.op = .gc q ∨ q ∈ w.held ∧ lab.op.closes q) :
    (w.step lab).1.queues.getD q [] = [] := by
  obtain ⟨op, budget⟩ := lab
  have hgc : (w.step ⟨.gc q, budget⟩).1.queues.getD q [] = [] := by
    show (scmRightsGcLua q (w.start budget)).2.queues.getD q [] = []
    rw [((scmRightsGcLua_ends q).run w budget).1]
    exact set_nil_getD _ _
  obtain h | ⟨hheld, h⟩ := h
  · cases h
    exact hgc
  · cases op with
    | receive c => exact h.elim
    | get q' => exact h.elim
    | gc q' =>
      cases h
      exact hgc
    | close q' answers =>
      cases h
      have hstep : w.step ⟨.close q answers, budget⟩ =
          ({ w with queues := (scmRightsCloseLua q answers (w.start budget)).2.queues },
            (scmRightsCloseLua q answers (w.start budget)).2.events) := if_pos hheld
      rw [hstep, ((scmRightsCloseLua_ends q answers).run w budget).1]
      exact set_nil_getD _ _

theorem passes (w : RightsWorld) {q : Nat} (hq : q < w.queues.length) : w.Passes q := by
  intro ls
  have htraced := run_traced w ls
  refine ⟨htraced.popped q hq, htraced.unheld q hq, fun lab hlab hcloses => ?_⟩
  -- empty after the step that closes it, the queue can only lose descriptors from there on
  obtain ⟨before, after, rfl⟩ := List.append_of_mem hlab
  have hbefore := run_traced w before
  have hclosed : ((w.run before).1.step lab).1.queues.getD q [] = [] :=
    step_closes (hcloses.imp_right fun h => ⟨hbefore.held q h.1, h.2⟩)
  have hstep := step_traced (w.run before).1 lab
  have hafter := (run_traced ((w.run before).1.step lab).1 after).popped q
    (Nat.lt_of_lt_of_le hq (Nat.le_trans hbefore.mono hstep.mono))
  have hrun : (w.run (before ++ lab :: after)).1 =
      (((w.run before).1.step lab).1.run after).1 := by
    rw [RightsWorld.run, runs_append]
    rfl
  rw [hclosed] at hafter
  rw [hrun]
  exact (List.append_eq_nil_iff.1 hafter.symm).1

def closedBy (q : Nat) (es : List RightsEvent) : List Int :=
  es.filterMap fun
    | .closed q' fd => if q' = q then some fd else none
    | _ => none

theorem leftBy_eq_closedBy {q : Nat} {es : List RightsEvent} (h : ∀ fd, .handed q fd ∉ es) :
    leftBy q es = closedBy q es := by
  refine List.filterMap_congr fun e he => ?_
  cases e with
  | call flags => rfl
  | received fds => rfl
  | handed q' fd =>
    have hne : q' ≠ q := by
      rintro rfl
      exact h fd he
    simp [RightsEvent.left, Option.filter, hne]
  | closed q' fd => by_cases hq : q' = q <;> simp [RightsEvent.left, Option.filter, hq]

/-- Whatever follows a receive of too many descriptors, none of them is handed out, those that
are not in the queue it has made are closed, and that is all of them once it is collected. -/
def RightsWorld.AllClosed (w : RightsWorld) (c : ReceiveCall) (budget : Option Nat) : Prop :=
  let es := (w.receive c budget).2.events
  let q := w.queues.length
  ∀ ls, let r := (w.step ⟨.receive c, budget⟩).1.run ls
    (∀ fd, .handed q fd ∉ r.2) ∧
    r.1.queues.getD q [] ++ closedBy q r.2 ++ closedFds es ~ receivedIn es ∧
    (∀ lab ∈ ls, lab.op = .gc q → closedBy q r.2 ++ closedFds es ~ receivedIn es)

theorem allClosed {w : RightsWorld} (hw : w.Valid) (c : ReceiveCall) (budget : Option Nat)
    (h : netScmMaxFd < (receivedIn (w.receive c budget).2.events).length) :
    w.AllClosed c budget := by
  have hcall := receive_call w c budget
  obtain ⟨hret, rest, hqs⟩ := hcall.oversized h
  obtain ⟨new, hnew, hperm⟩ := hcall.own
  obtain rfl : new = [rest] := List.append_cancel_left (hnew.symm.trans hqs)
  rw [List.flatten_singleton] at hperm
  have hstep : (w.step ⟨.receive c, budget⟩).1 = { w with queues := w.queues ++ [rest] } := by
    show ({ queues := _, held := w.held ++ givenQueues (w.receive c budget).1 } : RightsWorld) = _
    rw [hqs, hret.barren.given, List.append_nil]
  have hunheld : w.queues.length ∉ w.held := fun hmem => Nat.lt_irrefl _ (hw _ hmem)
  intro ls
  rw [hstep]
  obtain ⟨hpopped, hheld, hclose⟩ :=
    passes { w with queues := w.queues ++ [rest] } (length_lt_concat _ _) ls
  have hnone := (hheld hunheld).2
  rw [concat_getD_length, leftBy_eq_closedBy hnone] at hpopped
  rw [hpopped] at hperm
  have hall := ((List.reverse_perm _).append_left _).symm.append_right _ |>.trans hperm
  refine ⟨hnone, hall, fun lab hlab hgc => ?_⟩
  have hempty := hclose lab hlab (Or.inl hgc)
  rwa [hempty, List.nil_append] at hall

/-- In every run, whichever allocations fail, a received descriptor is in one queue, handed out,
or closed. -/
theorem rights_conserved (ls : List RightsLabel) :
    let r := ({} : RightsWorld).run ls
    r.1.queues.flatten ++ handedFds r.2 ++ closedFds r.2 ~ receivedIn r.2 ∧
    (∀ q < r.1.queues.length, r.1.Passes q) ∧
    (∀ c budget, let ret := r.1.receive c budget
      Receives (budget.isSome = true) c.control r.1.queues ret.1 ret.2.queues ret.2.events ∧
      (netScmMaxFd < (receivedIn ret.2.events).length → r.1.AllClosed c budget)) ∧
    ∀ bs room, (∀ b ∈ bs, Block.InRange b) → (encodeBlocks bs).length < 2 ^ 63 →
      receivedFds ((encodeBlocks bs).take room) = copiedFds room bs := by
  intro r
  have htraced := run_traced {} ls
  have hvalid : r.1.Valid := runs_invariant step_valid (fun _ hq => absurd hq List.not_mem_nil) ls
  refine ⟨?_, fun q hq => passes r.1 hq, fun c budget =>
    ⟨receive_call r.1 c budget, allClosed hvalid c budget⟩,
    fun bs room hbs hlen => receivedFds_take hlen hbs room⟩
  have haccount := htraced.account
  rw [List.append_assoc]
  exact ((leftFds_perm _).append_left _).trans haccount

def crowdedBlock : Block :=
  { level := solSocket, type := scmRights
    payload := (List.replicate (netScmMaxFd + 1) 7).flatMap (leBytes 4) }

def crowdedCall : ReceiveCall :=
  .recvmsg 1 { bufsize := 0, cmsgbuf := 2000, flags := [] }
    (.received { ctl := encodeBlocks [crowdedBlock] })

theorem crowdedBlock_length : crowdedBlock.payload.length = 1016 := by
  rw [crowdedBlock, words_length, List.length_replicate]
  rfl

theorem crowdedCall_length : (receivedFds crowdedCall.control).length = netScmMaxFd + 1 := by
  have hlen : (encodeBlocks [crowdedBlock]).length < 2 ^ 63 := by
    rw [encodeBlocks, List.flatMap_singleton, Block.encode_length, crowdedBlock_length]
    decide
  have hcontrol : crowdedCall.control = (encodeBlocks [crowdedBlock]).take (2000 : Int).toNat := by
    rw [crowdedCall, ReceiveCall.control, controlOf]
  have hcopied (room : Nat) :
      copiedFds room [crowdedBlock] = fdsIn (crowdedBlock.payload.take (room - 16)) :=
    List.append_nil _
  rw [hcontrol, receivedFds_take hlen (List.forall_mem_singleton.2 ⟨by decide, by decide⟩), hcopied,
    fdsIn, List.length_map, List.length_range,
    List.take_of_length_le (by rw [crowdedBlock_length]; decide), crowdedBlock_length]
  rfl

theorem takeRights_unreported {ctl : Bytes} (hctl : netScmMaxFd < (receivedFds ctl).length)
    (socktype : Nat) (bufsize : Int) (q : Nat) (r : Received) {s : RecvState}
    (hs : s.budget = some 0) :
    (takeRights socktype bufsize q ctl r s).1 = .error memoryError ∧
      receivedIn (takeRights socktype bufsize q ctl r s).2.events = receivedIn s.events := by
  have hover : (netScmRightsFill ctl).overflow = true := by
    rw [netScmRightsFill_eq]
    exact decide_eq_true hctl
  let t : RecvState := { s with
    queues := s.queues.set q (netScmRightsFill ctl).fds
    events := s.events ++ (netScmRightsFill ctl).closed.map (.closed q) }
  have hfill : scmRightsFill q ctl s = (.ok true, t) := congrArg (fun b => (Except.ok b, t)) hover
  have halloc : onRights (alloc 1) t = (.error memoryError, t) := by
    have hspend : t.toRightsState.spend 1 = none := by
      unfold RightsState.spend
      rw [show t.budget = some 0 from hs]
      rfl
    unfold onRights alloc
    rw [hspend]
  have hnew : luaErrnoNew emsgsize "recvmsg" t = (.error memoryError, t) :=
    Raising.bind_of_error halloc
  rw [takeRights, Raising.bind_of_ok hfill]
  show ((luaErrnoNew emsgsize "recvmsg" >>= fun err => pure (RecvRet.raised err)) t).1 = _ ∧ _
  rw [if_pos rfl, Raising.bind_of_error hnew]
  exact ⟨rfl, receivedIn_closed _ _ _⟩

theorem recvmsgLua_reaches (ctl : Bytes) :
    recvmsgLua 1 { bufsize := 0, cmsgbuf := 2000, flags := [] } (.received { ctl := ctl })
        { queues := [], budget := some 3 } =
      takeRights 1 0 0 (ctl.take (2000 : Int).toNat) { ctl := ctl } {
        queues := [[]]
        budget := some 0
        events := [.call msgCmsgCloexec, .received (receivedFds (ctl.take (2000 : Int).toNat))] } :=
  rfl

/-- The error object of `EMSGSIZE` is one more allocation, and it can fail. -/
theorem rights_unreported :
    let ret := ({} : RightsWorld).receive crowdedCall (some 3)
    netScmMaxFd < (receivedIn ret.2.events).length ∧ ret.1 = .error memoryError := by
  have hlt : netScmMaxFd <
      (receivedFds ((encodeBlocks [crowdedBlock]).take (2000 : Int).toNat)).length := by
    have hlen := crowdedCall_length
    rw [crowdedCall, ReceiveCall.control, controlOf] at hlen
    rw [hlen]
    exact Nat.lt_succ_self _
  have hrun := recvmsgLua_reaches (encodeBlocks [crowdedBlock])
  obtain ⟨hret, hreceived⟩ := takeRights_unreported hlt 1 0 0
    { ctl := encodeBlocks [crowdedBlock] } (s := {
      queues := [[]]
      budget := some 0
      events := [.call msgCmsgCloexec,
        .received (receivedFds ((encodeBlocks [crowdedBlock]).take (2000 : Int).toNat))] }) rfl
  rw [RightsWorld.receive, crowdedCall, ReceiveCall.lua, RightsWorld.start, hrun]
  refine ⟨?_, hret⟩
  rwa [hreceived, receivedIn_call]

end LuaNet.Socket
