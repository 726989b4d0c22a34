import LuaNet.Lib.Ledger
import Mathlib.Data.List.Infix
import Mathlib.Logic.Function.Basic

/-! Two equal components over a link with a channel in each direction. A component keeps two
ledgers, of what it sends and of what it receives; the channel between them is first in, first
out, can be shut by its sender and cut by the network, and its loss starts with the cut. -/

namespace LuaNet.Lib

variable {σ ι ε α : Type*}

/-- A component with a sending and a receiving side. `ended` tells that the receiving side has
seen the end of the channel, which is what an observation with `eof` is about. -/
structure Endpoint (σ ι ε α : Type*) where
  step : σ → ι → σ × List ε
  tx : Ledger σ ε α
  rx : Ledger σ ε α
  eof : ε → Bool
  ended : σ → Bool
  Ok : σ → Prop
  keeps : ∀ s i, Ok s → Ok (step s i).1
  tx_balanced : ∀ s i, Ok s → tx.Balanced s (step s i).2 (step s i).1
  rx_balanced : ∀ s i, Ok s → rx.Balanced s (step s i).2 (step s i).1
  ended_iff : ∀ s i, Ok s →
    (ended (step s i).1 = true ↔ ended s = true ∨ (step s i).2.any eof = true)

structure Channel (α : Type*) where
  transit : List α := []
  lost : List α := []
  shut : Bool := false
  cut : Bool := false

namespace Channel

def Intact (c : Channel α) : Prop := c.lost ≠ [] → c.cut = true

def Ended (c : Channel α) : Prop := c.transit = [] ∧ (c.shut = true ∨ c.cut = true)

def Open (c : Channel α) : Prop := c.shut = false ∧ c.cut = false

def put (c : Channel α) (xs : List α) : Channel α :=
  if c.cut then { c with lost := c.lost ++ xs } else { c with transit := c.transit ++ xs }

def take (c : Channel α) (n : Nat) : Channel α := { c with transit := c.transit.drop n }

def sever (c : Channel α) (keep : Nat) : Channel α :=
  { c with transit := c.transit.take keep, lost := c.transit.drop keep ++ c.lost, cut := true }

@[simp] theorem take_lost (c : Channel α) (n : Nat) : (c.take n).lost = c.lost := rfl

@[simp] theorem put_shut (c : Channel α) (xs : List α) : (c.put xs).shut = c.shut := by
  unfold put
  split <;> rfl

@[simp] theorem put_cut (c : Channel α) (xs : List α) : (c.put xs).cut = c.cut := by
  unfold put
  split <;> rfl

@[simp] theorem put_nil (c : Channel α) : c.put [] = c := by
  unfold put
  split <;> simp only [List.append_nil]

theorem put_of_not_cut {c : Channel α} (h : c.cut = false) (xs : List α) :
    c.put xs = { c with transit := c.transit ++ xs } := by
  rw [put, h]
  rfl

theorem put_append {c : Channel α} (h : c.Intact) (xs ys : List α) :
    (c.put xs).transit ++ ((c.put xs).lost ++ ys) = c.transit ++ (c.lost ++ (xs ++ ys)) := by
  unfold put
  split
  · simp only [List.append_assoc]
  · next hcut =>
    have hlost : c.lost = [] := by
      by_contra hne
      exact hcut (h hne)
    simp only [hlost, List.nil_append, List.append_assoc]

theorem sever_append (c : Channel α) (keep : Nat) (ys : List α) :
    (c.sever keep).transit ++ ((c.sever keep).lost ++ ys) = c.transit ++ (c.lost ++ ys) := by
  simp only [sever, ← List.append_assoc, List.take_append_drop]

theorem put_intact {c : Channel α} (h : c.Intact) (xs : List α) : (c.put xs).Intact := by
  intro hne
  rw [put_cut]
  cases hcut : c.cut with
  | true => rfl
  | false =>
    rw [put_of_not_cut hcut] at hne
    rw [h hne] at hcut
    cases hcut

theorem put_ended {c : Channel α} (h : c.Ended) {xs : List α} (hshut : c.shut = true → xs = []) :
    (c.put xs).Ended := by
  obtain ⟨htransit, hend⟩ := h
  refine ⟨?_, by simpa only [put_shut, put_cut] using hend⟩
  cases hcut : c.cut with
  | true => simp only [put, hcut, if_true, htransit]
  | false =>
    have hxs : xs = [] := hshut (hend.resolve_right (by rw [hcut]; exact Bool.false_ne_true))
    rw [hxs, put_nil, htransit]

theorem Open.put {c : Channel α} (h : c.Open) (xs : List α) : (c.put xs).Open := by
  simpa only [Open, put_shut, put_cut] using h

theorem Open.take {c : Channel α} (h : c.Open) (n : Nat) : (c.take n).Open := h

theorem take_ended {c : Channel α} (h : c.Ended) (n : Nat) : (c.take n).Ended := by
  refine ⟨?_, h.2⟩
  simp only [take, h.1, List.drop_nil]

end Channel

structure LinkState (σ α : Type*) where
  node : Bool → σ
  /-- The channel from the component of a side to the other one. -/
  chan : Bool → Channel α

inductive LinkOp (ι : Type*)
  | node (b : Bool) (i : ι)
  | shut (b : Bool)
  | cut (b : Bool) (keep : Nat)

def sideOf (b : Bool) (es : List (Bool × ε)) : List ε :=
  (es.filter fun e => e.1 == b).map Prod.snd

@[simp] theorem sideOf_nil (b : Bool) : sideOf b ([] : List (Bool × ε)) = [] := rfl

@[simp] theorem sideOf_append (b : Bool) (es fs : List (Bool × ε)) :
    sideOf b (es ++ fs) = sideOf b es ++ sideOf b fs := by
  simp only [sideOf, List.filter_append, List.map_append]

theorem sideOf_same (b : Bool) (es : List ε) : sideOf b (es.map (Prod.mk b)) = es := by
  have hall : ∀ e ∈ es.map (Prod.mk b), (e.1 == b) = true := by
    intro e he
    obtain ⟨e', -, rfl⟩ := List.mem_map.mp he
    exact beq_self_eq_true b
  rw [sideOf, List.filter_eq_self.mpr hall, List.map_map]
  exact List.map_id es

theorem sideOf_other {b c : Bool} (h : c ≠ b) (es : List ε) :
    sideOf b (es.map (Prod.mk c)) = [] := by
  have hnone : ∀ e ∈ es.map (Prod.mk c), ¬ (e.1 == b) = true := by
    intro e he heq
    obtain ⟨e', -, rfl⟩ := List.mem_map.mp he
    exact h (beq_iff_eq.mp heq)
  rw [sideOf, List.filter_eq_nil_iff.mpr hnone, List.map_nil]

namespace Endpoint

variable (N : Endpoint σ ι ε α)

def departures (es : List ε) : List α := es.flatMap N.tx.outflow

def arrivals (es : List ε) : List α := es.flatMap N.rx.inflow

def linkStep (s : LinkState σ α) : LinkOp ι → LinkState σ α × List (Bool × ε)
  | .node b i =>
    let r := N.step (s.node b) i
    ({ node := Function.update s.node b r.1
       chan := fun c =>
        if c = b then (s.chan c).put (N.departures r.2)
        else (s.chan c).take (N.arrivals r.2).length },
      r.2.map (Prod.mk b))
  | .shut b =>
    ({ s with chan := Function.update s.chan b { s.chan b with shut := true } }, [])
  | .cut b keep => ({ s with chan := Function.update s.chan b ((s.chan b).sever keep) }, [])

/-- What a component sees is what the link has for it: it receives the front of the channel, its
end only behind the last of it, and sends nothing once it has shut its side. -/
def Honest (s : LinkState σ α) : LinkOp ι → Prop
  | .node b i =>
    let es := (N.step (s.node b) i).2
    let c := s.chan (!b)
    N.arrivals es <+: c.transit ∧
      (es.any N.eof = true → N.arrivals es = c.transit ∧ (c.shut = true ∨ c.cut = true)) ∧
      ((s.chan b).shut = true → N.departures es = [])
  | .shut _ => True
  | .cut _ _ => True

instance [DecidableEq α] (s : LinkState σ α) : ∀ op, Decidable (N.Honest s op)
  | .node b i => by
    have : Decidable (N.arrivals (N.step (s.node b) i).2 <+: (s.chan (!b)).transit) :=
      inferInstance
    unfold Honest
    infer_instance
  | .shut _ => isTrue trivial
  | .cut _ _ => isTrue trivial

/-- What holds of the link after a history: everything taken in on one side is handed over on
the other, or held, or under way, or lost, in this order. -/
structure Linked (s : LinkState σ α) (es : List (Bool × ε)) : Prop where
  ok : ∀ b, N.Ok (s.node b)
  intact : ∀ b, (s.chan b).Intact
  conserved : ∀ b, (sideOf (!b) es).flatMap N.rx.outflow ++ (N.rx.held (s.node (!b)) ++
    ((s.chan b).transit ++ ((s.chan b).lost ++ N.tx.held (s.node b)))) =
      (sideOf b es).flatMap N.tx.inflow
  ended : ∀ b, N.ended (s.node (!b)) = true → (s.chan b).Ended

variable {N}

section Steps

variable {s : LinkState σ α} {es : List (Bool × ε)}

theorem Linked.send (h : N.Linked s es) {b : Bool} {i : ι} :
    (sideOf (!b) es).flatMap N.rx.outflow ++ (N.rx.held (s.node (!b)) ++
        (((s.chan b).put (N.departures (N.step (s.node b) i).2)).transit ++
          (((s.chan b).put (N.departures (N.step (s.node b) i).2)).lost ++
            N.tx.held (N.step (s.node b) i).1))) =
      (sideOf b es).flatMap N.tx.inflow ++ (N.step (s.node b) i).2.flatMap N.tx.inflow := by
  have hbal := N.tx_balanced (s.node b) i (h.ok b)
  rw [Channel.put_append (h.intact b), departures, hbal, ← h.conserved b]
  simp only [List.append_assoc]

theorem Linked.receive (h : N.Linked s es) {b : Bool} {i : ι} {rest : List α}
    (hfront : N.arrivals (N.step (s.node b) i).2 <+: (s.chan (!b)).transit) :
    (sideOf b es).flatMap N.rx.outflow ++ (N.step (s.node b) i).2.flatMap N.rx.outflow ++
        (N.rx.held (N.step (s.node b) i).1 ++
          (((s.chan (!b)).take (N.arrivals (N.step (s.node b) i).2).length).transit ++ rest)) =
      (sideOf b es).flatMap N.rx.outflow ++ (N.rx.held (s.node b) ++
        ((s.chan (!b)).transit ++ rest)) := by
  have hbal := N.rx_balanced (s.node b) i (h.ok b)
  obtain ⟨left, hleft⟩ := hfront
  have hdrop : (s.chan (!b)).transit.drop (N.arrivals (N.step (s.node b) i).2).length = left := by
    rw [← hleft, List.drop_left]
  rw [List.append_assoc, ← List.append_assoc (List.flatMap _ _) (N.rx.held _), hbal, Channel.take,
    hdrop, ← hleft, arrivals]
  simp only [List.append_assoc]

theorem Linked.node_step (h : N.Linked s es) {b : Bool} {i : ι} (hi : N.Honest s (.node b i)) :
    N.Linked (N.linkStep s (.node b i)).1 (es ++ (N.linkStep s (.node b i)).2) := by
  obtain ⟨hfront, heof, hshut⟩ := hi
  have hself : (!b) ≠ b := by cases b <;> decide
  have hne : b ≠ !b := hself.symm
  have hside : ∀ c, c = b ∨ c = !b := fun c => by cases b <;> cases c <;> decide
  refine ⟨fun c => ?_, fun c => ?_, fun c => ?_, fun c hc => ?_⟩
  · rcases hside c with rfl | rfl
    · simpa only [linkStep, Function.update_self] using N.keeps (s.node c) i (h.ok c)
    · simpa only [linkStep, Function.update_of_ne hself] using h.ok (!b)
  · rcases hside c with rfl | rfl
    · simpa only [linkStep, if_true] using Channel.put_intact (h.intact c) _
    · simp only [linkStep, if_neg hself]
      exact h.intact (!b)
  · rcases hside c with rfl | rfl
    · simp only [linkStep, sideOf_append, sideOf_same, sideOf_other hne, List.append_nil,
        Function.update_self, Function.update_of_ne hself, if_true, List.flatMap_append]
      exact h.send
    · simp only [linkStep, Bool.not_not, sideOf_append, sideOf_same, sideOf_other hne,
        List.append_nil, Function.update_self, Function.update_of_ne hself, if_neg hself,
        List.flatMap_append, Channel.take_lost]
      rw [h.receive hfront]
      simpa only [Bool.not_not] using h.conserved (!b)
  · rcases hside c with rfl | rfl
    · simp only [linkStep, Function.update_of_ne hself] at hc
      simp only [linkStep, if_true]
      exact Channel.put_ended (h.ended c hc) hshut
    · simp only [linkStep, Bool.not_not, Function.update_self] at hc
      simp only [linkStep, if_neg hself]
      rcases (N.ended_iff (s.node b) i (h.ok b)).mp hc with hold | hnew
      · exact Channel.take_ended (h.ended (!b) (by rwa [Bool.not_not])) _
      · obtain ⟨hall, hend⟩ := heof hnew
        refine ⟨?_, hend⟩
        rw [Channel.take, hall, List.drop_length]

theorem Linked.chan_step (h : N.Linked s es) {b : Bool} {c : Channel α} (hintact : c.Intact)
    (happ : ∀ ys, c.transit ++ (c.lost ++ ys) =
      (s.chan b).transit ++ ((s.chan b).lost ++ ys))
    (hended : (s.chan b).Ended → c.Ended) :
    N.Linked { s with chan := Function.update s.chan b c } es := by
  have hcase : ∀ {P : Channel α → Prop} (d : Bool), (d = b → P c) → (d ≠ b → P (s.chan d)) →
      P (Function.update s.chan b c d) := by
    intro P d hself hother
    by_cases hd : d = b
    · rw [hd, Function.update_self]
      exact hself hd
    · rw [Function.update_of_ne hd]
      exact hother hd
  refine ⟨h.ok, fun d => hcase d (fun _ => hintact) fun _ => h.intact d, fun d => ?_, fun d hd => ?_⟩
  · refine hcase (P := fun x => _ ++ (_ ++ (x.transit ++ (x.lost ++ _))) = _) d ?_
      fun _ => h.conserved d
    rintro rfl
    rw [happ]
    exact h.conserved d
  · refine hcase d ?_ fun _ => h.ended d hd
    rintro rfl
    exact hended (h.ended d hd)

theorem Linked.step (h : N.Linked s es) {op : LinkOp ι} (hop : N.Honest s op) :
    N.Linked (N.linkStep s op).1 (es ++ (N.linkStep s op).2) := by
  cases op with
  | node b i => exact h.node_step hop
  | shut b =>
    simp only [linkStep, List.append_nil]
    exact h.chan_step (h.intact b) (fun _ => rfl) fun hend => ⟨hend.1, .inl rfl⟩
  | cut b keep =>
    simp only [linkStep, List.append_nil]
    refine h.chan_step (fun _ => rfl) (fun ys => (s.chan b).sever_append keep ys) fun hend => ?_
    refine ⟨?_, .inr rfl⟩
    simp only [Channel.sever, hend.1, List.take_nil]

end Steps

/-- The books of the link balance after every run of honest steps. -/
theorem runs_linked {s : LinkState σ α} {es : List (Bool × ε)} (hs : N.Linked s es)
    {ops : List (LinkOp ι)} (hops : Along N.linkStep N.Honest s ops) :
    N.Linked (runs N.linkStep s ops).1 (es ++ (runs N.linkStep s ops).2) :=
  runs_history_along (fun _ _ _ hop h => h.step hop) hs hops

theorem Linked.start {node : Bool → σ} (hok : ∀ b, N.Ok (node b))
    (htx : ∀ b, N.tx.held (node b) = []) (hrx : ∀ b, N.rx.held (node b) = [])
    (hended : ∀ b, N.ended (node b) = false) : N.Linked ⟨node, fun _ => {}⟩ [] := by
  refine ⟨hok, fun _ hne => absurd rfl hne, fun b => ?_, fun b hb => ?_⟩
  · simp only [sideOf_nil, List.flatMap_nil, htx, hrx, List.append_nil]
  · rw [hended] at hb
    cases hb

section Progress

variable (N) in
def Quiet (es : List ε) : Prop := es.flatMap N.tx.inflow = [] ∧ es.any N.eof = false

variable (N) in
/-- A component that can move on: it can send of what it holds, hand over of what it received, and
take of what has come for it once it holds nothing. -/
structure Responsive : Prop where
  sends : ∀ s, N.Ok s → N.tx.held s ≠ [] → ∃ i, N.departures (N.step s i).2 ≠ [] ∧
    N.arrivals (N.step s i).2 = [] ∧ N.Quiet (N.step s i).2
  delivers : ∀ s, N.Ok s → N.rx.held s ≠ [] → ∃ i, (N.step s i).2.flatMap N.rx.outflow ≠ [] ∧
    N.departures (N.step s i).2 = [] ∧ N.arrivals (N.step s i).2 = [] ∧ N.Quiet (N.step s i).2
  accepts : ∀ s xs, N.Ok s → N.ended s = false → N.rx.held s = [] → xs ≠ [] → ∃ i,
    N.arrivals (N.step s i).2 ≠ [] ∧ N.arrivals (N.step s i).2 <+: xs ∧
      N.departures (N.step s i).2 = [] ∧ N.Quiet (N.step s i).2

variable (N) in
def remaining (s : LinkState σ α) (b : Bool) : Nat :=
  3 * (N.tx.held (s.node b)).length +
    (2 * (s.chan b).transit.length + (N.rx.held (s.node (!b))).length)

variable {s : LinkState σ α} {es : List (Bool × ε)} {b : Bool}

theorem Linked.not_ended (h : N.Linked s es) (hopen : (s.chan b).Open) :
    N.ended (s.node (!b)) = false := by
  rw [← Bool.not_eq_true]
  intro hend
  have hclosed := (h.ended b hend).2
  rw [hopen.1, hopen.2] at hclosed
  simp only [Bool.false_eq_true, or_self] at hclosed

theorem Linked.lost_nil (h : N.Linked s es) (hopen : (s.chan b).Open) :
    (s.chan b).lost = [] := by
  by_contra hne
  have hcut := h.intact b hne
  rw [hopen.2] at hcut
  cases hcut

theorem quiet_tx_length (hok : N.Ok (s.node b)) {i : ι} (hq : N.Quiet (N.step (s.node b) i).2) :
    (N.departures (N.step (s.node b) i).2).length + (N.tx.held (N.step (s.node b) i).1).length =
      (N.tx.held (s.node b)).length := by
  have hbal := congrArg List.length (N.tx_balanced (s.node b) i hok)
  rw [hq.1, List.append_nil, List.length_append] at hbal
  exact hbal

theorem rx_length {c : Bool} (hok : N.Ok (s.node c)) (i : ι) :
    ((N.step (s.node c) i).2.flatMap N.rx.outflow).length +
        (N.rx.held (N.step (s.node c) i).1).length =
      (N.rx.held (s.node c)).length + (N.arrivals (N.step (s.node c) i).2).length := by
  have hbal := congrArg List.length (N.rx_balanced (s.node c) i hok)
  rw [List.length_append, List.length_append] at hbal
  exact hbal

theorem remaining_sender (h : N.Linked s es) (hopen : (s.chan b).Open) {i : ι}
    (hq : N.Quiet (N.step (s.node b) i).2) :
    N.remaining (N.linkStep s (.node b i)).1 b + (N.departures (N.step (s.node b) i).2).length =
      N.remaining s b := by
  have hself : (!b) ≠ b := by cases b <;> decide
  have htx := quiet_tx_length (h.ok b) hq
  simp only [remaining, linkStep, Function.update_self, Function.update_of_ne hself, if_true,
    Channel.put_of_not_cut hopen.2, List.length_append]
  omega

theorem remaining_receiver (h : N.Linked s es) {i : ι}
    (hfront : N.arrivals (N.step (s.node (!b)) i).2 <+: (s.chan b).transit) :
    N.remaining (N.linkStep s (.node (!b) i)).1 b +
        ((N.arrivals (N.step (s.node (!b)) i).2).length +
          ((N.step (s.node (!b)) i).2.flatMap N.rx.outflow).length) = N.remaining s b := by
  have hself : b ≠ !b := by cases b <;> decide
  have hrx := rx_length (h.ok (!b)) i
  have hle := hfront.length_le
  simp only [remaining, linkStep, Function.update_self, Function.update_of_ne hself,
    if_neg hself, Channel.take, List.length_drop]
  omega

theorem Quiet.side {c : Bool} {fs : List ε} (h : N.Quiet fs) (d : Bool) :
    (sideOf d (fs.map (Prod.mk c))).flatMap N.tx.inflow = [] := by
  by_cases hd : c = d
  · rw [hd, sideOf_same]
    exact h.1
  · rw [sideOf_other hd, List.flatMap_nil]

/-- As long as something is on its way over an open channel, some step brings it further. -/
theorem Linked.advance (hN : N.Responsive) (h : N.Linked s es) (hopen : (s.chan b).Open)
    (hne : N.remaining s b ≠ 0) : ∃ op, N.Honest s op ∧
      N.remaining (N.linkStep s op).1 b < N.remaining s b ∧
      ((N.linkStep s op).1.chan b).Open ∧
      ∀ d, (sideOf d (N.linkStep s op).2).flatMap N.tx.inflow = [] := by
  have hself : b ≠ !b := by cases b <;> decide
  have hquiet {fs : List ε} (hq : N.Quiet fs) {P : Prop} (heof : fs.any N.eof = true) : P := by
    rw [hq.2] at heof
    cases heof
  by_cases htx : N.tx.held (s.node b) = []
  · by_cases hrx : N.rx.held (s.node (!b)) = []
    · have htransit : (s.chan b).transit ≠ [] := by
        intro hnil
        apply hne
        simp only [remaining, htx, hrx, hnil, List.length_nil, Nat.mul_zero, Nat.add_zero]
      obtain ⟨i, harr, hfront, hdep, hq⟩ :=
        hN.accepts (s.node (!b)) (s.chan b).transit (h.ok (!b)) (h.not_ended hopen) hrx htransit
      have hrem := remaining_receiver h hfront
      have hpos := List.length_pos_iff.mpr harr
      refine ⟨.node (!b) i, ⟨?_, hquiet hq, fun _ => hdep⟩, by omega, ?_, hq.side⟩
      · rw [Bool.not_not]
        exact hfront
      · simpa only [linkStep, if_neg hself] using hopen.take _
    · obtain ⟨i, hout, hdep, harr, hq⟩ := hN.delivers (s.node (!b)) (h.ok (!b)) hrx
      have hfront : N.arrivals (N.step (s.node (!b)) i).2 <+: (s.chan b).transit := by
        rw [harr]
        exact List.nil_prefix
      have hrem := remaining_receiver h hfront
      have hpos := List.length_pos_iff.mpr hout
      refine ⟨.node (!b) i, ⟨?_, hquiet hq, fun _ => hdep⟩, by omega, ?_, hq.side⟩
      · rw [Bool.not_not]
        exact hfront
      · simpa only [linkStep, if_neg hself] using hopen.take _
  · obtain ⟨i, hdep, harr, hq⟩ := hN.sends (s.node b) (h.ok b) htx
    have hrem := remaining_sender h hopen hq
    have hpos := List.length_pos_iff.mpr hdep
    refine ⟨.node b i, ⟨?_, hquiet hq, fun hshut => ?_⟩, by omega, ?_, hq.side⟩
    · rw [harr]
      exact List.nil_prefix
    · rw [hopen.1] at hshut
      cases hshut
    · simpa only [linkStep, if_true] using hopen.put _

theorem Linked.completes (hN : N.Responsive) (h : N.Linked s es)
    (hopen : (s.chan b).Open) : ∃ ops, Along N.linkStep N.Honest s ops ∧
      (∀ d, (sideOf d (runs N.linkStep s ops).2).flatMap N.tx.inflow = []) ∧
      (sideOf (!b) (es ++ (runs N.linkStep s ops).2)).flatMap N.rx.outflow =
        (sideOf b es).flatMap N.tx.inflow := by
  induction hn : N.remaining s b using Nat.strong_induction_on generalizing s es with
  | _ n ih =>
    by_cases hzero : N.remaining s b = 0
    · refine ⟨[], trivial, fun _ => rfl, ?_⟩
      have hcons := h.conserved b
      have htx : N.tx.held (s.node b) = [] := List.length_eq_zero_iff.mp (by
        simp only [remaining] at hzero
        omega)
      have htransit : (s.chan b).transit = [] := List.length_eq_zero_iff.mp (by
        simp only [remaining] at hzero
        omega)
      have hrx : N.rx.held (s.node (!b)) = [] := List.length_eq_zero_iff.mp (by
        simp only [remaining] at hzero
        omega)
      rw [htx, htransit, hrx, h.lost_nil hopen] at hcons
      simpa only [runs_nil, List.append_nil] using hcons
    · obtain ⟨op, hop, hless, hopen', hside⟩ := h.advance hN hopen hzero
      obtain ⟨ops, hops, hquiet, hdone⟩ := ih _ (hn ▸ hless) (h.step hop) hopen' rfl
      refine ⟨op :: ops, ⟨hop, hops⟩, fun d => ?_, ?_⟩
      · rw [runs, sideOf_append, List.flatMap_append, hside, hquiet, List.append_nil]
      · rw [runs, ← List.append_assoc, hdone, sideOf_append, List.flatMap_append, hside,
          List.append_nil]

end Progress

end Endpoint
end LuaNet.Lib
