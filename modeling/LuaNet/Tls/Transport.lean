import LuaNet.Lib.Link
import LuaNet.Tls.BioRx
import LuaNet.Tls.SocketWrite

/-! Two TLS endpoints and the connection between their descriptors. What leaves a transmit ring
goes on the wire, what a receive ring takes in comes off it; the `peek`/`consume` and
`space`/`commit` paths stand for a caller that moves the segment itself. -/

namespace LuaNet.Tls

open LuaNet.Lib

def bioEndpoint : Endpoint TlsBio BioOp BioEvent Byte where
  step := bioStep
  tx := txLedger
  rx := rxLedger
  eof e := decide (e = .eofRead)
  ended bio := bio.rx.rxEof
  Ok bio := bio.Live TlsBio.tx ∧ bio.Live TlsBio.rx
  keeps bio op h := ⟨(bioStep_tx bio op h.1).1, (bioStep_rx bio op h.2).1⟩
  tx_balanced bio op h := (bioStep_tx bio op h.1).2
  rx_balanced bio op h := (bioStep_rx bio op h.2).2.balanced
  ended_iff bio op h := by
    rw [(bioStep_rx bio op h.2).2.eof, List.any_eq_true]
    simp only [decide_eq_true_eq, exists_eq_right]

def bioLink (fd : Bool → Nat) (cap : Bool → RingCap) : LinkState TlsBio Byte where
  node b := tlsBioNew (fd b) (cap b)
  chan _ := {}

def linkStep : LinkState TlsBio Byte → LinkOp BioOp →
    LinkState TlsBio Byte × List (Bool × BioEvent) :=
  bioEndpoint.linkStep

/-- The two kernels move bytes in order and report the end of the stream behind the last of
them; nothing is sent on a side that was shut down. -/
def HonestWire : LinkState TlsBio Byte → LinkOp BioOp → Prop := bioEndpoint.Honest

instance (s : LinkState TlsBio Byte) (op : LinkOp BioOp) : Decidable (HonestWire s op) :=
  inferInstanceAs (Decidable (bioEndpoint.Honest s op))

def writtenBy (b : Bool) (es : List (Bool × BioEvent)) : List Byte :=
  (sideOf b es).flatMap txLedger.inflow

def deliveredTo (b : Bool) (es : List (Bool × BioEvent)) : List Byte :=
  (sideOf b es).flatMap rxLedger.outflow

theorem bioLink_linked (fd : Bool → Nat) (cap : Bool → RingCap) :
    bioEndpoint.Linked (bioLink fd cap) [] :=
  Endpoint.Linked.start
    (fun b => ⟨tlsBioNew_live_tx (fd b) (cap b), tlsBioNew_live_rx (fd b) (cap b)⟩)
    (fun _ => rfl) (fun _ => rfl) fun _ => rfl

section Progress

variable {bio : TlsBio}

theorem drain_sends (h : bio.Live TlsBio.tx) (hne : bio.tx.buf.contents ≠ []) :
    ∃ bs, bs ≠ [] ∧ (bioStep bio (.drain [.accepted 1])).2 = [.sent bs] := by
  have hpos : 0 < zringDataSize bio.tx.buf := by
    rw [Nat.pos_iff_ne_zero, ne_eq, zringDataSize_eq_zero h.valid]
    exact fun hzero => hne (Zring.contents_eq_nil.mpr hzero)
  have hdata : zringData bio.tx.buf = some (bio.tx.buf.head, zringDataSize bio.tx.buf) := by
    simp only [zringData, hpos.ne', if_false]
  have hmin : min 1 (zringDataSize bio.tx.buf) = 1 := Nat.min_eq_left hpos
  refine ⟨bio.tx.buf.load bio.tx.buf.head 1, ?_, ?_⟩
  · rw [← List.length_pos_iff, Zring.load_length]
    exact Nat.one_pos
  · simp only [bioStep, drainLua_live h, drainLoop, hdata, hmin, Nat.one_ne_zero, if_false]
    split
    · rfl
    · rfl

theorem rxRead_delivers (h : bio.Live TlsBio.rx) (hne : bio.rx.buf.contents ≠ []) :
    ∃ bs, bs ≠ [] ∧ (bioStep bio (.rxRead 1)).2 = [.delivered bs] := by
  obtain ⟨hrc, -, hlen⟩ := bioRxRead_nonempty h.valid Int.one_pos hne
  refine ⟨(bioRxRead bio.rx 1).2.1, ?_, rfl⟩
  rw [← List.length_pos_iff]
  omega

theorem fill_receives (h : bio.Live TlsBio.rx) (hend : bio.rx.rxEof = false)
    (hempty : bio.rx.buf.contents = []) {bs : List Byte} (hbs : bs ≠ []) :
    ∃ n, bs.take n ≠ [] ∧ (bioStep bio (.fill [.data bs])).2 = [.read (.data (bs.take n))] := by
  have hroom : zringSpaceSize bio.rx.buf ≠ 0 := by
    rw [ne_eq, zringSpaceSize_eq_zero h.valid, Zring.contents_eq_nil.mp hempty]
    exact h.valid.cap_pos.ne
  have hspace : zringSpace bio.rx.buf = some (bio.rx.buf.tail, zringSpaceSize bio.rx.buf) := by
    simp only [zringSpace, hroom, if_false]
  have hlen : (bs.take (zringSpaceSize bio.rx.buf)).length ≠ 0 := by
    have hpos := List.length_pos_iff.mpr hbs
    rw [List.length_take]
    omega
  refine ⟨zringSpaceSize bio.rx.buf, fun hnil => hlen (by rw [hnil, List.length_nil]), ?_⟩
  simp only [bioStep, fillLua, h.not_freed, hend, hspace, fillLoop, hlen, if_false,
    Bool.false_eq_true]
  split
  · rfl
  · rfl

theorem bioEndpoint_responsive : bioEndpoint.Responsive where
  sends bio h hne := by
    obtain ⟨bs, hbs, hes⟩ := drain_sends h.1 hne
    refine ⟨.drain [.accepted 1], ?_⟩
    show bioEndpoint.departures (bioStep bio (.drain [.accepted 1])).2 ≠ [] ∧
      bioEndpoint.arrivals (bioStep bio (.drain [.accepted 1])).2 = [] ∧
      bioEndpoint.Quiet (bioStep bio (.drain [.accepted 1])).2
    rw [hes]
    exact ⟨by simpa [Endpoint.departures, bioEndpoint, txLedger] using hbs, rfl, rfl, rfl⟩
  delivers bio h hne := by
    obtain ⟨bs, hbs, hes⟩ := rxRead_delivers h.2 hne
    refine ⟨.rxRead 1, ?_⟩
    show (bioStep bio (.rxRead 1)).2.flatMap rxLedger.outflow ≠ [] ∧
      bioEndpoint.departures (bioStep bio (.rxRead 1)).2 = [] ∧
      bioEndpoint.arrivals (bioStep bio (.rxRead 1)).2 = [] ∧
      bioEndpoint.Quiet (bioStep bio (.rxRead 1)).2
    rw [hes]
    exact ⟨by simpa [rxLedger] using hbs, rfl, rfl, rfl, rfl⟩
  accepts bio xs h hend hempty hne := by
    obtain ⟨n, hn, hes⟩ := fill_receives h.2 hend hempty hne
    have heof : decide (BioEvent.read (.data (xs.take n)) = .eofRead) = false := by
      simpa only [BioEvent.eofRead, BioEvent.read.injEq, ReadResult.data.injEq,
        decide_eq_false_iff_not] using hn
    refine ⟨.fill [.data xs], ?_⟩
    show bioEndpoint.arrivals (bioStep bio (.fill [.data xs])).2 ≠ [] ∧
      bioEndpoint.arrivals (bioStep bio (.fill [.data xs])).2 <+: xs ∧
      bioEndpoint.departures (bioStep bio (.fill [.data xs])).2 = [] ∧
      bioEndpoint.Quiet (bioStep bio (.fill [.data xs])).2
    have harr : bioEndpoint.arrivals [.read (.data (xs.take n))] = xs.take n := List.append_nil _
    rw [hes, harr]
    refine ⟨hn, List.take_prefix n xs, rfl, rfl, ?_⟩
    rw [List.any_cons, List.any_nil, Bool.or_false]
    exact heof

end Progress

/-- Two BIOs over a connection: in every run, the bytes one side hands to OpenSSL are those the
other side took from OpenSSL, in order, none twice and none between them missing. A read that
reports the end of the stream comes behind everything that was sent on a side now shut down or cut
off; and as long as neither has happened, what was written can still all be delivered. -/
theorem transport_fifo (fd : Bool → Nat) (cap : Bool → RingCap) (ops : List (LinkOp BioOp))
    (hops : Along linkStep HonestWire (bioLink fd cap) ops) (b : Bool) :
    let s := (runs linkStep (bioLink fd cap) ops).1
    let es := (runs linkStep (bioLink fd cap) ops).2
    deliveredTo (!b) es ++ ((s.node (!b)).rx.buf.contents ++ ((s.chan b).transit ++
        ((s.chan b).lost ++ (s.node b).tx.buf.contents))) = writtenBy b es ∧
      ((s.chan b).lost ≠ [] → (s.chan b).cut = true) ∧
      (∀ len, 0 < len → (bioRxRead (s.node (!b)).rx len).1.rc = 0 →
        ((s.chan b).shut = true ∨ (s.chan b).cut = true) ∧
        deliveredTo (!b) es ++ ((s.chan b).lost ++ (s.node b).tx.buf.contents) =
          writtenBy b es) ∧
      ((s.chan b).shut = false → (s.chan b).cut = false →
        ∃ more, Along linkStep HonestWire s more ∧
          (∀ c, writtenBy c (runs linkStep s more).2 = []) ∧
          deliveredTo (!b) (es ++ (runs linkStep s more).2) = writtenBy b es) := by
  intro s es
  have h : bioEndpoint.Linked s es := Endpoint.runs_linked (bioLink_linked fd cap) hops
  have hcons := h.conserved b
  refine ⟨hcons, h.intact b, fun len hlen hrc => ?_, fun hshut hcut => ?_⟩
  · have hempty : (s.node (!b)).rx.buf.contents = [] := by
      by_contra hne
      have hpos := (bioRxRead_nonempty (h.ok (!b)).2.valid hlen hne).1
      omega
    have hend : (s.node (!b)).rx.rxEof = true := by
      rw [bioRxRead_empty (h.ok (!b)).2.valid hlen hempty] at hrc
      by_contra hne
      rw [if_neg hne] at hrc
      cases hrc
    obtain ⟨htransit, hclosed⟩ := h.ended b hend
    refine ⟨hclosed, ?_⟩
    rw [htransit, show bioEndpoint.rx.held (s.node (!b)) = [] from hempty] at hcons
    exact hcons
  · exact h.completes bioEndpoint_responsive ⟨hshut, hcut⟩

def shutRun : List (LinkOp BioOp) :=
  [.node true (.txWrite [1, 2, 3]), .node true (.drain [.accepted 2, .failed .eagain]),
    .node false (.fill [.data [1, 2], .failed .eagain]), .node true (.txWrite [4, 5]),
    .node true (.txWrite [5]), .node false (.rxRead 1),
    .node true (.drain [.accepted 8, .accepted 8]),
    .node false (.fill [.data [3, 4], .data [5]]), .node false (.rxRead 8), .shut true,
    .node false (.rxRead 8), .node false (.fill [.data []])]

theorem transport_fifo_shutRun :
    let s := (runs linkStep (bioLink (fun _ => 3) fun _ => writeCap) shutRun).1
    let es := (runs linkStep (bioLink (fun _ => 3) fun _ => writeCap) shutRun).2
    deliveredTo false es = [1, 2, 3, 4, 5] ∧
      deliveredTo false es ++ ((s.node false).rx.buf.contents ++ ((s.chan true).transit ++
        ((s.chan true).lost ++ (s.node true).tx.buf.contents))) = writtenBy true es :=
  ⟨by decide, (transport_fifo (fun _ => 3) (fun _ => writeCap) shutRun (by decide) true).1⟩

end LuaNet.Tls
