import LuaNet.Lib.Ledger
import LuaNet.Tls.Bio

/-! The transmit side is a queue: what OpenSSL writes leaves through send(2) and `consume` in
the order it came, and the ring holds the rest. -/

namespace LuaNet.Tls

open LuaNet.Lib

def txLedger : Ledger TlsBio BioEvent Byte where
  held bio := bio.tx.buf.contents
  inflow
    | .written bs => bs
    | _ => []
  outflow
    | .sent bs => bs
    | .consumed bs => bs
    | _ => []

/-- What send(2) takes when it is called on the readable segment over and over, and answers `rs`. -/
def sendsAnswered (b : TlsBioBuf) : List SendResult → List BioEvent
  | [] => []
  | .failed _ :: rs => sendsAnswered b rs
  | .accepted n :: rs =>
    let n := min n (zringDataSize b.buf)
    (if n = 0 then [] else [.sent (b.buf.contents.take n)]) ++
      sendsAnswered { b with buf := (zringConsume b.buf n).1 } rs

def SendResult.goesOn : SendResult → Bool
  | .accepted n => n ≠ 0
  | .failed e => e = .eintr

def SendResult.ends (total : Nat) : SendResult → IoRet
  | .accepted _ => { n := some total, again := true }
  | .failed e =>
    if e = .eagain ∨ e = .ewouldblock then { n := some total, again := true }
    else { err := some (e, "drain") }

/-- How a drain comes to its end when it has used the answers `used`, `rest` is left of them and
`left` of the ring. -/
def DrainEnds (used rest : List SendResult) (left : List Byte) (total : Nat) :
    Option IoRet → Prop
  | none => rest = [] ∧ (∀ r ∈ used, r.goesOn = true) ∧ left ≠ []
  | some ret =>
    (∀ r ∈ used, r.goesOn = true) ∧ left = [] ∧ ret = { n := some total } ∨
      ∃ before r, used = before ++ [r] ∧ (∀ r ∈ before, r.goesOn = true) ∧ r.goesOn = false ∧
        ret = r.ends total

section Functions

theorem bioTxWrite_spec {b : TlsBioBuf} (hv : b.buf.Valid) (buf : List Byte) :
    (bioTxWrite b buf).2.buf.Valid ∧
      (bioTxWrite b buf).2.buf.contents =
        b.buf.contents ++ buf.take (bioTxWrite b buf).1.rc.toNat := by
  unfold bioTxWrite
  split
  · exact ⟨hv, by simp only [Int.toNat_zero, List.take_zero, List.append_nil]⟩
  · split
    · exact ⟨hv, by simp only [Int.reduceNeg, Int.reduceToNat, List.take_zero, List.append_nil]⟩
    · next dst space hspace =>
      obtain ⟨rfl, rfl, hpos⟩ := zringSpace_eq_some.mp hspace
      have hlen : (buf.take (min buf.length (zringSpaceSize b.buf))).length =
          min buf.length (zringSpaceSize b.buf) := by
        rw [List.length_take]
        omega
      rw [← min_def_lt]
      refine ⟨zringCommit_valid (Zring.store_valid hv _ _) _, ?_⟩
      have hfits : (buf.take (min buf.length (zringSpaceSize b.buf))).length ≤
          zringSpaceSize b.buf := hlen.trans_le (Nat.min_le_right _ _)
      have happend := contents_store_commit hv hfits
      rw [hlen] at happend
      simpa only [Int.toNat_natCast] using happend

/-- A drain that returns reports a plain count exactly when it has emptied the ring. -/
structure DrainSpec (b b' : TlsBioBuf) (es : List BioEvent) (ret : Option IoRet) : Prop where
  valid : b'.buf.Valid
  fifo : es.flatMap txLedger.outflow ++ b'.buf.contents = b.buf.contents
  emptied : ∀ r, ret = some r → (r.n.isSome ∧ r.again = false ↔ b'.buf.contents = [])

theorem DrainSpec.stop {b : TlsBioBuf} (hv : b.buf.Valid) {ret : Option IoRet}
    (h : ∀ r, ret = some r → (r.n.isSome ∧ r.again = false ↔ b.buf.contents = [])) :
    DrainSpec b b [] ret :=
  ⟨hv, rfl, h⟩

theorem drainLoop_spec {b : TlsBioBuf} (hv : b.buf.Valid) (total : Nat) (rs : List SendResult) :
    DrainSpec b (drainLoop b total rs).1 (drainLoop b total rs).2.1
      (drainLoop b total rs).2.2 := by
  induction rs generalizing b total with
  | nil =>
    unfold drainLoop
    split
    · next hdata =>
      refine .stop hv ?_
      rintro _ ⟨⟩
      simpa only [Option.isSome_some, true_and, true_iff] using (zringData_eq_none hv).mp hdata
    · refine .stop hv ?_
      rintro _ ⟨⟩
  | cons r rs ih =>
    unfold drainLoop
    split
    · next hdata =>
      refine .stop hv ?_
      rintro _ ⟨⟩
      simpa only [Option.isSome_some, true_and, true_iff] using (zringData_eq_none hv).mp hdata
    · next data len hdata =>
      have hne : b.buf.contents ≠ [] := by
        intro hnil
        rw [(zringData_eq_none hv).mpr hnil] at hdata
        cases hdata
      obtain ⟨rfl, rfl, hpos⟩ := zringData_eq_some.mp hdata
      cases r with
      | failed e =>
        simp only
        split
        · exact ih hv total
        · split
          · refine .stop hv ?_
            rintro _ ⟨⟩
            simp only [hne, iff_false, not_and, reduceCtorEq, not_false_eq_true, implies_true]
          · refine .stop hv ?_
            rintro _ ⟨⟩
            simp only [hne, iff_false, not_and, Option.isSome_none, Bool.false_eq_true,
              false_implies]
      | accepted n =>
        simp only
        split
        · refine .stop hv ?_
          rintro _ ⟨⟩
          simp only [hne, iff_false, not_and, reduceCtorEq, not_false_eq_true, implies_true]
        · -- `n` bytes left the front of the ring; the loop goes on with what is left
          have hle : min n (zringDataSize b.buf) ≤ zringDataSize b.buf := Nat.min_le_right _ _
          obtain ⟨hvalid, hfifo, hemptied⟩ :=
            ih (b := { b with buf := (zringConsume b.buf (min n (zringDataSize b.buf))).1 })
              (zringConsume_valid hv _) (total + min n (zringDataSize b.buf))
          refine ⟨hvalid, ?_, hemptied⟩
          rw [contents_consume hv hle] at hfifo
          rw [List.flatMap_cons, List.append_assoc, hfifo]
          simp only [txLedger, load_head hv hle, List.take_append_drop]

theorem DrainEnds.cons {r : SendResult} {used rest : List SendResult} {left : List Byte}
    {total : Nat} {ret : Option IoRet} (hr : r.goesOn = true)
    (h : DrainEnds used rest left total ret) : DrainEnds (r :: used) rest left total ret := by
  have hall {rs : List SendResult} (hrs : ∀ q ∈ rs, q.goesOn = true) :
      ∀ q ∈ r :: rs, q.goesOn = true := List.forall_mem_cons.mpr ⟨hr, hrs⟩
  cases ret with
  | none =>
    obtain ⟨hrest, hused, hleft⟩ := h
    exact ⟨hrest, hall hused, hleft⟩
  | some ret =>
    rcases h with ⟨hused, hleft, hret⟩ | ⟨before, q, rfl, hbefore, hq, hret⟩
    · exact .inl ⟨hall hused, hleft, hret⟩
    · exact .inr ⟨r :: before, q, rfl, hall hbefore, hq, hret⟩

theorem drainLoop_answers {b : TlsBioBuf} (hv : b.buf.Valid) (total : Nat)
    (rs : List SendResult) :
    ∃ used rest, rs = used ++ rest ∧ (drainLoop b total rs).2.1 = sendsAnswered b used ∧
      DrainEnds used rest (drainLoop b total rs).1.buf.contents
        (total + ((drainLoop b total rs).2.1.flatMap txLedger.outflow).length)
        (drainLoop b total rs).2.2 := by
  induction rs generalizing b total with
  | nil =>
    refine ⟨[], [], rfl, ?_⟩
    unfold drainLoop
    split
    · next hdata =>
      exact ⟨rfl, .inl ⟨nofun, (zringData_eq_none hv).mp hdata, rfl⟩⟩
    · next hdata =>
      refine ⟨rfl, rfl, nofun, fun hnil => ?_⟩
      rw [(zringData_eq_none hv).mpr hnil] at hdata
      cases hdata
  | cons r rs ih =>
    unfold drainLoop
    split
    · next hdata =>
      exact ⟨[], r :: rs, rfl, rfl, .inl ⟨nofun, (zringData_eq_none hv).mp hdata, rfl⟩⟩
    next data len hdata =>
    obtain ⟨rfl, rfl, hpos⟩ := zringData_eq_some.mp hdata
    -- an answer that ends the drain is the last one used
    have hlast {ret : IoRet} (hstop : r.goesOn = false) (htake : sendsAnswered b [r] = [])
        (hret : ret = r.ends total) :
        ∃ used rest, r :: rs = used ++ rest ∧ [] = sendsAnswered b used ∧
          DrainEnds used rest b.buf.contents total (some ret) :=
      ⟨[r], rs, rfl, htake.symm, .inr ⟨[], r, rfl, nofun, hstop, hret⟩⟩
    cases r with
    | failed e =>
      simp only
      split
      · next heintr =>
        obtain ⟨used, rest, rfl, hes, hends⟩ := ih hv total
        exact ⟨.failed e :: used, rest, rfl, hes, hends.cons (decide_eq_true heintr)⟩
      next hneither =>
      split
      · next hagain => exact hlast (decide_eq_false hneither) rfl (if_pos hagain).symm
      · next hfatal => exact hlast (decide_eq_false hneither) rfl (if_neg hfatal).symm
    | accepted n =>
      simp only
      split
      · next hzero =>
        have hn : n = 0 := by omega
        refine hlast (by rw [hn]; rfl) ?_ rfl
        simp only [sendsAnswered, hzero, if_true, List.append_nil]
      · next hsome =>
        have hle : min n (zringDataSize b.buf) ≤ zringDataSize b.buf := Nat.min_le_right _ _
        obtain ⟨used, rest, rfl, hes, hends⟩ :=
          ih (b := { b with buf := (zringConsume b.buf (min n (zringDataSize b.buf))).1 })
            (zringConsume_valid hv _) (total + min n (zringDataSize b.buf))
        have hgoes : (SendResult.accepted n).goesOn = true := decide_eq_true (by omega)
        refine ⟨.accepted n :: used, rest, rfl, ?_, ?_⟩
        · rw [sendsAnswered, load_head hv hle, hes]
          simp only [hsome, if_false, List.singleton_append]
        · have hlength : (b.buf.load b.buf.head (min n (zringDataSize b.buf))).length =
              min n (zringDataSize b.buf) := Zring.load_length _ _ _
          have hends := hends.cons hgoes
          rw [Nat.add_assoc] at hends
          rw [List.flatMap_cons, List.length_append]
          simpa only [txLedger, hlength] using hends

theorem drainLua_live {bio : TlsBio} (h : bio.Live TlsBio.tx) (rs : List SendResult) :
    drainLua bio rs =
      ({ bio with tx := (drainLoop bio.tx 0 rs).1 }, (drainLoop bio.tx 0 rs).2) := by
  simp only [drainLua, h.not_freed, if_false]

theorem consumeLua_rejected {bio : TlsBio} (h : bio.Live TlsBio.tx) {n : Int}
    (hn : n < 0 ∨ zringDataSize bio.tx.buf < n) :
    consumeLua bio n = (.error s!"consume({n}): out of range", bio) := by
  have hguard : n < 0 ∨ (zringConsume bio.tx.buf n.toNat).2 ≠ 0 := by
    rw [ne_eq, zringConsume_rc h.valid]
    omega
  simp only [consumeLua, h.not_freed, if_false, hguard, if_true]

theorem consumeLua_accepted {bio : TlsBio} (h : bio.Live TlsBio.tx) {n : Int} (hn : 0 ≤ n)
    (hle : n ≤ zringDataSize bio.tx.buf) :
    consumeLua bio n =
      (.ok {}, { bio with tx := { bio.tx with buf := (zringConsume bio.tx.buf n.toNat).1 } }) := by
  have hguard : ¬ (n < 0 ∨ (zringConsume bio.tx.buf n.toNat).2 ≠ 0) := by
    rw [ne_eq, zringConsume_rc h.valid]
    omega
  simp only [consumeLua, h.not_freed, if_false, hguard]

theorem consumeLua_error {bio : TlsBio} (h : bio.Live TlsBio.tx) (n : Int) :
    (∃ msg, (consumeLua bio n).1 = .error msg) ↔ n < 0 ∨ zringDataSize bio.tx.buf < n := by
  refine ⟨fun ⟨msg, herr⟩ => ?_, fun hn => ⟨_, congrArg Prod.fst (consumeLua_rejected h hn)⟩⟩
  by_contra hok
  rw [consumeLua_accepted h (by omega) (by omega)] at herr
  exact nomatch herr

theorem peekLua_live {bio : TlsBio} (h : bio.Live TlsBio.tx) :
    ∃ ptr, peekLua bio = .ok (ptr, zringDataSize bio.tx.buf) := by
  simp only [peekLua, h.not_freed, if_false]
  cases hdata : zringData bio.tx.buf with
  | none =>
    have hzero := (zringDataSize_eq_zero h.valid).mpr
      (Zring.contents_eq_nil.mp ((zringData_eq_none h.valid).mp hdata))
    exact ⟨none, by rw [hzero]⟩
  | some seg =>
    obtain ⟨ptr, len⟩ := seg
    exact ⟨some ptr, by rw [(zringData_eq_some.mp hdata).2.1]⟩

end Functions

section Steps

variable {bio t : TlsBio} {es : List BioEvent}

theorem TlsBio.Live.tx_frame (h : bio.Live TlsBio.tx) (ht : t.tx = bio.tx) (hfd : t.fd = bio.fd)
    (hin : ∀ e ∈ es, txLedger.inflow e = []) (hout : ∀ e ∈ es, txLedger.outflow e = []) :
    t.Live TlsBio.tx ∧ txLedger.Balanced bio es t := by
  refine ⟨⟨?_, ?_⟩, Ledger.balanced_frame (congrArg (·.buf.contents) ht) hin hout⟩
  · rw [hfd]
    exact h.fd_nonneg
  · rw [ht]
    exact h.valid

theorem TlsBio.Live.tx_silent (h : bio.Live TlsBio.tx) (ht : t.tx = bio.tx) (hfd : t.fd = bio.fd) :
    t.Live TlsBio.tx ∧ txLedger.Balanced bio [] t :=
  h.tx_frame ht hfd (fun _ he => absurd he List.not_mem_nil) fun _ he => absurd he List.not_mem_nil

theorem TlsBio.Live.tx_single (h : bio.Live TlsBio.tx) {e : BioEvent} (ht : t.tx = bio.tx)
    (hfd : t.fd = bio.fd) (hin : txLedger.inflow e = []) (hout : txLedger.outflow e = []) :
    t.Live TlsBio.tx ∧ txLedger.Balanced bio [e] t :=
  h.tx_frame ht hfd (List.forall_mem_singleton.mpr hin) (List.forall_mem_singleton.mpr hout)

theorem drain_tx (h : bio.Live TlsBio.tx) (rs : List SendResult) :
    (bioStep bio (.drain rs)).1.Live TlsBio.tx ∧
      txLedger.Balanced bio (bioStep bio (.drain rs)).2 (bioStep bio (.drain rs)).1 := by
  have hspec := drainLoop_spec h.valid 0 rs
  have hin : (drainLoop bio.tx 0 rs).2.1.flatMap txLedger.inflow = [] := by
    refine List.flatMap_eq_nil_iff.mpr fun e he => ?_
    obtain ⟨bs, rfl⟩ := drainLoop_sent bio.tx 0 rs e he
    rfl
  simp only [bioStep, drainLua_live h]
  refine ⟨⟨h.fd_nonneg, hspec.valid⟩, ?_⟩
  rw [Ledger.Balanced, hin, List.append_nil]
  exact hspec.fifo

theorem consume_tx (h : bio.Live TlsBio.tx) (n : Int) :
    (bioStep bio (.consume n)).1.Live TlsBio.tx ∧
      txLedger.Balanced bio (bioStep bio (.consume n)).2 (bioStep bio (.consume n)).1 := by
  by_cases hn : n < 0 ∨ zringDataSize bio.tx.buf < n
  · simp only [bioStep, consumeLua_rejected h hn]
    exact h.tx_silent rfl rfl
  · have hle : n.toNat ≤ zringDataSize bio.tx.buf := by omega
    simp only [bioStep, consumeLua_accepted h (by omega : 0 ≤ n) (by omega)]
    refine ⟨⟨h.fd_nonneg, zringConsume_valid h.valid _⟩, Ledger.balanced_single _ ?_⟩
    simp only [txLedger, load_head h.valid hle, contents_consume h.valid hle,
      List.take_append_drop, List.append_nil]

end Steps

theorem bioStep_tx (bio : TlsBio) (op : BioOp) (h : bio.Live TlsBio.tx) :
    (bioStep bio op).1.Live TlsBio.tx ∧
      txLedger.Balanced bio (bioStep bio op).2 (bioStep bio op).1 := by
  cases op with
  | txWrite buf =>
    obtain ⟨hvalid, hcontents⟩ := bioTxWrite_spec h.valid buf
    exact ⟨⟨h.fd_nonneg, hvalid⟩, Ledger.balanced_single _ hcontents⟩
  | drain rs => exact drain_tx h rs
  | peek => exact h.tx_silent rfl rfl
  | consume n => exact consume_tx h n
  | rxRead len => exact h.tx_single rfl rfl rfl rfl
  | fill rs =>
    obtain ⟨htx, hfd, hreads⟩ := fillLua_frame bio rs
    refine h.tx_frame htx hfd ?_ ?_
    · intro e he
      obtain ⟨r, rfl⟩ := hreads e he
      rfl
    · intro e he
      obtain ⟨r, rfl⟩ := hreads e he
      rfl
  | space => exact h.tx_silent rfl rfl
  | poke bs =>
    simp only [bioStep]
    split
    · exact h.tx_silent rfl rfl
    · exact h.tx_silent rfl rfl
  | commit n =>
    obtain ⟨htx, hfd⟩ := commitLua_frame bio n
    simp only [bioStep]
    split
    · next heq =>
      rw [heq] at htx hfd
      exact h.tx_single htx hfd rfl rfl
    · next heq =>
      rw [heq] at htx hfd
      exact h.tx_silent htx hfd

theorem bioRuns_tx (fd : Nat) (cap : RingCap) (ops : List BioOp) :
    (runs bioStep (tlsBioNew fd cap) ops).1.Live TlsBio.tx :=
  runs_invariant (fun bio op h => (bioStep_tx bio op h).1) (tlsBioNew_live_tx fd cap) ops

/-- The transmit ring is an exact queue in every run. A rejected `consume` changes nothing. A drain
has sent what the answers that it used have taken of the ring, and reports a plain count exactly
when it leaves the ring empty. -/
theorem bioTx_fifo (fd : Nat) (cap : RingCap) (ops : List BioOp) :
    let bio := (runs bioStep (tlsBioNew fd cap) ops).1
    let es := (runs bioStep (tlsBioNew fd cap) ops).2
    es.flatMap txLedger.outflow ++ bio.tx.buf.contents = es.flatMap txLedger.inflow ∧
      (∃ ptr len, peekLua bio = .ok (ptr, len) ∧
        ∀ n : Int, (∃ msg, (consumeLua bio n).1 = .error msg) ↔ n < 0 ∨ (len : Int) < n) ∧
      (∀ n msg, (consumeLua bio n).1 = .error msg → (consumeLua bio n).2 = bio) ∧
      (∀ rs, ∃ used rest, rs = used ++ rest ∧
        (drainLua bio rs).2.1 = sendsAnswered bio.tx used ∧
        DrainEnds used rest (drainLua bio rs).1.tx.buf.contents
          ((drainLua bio rs).2.1.flatMap txLedger.outflow).length (drainLua bio rs).2.2) ∧
      ∀ rs ret, (drainLua bio rs).2.2 = some ret →
        (ret.n.isSome ∧ ret.again = false ↔ (drainLua bio rs).1.tx.buf.contents = []) := by
  intro bio es
  have hlive : bio.Live TlsBio.tx := bioRuns_tx fd cap ops
  refine ⟨?_, ?_, ?_, ?_, ?_⟩
  · have hbal := Ledger.runs_balanced bioStep_tx (tlsBioNew_live_tx fd cap) ops
    exact hbal
  · obtain ⟨ptr, hpeek⟩ := peekLua_live hlive
    exact ⟨ptr, _, hpeek, consumeLua_error hlive⟩
  · intro n msg hmsg
    rw [consumeLua_rejected hlive ((consumeLua_error hlive n).mp ⟨msg, hmsg⟩)]
  · intro rs
    obtain ⟨used, rest, hrs, hes, hends⟩ := drainLoop_answers hlive.valid 0 rs
    rw [Nat.zero_add] at hends
    rw [drainLua_live hlive]
    exact ⟨used, rest, hrs, hes, hends⟩
  · intro rs ret hret
    rw [drainLua_live hlive] at hret ⊢
    exact (drainLoop_spec hlive.valid 0 rs).emptied ret hret

end LuaNet.Tls
