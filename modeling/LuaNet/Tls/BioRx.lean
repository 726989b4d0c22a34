import LuaNet.Tls.BioTx

/-! The receive side is a queue with an end: what read(2) and `commit` put in is handed to
OpenSSL in order, and the end of file shows only behind the last byte. -/

namespace LuaNet.Tls

open LuaNet.Lib

def rxLedger : Ledger TlsBio BioEvent Byte where
  held bio := bio.rx.buf.contents
  inflow
    | .read (.data bs) => bs
    | .committed bs => bs
    | _ => []
  outflow
    | .delivered bs => bs
    | _ => []

def BioEvent.isRead : BioEvent → Bool
  | .read _ => true
  | _ => false

def BioEvent.eofRead : BioEvent := .read (.data [])

/-- No call of read(2) comes after the one that returned 0. -/
def ReadsStopAtEof (es : List BioEvent) : Prop :=
  es.Pairwise fun e f => e = .eofRead → f.isRead = false

/-- The calls of read(2) that answer `rs`, each for the writable segment, and what they deliver. -/
def readsAnswered (b : TlsBioBuf) : List ReadResult → List BioEvent
  | [] => []
  | .failed e :: rs => .read (.failed e) :: readsAnswered b rs
  | .data bs :: rs =>
    let bs := bs.take (zringSpaceSize b.buf)
    .read (.data bs) ::
      readsAnswered { b with buf := (zringCommit (b.buf.store b.buf.tail bs) bs.length).1 } rs

def ReadResult.goesOn : ReadResult → Bool
  | .data bs => bs ≠ []
  | .failed e => e = .eintr

def ReadResult.ends (total : Nat) : ReadResult → IoRet
  | .data _ => { n := if total = 0 then none else some total, eof := true }
  | .failed e =>
    if e = .eagain ∨ e = .ewouldblock then
      if total = 0 then { again := true } else { n := some total }
    else { err := some (e, "fill") }

/-- How a fill comes to its end when it has used the answers `used`, `rest` is left of them and
`b` is what the receive ring has become. -/
def FillEnds (used rest : List ReadResult) (b : TlsBioBuf) (total : Nat) : Option IoRet → Prop
  | none => rest = [] ∧ (∀ r ∈ used, r.goesOn = true) ∧ zringSpaceSize b.buf ≠ 0
  | some ret =>
    (∀ r ∈ used, r.goesOn = true) ∧ zringSpaceSize b.buf = 0 ∧ ret = { n := some total } ∨
      ∃ before r, used = before ++ [r] ∧ (∀ r ∈ before, r.goesOn = true) ∧ r.goesOn = false ∧
        ret = r.ends total

def Fillable (b : TlsBioBuf) : Prop := b.rxEof = false ∧ zringSpaceSize b.buf ≠ 0

def fillRefused (b : TlsBioBuf) : IoRet :=
  if b.rxEof then { eof := true } else { err := some (.enobufs, "fill") }

/-- What a stretch of a run does to the receive side. -/
structure RxTrace (bio : TlsBio) (es : List BioEvent) (bio' : TlsBio) : Prop where
  balanced : rxLedger.Balanced bio es bio'
  eof : bio'.rx.rxEof = true ↔ bio.rx.rxEof = true ∨ .eofRead ∈ es
  closed : bio.rx.rxEof = true → ∀ e ∈ es, e.isRead = false
  stops : ReadsStopAtEof es

theorem RxTrace.nil (bio : TlsBio) : RxTrace bio [] bio :=
  ⟨rxLedger.balanced_nil bio, by simp only [List.not_mem_nil, or_false],
    fun _ _ he => absurd he List.not_mem_nil, List.Pairwise.nil⟩

theorem RxTrace.trans {a b c : TlsBio} {es fs : List BioEvent} (h : RxTrace a es b)
    (h' : RxTrace b fs c) : RxTrace a (es ++ fs) c := by
  refine ⟨h.balanced.trans h'.balanced, ?_, ?_, ?_⟩
  · rw [h'.eof, h.eof, List.mem_append, or_assoc]
  · intro ha e he
    rcases List.mem_append.mp he with he | he
    · exact h.closed ha e he
    · exact h'.closed (h.eof.mpr (.inl ha)) e he
  · refine List.pairwise_append.mpr ⟨h.stops, h'.stops, ?_⟩
    rintro e he f hf rfl
    exact h'.closed (h.eof.mpr (.inr he)) f hf

theorem RxTrace.frame {bio bio' : TlsBio} {es : List BioEvent} (hrx : bio'.rx = bio.rx)
    (hin : ∀ e ∈ es, rxLedger.inflow e = []) (hout : ∀ e ∈ es, rxLedger.outflow e = [])
    (hread : ∀ e ∈ es, e.isRead = false) : RxTrace bio es bio' := by
  have hnoeof : BioEvent.eofRead ∉ es := fun he => Bool.noConfusion (hread _ he)
  refine ⟨Ledger.balanced_frame (congrArg (·.buf.contents) hrx) hin hout, ?_, fun _ => hread, ?_⟩
  · rw [hrx]
    simp only [hnoeof, or_false]
  · exact List.pairwise_of_forall_mem_list fun e _ f hf _ => hread f hf

theorem RxTrace.single {bio bio' : TlsBio} {e : BioEvent} (heof : bio'.rx.rxEof = bio.rx.rxEof)
    (hbal : rxLedger.outflow e ++ bio'.rx.buf.contents = bio.rx.buf.contents ++ rxLedger.inflow e)
    (hread : e.isRead = false) : RxTrace bio [e] bio' := by
  have hnoeof : BioEvent.eofRead ∉ [e] := by
    intro he
    rw [← List.mem_singleton.mp he] at hread
    exact Bool.noConfusion hread
  refine ⟨rxLedger.balanced_single hbal, ?_, fun _ => List.forall_mem_singleton.mpr hread,
    List.pairwise_singleton _ _⟩
  rw [heof]
  simp only [hnoeof, or_false]

section Functions

theorem bioRxRead_spec {b : TlsBioBuf} (hv : b.buf.Valid) (len : Int) :
    (bioRxRead b len).2.2.buf.Valid ∧ (bioRxRead b len).2.2.rxEof = b.rxEof ∧
      (bioRxRead b len).2.1 ++ (bioRxRead b len).2.2.buf.contents = b.buf.contents := by
  unfold bioRxRead
  split
  · exact ⟨hv, rfl, rfl⟩
  · split
    · split
      · exact ⟨hv, rfl, rfl⟩
      · exact ⟨hv, rfl, rfl⟩
    · next data avail hdata =>
      obtain ⟨rfl, rfl, hpos⟩ := zringData_eq_some.mp hdata
      have hle : min len.toNat (zringDataSize b.buf) ≤ zringDataSize b.buf := Nat.min_le_right _ _
      rw [← min_def_lt]
      refine ⟨zringConsume_valid hv _, rfl, ?_⟩
      simp only [load_head hv hle, contents_consume hv hle, List.take_append_drop]

theorem bioRxRead_empty {b : TlsBioBuf} (hv : b.buf.Valid) {len : Int} (hlen : 0 < len)
    (hempty : b.buf.contents = []) :
    (bioRxRead b len).1 = if b.rxEof then { rc := 0 } else { rc := -1, retry := true } := by
  simp only [bioRxRead, Int.not_le.mpr hlen, if_false, (zringData_eq_none hv).mpr hempty]
  split
  · rfl
  · rfl

theorem bioRxRead_nonempty {b : TlsBioBuf} (hv : b.buf.Valid) {len : Int} (hlen : 0 < len)
    (hne : b.buf.contents ≠ []) :
    0 < (bioRxRead b len).1.rc ∧ (bioRxRead b len).1.retry = false ∧
      (bioRxRead b len).1.rc = (bioRxRead b len).2.1.length := by
  unfold bioRxRead
  rw [if_neg (Int.not_le.mpr hlen)]
  split
  · next hdata => exact absurd ((zringData_eq_none hv).mp hdata) hne
  · next data avail hdata =>
    obtain ⟨rfl, rfl, hpos⟩ := zringData_eq_some.mp hdata
    rw [← min_def_lt]
    refine ⟨?_, rfl, by rw [Zring.load_length]⟩
    simp only
    omega

structure FillSpec (b b' : TlsBioBuf) (es : List BioEvent) : Prop where
  valid : b'.buf.Valid
  appended : b'.buf.contents = b.buf.contents ++ es.flatMap rxLedger.inflow
  eof : b'.rxEof = true ↔ b.rxEof = true ∨ .eofRead ∈ es
  stops : ReadsStopAtEof es

theorem FillSpec.nil {b : TlsBioBuf} (hv : b.buf.Valid) : FillSpec b b [] :=
  ⟨hv, (List.append_nil _).symm, by simp only [List.not_mem_nil, or_false], List.Pairwise.nil⟩

theorem FillSpec.last {b : TlsBioBuf} (hv : b.buf.Valid) (e : Errno) :
    FillSpec b b [.read (.failed e)] := by
  refine ⟨hv, (List.append_nil _).symm, ?_,
    List.pairwise_singleton _ _⟩
  simp only [BioEvent.eofRead, List.mem_singleton, BioEvent.read.injEq, reduceCtorEq, or_false]

theorem FillSpec.cons {b₀ b b' : TlsBioBuf} {es : List BioEvent} {r : ReadResult}
    (h : FillSpec b b' es) (hr : r ≠ .data []) (heof : b.rxEof = b₀.rxEof)
    (happ : b.buf.contents = b₀.buf.contents ++ rxLedger.inflow (.read r)) :
    FillSpec b₀ b' (.read r :: es) := by
  have hne : BioEvent.read r ≠ .eofRead := fun heq => hr (BioEvent.read.inj heq)
  refine ⟨h.valid, ?_, ?_, ?_⟩
  · rw [h.appended, happ, List.flatMap_cons, List.append_assoc]
  · rw [h.eof, heof, List.mem_cons]
    simp only [hne.symm, false_or]
  · exact List.pairwise_cons.mpr ⟨fun f _ heq => absurd heq hne, h.stops⟩

theorem FillSpec.received {b b' : TlsBioBuf} {bs : List Byte} {es : List BioEvent}
    (hv : b.buf.Valid) (hle : bs.length ≤ zringSpaceSize b.buf) (hne : bs.length ≠ 0)
    (h : FillSpec
      { b with buf := (zringCommit (b.buf.store b.buf.tail bs) bs.length).1 } b' es) :
    FillSpec b b' (.read (.data bs) :: es) := by
  refine h.cons (fun heq => hne ?_) rfl (contents_store_commit hv hle)
  rw [ReadResult.data.inj heq, List.length_nil]

theorem fillLoop_spec {b : TlsBioBuf} (hv : b.buf.Valid) (total : Nat) {space len : Nat}
    (hspace : zringSpace b.buf = some (space, len)) (rs : List ReadResult) :
    FillSpec b (fillLoop b total space len rs).1 (fillLoop b total space len rs).2.1 := by
  induction rs generalizing b total space len with
  | nil => exact .nil hv
  | cons r rs ih =>
    cases r with
    | failed e =>
      unfold fillLoop
      split
      · exact (ih hv total hspace).cons ReadResult.noConfusion rfl (List.append_nil _).symm
      · split
        · exact .last hv e
        · exact .last hv e
    | data bs =>
      obtain ⟨rfl, rfl, hpos⟩ := zringSpace_eq_some.mp hspace
      unfold fillLoop
      simp only
      split
      · refine ⟨hv, (List.append_nil _).symm, ?_,
          List.pairwise_singleton _ _⟩
        simp only [BioEvent.eofRead, List.mem_singleton, or_true]
      · next hlen =>
        have hle : (bs.take (zringSpaceSize b.buf)).length ≤ zringSpaceSize b.buf := by
          rw [List.length_take]
          exact Nat.min_le_left _ _
        have hv' := zringCommit_valid (Zring.store_valid hv b.buf.tail
          (bs.take (zringSpaceSize b.buf))) (bs.take (zringSpaceSize b.buf)).length
        split
        · next space' len' hspace' => exact .received hv hle hlen (ih hv' _ hspace')
        · exact .received hv hle hlen (.nil hv')

theorem FillEnds.cons {r : ReadResult} {used rest : List ReadResult} {b : TlsBioBuf} {total : Nat}
    {ret : Option IoRet} (hr : r.goesOn = true) (h : FillEnds used rest b total ret) :
    FillEnds (r :: used) rest b total ret := by
  have hall {rs : List ReadResult} (hrs : ∀ q ∈ rs, q.goesOn = true) :
      ∀ q ∈ r :: rs, q.goesOn = true := List.forall_mem_cons.mpr ⟨hr, hrs⟩
  cases ret with
  | none =>
    obtain ⟨hrest, hused, hroom⟩ := h
    exact ⟨hrest, hall hused, hroom⟩
  | some ret =>
    rcases h with ⟨hused, hroom, hret⟩ | ⟨before, q, rfl, hbefore, hq, hret⟩
    · exact .inl ⟨hall hused, hroom, hret⟩
    · exact .inr ⟨r :: before, q, rfl, hall hbefore, hq, hret⟩

theorem fillLoop_answers {b : TlsBioBuf} (total : Nat) {space len : Nat}
    (hspace : zringSpace b.buf = some (space, len)) (rs : List ReadResult) :
    ∃ used rest, rs = used ++ rest ∧
      (fillLoop b total space len rs).2.1 = readsAnswered b used ∧
      FillEnds used rest (fillLoop b total space len rs).1
        (total + ((fillLoop b total space len rs).2.1.flatMap rxLedger.inflow).length)
        (fillLoop b total space len rs).2.2 := by
  induction rs generalizing b total space len with
  | nil =>
    obtain ⟨rfl, rfl, hpos⟩ := zringSpace_eq_some.mp hspace
    exact ⟨[], [], rfl, rfl, rfl, nofun, Nat.ne_of_gt hpos⟩
  | cons r rs ih =>
    -- an answer that ends the fill is the last one used
    have hlast {r : ReadResult} {es : List BioEvent} {b' : TlsBioBuf} {ret : IoRet}
        (hstop : r.goesOn = false) (hes : es = readsAnswered b [r])
        (hnone : es.flatMap rxLedger.inflow = []) (hret : ret = r.ends total) :
        ∃ used rest, r :: rs = used ++ rest ∧ es = readsAnswered b used ∧
          FillEnds used rest b' (total + (es.flatMap rxLedger.inflow).length) (some ret) := by
      refine ⟨[r], rs, rfl, hes, ?_⟩
      rw [hnone, List.length_nil, Nat.add_zero]
      exact .inr ⟨[], r, rfl, nofun, hstop, hret⟩
    cases r with
    | failed e =>
      unfold fillLoop
      split
      · next heintr =>
        obtain ⟨used, rest, rfl, hes, hends⟩ := ih total hspace
        rcases hrun : fillLoop b total space len (used ++ rest) with ⟨b', es, ret⟩
        rw [hrun] at hes hends
        exact ⟨.failed e :: used, rest, rfl, congrArg (List.cons _) hes,
          hends.cons (decide_eq_true heintr)⟩
      next hneither =>
      have hstop : (ReadResult.failed e).goesOn = false := decide_eq_false hneither
      split
      · next hagain => exact hlast hstop rfl rfl (if_pos hagain).symm
      · next hfatal => exact hlast hstop rfl rfl (if_neg hfatal).symm
    | data bs =>
      obtain ⟨rfl, rfl, hpos⟩ := zringSpace_eq_some.mp hspace
      unfold fillLoop
      simp only
      split
      · next hzero =>
        have hnil : bs = [] := by
          rw [List.length_take] at hzero
          exact List.eq_nil_of_length_eq_zero (by omega)
        subst hnil
        exact hlast rfl (by rw [readsAnswered, List.take_nil, readsAnswered]) rfl rfl
      next hsome =>
      have hgoes : (ReadResult.data bs).goesOn = true := by
        refine decide_eq_true fun hnil => hsome ?_
        rw [hnil, List.take_nil, List.length_nil]
      split
      · next space' len' hspace' =>
        obtain ⟨used, rest, rfl, hes, hends⟩ :=
          ih (b := { b with buf := (zringCommit (b.buf.store b.buf.tail
            (bs.take (zringSpaceSize b.buf))) (bs.take (zringSpaceSize b.buf)).length).1 })
            (total + (bs.take (zringSpaceSize b.buf)).length) hspace'
        refine ⟨.data bs :: used, rest, rfl, ?_, ?_⟩
        · rw [readsAnswered, ← hes]
        · have hends := hends.cons hgoes
          rw [Nat.add_assoc, ← List.length_append] at hends
          simpa only [List.flatMap_cons, rxLedger] using hends
      · next hfull =>
        refine ⟨[.data bs], rs, rfl, rfl, .inl ⟨List.forall_mem_singleton.mpr hgoes, ?_, ?_⟩⟩
        · by_contra hroom
          rw [zringSpace_eq_some.mpr ⟨rfl, rfl, Nat.pos_of_ne_zero hroom⟩] at hfull
          cases hfull
        · simp only [List.flatMap_singleton, rxLedger]

theorem fillLua_answers {bio : TlsBio} (h : bio.Live TlsBio.rx) (rs : List ReadResult) :
    (¬ Fillable bio.rx → fillLua bio rs = (bio, [], some (fillRefused bio.rx))) ∧
      (Fillable bio.rx → ∃ used rest, rs = used ++ rest ∧
        (fillLua bio rs).2.1 = readsAnswered bio.rx used ∧
        FillEnds used rest (fillLua bio rs).1.rx
          ((fillLua bio rs).2.1.flatMap rxLedger.inflow).length (fillLua bio rs).2.2) := by
  unfold fillLua Fillable fillRefused
  rw [if_neg h.not_freed]
  cases heof : bio.rx.rxEof with
  | true => exact ⟨fun _ => rfl, fun hroom => nomatch hroom.1⟩
  | false =>
    simp only [Bool.false_eq_true, if_false, true_and]
    split
    · next hnone =>
      refine ⟨fun _ => rfl, fun hroom => ?_⟩
      rw [zringSpace_eq_some.mpr ⟨rfl, rfl, Nat.pos_of_ne_zero hroom⟩] at hnone
      cases hnone
    · next space len hspace =>
      have hroom := zringSpace_eq_some.mp hspace
      refine ⟨fun hfull => absurd (hroom.2.1 ▸ Nat.ne_of_gt hroom.2.2) hfull, fun _ => ?_⟩
      obtain ⟨used, rest, hrs, hes, hends⟩ := fillLoop_answers 0 hspace rs
      rw [Nat.zero_add] at hends
      exact ⟨used, rest, hrs, hes, hends⟩

theorem fillLua_spec {bio : TlsBio} (h : bio.Live TlsBio.rx) (rs : List ReadResult) :
    FillSpec bio.rx (fillLua bio rs).1.rx (fillLua bio rs).2.1 ∧
      (bio.rx.rxEof = true → (fillLua bio rs).2.1 = []) := by
  unfold fillLua
  rw [if_neg h.not_freed]
  split
  · exact ⟨.nil h.valid, fun _ => rfl⟩
  · next heof =>
    split
    · exact ⟨.nil h.valid, fun _ => rfl⟩
    · next space len hspace =>
      exact ⟨fillLoop_spec h.valid 0 hspace rs, fun heq => absurd heq heof⟩

theorem commitLua_rejected {bio : TlsBio} (h : bio.Live TlsBio.rx) {n : Int}
    (hn : n < 0 ∨ zringSpaceSize bio.rx.buf < n) :
    commitLua bio n = (.error s!"commit({n}): out of range", bio) := by
  have hguard : n < 0 ∨ (zringCommit bio.rx.buf n.toNat).2 ≠ 0 := by
    rw [ne_eq, zringCommit_rc h.valid]
    omega
  simp only [commitLua, h.not_freed, if_false, hguard, if_true]

theorem commitLua_accepted {bio : TlsBio} (h : bio.Live TlsBio.rx) {n : Int} (hn : 0 ≤ n)
    (hle : n ≤ zringSpaceSize bio.rx.buf) :
    commitLua bio n =
      (.ok {}, { bio with rx := { bio.rx with buf := (zringCommit bio.rx.buf n.toNat).1 } }) := by
  have hguard : ¬ (n < 0 ∨ (zringCommit bio.rx.buf n.toNat).2 ≠ 0) := by
    rw [ne_eq, zringCommit_rc h.valid]
    omega
  simp only [commitLua, h.not_freed, if_false, hguard]

end Functions

section Steps

variable {bio t : TlsBio} {es : List BioEvent}

theorem TlsBio.Live.rx_frame (h : bio.Live TlsBio.rx) (hrx : t.rx = bio.rx) (hfd : t.fd = bio.fd)
    (hin : ∀ e ∈ es, rxLedger.inflow e = []) (hout : ∀ e ∈ es, rxLedger.outflow e = [])
    (hread : ∀ e ∈ es, e.isRead = false) : t.Live TlsBio.rx ∧ RxTrace bio es t := by
  refine ⟨⟨?_, ?_⟩, .frame hrx hin hout hread⟩
  · rw [hfd]
    exact h.fd_nonneg
  · rw [hrx]
    exact h.valid

theorem TlsBio.Live.rx_silent (h : bio.Live TlsBio.rx) (hrx : t.rx = bio.rx)
    (hfd : t.fd = bio.fd) : t.Live TlsBio.rx ∧ RxTrace bio [] t :=
  h.rx_frame hrx hfd (fun _ he => absurd he List.not_mem_nil)
    (fun _ he => absurd he List.not_mem_nil) fun _ he => absurd he List.not_mem_nil

theorem TlsBio.Live.rx_single (h : bio.Live TlsBio.rx) {e : BioEvent} (hrx : t.rx = bio.rx)
    (hfd : t.fd = bio.fd) (hin : rxLedger.inflow e = []) (hout : rxLedger.outflow e = [])
    (hread : e.isRead = false) : t.Live TlsBio.rx ∧ RxTrace bio [e] t :=
  h.rx_frame hrx hfd (List.forall_mem_singleton.mpr hin) (List.forall_mem_singleton.mpr hout)
    (List.forall_mem_singleton.mpr hread)

theorem fill_rx (h : bio.Live TlsBio.rx) (rs : List ReadResult) :
    (bioStep bio (.fill rs)).1.Live TlsBio.rx ∧
      RxTrace bio (bioStep bio (.fill rs)).2 (bioStep bio (.fill rs)).1 := by
  obtain ⟨hspec, hclosed⟩ := fillLua_spec h rs
  obtain ⟨-, hfd, hreads⟩ := fillLua_frame bio rs
  have hfd' : (bioStep bio (.fill rs)).1.fd = bio.fd := hfd
  refine ⟨⟨?_, hspec.valid⟩, ?_, hspec.eof, fun heof e he => ?_, hspec.stops⟩
  · rw [hfd']
    exact h.fd_nonneg
  · have hout : (fillLua bio rs).2.1.flatMap rxLedger.outflow = [] := by
      refine List.flatMap_eq_nil_iff.mpr fun e he => ?_
      obtain ⟨r, rfl⟩ := hreads e he
      rfl
    show (fillLua bio rs).2.1.flatMap rxLedger.outflow ++ _ = _
    rw [hout]
    exact hspec.appended
  · rw [show (bioStep bio (.fill rs)).2 = [] from hclosed heof] at he
    exact absurd he List.not_mem_nil

/-- Bytes stored behind the ring's contents are not part of it until they are committed. -/
theorem poke_rx (h : bio.Live TlsBio.rx) (bs : List Byte) :
    (bioStep bio (.poke bs)).1.Live TlsBio.rx ∧
      RxTrace bio (bioStep bio (.poke bs)).2 (bioStep bio (.poke bs)).1 := by
  simp only [bioStep]
  split
  · exact h.rx_silent rfl rfl
  · next ptr len hspace =>
    obtain ⟨rfl, rfl, -⟩ := zringSpace_eq_some.mp hspace
    refine ⟨⟨h.fd_nonneg, Zring.store_valid h.valid _ _⟩, ?_, ?_, ?_, List.Pairwise.nil⟩
    · refine Ledger.balanced_frame (contents_store h.valid ?_)
        (fun e he => absurd he List.not_mem_nil) fun e he => absurd he List.not_mem_nil
      rw [List.length_take]
      exact Nat.min_le_left _ _
    · simp only [List.not_mem_nil, or_false]
    · exact fun _ e he => absurd he List.not_mem_nil

theorem commit_rx (h : bio.Live TlsBio.rx) (n : Int) :
    (bioStep bio (.commit n)).1.Live TlsBio.rx ∧
      RxTrace bio (bioStep bio (.commit n)).2 (bioStep bio (.commit n)).1 := by
  by_cases hn : n < 0 ∨ zringSpaceSize bio.rx.buf < n
  · simp only [bioStep, commitLua_rejected h hn]
    exact h.rx_silent rfl rfl
  · have hle : n.toNat ≤ zringSpaceSize bio.rx.buf := by omega
    simp only [bioStep, commitLua_accepted h (by omega : 0 ≤ n) (by omega)]
    exact ⟨⟨h.fd_nonneg, zringCommit_valid h.valid _⟩,
      .single rfl (contents_commit h.valid hle) rfl⟩

end Steps

theorem bioStep_rx (bio : TlsBio) (op : BioOp) (h : bio.Live TlsBio.rx) :
    (bioStep bio op).1.Live TlsBio.rx ∧ RxTrace bio (bioStep bio op).2 (bioStep bio op).1 := by
  cases op with
  | txWrite buf => exact h.rx_single rfl rfl rfl rfl rfl
  | drain rs =>
    obtain ⟨hrx, hfd, hsent⟩ := drainLua_frame bio rs
    refine h.rx_frame hrx hfd ?_ ?_ ?_
    all_goals
      intro e he
      obtain ⟨bs, rfl⟩ := hsent e he
      rfl
  | peek => exact h.rx_silent rfl rfl
  | consume n =>
    obtain ⟨hrx, hfd⟩ := consumeLua_frame bio n
    simp only [bioStep]
    split
    · next heq =>
      rw [heq] at hrx hfd
      exact h.rx_single hrx hfd rfl rfl rfl
    · next heq =>
      rw [heq] at hrx hfd
      exact h.rx_silent hrx hfd
  | rxRead len =>
    obtain ⟨hvalid, heof, hfifo⟩ := bioRxRead_spec h.valid len
    refine ⟨⟨h.fd_nonneg, hvalid⟩, .single heof ?_ rfl⟩
    rw [show rxLedger.inflow (.delivered _) = [] from rfl, List.append_nil]
    exact hfifo
  | fill rs => exact fill_rx h rs
  | space => exact h.rx_silent rfl rfl
  | poke bs => exact poke_rx h bs
  | commit n => exact commit_rx h n

theorem bioRuns_rx {bio : TlsBio} (h : bio.Live TlsBio.rx) (ops : List BioOp) :
    (runs bioStep bio ops).1.Live TlsBio.rx :=
  runs_invariant (fun bio op h => (bioStep_rx bio op h).1) h ops

theorem bioRuns_rxTrace {bio : TlsBio} (h : bio.Live TlsBio.rx) (ops : List BioOp) :
    RxTrace bio (runs bioStep bio ops).2 (runs bioStep bio ops).1 :=
  runs_trace bioStep_rx RxTrace.nil RxTrace.trans h ops

theorem bioRx_deliverable {bio : TlsBio} (h : bio.Live TlsBio.rx) {lens : List Int}
    (hpos : ∀ len ∈ lens, 0 < len) (hlen : bio.rx.buf.contents.length ≤ lens.length) :
    (runs bioStep bio (lens.map .rxRead)).2.flatMap rxLedger.outflow = bio.rx.buf.contents := by
  induction lens generalizing bio with
  | nil =>
    rw [List.length_nil, Nat.le_zero, List.length_eq_zero_iff] at hlen
    rw [hlen]
    rfl
  | cons len lens ih =>
    obtain ⟨hvalid, heof, hfifo⟩ := bioRxRead_spec h.valid len
    have hlive : ({ bio with rx := (bioRxRead bio.rx len).2.2 } : TlsBio).Live TlsBio.rx :=
      ⟨h.fd_nonneg, hvalid⟩
    have hrest := ih hlive (fun l hl => hpos l (List.mem_cons_of_mem _ hl)) ?_
    · rw [List.map_cons, runs, List.flatMap_append]
      exact (congrArg (List.append _) hrest).trans
        ((congrArg (· ++ _) (List.append_nil _)).trans hfifo)
    · show (bioRxRead bio.rx len).2.2.buf.contents.length ≤ lens.length
      by_cases hne : bio.rx.buf.contents = []
      · rw [hne] at hfifo
        rw [(List.append_eq_nil_iff.mp hfifo).2]
        exact Nat.zero_le _
      · obtain ⟨hrc, -, hrclen⟩ := bioRxRead_nonempty h.valid (hpos len List.mem_cons_self) hne
        have hsum := congrArg List.length hfifo
        rw [List.length_append] at hsum
        rw [List.length_cons] at hlen
        omega

end LuaNet.Tls
