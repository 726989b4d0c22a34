import LuaNet.Tls.SocketIo

/-! `Socket:write` reports honestly unless OpenSSL answers that the connection is closed: the
native methods then return no values, and the call returns a short count with neither an error
nor the timeout flag. -/

namespace LuaNet.Tls

open LuaNet.Lib

def acceptedBytes (es : List TlsEvent) : List Byte :=
  es.flatMap fun e => match e with
    | .accepted bs => bs
    | .closed => []

def TlsSocket.Drained (s : TlsSocket) : Prop :=
  ∀ bio, s.bio = some bio → bio.tx.buf.contents = []

structure WriteHonest (s : TlsSocket) (str : List Byte) (es : List TlsEvent) (ret : WriteRet) :
    Prop where
  sent_le : ret.sent ≤ str.length
  accepted : acceptedBytes es = str.take ret.sent
  short : ret.sent < str.length → ret.err.isSome = true ∨ ret.timeout = true
  drained : ret.err = none → ret.timeout = false → s.Drained

def writesAnswered (str : List Byte) : List SslWrite → List TlsEvent
  | [] => []
  | .wrote n _ :: as =>
    let taken := min n (min str.length intMax)
    .accepted (str.take taken) :: writesAnswered (str.drop taken) as
  | .closed :: as => .closed :: writesAnswered str as
  | .want _ :: as => writesAnswered str as
  | .failed :: as => writesAnswered str as

/-- What a turn says that was the last one: the answer of SSL_write, or what came of the wait or of
the flush after it. -/
def WriteTurn.Ends (t : WriteTurn) (ret : WriteRet) : Prop :=
  match t.ans with
  | .closed => ret.err = none ∧ ret.timeout = false
  | .failed => ret.err = some (.ssl "write.SSL_write") ∧ ret.timeout = false
  | _ => ∃ p out, out.err = ret.err ∧ out.timeout = ret.timeout ∧
      ((bioDrain p t.drain).2 = some out ∨
        ∃ want, (pollWait p want t.drain t.fill).2 = some out ∧ out.ok = false)

/-- How the loop comes to its end when it has used the turns `used`, and `rest` is left of them. -/
def WriteEnds (used rest : List WriteTurn) (ret : WriteRet) : Prop :=
  (ret.err = none ∧ ret.timeout = true ∧ ∃ t, rest.head? = some t ∧ t.done = true) ∨
    ∃ before t, used = before ++ [t] ∧ t.Ends ret

def TlsSocket.Live (s : TlsSocket) : Prop := ∀ bio, s.bio = some bio → bio.Live TlsBio.tx

theorem absurd_told {err : Option TlsErr} {timeout : Bool}
    (htold : err.isSome = true ∨ timeout = true) (herr : err = none) (htime : timeout = false) :
    False := by
  subst herr htime
  rcases htold with hsome | htrue
  · cases hsome
  · cases htrue

section Loops

theorem drainLoop_err (b : TlsBioBuf) (total : Nat) (rs : List SendResult) {r : IoRet}
    (h : (drainLoop b total rs).2.2 = some r) (hn : r.n = none) : r.err.isSome = true := by
  induction rs generalizing b total with
  | nil =>
    unfold drainLoop at h
    split at h
    · cases h
      cases hn
    · cases h
  | cons a rs ih =>
    unfold drainLoop at h
    split at h
    · cases h
      cases hn
    · cases a with
      | failed e =>
        simp only at h
        split at h
        · exact ih _ _ h
        split at h
        · cases h
          cases hn
        · cases h
          rfl
      | accepted n =>
        simp only at h
        split at h
        · cases h
          cases hn
        · exact ih _ _ h

theorem drainLua_err {bio : TlsBio} {rs : List SendResult} {r : IoRet}
    (h : (drainLua bio rs).2.2 = some r) (hn : r.n = none) : r.err.isSome = true := by
  unfold drainLua at h
  split at h
  · cases h
    rfl
  · exact drainLoop_err _ _ _ h hn

theorem fillLoop_err (b : TlsBioBuf) (total space len : Nat) (rs : List ReadResult) {r : IoRet}
    (h : (fillLoop b total space len rs).2.2 = some r) (hn : r.n = none) (hagain : r.again = false) :
    r.err.isSome = true ∨ r.eof = true := by
  induction rs generalizing b total space len with
  | nil => cases h
  | cons a rs ih =>
    cases a with
    | failed e =>
      unfold fillLoop at h
      split at h
      · exact ih _ _ _ _ h
      split at h
      · split at h
        · cases h
          cases hagain
        · cases h
          cases hn
      · cases h
        exact .inl rfl
    | data bs =>
      unfold fillLoop at h
      simp only at h
      split at h
      · cases h
        exact .inr rfl
      split at h
      · exact ih _ _ _ _ h
      · cases h
        cases hn

theorem fillLua_err {bio : TlsBio} {rs : List ReadResult} {r : IoRet}
    (h : (fillLua bio rs).2.2 = some r) (hn : r.n = none) (hagain : r.again = false) :
    r.err.isSome = true ∨ r.eof = true := by
  unfold fillLua at h
  split at h
  · cases h
    exact .inl rfl
  split at h
  · cases h
    exact .inr rfl
  split at h
  · cases h
    exact .inl rfl
  · exact fillLoop_err _ _ _ _ _ h hn hagain

theorem WaitResult.failure_told {w : WaitResult} {out : IoOutcome} (h : w.failure = some out) :
    out.ok = false ∧ out.eof = false ∧ (out.err.isSome = true ∨ out.timeout = true) := by
  cases w with
  | ready => cases h
  | failed code =>
    cases h
    exact ⟨rfl, rfl, .inl rfl⟩
  | timeout =>
    cases h
    exact ⟨rfl, rfl, .inr rfl⟩

structure DrainTold (bio : TlsBio) (out : IoOutcome) : Prop where
  drained : out.ok = true → bio.tx.buf.contents = []
  told : out.ok = false → out.err.isSome = true ∨ out.timeout = true
  eof : out.eof = false

theorem drainTurns_spec {bio : TlsBio} (h : bio.Live TlsBio.tx) (ts : List DrainTurn) :
    (drainTurns bio ts).1.Live TlsBio.tx ∧
      ∀ out, (drainTurns bio ts).2 = some out → DrainTold (drainTurns bio ts).1 out := by
  induction ts generalizing bio with
  | nil => exact ⟨h, nofun⟩
  | cons t ts ih =>
    have hlive : (drainLua bio t.sends).1.Live TlsBio.tx := (bioStep_tx bio (.drain t.sends) h).1
    have hfail : ∀ {b : TlsBio} {out : IoOutcome}, out.ok = false → out.eof = false →
        (out.err.isSome = true ∨ out.timeout = true) → DrainTold b out :=
      fun hok heof htold => ⟨fun hyes => absurd hyes (by rw [hok]; nofun), fun _ => htold, heof⟩
    unfold drainTurns
    split
    · refine ⟨h, fun out hout => ?_⟩
      cases hout
      exact hfail rfl rfl (.inr rfl)
    dsimp only
    split
    · exact ⟨hlive, nofun⟩
    next ret hret =>
    split
    · next hdone =>
      refine ⟨hlive, fun out hout => ?_⟩
      cases hout
      simp only [Bool.and_eq_true, Bool.not_eq_true'] at hdone
      refine ⟨fun _ => ?_, nofun, rfl⟩
      have hspec := drainLoop_spec h.valid 0 t.sends
      rw [drainLua_live h] at hret ⊢
      exact (hspec.emptied ret hret).mp hdone
    split
    · next hnone =>
      refine ⟨hlive, fun out hout => ?_⟩
      cases hout
      simp only [Bool.and_eq_true, Option.isNone_iff_eq_none] at hnone
      refine hfail rfl rfl (.inl ?_)
      rw [Option.isSome_map]
      exact drainLua_err hret hnone.1
    split
    · refine ⟨hlive, fun out hout => ?_⟩
      cases hout
      exact hfail rfl rfl (.inr rfl)
    split
    · next out hwait =>
      obtain ⟨hok, heof, htold⟩ := WaitResult.failure_told hwait
      refine ⟨hlive, fun out' hout => ?_⟩
      cases hout
      exact hfail hok heof htold
    · exact ih hlive

theorem drainTurns_ok {bio : TlsBio} {ts : List DrainTurn} {out : IoOutcome}
    (h : (drainTurns bio ts).2 = some out) (hok : out.ok = true) : out = { ok := true } := by
  induction ts generalizing bio with
  | nil => cases h
  | cons t ts ih =>
    unfold drainTurns at h
    split at h
    · cases h
      cases hok
    dsimp only at h
    split at h
    · cases h
    split at h
    · cases h
      rfl
    split at h
    · cases h
      cases hok
    split at h
    · cases h
      cases hok
    split at h
    · next hwait =>
      cases h
      rw [(WaitResult.failure_told hwait).1] at hok
      cases hok
    · exact ih h

theorem fillTurns_spec {bio : TlsBio} (h : bio.Live TlsBio.tx) (ts : List FillTurn) :
    (fillTurns bio ts).1.Live TlsBio.tx ∧
      ∀ out, (fillTurns bio ts).2 = some out → out.ok = false →
        out.eof = true ∨ out.err.isSome = true ∨ out.timeout = true := by
  induction ts generalizing bio with
  | nil => exact ⟨h, nofun⟩
  | cons t ts ih =>
    have hlive : (fillLua bio t.reads).1.Live TlsBio.tx := by
      obtain ⟨htx, hfd, -⟩ := fillLua_frame bio t.reads
      exact ⟨by rw [hfd]; exact h.fd_nonneg, by rw [htx]; exact h.valid⟩
    unfold fillTurns
    split
    · refine ⟨h, fun out hout _ => ?_⟩
      cases hout
      exact .inr (.inr rfl)
    dsimp only
    split
    · exact ⟨hlive, nofun⟩
    next ret hret =>
    split
    · refine ⟨hlive, fun out hout hok => ?_⟩
      cases hout
      cases hok
    next hsome =>
    split
    · next hagain =>
      refine ⟨hlive, fun out hout _ => ?_⟩
      cases hout
      simp only [Option.not_isSome_iff_eq_none] at hsome
      rw [Option.isSome_map]
      exact (fillLua_err hret hsome (by simpa using hagain)).symm.imp id .inl
    split
    · refine ⟨hlive, fun out hout _ => ?_⟩
      cases hout
      exact .inr (.inr rfl)
    split
    · next out hwait =>
      obtain ⟨-, -, htold⟩ := WaitResult.failure_told hwait
      refine ⟨hlive, fun out' hout _ => ?_⟩
      cases hout
      exact .inr htold
    · exact ih hlive

end Loops

section Calls

theorem bioDrain_spec {s : TlsSocket} (h : s.Live) (ts : List DrainTurn) :
    (bioDrain s ts).1.Live ∧
      ∀ out, (bioDrain s ts).2 = some out →
        (out.ok = true → (bioDrain s ts).1.Drained) ∧
          (out.ok = false → out.err.isSome = true ∨ out.timeout = true) := by
  unfold bioDrain
  split
  · next hbio =>
    refine ⟨h, fun out hout => ?_⟩
    cases hout
    refine ⟨fun _ bio hsome => ?_, nofun⟩
    rw [hbio] at hsome
    cases hsome
  · next bio hbio =>
    obtain ⟨hlive, hspec⟩ := drainTurns_spec (h bio hbio) ts
    refine ⟨fun b hb => ?_, fun out hout => ⟨fun hok b hb => ?_, (hspec out hout).told⟩⟩
    · cases hb
      exact hlive
    · cases hb
      exact (hspec out hout).drained hok

theorem bioDrain_ok {s : TlsSocket} {ts : List DrainTurn} {out : IoOutcome}
    (h : (bioDrain s ts).2 = some out) (hok : out.ok = true) : out = { ok := true } := by
  unfold bioDrain at h
  split at h
  · cases h
    rfl
  · exact drainTurns_ok h hok

theorem bioFill_spec {s : TlsSocket} (h : s.Live) (ts : List FillTurn) :
    (bioFill s ts).1.Live ∧
      ∀ out, (bioFill s ts).2 = some out → out.ok = false →
        out.eof = true ∨ out.err.isSome = true ∨ out.timeout = true := by
  unfold bioFill
  split
  · refine ⟨h, fun out hout hok => ?_⟩
    cases hout
    cases hok
  · next bio hbio =>
    obtain ⟨hlive, hspec⟩ := fillTurns_spec (h bio hbio) ts
    refine ⟨fun b hb => ?_, hspec⟩
    cases hb
    exact hlive

theorem pollWait_spec {s : TlsSocket} (h : s.Live) (want : Int) (drain : List DrainTurn)
    (fill : List FillTurn) :
    (pollWait s want drain fill).1.Live ∧
      ∀ out, (pollWait s want drain fill).2 = some out → (!out.ok && !out.eof) = true →
        out.err.isSome = true ∨ out.timeout = true := by
  obtain ⟨hlive, hdrain⟩ := bioDrain_spec h drain
  unfold pollWait
  split
  · dsimp only
    split
    · next hnone => exact ⟨hlive, fun out hout => nomatch hnone.symm.trans hout⟩
    next out hout =>
    split
    · next hfail =>
      refine ⟨hlive, fun out' hout' _ => ?_⟩
      cases hout'
      exact (hdrain out hout).2 (by simpa using hfail)
    · obtain ⟨hlive', hfill⟩ := bioFill_spec hlive fill
      refine ⟨hlive', fun out' hout' hfail => ?_⟩
      simp only [Bool.and_eq_true, Bool.not_eq_true'] at hfail
      rcases hfill out' hout' hfail.1 with heof | htold
      · exact absurd heof (by rw [hfail.2]; nofun)
      · exact htold
  split
  · refine ⟨hlive, fun out hout hfail => ?_⟩
    simp only [Bool.and_eq_true, Bool.not_eq_true'] at hfail
    exact (hdrain out hout).2 hfail.1
  · refine ⟨h, fun out hout _ => ?_⟩
    cases hout
    exact .inl rfl

theorem sslIo_live {s : TlsSocket} (h : s.Live) (io : List SslIo) : (s.sslIo io).Live := by
  intro bio hbio
  obtain ⟨b, hb, rfl⟩ := Option.map_eq_some_iff.mp hbio
  exact runs_invariant (fun t op ht => (bioStep_tx t op ht).1) (h b hb) _

end Calls

section Native

structure NativeWriteSpec (str : List Byte) (es : List TlsEvent) (r : NativeWrite) : Prop where
  accepted : acceptedBytes es = str.take (r.len.getD 0)
  len_le : r.len.getD 0 ≤ str.length
  all : r.len.isSome = true → r.want = none → r.len = some str.length
  rest : r.len.isSome = true → r.want ≠ none → r.len.getD 0 < str.length
  not_closed : r.len.isSome = true → .closed ∉ es
  told : r.len = none → (.closed ∈ es ↔ r.err = none)

theorem writeLua_spec (s : TlsSocket) {str : List Byte} (hne : str ≠ []) (io : List SslIo)
    (ans : SslWrite) :
    NativeWriteSpec str (writeLua s str io ans).2.1 (writeLua s str io ans).2.2 := by
  have hpos : 0 < str.length := List.length_pos_iff.mpr hne
  unfold writeLua
  split
  · constructor <;> simp [acceptedBytes]
  split
  · omega
  cases ans with
  | wrote n pos =>
    dsimp only
    split
    · next hall => constructor <;> simp [acceptedBytes, hall]
    · next hpart =>
      have hlt : min n (min str.length intMax) < str.length := by omega
      constructor <;> simp [acceptedBytes] <;> omega
  | want w => constructor <;> simp [acceptedBytes, hpos]
  | closed => constructor <;> simp [acceptedBytes]
  | failed => constructor <;> simp [acceptedBytes]

theorem writeLua_live {s : TlsSocket} (h : s.Live) (str : List Byte) (io : List SslIo)
    (ans : SslWrite) : (writeLua s str io ans).1.Live := by
  unfold writeLua
  split
  · exact h
  split
  · exact h
  cases ans <;> exact sslIo_live h io

theorem handshakeLua_live {s : TlsSocket} (h : s.Live) (io : List SslIo) (ans : SslHandshake) :
    (handshakeLua s io ans).1.Live := by
  unfold handshakeLua
  split
  · exact h
  split
  · exact h
  cases ans <;> exact sslIo_live h io

theorem handshakeLua_told (s : TlsSocket) (io : List SslIo) (ans : SslHandshake) :
    acceptedBytes (handshakeLua s io ans).2.1 = [] ∧
      (.closed ∈ (handshakeLua s io ans).2.1 ↔
        (handshakeLua s io ans).2.2.want = none ∧ (handshakeLua s io ans).2.2.ok = false ∧
          (handshakeLua s io ans).2.2.err = none) := by
  unfold handshakeLua
  split
  · simp [acceptedBytes]
  split
  · simp [acceptedBytes]
  cases ans <;> simp [acceptedBytes]

structure NativeWriteAnswers (str : List Byte) (ans : SslWrite) (es : List TlsEvent)
    (r : NativeWrite) : Prop where
  refused : r.len = none → es = writesAnswered str [ans] ∧
    (ans = .closed ∧ r.err = none ∨ ans = .failed ∧ r.err = some (.ssl "write.SSL_write"))
  taken : ∀ len, r.len = some len → ∀ as,
    writesAnswered str (ans :: as) = es ++ writesAnswered (str.drop len) as
  goesOn : r.len.isSome = true → ans ≠ .closed ∧ ans ≠ .failed

theorem writeLua_answers {s : TlsSocket} (hssl : s.ssl = true) {str : List Byte} (hne : str ≠ [])
    (io : List SslIo) (ans : SslWrite) :
    (writeLua s str io ans).1.ssl = true ∧
      NativeWriteAnswers str ans (writeLua s str io ans).2.1 (writeLua s str io ans).2.2 := by
  unfold writeLua
  rw [if_neg (by rw [hssl]; nofun), if_neg fun h => hne (List.length_eq_zero_iff.mp h)]
  cases ans with
  | wrote n pos =>
    refine ⟨hssl, ?_⟩
    dsimp only
    split
    · refine ⟨nofun, fun len hlen as => ?_, fun _ => ⟨nofun, nofun⟩⟩
      cases hlen
      rfl
    · refine ⟨nofun, fun len hlen as => ?_, fun _ => ⟨nofun, nofun⟩⟩
      cases hlen
      rfl
  | want w =>
    refine ⟨hssl, nofun, fun len hlen as => ?_, fun _ => ⟨nofun, nofun⟩⟩
    cases hlen
    rfl
  | closed => exact ⟨hssl, fun _ => ⟨rfl, .inl ⟨rfl, rfl⟩⟩, nofun, nofun⟩
  | failed => exact ⟨hssl, fun _ => ⟨rfl, .inr ⟨rfl, rfl⟩⟩, nofun, nofun⟩

end Native

section Turns

theorem acceptedBytes_append (es fs : List TlsEvent) :
    acceptedBytes (es ++ fs) = acceptedBytes es ++ acceptedBytes fs :=
  List.flatMap_append

structure HandshakeTold (es : List TlsEvent) (out : IoOutcome) : Prop where
  told : .closed ∉ es → out.ok = false → out.err.isSome = true ∨ out.timeout = true
  silent : .closed ∈ es → out.ok = false ∧ out.err = none ∧ out.timeout = false

theorem handshakeTurns_spec {s : TlsSocket} (h : s.Live) (ts : List HandshakeTurn) :
    (handshakeTurns s ts).1.Live ∧ acceptedBytes (handshakeTurns s ts).2.1 = [] ∧
      ∀ out, (handshakeTurns s ts).2.2 = some out → HandshakeTold (handshakeTurns s ts).2.1 out := by
  induction ts generalizing s with
  | nil => exact ⟨h, rfl, nofun⟩
  | cons t ts ih =>
    have hlive := handshakeLua_live h t.io t.ans
    obtain ⟨hnil, hclosed⟩ := handshakeLua_told s t.io t.ans
    unfold handshakeTurns
    dsimp only
    split
    · next hwant =>
      split
      · next hfail =>
        refine ⟨hlive, hnil, fun out hout => ?_⟩
        cases hout
        have hok : (handshakeLua s t.io t.ans).2.2.ok = false := by simpa using hfail
        refine ⟨fun hopen _ => .inl ?_, fun hmem => ⟨rfl, (hclosed.mp hmem).2.2, rfl⟩⟩
        rw [Option.isSome_iff_ne_none]
        exact fun herr => hopen (hclosed.mpr ⟨hwant, hok, herr⟩)
      · next hok =>
        obtain ⟨hdlive, hdrain⟩ := bioDrain_spec hlive t.drain
        refine ⟨hdlive, hnil, fun out hout => ⟨fun _ => (hdrain out hout).2, fun hmem => ?_⟩⟩
        exact absurd (hclosed.mp hmem).2.1 (by simpa using hok)
    · next want hwant =>
      have hopen : .closed ∉ (handshakeLua s t.io t.ans).2.1 := fun hmem =>
        nomatch (hclosed.mp hmem).1.symm.trans hwant
      obtain ⟨hplive, hpoll⟩ := pollWait_spec hlive want t.drain t.fill
      split
      · exact ⟨hplive, hnil, nofun⟩
      next out hout =>
      split
      · next hfail =>
        refine ⟨hplive, hnil, fun out' hout' => ?_⟩
        cases hout'
        exact ⟨fun _ _ => hpoll out hout hfail, fun hmem => absurd hmem hopen⟩
      · obtain ⟨hqlive, hqnil, hq⟩ := ih hplive
        refine ⟨hqlive, by rw [acceptedBytes_append, hnil, hqnil]; rfl, fun out' hout' => ?_⟩
        obtain ⟨htold, hsilent⟩ := hq out' hout'
        refine ⟨fun hno => htold fun hmem => hno (List.mem_append_right _ hmem), fun hmem => ?_⟩
        exact hsilent ((List.mem_append.mp hmem).resolve_left hopen)

/-- What the rest of a call does with the rest of the string, after `sent` bytes. -/
structure WriteFrom (s : TlsSocket) (str : List Byte) (sent : Nat) (es : List TlsEvent)
    (ret : WriteRet) : Prop where
  sent_ge : sent ≤ ret.sent
  sent_le : ret.sent - sent ≤ str.length
  accepted : acceptedBytes es = str.take (ret.sent - sent)
  told : .closed ∉ es → ret.sent - sent < str.length → ret.err.isSome = true ∨ ret.timeout = true
  drained : .closed ∉ es → ret.err = none → ret.timeout = false → s.Drained
  silent : .closed ∈ es → ret.sent - sent < str.length ∧ ret.err = none ∧ ret.timeout = false

theorem WriteFrom.stop {s : TlsSocket} {str : List Byte} {sent len : Nat} {es : List TlsEvent}
    {ret : WriteRet} (hopen : .closed ∉ es) (hlen : len ≤ str.length)
    (hes : acceptedBytes es = str.take len) (hsent : ret.sent = sent + len)
    (htold : len < str.length → ret.err.isSome = true ∨ ret.timeout = true)
    (hdrained : ret.err = none → ret.timeout = false → s.Drained) :
    WriteFrom s str sent es ret := by
  have hsub : ret.sent - sent = len := by omega
  refine ⟨by omega, by omega, by rw [hsub]; exact hes, fun _ hlt => htold (by omega),
    fun _ => hdrained, fun hmem => absurd hmem hopen⟩

theorem WriteFrom.next {s : TlsSocket} {str : List Byte} {sent len : Nat} {es fs : List TlsEvent}
    {ret : WriteRet} (hopen : .closed ∉ es) (hlen : len ≤ str.length)
    (hes : acceptedBytes es = str.take len)
    (h : WriteFrom s (str.drop len) (sent + len) fs ret) : WriteFrom s str sent (es ++ fs) ret := by
  have hge := h.sent_ge
  have hle := h.sent_le
  rw [List.length_drop] at hle
  have hsub : ret.sent - sent = len + (ret.sent - (sent + len)) := by omega
  have hopen' : .closed ∉ es ++ fs → .closed ∉ fs := fun hno hmem =>
    hno (List.mem_append_right es hmem)
  refine ⟨by omega, by omega, ?_, fun hno hlt => h.told (hopen' hno) ?_,
    fun hno => h.drained (hopen' hno), fun hmem => ?_⟩
  · rw [acceptedBytes_append, hes, h.accepted, hsub, List.take_add]
  · rw [List.length_drop]
    omega
  · obtain ⟨hlt, hret⟩ := h.silent ((List.mem_append.mp hmem).resolve_left hopen)
    rw [List.length_drop] at hlt
    exact ⟨by omega, hret⟩

theorem WriteFrom.refused {s : TlsSocket} {str : List Byte} (sent : Nat) {es : List TlsEvent}
    {r : NativeWrite} (h : NativeWriteSpec str es r) (hne : str ≠ []) (hlen : r.len = none) :
    WriteFrom s str sent es { sent := sent, err := r.err } := by
  have haccepted := h.accepted
  have htold := h.told hlen
  rw [hlen, Option.getD_none] at haccepted
  refine ⟨Nat.le_refl _, ?_, ?_, fun hopen _ => .inl ?_, fun hopen herr => ?_, fun hmem => ?_⟩
  · rw [Nat.sub_self]
    exact Nat.zero_le _
  · rwa [Nat.sub_self]
  · exact Option.isSome_iff_ne_none.mpr fun herr => hopen (htold.mpr herr)
  · exact absurd (htold.mpr herr) hopen
  · rw [Nat.sub_self]
    exact ⟨List.length_pos_iff.mpr hne, htold.mp hmem, rfl⟩

theorem WriteFrom.drained_all {s : TlsSocket} (h : s.Live) {str : List Byte} (sent : Nat)
    {es : List TlsEvent} (hopen : .closed ∉ es) (hes : acceptedBytes es = str)
    (ts : List DrainTurn) {out : IoOutcome} (hout : (bioDrain s ts).2 = some out) :
    WriteFrom (bioDrain s ts).1 str sent es
      (if !out.ok then { sent := sent + str.length, err := out.err, timeout := out.timeout }
        else { sent := sent + str.length }) := by
  obtain ⟨-, hdrain⟩ := bioDrain_spec h ts
  obtain ⟨hempty, htold⟩ := hdrain out hout
  refine .stop hopen (Nat.le_refl str.length) (hes.trans List.take_length.symm) ?_
    (fun hlt => absurd hlt (Nat.lt_irrefl _)) fun herr htime => ?_
  · split <;> rfl
  · refine hempty (by_contra fun hfail => ?_)
    have hok : out.ok = false := by simpa using hfail
    simp only [hok, Bool.not_false, if_true] at herr htime
    exact absurd_told (htold hok) herr htime

theorem writeTurns_spec {s : TlsSocket} (h : s.Live) {str : List Byte} (hne : str ≠ [])
    (sent : Nat) (ts : List WriteTurn) {ret : WriteRet}
    (hret : (writeTurns s str sent ts).2.2 = some ret) :
    WriteFrom (writeTurns s str sent ts).1 str sent (writeTurns s str sent ts).2.1 ret := by
  -- `writeLua` leaves a rest only when there is one, so the loop never offers an empty string
  induction ts generalizing s str sent with
  | nil => cases hret
  | cons t ts ih =>
    have hlive := writeLua_live h str t.io t.ans
    have hspec := writeLua_spec s hne t.io t.ans
    unfold writeTurns at hret ⊢
    split at hret
    · next hdone =>
      rw [if_pos hdone]
      cases hret
      exact WriteFrom.stop List.not_mem_nil (Nat.zero_le str.length) rfl rfl (fun _ => .inr rfl)
        nofun
    next hdone =>
    rw [if_neg hdone]
    dsimp only at hret ⊢
    have haccepted := hspec.accepted
    have hle := hspec.len_le
    cases hlen : (writeLua s str t.io t.ans).2.2.len with
    | none =>
      simp only [hlen] at hret ⊢
      cases hret
      exact .refused sent hspec hne hlen
    | some len =>
      have hsome : (writeLua s str t.io t.ans).2.2.len.isSome = true := by rw [hlen]; rfl
      have hopen := hspec.not_closed hsome
      rw [hlen, Option.getD_some] at haccepted hle
      simp only [hlen] at hret ⊢
      cases hwant : (writeLua s str t.io t.ans).2.2.want with
      | none =>
        have hall : len = str.length :=
          Option.some_inj.mp (hlen.symm.trans (hspec.all hsome hwant))
        simp only [hwant] at hret ⊢
        obtain ⟨out, hout, rfl⟩ := Option.map_eq_some_iff.mp hret
        rw [hall, List.take_length] at haccepted
        rw [hall]
        exact .drained_all hlive sent hopen haccepted t.drain hout
      | some want =>
        obtain ⟨hplive, hpoll⟩ := pollWait_spec hlive want t.drain t.fill
        -- OpenSSL wants something only while there is a rest
        have hlt : len < str.length := by
          have hrest := hspec.rest hsome (by rw [hwant]; nofun)
          rwa [hlen, Option.getD_some] at hrest
        simp only [hwant] at hret ⊢
        cases hp : (pollWait (writeLua s str t.io t.ans).1 want t.drain t.fill).2 with
        | none =>
          rw [hp] at hret
          cases hret
        | some out =>
          simp only [hp] at hret ⊢
          split at hret
          · next hfail =>
            rw [if_pos hfail]
            cases hret
            have htold := hpoll out hp hfail
            exact .stop hopen hle haccepted rfl (fun _ => htold) fun herr htime =>
              (absurd_told htold herr htime).elim
          · next hgo =>
            rw [if_neg hgo]
            have hrest : str.drop len ≠ [] := by
              rw [ne_eq, List.drop_eq_nil_iff]
              omega
            exact (ih hplive hrest (sent + len) hret).next hopen hle haccepted

theorem bioDrain_ssl (s : TlsSocket) (ts : List DrainTurn) : (bioDrain s ts).1.ssl = s.ssl := by
  unfold bioDrain
  split <;> rfl

theorem pollWait_ssl (s : TlsSocket) (want : Int) (drain : List DrainTurn) (fill : List FillTurn) :
    (pollWait s want drain fill).1.ssl = s.ssl := by
  have hfill (s : TlsSocket) : (bioFill s fill).1.ssl = s.ssl := by
    unfold bioFill
    split <;> rfl
  unfold pollWait
  split
  · dsimp only
    split
    · exact bioDrain_ssl s drain
    split
    · exact bioDrain_ssl s drain
    · exact (hfill _).trans (bioDrain_ssl s drain)
  split
  · exact bioDrain_ssl s drain
  · rfl

theorem NativeWriteAnswers.ends {str : List Byte} {t : WriteTurn} {es : List TlsEvent}
    {r : NativeWrite} (h : NativeWriteAnswers str t.ans es r) (hlen : r.len = none) (sent : Nat) :
    t.Ends { sent := sent, err := r.err } := by
  unfold WriteTurn.Ends
  rcases (h.refused hlen).2 with ⟨hans, herr⟩ | ⟨hans, herr⟩
  · rw [hans]
    exact ⟨herr, rfl⟩
  · rw [hans]
    exact ⟨herr, rfl⟩

theorem WriteTurn.ends_waited (t : WriteTurn) {ret : WriteRet} {p : TlsSocket} {out : IoOutcome}
    (hans : t.ans ≠ .closed ∧ t.ans ≠ .failed) (herr : out.err = ret.err)
    (htime : out.timeout = ret.timeout)
    (hout : (bioDrain p t.drain).2 = some out ∨
      ∃ want, (pollWait p want t.drain t.fill).2 = some out ∧ out.ok = false) : t.Ends ret := by
  unfold WriteTurn.Ends
  split
  · next hclosed => exact absurd hclosed hans.1
  · next hfailed => exact absurd hfailed hans.2
  · exact ⟨p, out, herr, htime, hout⟩

theorem writeTurns_answers {s : TlsSocket} (hssl : s.ssl = true) {str : List Byte}
    (hne : str ≠ []) (sent : Nat) (ts : List WriteTurn) :
    ∃ used rest, ts = used ++ rest ∧ (∀ t ∈ used, t.done = false) ∧
      (writeTurns s str sent ts).2.1 = writesAnswered str (used.map WriteTurn.ans) ∧
      ∀ ret, (writeTurns s str sent ts).2.2 = some ret → WriteEnds used rest ret := by
  induction ts generalizing s str sent with
  | nil => exact ⟨[], [], rfl, fun t ht => absurd ht List.not_mem_nil, rfl, nofun⟩
  | cons t ts ih =>
    unfold writeTurns
    split
    · next hdone =>
      refine ⟨[], t :: ts, rfl, fun t ht => absurd ht List.not_mem_nil, rfl, fun ret hret => ?_⟩
      cases hret
      exact .inl ⟨rfl, rfl, t, rfl, hdone⟩
    next hdone =>
    have hdone : t.done = false := by simpa using hdone
    obtain ⟨hssl', hanswers⟩ := writeLua_answers hssl hne t.io t.ans
    have hspec := writeLua_spec s hne t.io t.ans
    -- the loop ends with this turn
    have hlast {es : List TlsEvent} {r : Option WriteRet}
        (hes : es = writesAnswered str [t.ans]) (hends : ∀ ret, r = some ret → t.Ends ret) :
        ∃ used rest, t :: ts = used ++ rest ∧ (∀ t ∈ used, t.done = false) ∧
          es = writesAnswered str (used.map WriteTurn.ans) ∧
          ∀ ret, r = some ret → WriteEnds used rest ret :=
      ⟨[t], ts, rfl, List.forall_mem_singleton.mpr hdone, hes, fun ret hret =>
        .inr ⟨[], t, rfl, hends ret hret⟩⟩
    dsimp only
    cases hlen : (writeLua s str t.io t.ans).2.2.len with
    | none =>
      refine hlast (hanswers.refused hlen).1 fun ret hret => ?_
      cases hret
      exact hanswers.ends hlen sent
    | some len =>
      have htaken := hanswers.taken len hlen
      have hsome : (writeLua s str t.io t.ans).2.2.len.isSome = true := by rw [hlen]; rfl
      have hes : (writeLua s str t.io t.ans).2.1 = writesAnswered str [t.ans] :=
        ((htaken []).trans (List.append_nil _)).symm
      cases hwant : (writeLua s str t.io t.ans).2.2.want with
      | none =>
        refine hlast hes fun ret hret => ?_
        obtain ⟨out, hout, rfl⟩ := Option.map_eq_some_iff.mp hret
        refine t.ends_waited (hanswers.goesOn hsome) ?_ ?_ (.inl hout)
        · split
          · rfl
          · next hok =>
            rw [bioDrain_ok hout (by simpa using hok)]
        · split
          · rfl
          · next hok =>
            rw [bioDrain_ok hout (by simpa using hok)]
      | some want =>
        dsimp only
        cases hp : (pollWait (writeLua s str t.io t.ans).1 want t.drain t.fill).2 with
        | none => exact hlast hes nofun
        | some out =>
          dsimp only
          split
          · next hfail =>
            refine hlast hes fun ret hret => ?_
            cases hret
            simp only [Bool.and_eq_true, Bool.not_eq_true'] at hfail
            exact t.ends_waited (hanswers.goesOn hsome) rfl rfl (.inr ⟨want, hp, hfail.1⟩)
          · have hlt := hspec.rest hsome (by rw [hwant]; nofun)
            rw [hlen, Option.getD_some] at hlt
            have hrest : str.drop len ≠ [] := by
              rw [ne_eq, List.drop_eq_nil_iff]
              omega
            obtain ⟨used, rest, rfl, hused, hevents, hstop⟩ :=
              ih ((pollWait_ssl _ want t.drain t.fill).trans hssl') hrest (sent + len)
            refine ⟨t :: used, rest, rfl, List.forall_mem_cons.mpr ⟨hdone, hused⟩, ?_,
              fun ret hret => ?_⟩
            · rw [hevents]
              exact (htaken _).symm
            · rcases hstop ret hret with hdead | ⟨before, q, rfl, hq⟩
              · exact .inl hdead
              · exact .inr ⟨t :: before, q, rfl, hq⟩

end Turns

def TlsSocket.Reachable (s : TlsSocket) : Prop :=
  ∀ bio, s.bio = some bio →
    ∃ fd : Nat, ∃ cap : RingCap, ∃ ops : List BioOp, bio = (runs bioStep (tlsBioNew fd cap) ops).1

theorem TlsSocket.Reachable.live {s : TlsSocket} (h : s.Reachable) : s.Live := by
  intro bio hbio
  obtain ⟨fd, cap, ops, rfl⟩ := h bio hbio
  exact runs_invariant (fun t op ht => (bioStep_tx t op ht).1) (tlsBioNew_live_tx fd cap) ops

theorem handshakeTurns_ssl (s : TlsSocket) (ts : List HandshakeTurn) :
    (handshakeTurns s ts).1.ssl = s.ssl := by
  have hnative (s : TlsSocket) (t : HandshakeTurn) : (handshakeLua s t.io t.ans).1.ssl = s.ssl := by
    unfold handshakeLua
    split
    · rfl
    split
    · rfl
    · cases t.ans <;> rfl
  induction ts generalizing s with
  | nil => rfl
  | cons t ts ih =>
    unfold handshakeTurns
    dsimp only
    split
    · split
      · exact hnative s t
      · exact (bioDrain_ssl _ t.drain).trans (hnative s t)
    · next want hwant =>
      have hwait := (pollWait_ssl (handshakeLua s t.io t.ans).1 want t.drain t.fill).trans (hnative s t)
      split
      · exact hwait
      split
      · exact hwait
      · exact (ih _).trans hwait

/-- After the handshake, the plaintext that is reported to have been accepted is what the answers
of SSL_write have taken, of the turns that the call has used. -/
theorem socketWrite_answers {s : TlsSocket} (hssl : s.ssl = true) {str : List Byte} (hne : str ≠ [])
    (hs : List HandshakeTurn) (ws : List WriteTurn) :
    ∃ used rest, ws = used ++ rest ∧ (∀ t ∈ used, t.done = false) ∧
      (socketWrite s str hs ws).2.1 =
        (if s.handshaked then [] else (handshakeTurns s hs).2.1) ++
          writesAnswered str (used.map WriteTurn.ans) ∧
      ∀ ret, (socketWrite s str hs ws).2.2 = some ret →
        WriteEnds used rest ret ∨
          s.handshaked = false ∧ used = [] ∧
            ∃ out, (handshakeTurns s hs).2.2 = some out ∧ out.ok = false := by
  have hwrite {s : TlsSocket} (hssl : s.ssl = true) := writeTurns_answers hssl hne 0 ws
  unfold socketWrite
  split
  · obtain ⟨used, rest, hws, hused, hes, hends⟩ := hwrite hssl
    exact ⟨used, rest, hws, hused, hes, fun ret hret => .inl (hends ret hret)⟩
  next hshaken =>
  have hshaken : s.handshaked = false := by simpa using hshaken
  have hnone {r : Option WriteRet} (hr : ∀ ret, r = some ret →
      ∃ out, (handshakeTurns s hs).2.2 = some out ∧ out.ok = false) :
      ∃ used rest, ws = used ++ rest ∧ (∀ t ∈ used, t.done = false) ∧
        (handshakeTurns s hs).2.1 =
          (handshakeTurns s hs).2.1 ++ writesAnswered str (used.map WriteTurn.ans) ∧
        ∀ ret, r = some ret →
          WriteEnds used rest ret ∨
            s.handshaked = false ∧ used = [] ∧
              ∃ out, (handshakeTurns s hs).2.2 = some out ∧ out.ok = false :=
    ⟨[], ws, rfl, fun t ht => absurd ht List.not_mem_nil, (List.append_nil _).symm,
      fun ret hret => .inr ⟨hshaken, rfl, hr ret hret⟩⟩
  dsimp only
  cases hout : (handshakeTurns s hs).2.2 with
  | none =>
    rw [hout] at hnone
    exact hnone nofun
  | some out =>
    rw [hout] at hnone
    dsimp only
    split
    · next hfail => exact hnone fun ret hret => ⟨out, rfl, by simpa using hfail⟩
    · obtain ⟨used, rest, hws, hused, hes, hends⟩ :=
        hwrite ((handshakeTurns_ssl s hs).trans hssl)
      exact ⟨used, rest, hws, hused, congrArg _ hes, fun ret hret => .inl (hends ret hret)⟩

/-- What `Socket:write` returns is honest exactly when OpenSSL never answered during the call
that the connection is closed. -/
theorem socketWrite_honest {s : TlsSocket} (h : s.Reachable) {str : List Byte} (hne : str ≠ [])
    (hs : List HandshakeTurn) (ws : List WriteTurn) {ret : WriteRet}
    (hret : (socketWrite s str hs ws).2.2 = some ret) :
    WriteHonest (socketWrite s str hs ws).1 str (socketWrite s str hs ws).2.1 ret ↔
      .closed ∉ (socketWrite s str hs ws).2.1 := by
  have hmain : WriteFrom (socketWrite s str hs ws).1 str 0 (socketWrite s str hs ws).2.1 ret := by
    unfold socketWrite at hret ⊢
    split at hret
    · next hshaken =>
      rw [if_pos hshaken]
      exact writeTurns_spec h.live hne 0 ws hret
    next hshaken =>
    rw [if_neg hshaken]
    dsimp only at hret ⊢
    obtain ⟨hlive, hnil, hspec⟩ := handshakeTurns_spec h.live hs
    cases hout : (handshakeTurns s hs).2.2 with
    | none =>
      rw [hout] at hret
      cases hret
    | some out =>
      obtain ⟨htold, hsilent⟩ := hspec out hout
      simp only [hout] at hret ⊢
      split at hret
      · next hfail =>
        rw [if_pos hfail]
        cases hret
        have hok : out.ok = false := by simpa using hfail
        exact ⟨Nat.le_refl _, Nat.zero_le _, hnil, fun hopen _ => htold hopen hok,
          fun hopen herr htime => (absurd_told (htold hopen hok) herr htime).elim,
          fun hmem => ⟨List.length_pos_iff.mpr hne, (hsilent hmem).2⟩⟩
      · next hdone =>
        rw [if_neg hdone]
        have hopen : .closed ∉ (handshakeTurns s hs).2.1 := fun hmem =>
          hdone (by rw [(hsilent hmem).1]; rfl)
        exact WriteFrom.next hopen (Nat.zero_le str.length) hnil (writeTurns_spec hlive hne 0 ws hret)
  refine ⟨fun hhonest hmem => ?_, fun hopen => ⟨hmain.sent_le, hmain.accepted, hmain.told hopen,
    hmain.drained hopen⟩⟩
  obtain ⟨hlt, herr, htime⟩ := hmain.silent hmem
  exact absurd_told (hhonest.short hlt) herr htime

def writeCap : RingCap := { val := 4, fits := by decide, pos := by decide }

def writeSocket : TlsSocket where
  client := true
  ssl := true
  handshakeCb := false
  bio := some (tlsBioNew 3 writeCap)
  handshaked := true

theorem writeSocket_reachable : writeSocket.Reachable := by
  intro bio hbio
  cases hbio
  exact ⟨3, writeCap, [], rfl⟩

def writeTurn (io : List SslIo) (ans : SslWrite) : WriteTurn where
  done := false
  io := io
  ans := ans
  drain := [{ done := false, sends := [.accepted 4], expired := false, wait := .ready }]
  fill := []

def oneByteTurns : List WriteTurn :=
  [writeTurn [.write [1]] (.wrote 1 (by decide)), writeTurn [.write [2]] (.wrote 1 (by decide))]

theorem socketWrite_honest_oneByteTurns :
    WriteHonest (socketWrite writeSocket [7, 8] [] oneByteTurns).1 [7, 8]
      [.accepted [7], .accepted [8]] { sent := 2 } := by
  have hret : (socketWrite writeSocket [7, 8] [] oneByteTurns).2.2 = some { sent := 2 } := rfl
  exact (socketWrite_honest writeSocket_reachable (List.cons_ne_nil 7 [8]) [] oneByteTurns
    hret).mpr (by decide)

def freshSocket : TlsSocket := { writeSocket with handshakeCb := true, handshaked := false }

/-- The flight of the client goes out, and the peer answers it with a close_notify. -/
def closedTurns : List HandshakeTurn :=
  [{ io := [.write [1], .read 5], ans := .want .read,
     drain := [{ done := false, sends := [.accepted 4], expired := false, wait := .ready }],
     fill := [{ done := false, reads := [.data [7], .failed .eagain], expired := false,
                wait := .ready }] },
    { io := [.read 5], ans := .closed, drain := [], fill := [] }]

/-- The connection is closed during the implicit handshake: the call returns 0, and neither an
error nor a timeout. -/
theorem socketWrite_closedTurns :
    freshSocket.Reachable ∧
      (socketWrite freshSocket [120, 121] closedTurns []).2.2 = some { sent := 0 } ∧
      ¬ WriteHonest (socketWrite freshSocket [120, 121] closedTurns []).1 [120, 121]
        (socketWrite freshSocket [120, 121] closedTurns []).2.1 { sent := 0 } := by
  refine ⟨writeSocket_reachable, rfl, fun h => ?_⟩
  rcases h.short (by decide) with hsome | htrue
  · cases hsome
  · cases htrue

end LuaNet.Tls
