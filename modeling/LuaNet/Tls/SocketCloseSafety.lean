import LuaNet.Tls.SocketClose

/-! Closing a TLS socket under its suspended calls. The native calls guard themselves: a disposed
context has no SSL object and its BIO no descriptor, so a call that is resumed behind the close
touches neither. -/

namespace LuaNet.Tls

open LuaNet.Lib LuaNet.Lib.Coroutine

structure TlsConn.Serving (c : TlsConn) (bio : TlsBio) (fd : Nat) : Prop where
  opened : bio.Open
  own : bio.fd = fd
  kept : c.tlsBio = true

structure TlsConn.Disposed (c : TlsConn) (bio : TlsBio) : Prop where
  freed : bio.fd < 0
  empty : bio.tx.buf.contents = []
  ssl : c.sock.ssl = false
  dropped : c.tlsBio = false

/-- What a suspended call may count on: the socket is open, or it is closed and disposed of. -/
def TlsConn.InOrder (c : TlsConn) : Prop :=
  ∃ bio, c.sock.bio = some bio ∧
    ((∃ fd, c.fd = some fd ∧ c.Serving bio fd) ∨ c.fd = none ∧ c.Disposed bio)

def TlsConn.Torn (c : TlsConn) : Prop := ∃ bio, c.sock.bio = some bio ∧ c.Disposed bio

def TlsConn.Flushed (c : TlsConn) : Prop := c.sock.pending = []

def ConnEvent.Uses (fd : Nat) : ConnEvent → Prop
  | .ssl => True
  | .drain d => d = fd
  | .fill d => d = fd
  | .wait d _ => d = fd
  | _ => False

def ConnEvent.isClose : ConnEvent → Bool
  | .close _ => true
  | _ => false

def ConnEvent.ends : ConnEvent → Bool
  | .close _ => true
  | .returned _ => true
  | _ => false

def ConnEvent.Idle : ConnEvent → Prop
  | .dispose pending _ => pending = []
  | .returned _ => True
  | _ => False

def ConnEvent.On (fd : Nat) : ConnEvent → Prop
  | .close d => d = fd
  | .dispose _ _ => True
  | .returned _ => True
  | e => e.Uses fd

/-- What a stretch of a run does to the socket: its descriptor stays or is closed; a close returns
only behind that; what comes behind either uses nothing; and a shutdown that succeeded leaves no
ciphertext to the disposal. -/
structure CloseTrace (c : TlsConn) (es : List ConnEvent) (c' : TlsConn) : Prop where
  kept : c'.fd = none ∨ c'.fd = c.fd
  own : ∀ fd, c.fd = some fd → ∀ e ∈ es, e.On fd
  idle : c.fd = none → ∀ e ∈ es, e.Idle
  closed : (∃ e ∈ es, e.isClose = true) ↔ c.fd ≠ none ∧ c'.fd = none
  ordered : es.Pairwise fun e f => e.ends = true → f.Idle
  returned : ∀ ok, .returned ok ∈ es → c'.fd = none
  flushed : ∀ pending, .dispose pending true ∈ es → pending = []

section Trace

variable {c c' c'' : TlsConn} {es fs : List ConnEvent}

theorem ConnEvent.Idle.on {e : ConnEvent} (h : e.Idle) (fd : Nat) : e.On fd := by
  cases e with
  | dispose pending ok => trivial
  | returned ok => trivial
  | _ => exact absurd h id

theorem ConnEvent.Uses.on {e : ConnEvent} {fd : Nat} (h : e.Uses fd) : e.On fd := by
  cases e with
  | close d => exact absurd h id
  | dispose pending ok => trivial
  | returned ok => trivial
  | _ => exact h

theorem CloseTrace.nil (c : TlsConn) : CloseTrace c [] c where
  kept := .inr rfl
  own _ _ _ he := absurd he List.not_mem_nil
  idle _ _ he := absurd he List.not_mem_nil
  closed := by simp only [List.not_mem_nil, false_and, exists_false, ne_eq, not_and_self]
  ordered := List.Pairwise.nil
  returned _ he := absurd he List.not_mem_nil
  flushed _ he := absurd he List.not_mem_nil

theorem CloseTrace.trans (h : CloseTrace c es c') (h' : CloseTrace c' fs c'') :
    CloseTrace c (es ++ fs) c'' := by
  have hstays (hnone : c'.fd = none) : c''.fd = none := by
    rcases h'.kept with hkept | hkept
    · exact hkept
    · rw [hkept, hnone]
  refine ⟨?_, fun fd hfd e he => ?_, fun hfd e he => ?_, ?_, ?_, fun ok he => ?_,
    fun pending he => ?_⟩
  · rcases h.kept with hkept | hkept
    · exact .inl (hstays hkept)
    · rw [← hkept]
      exact h'.kept
  · rcases List.mem_append.mp he with he | he
    · exact h.own fd hfd e he
    · rcases h.kept with hkept | hkept
      · exact (h'.idle hkept e he).on fd
      · exact h'.own fd (hkept.trans hfd) e he
  · rcases List.mem_append.mp he with he | he
    · exact h.idle hfd e he
    · have hnone : c'.fd = none := by
        rcases h.kept with hkept | hkept
        · exact hkept
        · exact hkept.trans hfd
      exact h'.idle hnone e he
  · simp only [List.mem_append, or_and_right, exists_or]
    rw [h.closed, h'.closed]
    constructor
    · rintro (⟨hopen, hnone⟩ | ⟨hopen, hnone⟩)
      · exact ⟨hopen, hstays hnone⟩
      · refine ⟨?_, hnone⟩
        rw [← h.kept.resolve_left hopen]
        exact hopen
    · rintro ⟨hopen, hnone⟩
      by_cases hmid : c'.fd = none
      · exact .inl ⟨hopen, hmid⟩
      · exact .inr ⟨hmid, hnone⟩
  · refine List.pairwise_append.mpr ⟨h.ordered, h'.ordered, fun e he f hf hends => ?_⟩
    have hnone : c'.fd = none := by
      cases e with
      | close d => exact (h.closed.mp ⟨_, he, rfl⟩).2
      | returned ok => exact h.returned ok he
      | _ => cases hends
    exact h'.idle hnone f hf
  · rcases List.mem_append.mp he with he | he
    · exact hstays (h.returned ok he)
    · exact h'.returned ok he
  · rcases List.mem_append.mp he with he | he
    · exact h.flushed pending he
    · exact h'.flushed pending he

theorem CloseTrace.uses (hfd : c'.fd = c.fd)
    (huses : ∀ e ∈ es, ∃ fd, c.fd = some fd ∧ e.Uses fd) : CloseTrace c es c' := by
  have hnone : ∀ e ∈ es, c.fd ≠ none := by
    intro e he hnone
    obtain ⟨fd, hfd, -⟩ := huses e he
    rw [hfd] at hnone
    cases hnone
  have hends : ∀ e ∈ es, e.ends = false ∧ e.isClose = false := by
    intro e he
    obtain ⟨fd, -, huse⟩ := huses e he
    cases e with
    | close d => exact absurd huse id
    | returned ok => exact absurd huse id
    | _ => exact ⟨rfl, rfl⟩
  refine ⟨.inr hfd, fun fd hsome e he => ?_, fun hc e he => absurd hc (hnone e he), ?_, ?_,
    fun ok he => ?_, fun pending he => ?_⟩
  · obtain ⟨fd', hsome', huse⟩ := huses e he
    rw [hsome] at hsome'
    cases hsome'
    exact huse.on
  · rw [hfd]
    simp only [ne_eq, not_and_self, iff_false]
    rintro ⟨e, he, hc⟩
    rw [(hends e he).2] at hc
    cases hc
  · refine List.pairwise_of_forall_mem_list fun e he f _ hc => ?_
    rw [(hends e he).1] at hc
    cases hc
  · obtain ⟨fd, -, huse⟩ := huses _ he
    exact absurd huse id
  · obtain ⟨fd, -, huse⟩ := huses _ he
    exact absurd huse id

theorem CloseTrace.silent (hfd : c'.fd = c.fd) : CloseTrace c [] c' :=
  .uses hfd fun _ he => absurd he List.not_mem_nil

end Trace

section Native

theorem bioStep_fd (bio : TlsBio) (op : BioOp) : (bioStep bio op).1.fd = bio.fd := by
  cases op with
  | drain rs => exact (drainLua_frame bio rs).2.1
  | fill rs => exact (fillLua_frame bio rs).2.1
  | consume n =>
    have hfd := (consumeLua_frame bio n).2
    simp only [bioStep]
    split
    · next heq =>
      rw [heq] at hfd
      exact hfd
    · next heq =>
      rw [heq] at hfd
      exact hfd
  | commit n =>
    have hfd := (commitLua_frame bio n).2
    simp only [bioStep]
    split
    · next heq =>
      rw [heq] at hfd
      exact hfd
    · next heq =>
      rw [heq] at hfd
      exact hfd
  | poke bs =>
    simp only [bioStep]
    split <;> rfl
  | _ => rfl

theorem bioRuns_open {bio : TlsBio} {fd : Nat} (h : bio.Open) (hfd : bio.fd = fd)
    (ops : List BioOp) :
    (runs bioStep bio ops).1.Open ∧ (runs bioStep bio ops).1.fd = fd :=
  runs_invariant (I := fun bio : TlsBio => bio.Open ∧ bio.fd = fd)
    (fun bio op h => ⟨bioStep_open h.1 op, (bioStep_fd bio op).trans h.2⟩) ⟨h, hfd⟩ ops

structure NativeCall {ν : Type} (f : TlsSocket → TlsSocket × ν) : Prop where
  absent : ∀ s, s.ssl = false → (f s).1 = s
  calls : ∀ s, ∃ io, (f s).1.bio = (s.sslIo io).bio

theorem sslIo_nil (s : TlsSocket) : (s.sslIo []).bio = s.bio := by
  cases h : s.bio <;> simp only [TlsSocket.sslIo, h, Option.map, List.map_nil, runs_nil]

theorem callsSsl_bio {ν : Type} {io : List SslIo} {f : TlsSocket → TlsSocket × ν}
    {want : ν → Option Int} (h : Loops.CallsSsl io f want) (s : TlsSocket) :
    ∃ io', (f s).1.bio = (s.sslIo io').bio := by
  rcases h s with hcalled | ⟨hsame, -⟩
  · exact ⟨io, hcalled⟩
  · exact ⟨[], hsame.trans (sslIo_nil s).symm⟩

theorem handshakeLua_native (io : List SslIo) (ans : SslHandshake) :
    NativeCall fun s => ((handshakeLua s io ans).1, (handshakeLua s io ans).2.2) where
  absent s hs := by simp only [handshakeLua, hs, Bool.not_false, if_true]
  calls := callsSsl_bio (Loops.handshakeLua_calls io ans)

theorem readLua_native (bufsiz : Int) (io : List SslIo) (ans : SslRead) :
    NativeCall (readLua · bufsiz io ans) where
  absent s hs := by simp only [readLua, hs, Bool.not_false, if_true]
  calls := callsSsl_bio (Loops.readLua_calls bufsiz io ans)

theorem writeLua_native (str : List Byte) (io : List SslIo) (ans : SslWrite) :
    NativeCall fun s => ((writeLua s str io ans).1, (writeLua s str io ans).2.2) where
  absent s hs := by simp only [writeLua, hs, Bool.not_false, if_true]
  calls := callsSsl_bio (Loops.writeLua_calls str io ans)

theorem shutdownLua_native (io : List SslIo) (ans : SslShutdown) :
    NativeCall (shutdownLua · io ans) where
  absent s hs := by simp only [shutdownLua, hs, Bool.not_false, if_true]
  calls := callsSsl_bio (Loops.shutdownLua_calls io ans)

end Native

/-- From a suspension on, a call keeps the socket in order and its trace. -/
def Guarded {α : Type} (m : ConnCall α) (Q : α → TlsConn → Prop) : Prop :=
  Obeys TlsConn.InOrder CloseTrace TlsConn.InOrder m Q

namespace ConnCall

variable {α : Type}

theorem guarded_pure {a : α} {Q : α → TlsConn → Prop} (h : ∀ c, c.InOrder → Q a c) :
    Guarded (Pure.pure a) Q := Obeys.pure h

theorem guarded_idle {Q : α → TlsConn → Prop} : Guarded .idle Q := Obeys.idle fun _ h => h

theorem guarded_look {f : TlsConn → ConnCall α} {Q : α → TlsConn → Prop}
    (h : ∀ c, c.InOrder → Obeys TlsConn.InOrder CloseTrace (· = c) (f c) Q) :
    Guarded (look >>= f) Q :=
  Obeys.look_bind CloseTrace.nil h

theorem native_guarded {ν : Type} {f : TlsSocket → TlsSocket × ν} (hf : NativeCall f) :
    Guarded (native f) fun _ => TlsConn.InOrder := by
  apply Obeys.atomic
  rintro c ⟨bio, hbio, ⟨fd, hfd, hserving⟩ | ⟨hfd, hdisposed⟩⟩
  · refine ⟨.uses rfl fun e he => ⟨fd, hfd, ?_⟩, ?_⟩
    · split at he
      · rw [List.mem_singleton.mp he]
        trivial
      · exact absurd he List.not_mem_nil
    · obtain ⟨io, hio⟩ := hf.calls c.sock
      rw [TlsSocket.sslIo, hbio] at hio
      obtain ⟨hopen, hown⟩ := bioRuns_open hserving.opened hserving.own (io.map SslIo.op)
      exact ⟨_, hio, .inl ⟨fd, hfd, hopen, hown, hserving.kept⟩⟩
  · have hsame := hf.absent c.sock hdisposed.ssl
    simp only [hdisposed.ssl, hsame, Bool.false_eq_true, if_false]
    exact ⟨.silent rfl, bio, hbio, .inr ⟨hfd, hdisposed⟩⟩

theorem callDrain_guarded (sends : List SendResult) :
    Guarded (callDrain sends) fun ret c => c.InOrder ∧
      ∀ r, ret = some r → (r.n.isSome && !r.again) = true → c.Flushed := by
  apply Obeys.atomic
  rintro c ⟨bio, hbio, ⟨fd, hfd, hserving⟩ | ⟨hfd, hdisposed⟩⟩
  · have hlive : ¬bio.fd < 0 := hserving.opened.tx.not_freed
    simp only [hbio, hlive, if_false]
    refine ⟨.uses rfl fun e he => ⟨fd, hfd, ?_⟩, ?_, fun r hr hplain => ?_⟩
    · rw [List.mem_singleton.mp he]
      exact hserving.own
    · exact ⟨_, rfl, .inl ⟨fd, hfd, (drainLua_open hserving.opened sends).1,
        (drainLua_frame bio sends).2.1.trans hserving.own, hserving.kept⟩⟩
    · exact drainLua_emptied hserving.opened sends hr hplain
  · have hret : drainLua bio sends = (bio, [], some { err := some (.einval, "drain") }) := by
      rw [drainLua, if_pos hdisposed.freed]
    simp only [hbio, hdisposed.freed, hret, if_true]
    refine ⟨.silent rfl, ⟨bio, rfl, .inr ⟨hfd, hdisposed.freed, hdisposed.empty, hdisposed.ssl,
      hdisposed.dropped⟩⟩, fun r hr hplain => ?_⟩
    cases hr
    cases hplain

theorem callFill_guarded (reads : List ReadResult) :
    Guarded (callFill reads) fun _ => TlsConn.InOrder := by
  apply Obeys.atomic
  rintro c ⟨bio, hbio, ⟨fd, hfd, hserving⟩ | ⟨hfd, hdisposed⟩⟩
  · have hlive : ¬bio.fd < 0 := hserving.opened.tx.not_freed
    simp only [hbio, hlive, if_false]
    refine ⟨.uses rfl fun e he => ⟨fd, hfd, ?_⟩, ?_⟩
    · rw [List.mem_singleton.mp he]
      exact hserving.own
    · exact ⟨_, rfl, .inl ⟨fd, hfd, (fillLua_open hserving.opened reads).1,
        (fillLua_frame bio reads).2.1.trans hserving.own, hserving.kept⟩⟩
  · have hret : fillLua bio reads = (bio, [], some { err := some (.einval, "fill") }) := by
      rw [fillLua, if_pos hdisposed.freed]
    simp only [hbio, hdisposed.freed, hret, if_true]
    exact ⟨.silent rfl, bio, rfl, .inr ⟨hfd, hdisposed.freed, hdisposed.empty, hdisposed.ssl,
      hdisposed.dropped⟩⟩

theorem waitFd_guarded (readable : Bool) (w : WaitResult) :
    Guarded (waitFd readable w) fun r c => c.InOrder ∧ ∀ out, r = some out → out.ok = false := by
  apply guarded_look
  intro c hc
  cases hfd : c.fd with
  | none =>
    apply Obeys.pure
    rintro _ rfl
    refine ⟨hc, fun out hout => ?_⟩
    cases hout
    rfl
  | some fd =>
    apply Obeys.bind (Q := fun _ => TlsConn.InOrder)
    · apply Obeys.emit
      rintro _ rfl
      refine ⟨.uses rfl fun e he => ⟨fd, hfd, ?_⟩, hc⟩
      rw [List.mem_singleton.mp he]
      rfl
    · intro _
      apply Obeys.bind (Obeys.yield (Q := fun _ => TlsConn.InOrder) (fun _ h => h) fun _ h => h)
      intro _
      refine Obeys.pure fun _ h => ⟨h, fun out hout => ?_⟩
      cases w with
      | ready => cases hout
      | failed code =>
        cases hout
        rfl
      | timeout =>
        cases hout
        rfl

theorem drainAll_guarded (ts : List DrainTurn) :
    Guarded (drainAll ts) fun out c => c.InOrder ∧ (out.ok = true → c.Flushed) := by
  induction ts with
  | nil => exact guarded_idle
  | cons t ts ih =>
    apply Obeys.ite
    · intro _
      exact guarded_pure fun _ h => ⟨h, nofun⟩
    intro _
    apply Obeys.bind (callDrain_guarded t.sends)
    rintro (_ | ret)
    · exact Obeys.idle fun _ h => h.1
    apply Obeys.ite
    · intro hplain
      exact Obeys.pure fun _ h => ⟨h.1, fun _ => h.2 ret rfl hplain⟩
    intro _
    apply Obeys.ite
    · intro _
      exact Obeys.pure fun _ h => ⟨h.1, nofun⟩
    intro _
    apply Obeys.ite
    · intro _
      exact Obeys.pure fun _ h => ⟨h.1, nofun⟩
    intro _
    apply Obeys.bind ((waitFd_guarded false t.wait).pre fun _ h => h.1)
    rintro (_ | out)
    · exact ih.pre fun _ h => h.1
    · refine Obeys.pure fun _ h => ⟨h.1, fun hok => ?_⟩
      rw [h.2 out rfl] at hok
      cases hok

theorem bioDrain_guarded (ts : List DrainTurn) :
    Guarded (bioDrain ts) fun out c => c.InOrder ∧ (out.ok = true → c.Flushed) := by
  apply guarded_look
  intro c hc
  apply Obeys.ite
  · intro hdropped
    refine Obeys.pure ?_
    rintro _ rfl
    refine ⟨hc, fun _ => ?_⟩
    obtain ⟨bio, hbio, ⟨fd, hfd, hserving⟩ | ⟨hfd, hdisposed⟩⟩ := hc
    · rw [hserving.kept] at hdropped
      cases hdropped
    · rw [TlsConn.Flushed, TlsSocket.pending, hbio]
      exact hdisposed.empty
  · intro _
    apply (drainAll_guarded ts).pre
    rintro _ rfl
    exact hc

theorem fillAll_guarded (ts : List FillTurn) :
    Guarded (fillAll ts) fun _ => TlsConn.InOrder := by
  induction ts with
  | nil => exact guarded_idle
  | cons t ts ih =>
    apply Obeys.ite
    · intro _
      exact guarded_pure fun _ h => h
    intro _
    apply Obeys.bind (callFill_guarded t.reads)
    rintro (_ | ret)
    · exact guarded_idle
    apply Obeys.ite
    · intro _
      exact guarded_pure fun _ h => h
    intro _
    apply Obeys.ite
    · intro _
      exact guarded_pure fun _ h => h
    intro _
    apply Obeys.ite
    · intro _
      exact guarded_pure fun _ h => h
    intro _
    apply Obeys.bind (waitFd_guarded true t.wait)
    rintro (_ | out)
    · exact ih.pre fun _ h => h.1
    · exact Obeys.pure fun _ h => h.1

theorem bioFill_guarded (ts : List FillTurn) :
    Guarded (bioFill ts) fun _ => TlsConn.InOrder := by
  apply guarded_look
  intro c hc
  have hstart : ∀ s, s = c → s.InOrder := by
    rintro _ rfl
    exact hc
  apply Obeys.ite
  · intro _
    exact Obeys.pure hstart
  · intro _
    exact (fillAll_guarded ts).pre hstart

theorem pollWait_guarded (want : Int) (drain : List DrainTurn) (fill : List FillTurn) :
    Guarded (pollWait want drain fill) fun _ => TlsConn.InOrder := by
  apply Obeys.ite
  · intro _
    apply Obeys.bind (bioDrain_guarded drain)
    intro out
    apply Obeys.ite
    · intro _
      exact Obeys.pure fun _ h => h.1
    · intro _
      exact (bioFill_guarded fill).pre fun _ h => h.1
  intro _
  apply Obeys.ite
  · intro _
    exact (bioDrain_guarded drain).mono (fun _ h => h) fun _ _ h => h.1
  · intro _
    exact guarded_pure fun _ h => h

theorem finishHandshake_guarded (ts : List DrainTurn) :
    Guarded (finishHandshake ts) fun _ => TlsConn.InOrder := by
  apply Obeys.bind (bioDrain_guarded ts)
  intro out
  apply Obeys.bind (Q := fun _ => TlsConn.InOrder)
  · apply Obeys.atomic
    rintro c ⟨⟨bio, hbio, hc⟩, -⟩
    refine ⟨.silent rfl, bio, hbio, ?_⟩
    rcases hc with ⟨fd, hfd, hserving⟩ | ⟨hfd, hdisposed⟩
    · exact .inl ⟨fd, hfd, hserving.opened, hserving.own, hserving.kept⟩
    · exact .inr ⟨hfd, hdisposed.freed, hdisposed.empty, hdisposed.ssl, hdisposed.dropped⟩
  · intro _
    exact Obeys.pure fun _ h => h

theorem handshakeAll_guarded (ts : List HandshakeTurn) :
    Guarded (handshakeAll ts) fun _ => TlsConn.InOrder := by
  induction ts with
  | nil => exact guarded_idle
  | cons t ts ih =>
    apply Obeys.bind (native_guarded (handshakeLua_native t.io t.ans))
    intro r
    cases r.want with
    | none =>
      apply Obeys.ite
      · intro _
        exact guarded_pure fun _ h => h
      · intro _
        exact finishHandshake_guarded t.drain
    | some want =>
      apply Obeys.bind (pollWait_guarded want t.drain t.fill)
      intro out
      apply Obeys.ite
      · intro _
        exact guarded_pure fun _ h => h
      · intro _
        exact ih

theorem handshake_guarded (ts : List HandshakeTurn) :
    Guarded (handshake ts) fun _ => TlsConn.InOrder := by
  apply guarded_look
  intro c hc
  have hstart : ∀ s, s = c → s.InOrder := by
    rintro _ rfl
    exact hc
  apply Obeys.ite
  · intro _
    exact Obeys.pure hstart
  · intro _
    exact (handshakeAll_guarded ts).pre hstart

theorem readAll_guarded (bufsiz : Int) (ts : List Loops.ReadTurn) :
    Guarded (readAll bufsiz ts) fun _ => TlsConn.InOrder := by
  induction ts with
  | nil => exact guarded_idle
  | cons t ts ih =>
    apply Obeys.ite
    · intro _
      exact guarded_pure fun _ h => h
    intro _
    apply Obeys.bind (native_guarded (readLua_native bufsiz t.io t.ans))
    intro r
    cases r.want with
    | none => exact guarded_pure fun _ h => h
    | some want =>
      apply Obeys.bind (pollWait_guarded want t.drain t.fill)
      intro out
      apply Obeys.ite
      · intro _
        exact guarded_pure fun _ h => h
      · intro _
        exact ih

theorem writeAll_guarded (str : List Byte) (sent : Nat) (ts : List WriteTurn) :
    Guarded (writeAll str sent ts) fun _ => TlsConn.InOrder := by
  induction ts generalizing str sent with
  | nil => exact guarded_idle
  | cons t ts ih =>
    apply Obeys.ite
    · intro _
      exact guarded_pure fun _ h => h
    intro _
    apply Obeys.bind (native_guarded (writeLua_native str t.io t.ans))
    intro r
    cases r.len with
    | none => exact guarded_pure fun _ h => h
    | some len =>
      cases r.want with
      | none =>
        apply Obeys.bind (bioDrain_guarded t.drain)
        intro out
        apply Obeys.ite
        · intro _
          exact Obeys.pure fun _ h => h.1
        · intro _
          exact Obeys.pure fun _ h => h.1
      | some want =>
        apply Obeys.bind (pollWait_guarded want t.drain t.fill)
        intro out
        apply Obeys.ite
        · intro _
          exact guarded_pure fun _ h => h
        · intro _
          exact ih _ _

theorem tlsShutdown_guarded (ts : List Loops.ShutdownTurn) :
    Guarded (tlsShutdown ts) fun out c => c.InOrder ∧ (out.ok = true → c.Flushed) := by
  induction ts with
  | nil => exact guarded_idle
  | cons t ts ih =>
    apply Obeys.bind (native_guarded (shutdownLua_native t.io t.ans))
    intro r
    cases r.want with
    | none =>
      apply Obeys.ite
      · intro _
        exact guarded_pure fun _ h => ⟨h, nofun⟩
      · intro _
        exact bioDrain_guarded t.drain
    | some want =>
      apply Obeys.bind (pollWait_guarded want t.drain t.fill)
      intro out
      apply Obeys.ite
      · intro _
        exact guarded_pure fun _ h => ⟨h, nofun⟩
      · intro _
        exact ih

theorem tlsBioFree_disposed (c : TlsConn) (bio : TlsBio) (hssl : c.sock.ssl = false)
    (hdropped : c.tlsBio = false) : c.Disposed (tlsBioFree bio) where
  freed := Int.negSucc_lt_zero 0
  empty := rfl
  ssl := hssl
  dropped := hdropped

theorem dispose_obeys (ok : Bool) :
    Obeys TlsConn.InOrder CloseTrace (fun c => c.InOrder ∧ (ok = true → c.Flushed)) (dispose ok)
      fun _ => TlsConn.Torn := by
  apply Obeys.atomic
  rintro c ⟨⟨bio, hbio, hc⟩, hflushed⟩
  refine ⟨⟨.inr rfl, ?_, ?_, ?_, List.pairwise_singleton _ _, ?_, ?_⟩, tlsBioFree bio, ?_,
    tlsBioFree_disposed _ bio rfl rfl⟩
  · intro fd _ e he
    rw [List.mem_singleton.mp he]
    trivial
  · intro hfd e he
    rcases hc with ⟨fd, hsome, -⟩ | ⟨-, hdisposed⟩
    · rw [hfd] at hsome
      cases hsome
    · rw [List.mem_singleton.mp he, ConnEvent.Idle, TlsSocket.pending, hbio]
      exact hdisposed.empty
  · simp only [List.mem_singleton, exists_eq_left, ConnEvent.isClose, Bool.false_eq_true, ne_eq,
      not_and_self]
  · intro ok' he
    cases List.mem_singleton.mp he
  · intro pending he
    cases List.mem_singleton.mp he
    exact hflushed rfl
  · rw [hbio]
    rfl

theorem tlsClose_obeys (ts : List Loops.ShutdownTurn) :
    Guarded (tlsClose ts) fun _ => TlsConn.Torn := by
  apply Obeys.bind (tlsShutdown_guarded ts)
  intro out
  apply Obeys.bind (dispose_obeys out.ok)
  intro _
  exact Obeys.pure fun _ h => h

theorem sockClose_obeys (e : Option Nat) :
    Obeys TlsConn.InOrder CloseTrace TlsConn.Torn (sockClose e)
      fun _ c => c.InOrder ∧ c.fd = none := by
  apply Obeys.atomic
  rintro c ⟨bio, hbio, hdisposed⟩
  cases hfd : c.fd with
  | none =>
    refine ⟨.nil c, ⟨bio, hbio, .inr ⟨hfd, hdisposed⟩⟩, hfd⟩
  | some fd =>
    refine ⟨⟨.inl rfl, ?_, ?_, ?_, List.pairwise_singleton _ _, ?_, ?_⟩,
      ⟨bio, hbio, .inr ⟨rfl, hdisposed.freed, hdisposed.empty, hdisposed.ssl,
        hdisposed.dropped⟩⟩, rfl⟩
    · intro fd' hsome e' he
      rw [hfd] at hsome
      cases hsome
      rw [List.mem_singleton.mp he]
      rfl
    · intro hnone
      rw [hfd] at hnone
      cases hnone
    · simp [ConnEvent.isClose, hfd]
    · intro ok he
      cases List.mem_singleton.mp he
    · intro pending he
      cases List.mem_singleton.mp he

theorem close_guarded (ts : List Loops.ShutdownTurn) (e : Option Nat) :
    Guarded (close ts e) fun _ => TlsConn.InOrder := by
  apply Obeys.bind (tlsClose_obeys ts)
  intro out
  apply Obeys.bind (sockClose_obeys e)
  intro r
  apply Obeys.bind (Q := fun _ => TlsConn.InOrder)
  · apply Obeys.emit
    rintro c ⟨hc, hfd⟩
    refine ⟨⟨.inr rfl, ?_, ?_, ?_, List.pairwise_singleton _ _, fun _ _ => hfd, ?_⟩, hc⟩
    · intro fd hsome
      rw [hfd] at hsome
      cases hsome
    · intro _ e' he
      rw [List.mem_singleton.mp he]
      trivial
    · simp only [List.mem_singleton, exists_eq_left, ConnEvent.isClose, Bool.false_eq_true, ne_eq,
        not_and_self]
    · intro pending he
      cases List.mem_singleton.mp he
  · intro _
    exact Obeys.pure fun _ h => h

theorem body_guarded (call : SocketCall) : Guarded call.body fun _ => TlsConn.InOrder := by
  have hdone {α : Type} {m : ConnCall α} (h : Guarded m fun _ => TlsConn.InOrder) :
      Guarded (m >>= fun _ => pure ()) fun _ => TlsConn.InOrder :=
    Obeys.bind h fun _ => Obeys.pure fun _ hc => hc
  cases call with
  | handshake hs => exact hdone (handshake_guarded hs)
  | read bufsiz hs ts =>
    apply hdone
    apply Obeys.bind (handshake_guarded hs)
    intro out
    apply Obeys.ite
    · intro _
      exact guarded_pure fun _ h => h
    · intro _
      exact readAll_guarded bufsiz ts
  | write str hs ts =>
    apply hdone
    apply Obeys.bind (handshake_guarded hs)
    intro out
    apply Obeys.ite
    · intro _
      exact guarded_pure fun _ h => h
    · intro _
      exact writeAll_guarded str 0 ts
  | shutdown ts => exact hdone ((tlsShutdown_guarded ts).mono (fun _ h => h) fun _ _ h => h.1)
  | close ts e => exact hdone (close_guarded ts e)

theorem program_guarded (calls : List SocketCall) :
    Guarded (program calls) fun _ => TlsConn.InOrder := by
  induction calls with
  | nil => exact guarded_pure fun _ h => h
  | cons call calls ih => exact Obeys.bind (body_guarded call) fun _ => ih

end ConnCall

theorem tlsConnNew_inOrder (client : Bool) (fd : Nat) (cap : RingCap) :
    (tlsConnNew client fd cap).InOrder :=
  ⟨tlsBioNew fd cap, rfl,
    .inl ⟨fd, rfl, ⟨tlsBioNew_live_tx fd cap, tlsBioNew_live_rx fd cap⟩, rfl, rfl⟩⟩

theorem ConnEvent.Idle.not_close {e : ConnEvent} (h : e.Idle) : e.isClose = false := by
  cases e with
  | close d => exact absurd h id
  | _ => rfl

/-- Any number of coroutines that call one TLS socket in any way, suspended and resumed in any
order: close(2) is called at most once, on the socket's own descriptor, and before any close
returns; nothing behind it calls OpenSSL, send(2) or read(2), or waits for the descriptor; and a
close whose shutdown succeeded disposes of no ciphertext. -/
theorem tlsClose_interleaved (client : Bool) (fd : Nat) (cap : RingCap)
    (programs : List (List SocketCall)) (sched : List Nat) :
    let r := runs poolStep (tlsConnNew client fd cap, programs.map program) sched
    (r.2.filter (·.isClose)).length ≤ 1 ∧ (∀ e ∈ r.2, e.On fd) ∧
      r.2.Pairwise (fun e f => e.ends = true → f.Idle) ∧
      ((∃ e ∈ r.2, e.isClose = true) ↔ r.1.1.fd = none) ∧
      (∀ ok, .returned ok ∈ r.2 → ∃ e ∈ r.2, e.isClose = true) ∧
      ∀ pending, .dispose pending true ∈ r.2 → pending = [] := by
  intro r
  have hprograms : ∀ m ∈ programs.map program, Started TlsConn.InOrder CloseTrace m := by
    intro m hm
    obtain ⟨calls, -, rfl⟩ := List.mem_map.mp hm
    exact ConnCall.program_guarded calls
  have htrace : CloseTrace (tlsConnNew client fd cap) r.2 r.1.1 :=
    (pool_runs CloseTrace.nil CloseTrace.trans (tlsConnNew_inOrder client fd cap) hprograms
      sched).2
  have hclosed : (∃ e ∈ r.2, e.isClose = true) ↔ r.1.1.fd = none := by
    rw [htrace.closed]
    exact ⟨fun h => h.2, fun h => ⟨nofun, h⟩⟩
  have honce : (r.2.filter (·.isClose)).Pairwise fun _ _ => False := by
    apply (htrace.ordered.filter _).imp_of_mem
    intro e f he hf h
    have hends : e.ends = true := by
      have hclose := (List.mem_filter.mp he).2
      cases e with
      | close d => rfl
      | _ => cases hclose
    have hclose := (List.mem_filter.mp hf).2
    rw [(h hends).not_close] at hclose
    cases hclose
  refine ⟨?_, htrace.own fd rfl, htrace.ordered, hclosed, fun ok hok => ?_, htrace.flushed⟩
  · generalize r.2.filter (·.isClose) = closes at honce ⊢
    match closes with
    | [] => exact Nat.zero_le 1
    | [_] => exact le_rfl
    | e :: f :: es => exact absurd (List.rel_of_pairwise_cons honce List.mem_cons_self) id
  · exact hclosed.mpr (htrace.returned ok hok)

end LuaNet.Tls
