import LuaNet.Tls.SocketDeadlines

/-! The deadline of a call: every turn of a loop is separated from the turn before it by a look at
the one deadline, every wait is for no longer than is left of it, and once it is done the call
returns. -/

namespace LuaNet.Tls

open LuaNet.Lib LuaNet.Lib.Traced
open LuaNet.Connect (DeadlineLib)

variable {τ D T : Type} {d : D}

/-- Since the last turn of that kind, if there was one, the deadline has been consulted. -/
def Checked (d : D) (k : LoopTurn) (es : List (DeadlineEvent τ D)) : Prop :=
  ∀ before after, es = before ++ .turn k :: after → ∃ done sec, .consulted d done sec ∈ after

def Running (es : List (DeadlineEvent τ D)) : Prop := ∀ d sec, .consulted d true sec ∉ es

/-- What may come after `before` in a call with the deadline `d`, which is made first. -/
def Disciplined (d : D) (before : List (DeadlineEvent τ D)) (e : DeadlineEvent τ D) : Prop :=
  Running before ∧
    match e with
    | .made d' => d' = d ∧ before = []
    | .consulted d' _ _ => d' = d ∧ before.head? = some (.made d)
    | .turn k => Checked d k before ∧ before.head? = some (.made d)
    | .wait sec => before.getLast? = some (.consulted d false sec)

section Past

variable {es : List (DeadlineEvent τ D)} {e : DeadlineEvent τ D} {k : LoopTurn}

theorem Checked.snoc (h : Checked d k es) (he : e ≠ .turn k) : Checked d k (es ++ [e]) := by
  intro before after heq
  rcases List.eq_nil_or_concat after with rfl | ⟨after', g, rfl⟩
  · exact absurd (List.singleton_inj.mp (List.append_inj' heq rfl).2) he
  · rw [List.concat_eq_append, ← List.cons_append, ← List.append_assoc] at heq
    obtain ⟨done, sec, hmem⟩ := h before after' (List.append_inj' heq rfl).1
    rw [List.concat_eq_append]
    exact ⟨done, sec, List.mem_append_left _ hmem⟩

theorem checked_consulted (d : D) (k : LoopTurn) (es : List (DeadlineEvent τ D)) (done : Bool)
    (sec : τ) : Checked d k (es ++ [.consulted d done sec]) := by
  intro before after heq
  rcases List.eq_nil_or_concat after with rfl | ⟨after', g, rfl⟩
  · cases List.singleton_inj.mp (List.append_inj' heq rfl).2
  · rw [List.concat_eq_append, ← List.cons_append, ← List.append_assoc] at heq
    refine ⟨done, sec, ?_⟩
    rw [List.concat_eq_append, ← (List.append_inj' heq rfl).2]
    exact List.mem_append_right _ List.mem_cons_self

theorem Running.snoc (h : Running es) (he : ∀ d sec, e ≠ .consulted d true sec) :
    Running (es ++ [e]) := by
  intro d sec hmem
  rcases List.mem_append.mp hmem with hmem | hmem
  · exact h d sec hmem
  · exact he d sec (List.mem_singleton.mp hmem).symm

end Past

def TlsSocket.Opened (s : TlsSocket) : Prop := s.bio.isSome = true

theorem tlsSocketNew_opened (client : Bool) (fd : Nat) (cap : RingCap) :
    (tlsSocketNew client fd cap).Opened := rfl

section Opened

variable {s : TlsSocket}

theorem TlsSocket.Opened.sslIo (h : s.Opened) (io : List SslIo) : (s.sslIo io).Opened := by
  rw [TlsSocket.Opened, TlsSocket.sslIo, Option.isSome_map]
  exact h

theorem handshakeLua_opened (h : s.Opened) (io : List SslIo) (ans : SslHandshake) :
    (handshakeLua s io ans).1.Opened := by
  unfold handshakeLua
  split
  · exact h
  split
  · exact h
  cases ans <;> exact h.sslIo io

theorem readLua_opened (h : s.Opened) (bufsiz : Int) (io : List SslIo) (ans : SslRead) :
    (readLua s bufsiz io ans).1.Opened := by
  unfold readLua
  split
  · exact h
  split
  · exact h
  cases ans <;> exact h.sslIo io

theorem writeLua_opened (h : s.Opened) (str : List Byte) (io : List SslIo) (ans : SslWrite) :
    (writeLua s str io ans).1.Opened := by
  unfold writeLua
  split
  · exact h
  split
  · exact h
  cases ans <;> exact h.sslIo io

theorem shutdownLua_opened (h : s.Opened) (io : List SslIo) (ans : SslShutdown) :
    (shutdownLua s io ans).1.Opened := by
  unfold shutdownLua
  split
  · exact h
  split
  · exact h
  rcases ans with _ | _ | (_ | _) | _ <;> exact h.sslIo io

theorem callDrain_opened (h : s.Opened) (sends : List SendResult) :
    (Loops.callDrain sends s).1.Opened := by
  rw [Loops.callDrain]
  split
  · exact h
  · rfl

theorem callFill_opened (h : s.Opened) (reads : List ReadResult) :
    (Loops.callFill reads s).1.Opened := by
  rw [Loops.callFill]
  split
  · exact h
  · rfl

end Opened

namespace Timed

structure Head (d : D) (s : TlsSocket) (es : List (DeadlineEvent τ D)) : Prop where
  opened : s.Opened
  running : Running es
  made : es.head? = some (.made d)

structure Entry (d : D) (s : TlsSocket) (es : List (DeadlineEvent τ D)) : Prop
    extends Head d s es where
  native : Checked d .native es

structure Left (d : D) (sec : τ) (s : TlsSocket) (es : List (DeadlineEvent τ D)) : Prop
    extends Head d s es where
  checked : ∀ k, Checked d k es
  last : es.getLast? = some (.consulted d false sec)

def Expired (out : IoOutcome) : Prop := out.ok = false ∧ out.eof = false ∧ out.timeout = true

/-- What a helper leaves: the deadline is done and the outcome says so, or a caller that goes on
from this outcome may do so. -/
def Kept (d : D) (out : IoOutcome) (s : TlsSocket) (es : List (DeadlineEvent τ D)) : Prop :=
  s.Opened ∧
    (Expired out ∨ Head d s es ∧ (out.ok = true ∨ out.eof = true → Checked d .native es))

def Ended (timeout : Bool) (s : TlsSocket) (es : List (DeadlineEvent τ D)) : Prop :=
  s.Opened ∧ (timeout = true ∨ Running es)

abbrev Keeps {α : Type} (d : D) (P : TlsSocket → List (DeadlineEvent τ D) → Prop)
    (m : TimedLoop τ D α) (Q : α → TlsSocket → List (DeadlineEvent τ D) → Prop) : Prop :=
  Historic (Disciplined d) Running P m Q

section Conditions

variable {s : TlsSocket} {es : List (DeadlineEvent τ D)} {out : IoOutcome}

theorem Head.snoc (h : Head d s es) {e : DeadlineEvent τ D}
    (he : ∀ d sec, e ≠ .consulted d true sec) : Head d s (es ++ [e]) := by
  refine ⟨h.opened, h.running.snoc he, ?_⟩
  rw [List.head?_append, h.made]
  rfl

theorem Left.entry {sec : τ} (h : Left d sec s es) : Entry d s es := ⟨h.toHead, h.checked _⟩

theorem Entry.kept (h : Entry d s es) : Kept d out s es :=
  ⟨h.opened, .inr ⟨h.toHead, fun _ => h.native⟩⟩

theorem expired_kept (hs : s.Opened) (h : Expired out) : Kept d out s es := ⟨hs, .inl h⟩

theorem expiredOutcome_expired : Expired expiredOutcome := ⟨rfl, rfl, rfl⟩

theorem Kept.head (h : Kept d out s es) (hok : out.ok = true ∨ out.eof = true) : Entry d s es := by
  rcases h.2 with ⟨hfalse, hnone, -⟩ | ⟨hhead, hchecked⟩
  · rw [hfalse, hnone] at hok
    rcases hok with hok | hok <;> cases hok
  · exact ⟨hhead, hchecked hok⟩

theorem Head.ended {timeout : Bool} (h : Head d s es) : Ended timeout s es :=
  ⟨h.opened, .inr h.running⟩

theorem Kept.timeout (h : Kept d out s es) : Ended out.timeout s es :=
  ⟨h.1, h.2.imp (fun hexpired => hexpired.2.2) fun hhead => hhead.1.running⟩

theorem Kept.failed {err : Option TlsErr} (h : Kept d out s es) :
    Kept d { ok := false, err := err, timeout := out.timeout } s es :=
  ⟨h.1, h.2.imp (fun hexpired => ⟨rfl, rfl, hexpired.2.2⟩) fun hhead => ⟨hhead.1, by simp⟩⟩

theorem Head.failed {err : Option TlsErr} (h : Head d s es) :
    Kept d { ok := false, err := err } s es := ⟨h.opened, .inr ⟨h, by simp⟩⟩

end Conditions

section Steps

variable (lib : DeadlineLib τ D T)

theorem isDone_keeps (now : T) :
    Keeps d (Head d) (isDone lib d now)
      fun a s es => s.Opened ∧ (a.1 = false → Left d a.2 s es) := by
  refine Historic.bind (Q := fun _ s es => s.Opened ∧
    ((lib.isDone d now).1 = false → Left d (lib.isDone d now).2 s es)) ?_ fun _ => ?_
  · refine Historic.emit fun s es h => ⟨⟨h.running, rfl, h.made⟩, h.opened, fun hleft => ?_⟩
    rw [hleft]
    exact ⟨h.snoc nofun, fun k => checked_consulted d k es _ _, List.getLast?_concat⟩
  · exact Historic.pure fun s es h => h

theorem wait_keeps (sec : τ) (w : WaitResult) :
    Keeps d (Left d sec) (wait sec w) fun o s es => o = w.failure ∧ Entry d s es := by
  refine Historic.bind (Q := fun _ => Entry d) ?_ fun _ => ?_
  · refine Historic.emit fun s es h => ⟨⟨h.running, h.last⟩, h.toHead.snoc nofun, ?_⟩
    exact (h.checked _).snoc nofun
  · exact Historic.pure fun s es h => ⟨rfl, h⟩

theorem turn_keeps {α : Type} {P : TlsSocket → List (DeadlineEvent τ D) → Prop} (k : LoopTurn)
    {m : Loop α} (hm : ∀ s : TlsSocket, s.Opened → (m s).1.Opened)
    (hP : ∀ s es, P s es → Entry d s es ∧ Checked d k es) :
    Keeps d P (turn k m) fun _ s es => Head d s es ∧ (k ≠ .native → Checked d .native es) := by
  refine Historic.bind
    (Q := fun _ s es => Head d s es ∧ (k ≠ .native → Checked d .native es)) ?_ fun _ => ?_
  · refine Historic.emit fun s es h => ?_
    obtain ⟨hentry, hchecked⟩ := hP s es h
    refine ⟨⟨hentry.running, hchecked, hentry.made⟩, hentry.toHead.snoc nofun, fun hk => ?_⟩
    exact hentry.native.snoc fun heq => hk (DeadlineEvent.turn.inj heq)
  · refine Historic.quiet (fun s es h _ => h.1.running) fun s es h a _ => ?_
    exact ⟨⟨hm s h.1.opened, h.1.running, h.1.made⟩, h.2⟩

theorem native_keeps {ν : Type} (io : List SslIo) {f : TlsSocket → TlsSocket × ν}
    (want : ν → Option Int) (hf : ∀ s : TlsSocket, s.Opened → (f s).1.Opened) :
    Keeps d (Entry d) (turn .native (Loops.native io f want) : TimedLoop τ D ν)
      fun _ => Head d :=
  (turn_keeps .native hf fun _ _ h => ⟨h, h.native⟩).mono (fun _ _ h => h) fun _ _ _ h => h.1

theorem helper_turn_keeps {α : Type} {sec : τ} (k : LoopTurn) (hk : k ≠ .native) {m : Loop α}
    (hm : ∀ s : TlsSocket, s.Opened → (m s).1.Opened) :
    Keeps d (Left d sec) (turn k m) fun _ => Entry d :=
  (turn_keeps k hm fun _ _ h => ⟨h.entry, h.checked k⟩).mono (fun _ _ h => h)
    fun _ _ _ h => ⟨h.1, h.2 hk⟩

theorem consult_keeps {β : Type} (now : T) {f : Bool × τ → TimedLoop τ D β}
    {Q : β → TlsSocket → List (DeadlineEvent τ D) → Prop}
    (hdone : ∀ sec, Keeps d (fun s _ => s.Opened) (f (true, sec)) Q)
    (hleft : ∀ sec, Keeps d (Left d sec) (f (false, sec)) Q) :
    Keeps d (Head d) (isDone lib d now >>= f) Q := by
  refine (isDone_keeps lib now).bind fun a => ?_
  rcases a with ⟨_ | _, sec⟩
  · exact (hleft sec).pre fun s es h => h.2 rfl
  · exact (hdone sec).pre fun s es h => h.1

theorem waitOr_keeps {sec : τ} (w : WaitResult) {f : Option IoOutcome → TimedLoop τ D IoOutcome}
    (hsome : ∀ out, f (some out) = pure out) (hnone : Keeps d (Head d) (f none) (Kept d)) :
    Keeps d (Left d sec) (wait sec w >>= f) (Kept d) := by
  refine (wait_keeps sec w).bind fun o => ?_
  cases o with
  | some out =>
    rw [hsome]
    exact Historic.pure fun s es h => h.2.kept
  | none => exact hnone.pre fun s es h => h.2.toHead

theorem expired_keeps :
    Keeps d (fun s _ => s.Opened) (pure expiredOutcome : TimedLoop τ D IoOutcome) (Kept d) :=
  Historic.pure fun _ _ h => expired_kept h expiredOutcome_expired

theorem drainAll_keeps (ts : List (TimedDrain T)) :
    Keeps d (Head d) (drainAll lib d ts) (Kept d) := by
  induction ts with
  | nil => exact Historic.waiting fun s es h => h.running
  | cons t ts ih =>
    refine consult_keeps lib t.doneAt (fun _ => expired_keeps) fun sec => ?_
    refine (helper_turn_keeps .drain nofun (fun s h => callDrain_opened h t.sends)).bind fun ret => ?_
    refine Historic.ite (fun _ => Historic.pure fun s es h => h.kept) fun _ => ?_
    refine Historic.ite (fun _ => Historic.pure fun s es h => h.kept) fun _ => ?_
    refine (consult_keeps lib t.expiredAt (fun _ => expired_keeps) fun sec => ?_).pre
      fun s es h => h.toHead
    exact waitOr_keeps t.wait (fun _ => rfl) ih

theorem fillAll_keeps (ts : List (TimedFill T)) :
    Keeps d (Head d) (fillAll lib d ts) (Kept d) := by
  induction ts with
  | nil => exact Historic.waiting fun s es h => h.running
  | cons t ts ih =>
    refine consult_keeps lib t.doneAt (fun _ => expired_keeps) fun sec => ?_
    refine (helper_turn_keeps .fill nofun (fun s h => callFill_opened h t.reads)).bind fun ret => ?_
    refine Historic.ite (fun _ => Historic.pure fun s es h => h.kept) fun _ => ?_
    -- the end of input is an outcome like the others, and comes behind a look at the deadline
    refine Historic.ite (fun _ => Historic.pure fun s es h => h.kept) fun _ => ?_
    refine (consult_keeps lib t.expiredAt (fun _ => expired_keeps) fun sec => ?_).pre
      fun s es h => h.toHead
    exact waitOr_keeps t.wait (fun _ => rfl) ih

theorem opened_keeps {m : TimedLoop τ D IoOutcome} (hm : Keeps d (Head d) m (Kept d)) :
    Keeps d (Head d) (do
      let s ← state
      if s.bio.isNone then pure { ok := true } else m) (Kept d) := by
  refine Historic.state.bind fun s₀ => Historic.ite (fun hnone => ?_) fun _ => ?_
  · refine Historic.pure fun s es h => ?_
    have hopen : s₀.bio.isSome = true := h.1 ▸ h.2.opened
    rw [Option.isNone_iff_eq_none] at hnone
    rw [hnone] at hopen
    cases hopen
  · exact hm.pre fun s es h => h.2

theorem bioDrain_keeps (ts : List (TimedDrain T)) :
    Keeps d (Head d) (bioDrain lib d ts) (Kept d) := opened_keeps (drainAll_keeps lib ts)

theorem bioFill_keeps (ts : List (TimedFill T)) :
    Keeps d (Head d) (bioFill lib d ts) (Kept d) := opened_keeps (fillAll_keeps lib ts)

theorem pollWait_keeps (want : Int) (drain : List (TimedDrain T)) (fill : List (TimedFill T)) :
    Keeps d (Head d) (pollWait lib d want drain fill) (Kept d) := by
  refine Historic.ite (fun _ => ?_) fun _ => Historic.ite (fun _ => ?_) fun _ => ?_
  · refine (bioDrain_keeps lib drain).bind fun out => Historic.ite (fun _ => ?_) fun hok => ?_
    · exact Historic.pure fun s es h => h.failed
    · have hgo : out.ok = true := by simpa using hok
      exact (bioFill_keeps lib fill).pre fun s es h => (h.head (.inl hgo)).toHead
  · exact bioDrain_keeps lib drain
  · exact Historic.pure fun s es h => h.failed

theorem repeat_keeps {β : Type} {want : Int} {drain : List (TimedDrain T)}
    {fill : List (TimedFill T)} {failed : IoOutcome → TimedLoop τ D β} {again : TimedLoop τ D β}
    {Q : β → TlsSocket → List (DeadlineEvent τ D) → Prop}
    (hfailed : ∀ out, Keeps d (Kept d out) (failed out) Q)
    (hagain : Keeps d (Entry d) again Q) :
    Keeps d (Head d) (do
      let out ← pollWait lib d want drain fill
      if !out.ok && !out.eof then failed out else again) Q := by
  refine (pollWait_keeps lib want drain fill).bind fun out =>
    Historic.ite (fun _ => ?_) fun hgo => ?_
  · exact hfailed out
  · rw [Bool.and_eq_true, Bool.not_eq_true', Bool.not_eq_true', not_and_or,
      Bool.not_eq_false, Bool.not_eq_false] at hgo
    exact hagain.pre fun s es h => h.head hgo

theorem finishHandshake_keeps (ts : List (TimedDrain T)) :
    Keeps d (Head d) (finishHandshake lib d ts) (Kept d) := by
  refine (bioDrain_keeps lib ts).bind fun out => ?_
  refine Historic.bind (Q := fun _ => Kept d out) ?_ fun _ => ?_
  · exact Historic.update fun s es h =>
      ⟨h.1, h.2.imp_right fun hhead => ⟨⟨h.1, hhead.1.running, hhead.1.made⟩, hhead.2⟩⟩
  · exact Historic.pure fun s es h => h

theorem handshakeAll_keeps (ts : List (TimedHandshake T)) :
    Keeps d (Entry d) (handshakeAll lib d ts) (Kept d) := by
  induction ts with
  | nil => exact Historic.waiting fun s es h => h.running
  | cons t ts ih =>
    have hnative : Keeps d (Entry d) (turn .native (Loops.native t.io
        (fun s => ((handshakeLua s t.io t.ans).1, (handshakeLua s t.io t.ans).2.2))
        NativeHandshake.want) : TimedLoop τ D NativeHandshake) fun _ => Head d :=
      native_keeps t.io _ fun s h => handshakeLua_opened h t.io t.ans
    refine hnative.bind fun r => ?_
    rcases r with ⟨ok, err, _ | want⟩
    · exact Historic.ite (fun _ => Historic.pure fun s es h => h.failed) fun _ =>
        finishHandshake_keeps lib t.drain
    · exact repeat_keeps lib (fun out => Historic.pure fun s es h => h.failed) ih

theorem handshake_keeps (ts : List (TimedHandshake T)) :
    Keeps d (Entry d) (handshake lib d ts) (Kept d) := by
  refine Historic.state.bind fun s₀ => Historic.ite (fun _ => ?_) fun _ => ?_
  · exact Historic.pure fun s es h => h.2.kept
  · exact (handshakeAll_keeps lib ts).pre fun s es h => h.2

theorem readAll_keeps (bufsiz : Int) (ts : List (TimedRead T)) :
    Keeps d (Head d) (readAll lib d bufsiz ts) fun r => Ended r.timeout := by
  induction ts with
  | nil => exact Historic.waiting fun s es h => h.running
  | cons t ts ih =>
    refine consult_keeps lib t.doneAt (fun _ => Historic.pure fun s es h => ⟨h, .inl rfl⟩)
      fun sec => ?_
    refine ((native_keeps t.io _ fun s h => readLua_opened h bufsiz t.io t.ans).pre
      fun s es h => h.entry).bind fun r => ?_
    rcases r with ⟨str, err, _ | want⟩
    · exact Historic.pure fun s es h => h.ended
    · exact repeat_keeps lib (fun out => Historic.pure fun s es h => h.timeout)
        (ih.pre fun s es h => h.toHead)

theorem writeAll_keeps (str : List Byte) (sent : Nat) (ts : List (TimedWrite T)) :
    Keeps d (Head d) (writeAll lib d str sent ts) fun r => Ended r.timeout := by
  induction ts generalizing str sent with
  | nil => exact Historic.waiting fun s es h => h.running
  | cons t ts ih =>
    have hnative : Keeps d (Entry d) (turn .native (Loops.native t.io
        (fun s => ((writeLua s str t.io t.ans).1, (writeLua s str t.io t.ans).2.2))
        NativeWrite.want) : TimedLoop τ D NativeWrite) fun _ => Head d :=
      native_keeps t.io _ fun s h => writeLua_opened h str t.io t.ans
    refine consult_keeps lib t.doneAt (fun _ => Historic.pure fun s es h => ⟨h, .inl rfl⟩)
      fun sec => ?_
    refine (hnative.pre fun s es h => h.entry).bind fun r => ?_
    rcases r with ⟨_ | len, err, want⟩
    · exact Historic.pure fun s es h => h.ended
    rcases want with _ | want
    · refine (bioDrain_keeps lib t.drain).bind fun out => Historic.ite (fun _ => ?_) fun hok => ?_
      · exact Historic.pure fun s es h => h.timeout
      · have hdone : out.ok = true := by simpa using hok
        exact Historic.pure fun s es h => (h.head (.inl hdone)).ended
    · exact repeat_keeps lib (fun out => Historic.pure fun s es h => h.timeout)
        ((ih _ _).pre fun s es h => h.toHead)

theorem shutdownAll_keeps (ts : List (TimedShutdown T)) :
    Keeps d (Entry d) (shutdownAll lib d ts) (Kept d) := by
  induction ts with
  | nil => exact Historic.waiting fun s es h => h.running
  | cons t ts ih =>
    refine (native_keeps t.io _ fun s h => shutdownLua_opened h t.io t.ans).bind fun r => ?_
    rcases r with ⟨ok, err, _ | want⟩
    · exact Historic.ite (fun _ => Historic.pure fun s es h => h.failed) fun _ =>
        bioDrain_keeps lib t.drain
    · exact repeat_keeps lib (fun out => Historic.pure fun s es h => h.failed) ih

theorem newDeadline_keeps {β : Type} {f : D → TimedLoop τ D β} {sec : τ} {now : T}
    {Q : β → TlsSocket → List (DeadlineEvent τ D) → Prop}
    (hf : Keeps (lib.new sec now) (Entry (lib.new sec now)) (f (lib.new sec now)) Q) :
    Keeps (lib.new sec now) (fun s es => s.Opened ∧ es = []) (newDeadline lib sec now >>= f) Q := by
  refine Historic.bind (Q := fun d s es => d = lib.new sec now ∧ Entry (lib.new sec now) s es)
    ?_ fun d => Historic.of_forall fun hd => ?_
  · refine Historic.bind (Q := fun _ => Entry (lib.new sec now)) ?_ fun _ => ?_
    · refine Historic.emit fun s es h => ?_
      obtain ⟨hopen, rfl⟩ := h
      have hrunning : Running ([] : List (DeadlineEvent τ D)) := fun _ _ => List.not_mem_nil
      have hnone : Checked (lib.new sec now) .native ([] : List (DeadlineEvent τ D)) := by
        intro before after heq
        exact absurd heq.symm (List.append_ne_nil_of_right_ne_nil before (List.cons_ne_nil _ _))
      exact ⟨⟨hrunning, rfl, rfl⟩, ⟨hopen, hrunning.snoc nofun, rfl⟩, hnone.snoc nofun⟩
    · exact Historic.pure fun s es h => ⟨rfl, h⟩
  · rw [hd]
    exact hf

end Steps

inductive Call (T : Type)
  | handshake (start : T) (hs : List (TimedHandshake T))
  | read (start : T) (bufsiz : Int) (hs : List (TimedHandshake T)) (ts : List (TimedRead T))
  | write (start : T) (str : List Byte) (hs : List (TimedHandshake T))
      (ts : List (TimedWrite T))
  | shutdown (start : T) (ts : List (TimedShutdown T))

section Calls

variable [LE τ] [DecidableLE τ] [OfNat τ 0] [OfNat τ 330] [OfNat τ 960]
  (lib : DeadlineLib τ D T) (timeo : Timeouts τ)

def call : Call T → TimedLoop τ D Bool
  | .handshake start hs => do
    let out ← socketHandshake lib timeo start hs
    pure out.timeout
  | .read start bufsiz hs ts => do
    let r ← read lib timeo start bufsiz hs ts
    pure r.timeout
  | .write start str hs ts => do
    let r ← write lib timeo start str hs ts
    pure r.timeout
  | .shutdown start ts => do
    let out ← tlsShutdown lib timeo start ts
    pure out.timeout

def deadline : Call T → D
  | .handshake start _ => lib.new (savedTimeout 960 timeo.snddeadl) start
  | .read start _ _ _ => lib.new (savedTimeout 330 timeo.rcvdeadl) start
  | .write start _ _ _ => lib.new (savedTimeout 960 timeo.snddeadl) start
  | .shutdown start _ => lib.new (savedTimeout 960 timeo.snddeadl) start

theorem call_keeps (c : Call T) :
    Keeps (deadline lib timeo c) (fun s es => s.Opened ∧ es = []) (call lib timeo c)
      fun timeout => Ended timeout := by
  cases c with
  | handshake start hs =>
    refine Historic.bind (Q := fun out => Ended out.timeout) ?_
      fun out => Historic.pure fun s es h => h
    refine Historic.state.bind fun s₀ => Historic.ite (fun _ => ?_) fun _ => ?_
    · exact Historic.pure fun s es h => ⟨h.2.1, .inr fun d sec => h.2.2 ▸ List.not_mem_nil⟩
    · refine (newDeadline_keeps lib (handshake_keeps lib hs)).mono (fun s es h => h.2) ?_
      exact fun _ _ _ h => h.timeout
  | read start bufsiz hs ts =>
    refine Historic.bind (Q := fun r => Ended r.timeout) ?_ fun r => Historic.pure fun s es h => h
    refine newDeadline_keeps lib ((handshake_keeps lib hs).bind fun out => ?_)
    refine Historic.ite (fun _ => Historic.pure fun s es h => h.timeout) fun hok => ?_
    have hgo : out.ok = true := by simpa using hok
    exact (readAll_keeps lib bufsiz ts).pre fun s es h => (h.head (.inl hgo)).toHead
  | write start str hs ts =>
    refine Historic.bind (Q := fun r => Ended r.timeout) ?_ fun r => Historic.pure fun s es h => h
    refine newDeadline_keeps lib ((handshake_keeps lib hs).bind fun out => ?_)
    refine Historic.ite (fun _ => Historic.pure fun s es h => h.timeout) fun hok => ?_
    have hgo : out.ok = true := by simpa using hok
    exact (writeAll_keeps lib str 0 ts).pre fun s es h => (h.head (.inl hgo)).toHead
  | shutdown start ts =>
    refine Historic.bind (Q := fun out => Ended out.timeout) ?_
      fun out => Historic.pure fun s es h => h
    refine (newDeadline_keeps lib (shutdownAll_keeps lib ts)).mono (fun _ _ h => h) ?_
    exact fun _ _ _ h => h.timeout

/-- The deadline is made first and only once; no turn of a loop follows another one of its kind
without a look at it, no wait comes but right after a look that has found time left, and for no
longer than that; and when it has been found done, nothing follows and the timeout flag is
returned. -/
theorem call_disciplined (c : Call T) {s : TlsSocket} (hs : s.Opened) :
    Each (Disciplined (deadline lib timeo c)) (call lib timeo c s).2.1 ∧
      ((∃ sec, .consulted (deadline lib timeo c) true sec ∈ (call lib timeo c s).2.1) →
        (call lib timeo c s).2.2 = some true) := by
  obtain ⟨hok, hnone, hsome⟩ := call_keeps lib timeo c s [] ⟨hs, rfl⟩
  refine ⟨hok, fun ⟨sec, hmem⟩ => ?_⟩
  cases hret : (call lib timeo c s).2.2 with
  | none => exact absurd hmem (hnone hret _ sec)
  | some timeout =>
    have htimeout : timeout = true :=
      (hsome timeout hret).2.resolve_right fun hrunning => hrunning _ sec hmem
    rw [htimeout]

end Calls

/-- Instants and times in seconds; a deadline is the instant at which it is done. -/
def clockSeconds : DeadlineLib Int Int Int where
  new sec now := now + sec
  isDone d now := (decide (d ≤ now), d - now)
  remain d now := d - now

def quietCap : RingCap := { val := 8, fits := by decide, pos := Nat.succ_pos 7 }

def quietTurn : TimedHandshake Int where
  io := []
  ans := .want .read
  drain := [⟨1, [], 1, .ready⟩]
  fill := [⟨2, [.failed .eagain], 3, .ready⟩, ⟨330, [], 330, .ready⟩]

def quietRead : Call Int := .read 0 16 [quietTurn] []

theorem call_disciplined_quietRead :
    (tlsSocketNew true 5 quietCap).Opened ∧
      (call clockSeconds ⟨none, none⟩ quietRead (tlsSocketNew true 5 quietCap)).2.2 = some true ∧
      Each (Disciplined (deadline clockSeconds ⟨none, none⟩ quietRead))
        (call clockSeconds ⟨none, none⟩ quietRead (tlsSocketNew true 5 quietCap)).2.1 :=
  ⟨tlsSocketNew_opened true 5 quietCap, by decide,
    (call_disciplined clockSeconds ⟨none, none⟩ quietRead (tlsSocketNew_opened true 5 quietCap)).1⟩

end Timed

end LuaNet.Tls
