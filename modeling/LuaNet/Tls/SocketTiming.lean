import LuaNet.Tls.BioRx
import LuaNet.Tls.SocketLoops
import LuaNet.Tls.SocketWrite

/-! When the loops of a TLS socket wait and when they fill: no wait for input leaves output behind,
and no fill comes while there is input left or after its end. -/

namespace LuaNet.Tls

open LuaNet.Lib LuaNet.Lib.Traced

/-- Output is flushed before a wait for input, at a successful drain, and when the socket is
marked. -/
def LoopEvent.Flushed : LoopEvent → Prop
  | .waitReadable pending => pending = []
  | .drained pending => pending = []
  | .handshaked pending => pending = []
  | _ => True

/-- OpenSSL wants to read only when it has found the receive ring empty. -/
def LoopEvent.Honest : LoopEvent → Prop
  | .native last want => want = some wantRead → last.any BioRc.retry = true
  | _ => True

instance : ∀ e : LoopEvent, Decidable e.Honest
  | .native last want =>
    inferInstanceAs (Decidable (want = some wantRead → last.any BioRc.retry = true))
  | .fill _ => isTrue trivial
  | .waitReadable _ => isTrue trivial
  | .waitWritable _ => isTrue trivial
  | .drained _ => isTrue trivial
  | .handshaked _ => isTrue trivial

/-- A fill finds the ring empty, its end not yet reached, and room to read into. -/
def LoopEvent.Timely : LoopEvent → Prop
  | .fill rx => rx.buf.contents = [] ∧ rx.rxEof = false ∧ (zringSpace rx.buf).isSome = true
  | _ => True

structure TlsBio.Open (bio : TlsBio) : Prop where
  tx : bio.Live TlsBio.tx
  rx : bio.Live TlsBio.rx

def TlsSocket.Has (P : TlsBio → Prop) (s : TlsSocket) : Prop := ∃ bio, s.bio = some bio ∧ P bio

section Bio

variable {bio : TlsBio}

theorem bioStep_open (h : bio.Open) (op : BioOp) : (bioStep bio op).1.Open :=
  ⟨(bioStep_tx bio op h.tx).1, (bioStep_rx bio op h.rx).1⟩

theorem drainLua_open (h : bio.Open) (sends : List SendResult) :
    (drainLua bio sends).1.Open ∧ (drainLua bio sends).1.rx = bio.rx :=
  ⟨bioStep_open h (.drain sends), (drainLua_frame bio sends).1⟩

theorem fillLua_open (h : bio.Open) (reads : List ReadResult) :
    (fillLua bio reads).1.Open ∧ (fillLua bio reads).1.tx = bio.tx :=
  ⟨bioStep_open h (.fill reads), (fillLua_frame bio reads).1⟩

theorem drainLua_emptied (h : bio.Open) (sends : List SendResult) {ret : IoRet}
    (hret : (drainLua bio sends).2.2 = some ret) (hdone : (ret.n.isSome && !ret.again) = true) :
    (drainLua bio sends).1.tx.buf.contents = [] := by
  have hspec := drainLoop_spec h.tx.valid 0 sends
  rw [Bool.and_eq_true, Bool.not_eq_true'] at hdone
  rw [drainLua_live h.tx] at hret ⊢
  exact (hspec.emptied ret hret).mp hdone

theorem fillLoop_again (b : TlsBioBuf) (total space len : Nat) (rs : List ReadResult) {ret : IoRet}
    (hret : (fillLoop b total space len rs).2.2 = some ret) (hagain : ret.again = true) :
    total = 0 ∧ (fillLoop b total space len rs).1 = b := by
  induction rs generalizing b total space len with
  | nil => cases hret
  | cons r rs ih =>
    cases r with
    | failed e =>
      unfold fillLoop at hret ⊢
      by_cases hintr : e = .eintr
      · rw [if_pos hintr] at hret ⊢
        exact ih _ _ _ _ hret
      rw [if_neg hintr] at hret ⊢
      by_cases hblock : e = .eagain ∨ e = .ewouldblock
      · rw [if_pos hblock] at hret ⊢
        by_cases htotal : total = 0
        · exact ⟨htotal, rfl⟩
        · rw [if_neg htotal] at hret
          cases hret
          cases hagain
      · rw [if_neg hblock] at hret
        cases hret
        cases hagain
    | data bs =>
      unfold fillLoop at hret ⊢
      dsimp only at hret ⊢
      by_cases hempty : (bs.take len).length = 0
      · rw [if_pos hempty] at hret
        cases hret
        cases hagain
      rw [if_neg hempty] at hret ⊢
      split at hret
      · obtain ⟨hzero, -⟩ := ih _ _ _ _ hret
        exact absurd (Nat.eq_zero_of_add_eq_zero_left hzero) hempty
      · cases hret
        cases hagain

theorem fillLua_again {reads : List ReadResult} {ret : IoRet}
    (hret : (fillLua bio reads).2.2 = some ret) (hagain : ret.again = true) :
    (fillLua bio reads).1.rx = bio.rx := by
  unfold fillLua at hret ⊢
  by_cases hfd : bio.fd < 0
  · rw [if_pos hfd]
  by_cases heof : bio.rx.rxEof = true
  · rw [if_neg hfd, if_pos heof]
  rw [if_neg hfd, if_neg heof] at hret ⊢
  cases hspace : zringSpace bio.rx.buf with
  | none => rfl
  | some seg =>
    simp only [hspace] at hret
    exact (fillLoop_again _ _ _ _ _ hret hagain).2

theorem bioRxRead_retry {b : TlsBioBuf} (hv : b.buf.Valid) {len : Int}
    (hretry : (bioRxRead b len).1.retry = true) :
    (bioRxRead b len).2.2.buf.contents = [] ∧ (bioRxRead b len).2.2.rxEof = false := by
  unfold bioRxRead at hretry ⊢
  split
  next hlen =>
    rw [if_pos hlen] at hretry
    cases hretry
  next hlen =>
    rw [if_neg hlen] at hretry
    cases hdata : zringData b.buf with
    | some seg =>
      rw [hdata] at hretry
      cases hretry
    | none =>
      rw [hdata] at hretry
      dsimp only at hretry ⊢
      cases heof : b.rxEof with
      | true =>
        rw [heof] at hretry
        cases hretry
      | false => exact ⟨(zringData_eq_none hv).mp hdata, heof⟩

def Dry (rx : TlsBioBuf) : Prop := rx.buf.contents = [] ∧ rx.rxEof = false

theorem foldl_sslIoStep (bio : TlsBio) (last : Option BioRc) (io : List SslIo) :
    (io.foldl sslIoStep (bio, last)).1 = (runs bioStep bio (io.map SslIo.op)).1 := by
  induction io generalizing bio last with
  | nil => rfl
  | cons op io ih =>
    cases op with
    | write buf => exact ih _ _
    | read len => exact ih _ _

theorem sslIoStep_dry {p : TlsBio × Option BioRc} (hp : p.1.Open)
    (hdry : p.2.any BioRc.retry = true → Dry p.1.rx) (op : SslIo) :
    (sslIoStep p op).1.Open ∧
      ((sslIoStep p op).2.any BioRc.retry = true → Dry (sslIoStep p op).1.rx) := by
  cases op with
  | write buf => exact ⟨bioStep_open hp _, hdry⟩
  | read len => exact ⟨bioStep_open hp _, bioRxRead_retry hp.rx.valid⟩

theorem foldl_sslIoStep_dry {p : TlsBio × Option BioRc} (hp : p.1.Open)
    (hdry : p.2.any BioRc.retry = true → Dry p.1.rx) (io : List SslIo) :
    (io.foldl sslIoStep p).1.Open ∧
      ((io.foldl sslIoStep p).2.any BioRc.retry = true → Dry (io.foldl sslIoStep p).1.rx) := by
  induction io generalizing p with
  | nil => exact ⟨hp, hdry⟩
  | cons op io ih =>
    obtain ⟨hopen, hnext⟩ := sslIoStep_dry hp hdry op
    exact ih hopen hnext

end Bio

/-- A way to look at the loops: what is assumed of an observation (`H`), what is guaranteed
(`G`), and what is known of the receive side from a native call that wants to read to the fill
(`R`). -/
structure Discipline (H G : LoopEvent → Prop) (R : TlsBioBuf → Prop) : Prop where
  native : ∀ last want, G (.native last want)
  writable : ∀ pending, G (.waitWritable pending)
  readable : G (.waitReadable [])
  drained : G (.drained [])
  handshaked : G (.handshaked [])
  fill : ∀ rx, rx.buf.Valid → R rx → G (.fill rx)
  wants : ∀ bio (io : List SslIo), TlsBio.Open bio →
    H (.native (io.foldl sslIoStep (bio, none)).2 (some wantRead)) →
      R (io.foldl sslIoStep (bio, none)).1.rx

namespace Loops

section Waits

variable {H G : LoopEvent → Prop} {R : TlsBioBuf → Prop} {P Q : TlsBio → Prop}

theorem observe_triple {e : List Byte → LoopEvent} {pending : List Byte} (hG : G (e pending))
    (hP : ∀ bio, P bio → bio.tx.buf.contents = pending) :
    Triple H G (TlsSocket.Has P) (observe e) (fun _ => TlsSocket.Has P) := by
  refine Triple.bind Triple.state fun s => Triple.emit ?_
  rintro t ⟨rfl, bio, hbio, h⟩ -
  refine ⟨?_, bio, hbio, h⟩
  rw [TlsSocket.pending, hbio]
  dsimp only
  rwa [hP bio h]

theorem callDrain_triple {sends : List SendResult} {R' : IoRet → TlsBio → Prop}
    (hP : ∀ bio, P bio → ∀ ret, (drainLua bio sends).2.2 = some ret →
      R' ret (drainLua bio sends).1) :
    Triple H G (TlsSocket.Has P) (callDrain sends) (fun ret => TlsSocket.Has (R' ret)) := by
  rintro s ⟨bio, hbio, h⟩ -
  simp only [callDrain, hbio]
  exact ⟨fun e he => absurd he List.not_mem_nil, fun ret hret => ⟨_, rfl, hP bio h ret hret⟩⟩

theorem callFill_triple {reads : List ReadResult} {R' : IoRet → TlsBio → Prop}
    (hG : ∀ bio, P bio → G (.fill bio.rx))
    (hP : ∀ bio, P bio → ∀ ret, (fillLua bio reads).2.2 = some ret →
      R' ret (fillLua bio reads).1) :
    Triple H G (TlsSocket.Has P) (callFill reads) (fun ret => TlsSocket.Has (R' ret)) := by
  rintro s ⟨bio, hbio, h⟩ -
  simp only [callFill, hbio]
  refine ⟨fun e he => ?_, fun ret hret => ⟨_, rfl, hP bio h ret hret⟩⟩
  rw [List.mem_singleton.mp he]
  exact hG bio h

theorem Has.mono (h : ∀ bio, P bio → Q bio) (s : TlsSocket) (hs : s.Has P) : s.Has Q := by
  obtain ⟨bio, hbio, hP⟩ := hs
  exact ⟨bio, hbio, h bio hP⟩

def Knows (R : TlsBioBuf → Prop) (bio : TlsBio) : Prop := bio.Open ∧ R bio.rx

def Emptied (R : TlsBioBuf → Prop) (out : IoOutcome) (bio : TlsBio) : Prop :=
  Knows R bio ∧ (out.ok = true → bio.tx.buf.contents = [])

theorem drainAll_triple (d : Discipline H G R) (S : TlsBioBuf → Prop) (ts : List DrainTurn) :
    Triple H G (TlsSocket.Has (Knows S)) (drainAll ts)
      (fun out => TlsSocket.Has (Emptied S out)) := by
  have hfailed {out : IoOutcome} (hok : out.ok = false) :
      Triple H G (TlsSocket.Has (Knows S)) (pure out) (fun out => TlsSocket.Has (Emptied S out)) :=
    Triple.pure (Has.mono fun bio h => ⟨h, fun hyes => absurd (hok.symm.trans hyes) nofun⟩)
  induction ts with
  | nil => exact Triple.waiting
  | cons t ts ih =>
    unfold drainAll
    split
    next => exact hfailed rfl
    have hcall : Triple H G (TlsSocket.Has (Knows S)) (callDrain t.sends) (fun ret =>
        TlsSocket.Has fun bio => Knows S bio ∧
          ((ret.n.isSome && !ret.again) = true → bio.tx.buf.contents = [])) := by
      refine callDrain_triple fun bio h ret hret => ?_
      obtain ⟨hopen, hrx⟩ := drainLua_open h.1 t.sends
      exact ⟨⟨hopen, hrx ▸ h.2⟩, drainLua_emptied h.1 t.sends hret⟩
    refine hcall.bind fun ret => ?_
    split
    next hdone =>
      -- the drain that succeeds is the one after which nothing is left
      have hempty : Triple H G (TlsSocket.Has fun bio => Knows S bio ∧ bio.tx.buf.contents = [])
          (observe .drained) (fun _ => TlsSocket.Has fun bio => Knows S bio ∧
            bio.tx.buf.contents = []) := observe_triple d.drained fun bio h => h.2
      refine Triple.bind (hempty.pre (Has.mono fun bio h => ⟨h.1, h.2 hdone⟩)) ?_
      exact fun _ => Triple.pure (Has.mono fun bio h => ⟨h.1, fun _ => h.2⟩)
    next =>
      have hknows : ∀ s, TlsSocket.Has (fun bio => Knows S bio ∧
          ((ret.n.isSome && !ret.again) = true → bio.tx.buf.contents = [])) s →
            TlsSocket.Has (Knows S) s := Has.mono fun bio h => h.1
      split
      next => exact (hfailed rfl).mono hknows fun _ _ h => h
      split
      next => exact (hfailed rfl).mono hknows fun _ _ h => h
      have hwait : Triple H G (TlsSocket.Has (Knows S)) (observe .waitWritable)
          (fun _ => TlsSocket.Has (Knows S)) := by
        refine Triple.bind Triple.state fun s => Triple.emit ?_
        rintro u ⟨-, hs⟩ -
        exact ⟨d.writable _, hs⟩
      refine (Triple.bind hwait fun _ => ?_).mono hknows fun _ _ h => h
      cases hfail : t.wait.failure with
      | some out => exact hfailed (WaitResult.failure_told hfail).1
      | none => exact ih

theorem bioDrain_triple (d : Discipline H G R) (S : TlsBioBuf → Prop) (ts : List DrainTurn) :
    Triple H G (TlsSocket.Has (Knows S)) (bioDrain ts)
      (fun out => TlsSocket.Has (Emptied S out)) := by
  refine Triple.bind Triple.state fun s => Triple.of_forall ?_
  rintro t ⟨rfl, bio, hbio, h⟩
  rw [hbio, Option.isNone_some, if_neg Bool.false_ne_true]
  exact (drainAll_triple d S ts).pre fun u hu => hu ▸ ⟨bio, hbio, h⟩

theorem fillAll_triple (d : Discipline H G R) (ts : List FillTurn) :
    Triple H G (TlsSocket.Has fun bio => Knows R bio ∧ bio.tx.buf.contents = []) (fillAll ts)
      (fun _ => TlsSocket.Has TlsBio.Open) := by
  have hleft {out : IoOutcome} :
      Triple H G (TlsSocket.Has TlsBio.Open) (pure out) (fun _ => TlsSocket.Has TlsBio.Open) :=
    Triple.pure fun _ h => h
  induction ts with
  | nil => exact Triple.waiting
  | cons t ts ih =>
    unfold fillAll
    split
    next => exact hleft.pre (Has.mono fun bio h => h.1.1)
    have hcall : Triple H G (TlsSocket.Has fun bio => Knows R bio ∧ bio.tx.buf.contents = [])
        (callFill t.reads) (fun ret => TlsSocket.Has fun bio => bio.Open ∧
          (ret.again = true → Knows R bio ∧ bio.tx.buf.contents = [])) := by
      refine callFill_triple (fun bio h => d.fill bio.rx h.1.1.rx.valid h.1.2)
        fun bio h ret hret => ?_
      obtain ⟨hopen, htx⟩ := fillLua_open h.1.1 t.reads
      refine ⟨hopen, fun hagain => ⟨⟨hopen, ?_⟩, ?_⟩⟩
      · rw [fillLua_again hret hagain]
        exact h.1.2
      · rw [htx]
        exact h.2
    refine hcall.bind fun ret => ?_
    have hopen : ∀ s, TlsSocket.Has (fun bio => bio.Open ∧
        (ret.again = true → Knows R bio ∧ bio.tx.buf.contents = [])) s →
          TlsSocket.Has TlsBio.Open s := Has.mono fun bio h => h.1
    split
    next => exact hleft.mono hopen fun _ _ h => h
    split
    next => exact hleft.mono hopen fun _ _ h => h
    next hagain =>
      split
      next => exact hleft.mono hopen fun _ _ h => h
      -- a fill that would block has read nothing, so the next one is as timely as this one
      have hwait : Triple H G (TlsSocket.Has fun bio => Knows R bio ∧ bio.tx.buf.contents = [])
          (observe .waitReadable)
            (fun _ => TlsSocket.Has fun bio => Knows R bio ∧ bio.tx.buf.contents = []) :=
        observe_triple d.readable fun bio h => h.2
      refine (Triple.bind hwait fun _ => ?_).pre (Has.mono fun bio h => h.2 (by simpa using hagain))
      cases t.wait.failure with
      | some out => exact hleft.pre (Has.mono fun bio h => h.1.1)
      | none => exact ih

theorem bioFill_triple (d : Discipline H G R) (ts : List FillTurn) :
    Triple H G (TlsSocket.Has fun bio => Knows R bio ∧ bio.tx.buf.contents = []) (bioFill ts)
      (fun _ => TlsSocket.Has TlsBio.Open) := by
  refine Triple.bind Triple.state fun s => Triple.of_forall ?_
  rintro t ⟨rfl, bio, hbio, h⟩
  rw [hbio, Option.isNone_some, if_neg Bool.false_ne_true]
  exact (fillAll_triple d ts).pre fun u hu => hu ▸ ⟨bio, hbio, h⟩

def Wanting (R : TlsBioBuf → Prop) (want : Int) (bio : TlsBio) : Prop :=
  bio.Open ∧ (want = wantRead → R bio.rx)

theorem pollWait_triple (d : Discipline H G R) (want : Int) (drain : List DrainTurn)
    (fill : List FillTurn) :
    Triple H G (TlsSocket.Has (Wanting R want)) (pollWait want drain fill)
      (fun _ => TlsSocket.Has TlsBio.Open) := by
  unfold pollWait
  split
  next hread =>
    refine ((bioDrain_triple d R drain).pre (Has.mono fun bio h => ⟨h.1, h.2 hread⟩)).bind
      fun out => ?_
    split
    next => exact Triple.pure (Has.mono fun bio h => h.1.1)
    next hok =>
      exact (bioFill_triple d fill).pre (Has.mono fun bio h => ⟨h.1, h.2 (by simpa using hok)⟩)
  next =>
    split
    next =>
      exact (bioDrain_triple d (fun _ => True) drain).mono
        (Has.mono fun bio h => ⟨h.1, trivial⟩) fun _ => Has.mono fun bio h => h.1.1
    next => exact Triple.pure (Has.mono fun bio h => h.1)

end Waits

section Calls

variable {H G : LoopEvent → Prop} {R : TlsBioBuf → Prop} {ν : Type}

def CallsSsl (io : List SslIo) (f : TlsSocket → TlsSocket × ν) (want : ν → Option Int) : Prop :=
  ∀ s, (f s).1.bio = (s.sslIo io).bio ∨ (f s).1.bio = s.bio ∧ want (f s).2 = none

theorem handshakeLua_calls (io : List SslIo) (ans : SslHandshake) :
    CallsSsl io (fun s => ((handshakeLua s io ans).1, (handshakeLua s io ans).2.2))
      NativeHandshake.want := by
  intro s
  unfold handshakeLua
  dsimp only
  split
  · exact .inr ⟨rfl, rfl⟩
  split
  · exact .inr ⟨rfl, rfl⟩
  cases ans <;> exact .inl rfl

theorem readLua_calls (bufsiz : Int) (io : List SslIo) (ans : SslRead) :
    CallsSsl io (readLua · bufsiz io ans) NativeRead.want := by
  intro s
  dsimp only
  unfold readLua
  split
  · exact .inr ⟨rfl, rfl⟩
  split
  · exact .inr ⟨rfl, rfl⟩
  cases ans <;> exact .inl rfl

theorem writeLua_calls (str : List Byte) (io : List SslIo) (ans : SslWrite) :
    CallsSsl io (fun s => ((writeLua s str io ans).1, (writeLua s str io ans).2.2))
      NativeWrite.want := by
  intro s
  unfold writeLua
  dsimp only
  split
  · exact .inr ⟨rfl, rfl⟩
  split
  · exact .inr ⟨rfl, rfl⟩
  cases ans <;> exact .inl rfl

theorem shutdownLua_calls (io : List SslIo) (ans : SslShutdown) :
    CallsSsl io (shutdownLua · io ans) NativeHandshake.want := by
  intro s
  dsimp only
  unfold shutdownLua
  split
  · exact .inr ⟨rfl, rfl⟩
  split
  · exact .inr ⟨rfl, rfl⟩
  cases ans with
  | want w => cases w <;> exact .inl rfl
  | _ => exact .inl rfl

theorem native_triple (d : Discipline H G R) {io : List SslIo} {f : TlsSocket → TlsSocket × ν}
    {want : ν → Option Int} (hf : CallsSsl io f want) :
    Triple H G (TlsSocket.Has TlsBio.Open) (native io f want)
      (fun r => TlsSocket.Has fun bio =>
        bio.Open ∧ ∀ w, want r = some w → Wanting R w bio) := by
  rintro s ⟨bio, hbio, hopen⟩ hH
  have hlast : s.lastRead io = (io.foldl sslIoStep (bio, none)).2 := by
    rw [TlsSocket.lastRead, hbio]
    rfl
  have hassumed : H (.native (s.lastRead io) (want (f s).2)) := hH _ List.mem_cons_self
  refine ⟨fun e he => ?_, fun r hr => ?_⟩
  · rw [List.mem_singleton.mp he]
    exact d.native _ _
  · have hr' : (f s).2 = r := Option.some_inj.mp hr
    rcases hf s with hcalled | ⟨hsame, hnone⟩
    · -- what is assumed of the observation is what the loop may rely on until the fill
      have hbio' : (f s).1.bio = some (io.foldl sslIoStep (bio, none)).1 := by
        rw [hcalled, TlsSocket.sslIo, hbio, foldl_sslIoStep]
        rfl
      have hopen' := (foldl_sslIoStep_dry (p := (bio, none)) hopen nofun io).1
      refine ⟨_, hbio', hopen', fun w hw => ⟨hopen', ?_⟩⟩
      rintro rfl
      rw [hr', hw, hlast] at hassumed
      exact d.wants bio io hopen hassumed
    · refine ⟨bio, hsame.trans hbio, hopen, fun w hw => ?_⟩
      rw [hr', hw] at hnone
      cases hnone

def Keeps (H G : LoopEvent → Prop) {α : Type} (m : Loop α) : Prop :=
  Triple H G (TlsSocket.Has TlsBio.Open) m (fun _ => TlsSocket.Has TlsBio.Open)

theorem Keeps.pure {α : Type} (a : α) : Keeps H G (Pure.pure a) := Triple.pure fun _ h => h

theorem Keeps.waiting {α : Type} : Keeps H G (waiting : Loop α) := Triple.waiting

theorem Keeps.bind {α β : Type} {m : Loop α} {f : α → Loop β} (hm : Keeps H G m)
    (hf : ∀ a, Keeps H G (f a)) : Keeps H G (m >>= f) := Triple.bind hm hf

theorem Keeps.after {α : Type} {m : Loop α} (h : Keeps H G m) {P : TlsBio → Prop} :
    Triple H G (TlsSocket.Has fun bio => bio.Open ∧ P bio) m
      (fun _ => TlsSocket.Has TlsBio.Open) :=
  h.pre (Has.mono fun _ h => h.1)

theorem bioDrain_keeps (d : Discipline H G R) (ts : List DrainTurn) :
    Keeps H G (bioDrain ts) :=
  (bioDrain_triple d (fun _ => True) ts).mono (Has.mono fun _ h => ⟨h, trivial⟩)
    fun _ => Has.mono fun _ h => h.1.1

theorem pollWait_after (d : Discipline H G R) (want : Int) (drain : List DrainTurn)
    (fill : List FillTurn) {β : Type} {f : IoOutcome → Loop β} (hf : ∀ out, Keeps H G (f out)) :
    Triple H G
      (TlsSocket.Has fun bio => bio.Open ∧ ∀ w, some want = some w → Wanting R w bio)
      (pollWait want drain fill >>= f) (fun _ => TlsSocket.Has TlsBio.Open) := by
  have hwait : Triple H G
      (TlsSocket.Has fun bio => bio.Open ∧ ∀ w, some want = some w → Wanting R w bio)
      (pollWait want drain fill) (fun _ => TlsSocket.Has TlsBio.Open) :=
    (pollWait_triple d want drain fill).pre (Has.mono fun _ h => h.2 want rfl)
  exact hwait.bind hf

theorem finishHandshake_keeps (d : Discipline H G R) (ts : List DrainTurn) :
    Keeps H G (finishHandshake ts) := by
  have hdrain : Triple H G (TlsSocket.Has TlsBio.Open) (bioDrain ts)
      (fun out => TlsSocket.Has (Emptied (fun _ => True) out)) :=
    (bioDrain_triple d (fun _ => True) ts).pre (Has.mono fun _ h => ⟨h, trivial⟩)
  refine hdrain.bind fun out => ?_
  have hmark : Triple H G (TlsSocket.Has (Emptied (fun _ => True) out))
      (update ({ · with handshaked := out.ok })) (fun _ =>
        TlsSocket.Has (Emptied (fun _ => True) out)) := Triple.update fun _ h => h
  refine hmark.bind fun _ => ?_
  split
  next hok =>
    -- the mark is the answer of the drain, so the ring is empty where it is set
    have hobserve : Triple H G (TlsSocket.Has (Emptied (fun _ => True) out))
        (observe .handshaked) (fun _ => TlsSocket.Has (Emptied (fun _ => True) out)) :=
      observe_triple d.handshaked fun bio h => h.2 hok
    exact hobserve.bind fun _ => Triple.pure (Has.mono fun _ h => h.1.1)
  next => exact Triple.pure (Has.mono fun _ h => h.1.1)

theorem handshakeAll_keeps (d : Discipline H G R) (ts : List HandshakeTurn) :
    Keeps H G (handshakeAll ts) := by
  induction ts with
  | nil => exact Keeps.waiting
  | cons t ts ih =>
    refine (native_triple d (handshakeLua_calls t.io t.ans)).bind fun r => ?_
    cases r.want with
    | none =>
      dsimp only
      split
      next => exact (Keeps.pure _).after
      next => exact (finishHandshake_keeps d t.drain).after
    | some want =>
      refine pollWait_after d want t.drain t.fill fun out => ?_
      split
      next => exact Keeps.pure _
      next => exact ih

theorem handshake_keeps (d : Discipline H G R) (ts : List HandshakeTurn) :
    Keeps H G (handshake ts) := by
  refine Triple.bind Triple.state fun s => ?_
  split
  next => exact (Keeps.pure _).pre fun _ h => h.2
  next => exact (handshakeAll_keeps d ts).pre fun _ h => h.2

theorem readAll_keeps (d : Discipline H G R) (bufsiz : Int) (ts : List ReadTurn) :
    Keeps H G (readAll bufsiz ts) := by
  induction ts with
  | nil => exact Keeps.waiting
  | cons t ts ih =>
    unfold readAll
    split
    next => exact Keeps.pure _
    refine (native_triple d (readLua_calls bufsiz t.io t.ans)).bind fun r => ?_
    cases r.want with
    | none => exact (Keeps.pure _).after
    | some want =>
      refine pollWait_after d want t.drain t.fill fun out => ?_
      split
      next => exact Keeps.pure _
      next => exact ih

theorem writeAll_keeps (d : Discipline H G R) (str : List Byte) (sent : Nat)
    (ts : List WriteTurn) : Keeps H G (writeAll str sent ts) := by
  induction ts generalizing str sent with
  | nil => exact Keeps.waiting
  | cons t ts ih =>
    unfold writeAll
    split
    next => exact Keeps.pure _
    refine (native_triple d (writeLua_calls str t.io t.ans)).bind fun r => ?_
    cases r.len with
    | none => exact (Keeps.pure _).after
    | some len =>
      dsimp only
      cases r.want with
      | none =>
        refine ((bioDrain_keeps d t.drain).bind fun out => ?_).after
        split
        next => exact Keeps.pure _
        next => exact Keeps.pure _
      | some want =>
        refine pollWait_after d want t.drain t.fill fun out => ?_
        split
        next => exact Keeps.pure _
        next => exact ih _ _

theorem tlsShutdown_keeps (d : Discipline H G R) (ts : List ShutdownTurn) :
    Keeps H G (tlsShutdown ts) := by
  induction ts with
  | nil => exact Keeps.waiting
  | cons t ts ih =>
    refine (native_triple d (shutdownLua_calls t.io t.ans)).bind fun r => ?_
    cases r.want with
    | none =>
      dsimp only
      split
      next => exact (Keeps.pure _).after
      next => exact (bioDrain_keeps d t.drain).after
    | some want =>
      refine pollWait_after d want t.drain t.fill fun out => ?_
      split
      next => exact Keeps.pure _
      next => exact ih

theorem handshaking_keeps (d : Discipline H G R) {α : Type} (hs : List HandshakeTurn)
    {fail : IoOutcome → α} {m : Loop α} (hm : Keeps H G m) :
    Keeps H G (handshake hs >>= fun out => if !out.ok then Pure.pure (fail out) else m) := by
  refine (handshake_keeps d hs).bind fun out => ?_
  split
  next => exact Keeps.pure _
  next => exact hm

theorem call_keeps (d : Discipline H G R) (c : Call) : Keeps H G (call c) := by
  cases c with
  | handshake hs => exact (handshake_keeps d hs).bind fun _ => Keeps.pure _
  | read bufsiz hs ts =>
    have hread : Keeps H G (read bufsiz hs ts) :=
      handshaking_keeps d hs (readAll_keeps d bufsiz ts)
    exact hread.bind fun _ => Keeps.pure _
  | write str hs ts =>
    have hwrite : Keeps H G (write str hs ts) := handshaking_keeps d hs (writeAll_keeps d str 0 ts)
    exact hwrite.bind fun _ => Keeps.pure _
  | shutdown ts => exact (tlsShutdown_keeps d ts).bind fun _ => Keeps.pure _

theorem run_keeps (d : Discipline H G R) (cs : List Call) : Keeps H G (run cs) := by
  induction cs with
  | nil => exact Keeps.pure _
  | cons c cs ih => exact (call_keeps d c).bind fun _ => ih

/-- The rule for runs: what a discipline assumes of all observations, it pays back in full. -/
theorem run_guarantees (d : Discipline H G R) (client : Bool) (fd : Nat) (cap : RingCap)
    (cs : List Call) (hH : ∀ e ∈ (run cs (tlsSocketNew client fd cap)).2.1, H e) :
    ∀ e ∈ (run cs (tlsSocketNew client fd cap)).2.1, G e := by
  have hopen : (tlsBioNew fd cap).Open := ⟨tlsBioNew_live_tx fd cap, tlsBioNew_live_rx fd cap⟩
  exact (run_keeps d cs _ ⟨_, rfl, hopen⟩ hH).1

end Calls

theorem flush_discipline : Discipline (fun _ => True) LoopEvent.Flushed (fun _ => True) where
  native _ _ := trivial
  writable _ := trivial
  readable := rfl
  drained := rfl
  handshaked := rfl
  fill _ _ _ := trivial
  wants _ _ _ _ := trivial

theorem fill_discipline : Discipline LoopEvent.Honest LoopEvent.Timely Dry where
  native _ _ := trivial
  writable _ := trivial
  readable := trivial
  drained := trivial
  handshaked := trivial
  fill rx hv hdry := by
    have hcount : rx.buf.count ≠ rx.buf.cap := by
      rw [Zring.contents_eq_nil.mp hdry.1]
      exact hv.cap_pos.ne
    exact ⟨hdry.1, hdry.2, Option.isSome_iff_ne_none.mpr fun hnone =>
      hcount ((zringSpace_eq_none hv).mp hnone)⟩
  wants bio io hopen hhonest :=
    (foldl_sslIoStep_dry (p := (bio, none)) hopen nofun io).2 (hhonest rfl)

def sampleCalls : List Call :=
  let sent : DrainTurn := ⟨false, [.accepted 4], false, .ready⟩
  let blocked : FillTurn := ⟨false, [.failed .eagain], false, .ready⟩
  let filled : FillTurn := ⟨false, [.data [7], .failed .eagain], false, .ready⟩
  [.handshake [⟨[.write [1], .read 5], .want .read, [sent], [blocked, filled]⟩,
    ⟨[.read 5], .done, [sent], []⟩]]

/-- Flush before wait, for calls of one socket that come one after another: whatever OpenSSL, the
kernel, the deadlines and the polls answer, no wait for input and no mark of a finished handshake
leaves ciphertext in the ring, and neither does a drain that succeeds. -/
theorem flush_before_wait (client : Bool) (fd : Nat) (cap : RingCap) (cs : List Call) :
    ∀ e ∈ (run cs (tlsSocketNew client fd cap)).2.1, e.Flushed :=
  run_guarantees flush_discipline client fd cap cs fun _ _ => trivial

theorem flush_before_wait_sample :
    LoopEvent.waitReadable [] ∈ (run sampleCalls (tlsSocketNew true 3 writeCap)).2.1 ∧
      (LoopEvent.waitReadable []).Flushed := by
  have hwait : LoopEvent.waitReadable [] ∈ (run sampleCalls (tlsSocketNew true 3 writeCap)).2.1 :=
    List.mem_of_getElem? (i := 3) rfl
  exact ⟨hwait, flush_before_wait true 3 writeCap sampleCalls _ hwait⟩

/-- For calls of one socket that come one after another: as long as OpenSSL wants to read only where
its last read of the ring found nothing, every fill comes with an empty ring that has room and
has not ended. -/
theorem fill_timely (client : Bool) (fd : Nat) (cap : RingCap) (cs : List Call)
    (h : ∀ e ∈ (run cs (tlsSocketNew client fd cap)).2.1, e.Honest) :
    ∀ e ∈ (run cs (tlsSocketNew client fd cap)).2.1, e.Timely :=
  run_guarantees fill_discipline client fd cap cs h

theorem fill_timely_sample :
    (∀ e ∈ (run sampleCalls (tlsSocketNew true 3 writeCap)).2.1, e.Honest) ∧
      (run sampleCalls (tlsSocketNew true 3 writeCap)).2.1.length = 8 ∧
      ∀ e ∈ (run sampleCalls (tlsSocketNew true 3 writeCap)).2.1, e.Timely :=
  ⟨by decide, by decide, fill_timely true 3 writeCap sampleCalls (by decide)⟩

end Loops

end LuaNet.Tls
