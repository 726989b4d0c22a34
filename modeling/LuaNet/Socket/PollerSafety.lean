import LuaNet.Socket.Poller

/-! No coroutine waits for a descriptor that its socket does not own. The callback of `init` is
the first one of its socket, so a drain calls it last, and nothing waits again before the
descriptor is closed or returned. -/

namespace LuaNet.Socket

open LuaNet.Lib

/-- The callback of `init` is still to be called, and no other one after it. -/
structure Armed (w : World) (k : Nat) (g : GcFn) (fd : Int) : Prop where
  made : k < w.nextSock
  fd : (w.socks k).fd = fd
  first : (w.socks k).stack.head? = some g
  pending : (w.socks k).gcThread = true ∨ k ∈ w.frames.map Frame.sock

structure Gone (w : World) (k : Nat) : Prop where
  made : k < w.nextSock
  fd : (w.socks k).fd = -1

structure Fired (w : World) (k : Nat) : Prop where
  made : k < w.nextSock
  stack : (w.socks k).stack = []
  thread : (w.socks k).gcThread = false
  drains : k ∈ w.frames.map Frame.sock

/-- What becomes of a socket with a callback of `init`: it is called last, at the end of the drain
the descriptor is given up, and the socket is without one from then on. -/
inductive Guarded (w : World) (k : Nat) (g : GcFn) (fd : Int) : Prop
  | armed (h : Armed w k g fd)
  | fired (h : Fired w k)
  | gone (h : Gone w k)

section Calls

variable {w w' : World} {k : Nat} {g : GcFn} {fd : Int}

theorem Armed.untouched (h : Armed w k g fd) (hu : Untouched w w' k) : Armed w' k g fd := by
  refine ⟨Nat.lt_of_lt_of_le h.made hu.nextSock, ?_, ?_, ?_⟩
  · rw [hu.sock]
    exact h.fd
  · rw [hu.sock]
    exact h.first
  · rw [hu.sock]
    exact h.pending.imp_right fun hmem => (hu.frames.sublist.map _).subset hmem

theorem Armed.edited (h : Armed w k g fd) {s : NetSocket} (hfd : s.fd = (w.socks k).fd)
    (hthread : s.gcThread = (w.socks k).gcThread) (hfirst : s.stack.head? = some g)
    (hsock : w'.socks k = s) (hframes : w'.frames = w.frames)
    (hnext : w'.nextSock = w.nextSock) : Armed w' k g fd := by
  refine ⟨hnext ▸ h.made, ?_, ?_, ?_⟩
  · rw [hsock, hfd]
    exact h.fd
  · rw [hsock]
    exact hfirst
  · rw [hsock, hthread, hframes]
    exact h.pending

theorem Armed.draining (h : Armed w k g fd) (j : Nat) (op : Op) :
    Armed (netGcthreadClose w j op).1 k g fd := by
  by_cases hj : j = k
  · subst hj
    have hsock : (netGcthreadClose w j op).1.socks j = { w.socks j with gcThread := false } :=
      setSock_socks_self ..
    refine ⟨h.made, ?_, ?_, .inr List.mem_cons_self⟩
    · rw [hsock]
      exact h.fd
    · rw [hsock]
      exact h.first
  · exact h.untouched (untouched_netGcthreadClose hj w op)

theorem Armed.addgcfn (h : Armed w k g fd) (args : GcFnArgs) :
    Armed (addgcfnLua w k args).1 k g fd := by
  unfold addgcfnLua
  split
  · exact h
  dsimp only
  cases hadd : (netGcthreadAdd (w.socks k) w.nextFn args).2.1 with
  | none =>
    refine h.edited rfl rfl h.first ?_ rfl rfl
    exact (setSock_socks_self ..).trans (netGcthreadAdd_refused hadd)
  | some c =>
    obtain ⟨-, -, hs⟩ := netGcthreadAdd_added hadd
    refine @Armed.edited w _ k g fd h { w.socks k with stack := (w.socks k).stack ++ [c] } rfl rfl ?_
      ((setSock_socks_self ..).trans hs) rfl rfl
    rw [List.head?_append, h.first]
    rfl

theorem Armed.delgcfn (h : Armed w k g fd) {handle : Handle}
    (hkept : (netGcthreadDel (w.socks k) handle).2.1 ≠ some g) :
    Armed (delgcfnLua w k handle).1 k g fd := by
  unfold delgcfnLua
  split
  · exact h
  dsimp only
  cases hdel : (netGcthreadDel (w.socks k) handle).2.1 with
  | none =>
    refine h.edited rfl rfl h.first ?_ rfl rfl
    exact (setSock_socks_self ..).trans (netGcthreadDel_refused hdel)
  | some c =>
    obtain ⟨-, -, hs⟩ := netGcthreadDel_removed hdel
    refine @Armed.edited w _ k g fd h { w.socks k with stack := (w.socks k).stack.erase c } rfl rfl ?_
      ((setSock_socks_self ..).trans hs) rfl rfl
    have hne : g ≠ c := fun heq => hkept (heq ▸ hdel)
    obtain ⟨rest, hrest⟩ := List.head?_eq_some_iff.mp h.first
    rw [hrest, List.erase_cons_tail (by simpa using hne)]
    rfl

def Call.Settled (w : World) (guards : Nat → Option (GcFn × Int)) : Call → Prop
  | .unwrap k _ => k ∉ w.frames.map Frame.sock
  | .gc k => k ∉ w.frames.map Frame.sock
  | .delgcfn k handle =>
    ∀ g fd, guards k = some (g, fd) → (netGcthreadDel (w.socks k) handle).2.1 ≠ some g
  | _ => True

theorem settled_call {π : Type} {p : PollWorld π} {c : Call} (h : Settled p (.native (.lua c))) :
    c.Settled p.world p.guards := by
  cases c <;> exact h

theorem Armed.call (h : Armed w k g fd) {guards : Nat → Option (GcFn × Int)}
    (hguard : guards k = some (g, fd)) {c : Call} (hc : c.Settled w guards) :
    Armed (call w c).1 k g fd := by
  by_cases habout : c.about = some k
  · cases c with
    | addgcfn j args =>
      cases habout
      exact h.addgcfn args
    | delgcfn j handle =>
      cases habout
      exact h.delgcfn (hc g fd hguard)
    | close j onGc withShutdown =>
      unfold LuaNet.Socket.call closeLua
      dsimp only
      split_ifs
      · exact h
      · exact h
      · exact h
      · exact h.draining j _
    | unwrap j onGc =>
      cases habout
      have hthread : (w.socks k).gcThread = true := h.pending.resolve_right hc
      unfold LuaNet.Socket.call unwrapLua
      dsimp only
      rw [if_pos hthread]
      split_ifs
      · exact h
      · exact h
      · exact h.draining k _
    | gc j =>
      cases habout
      have hthread : (w.socks k).gcThread = true := h.pending.resolve_right hc
      unfold LuaNet.Socket.call gcLua
      dsimp only
      rw [if_pos hthread]
      split_ifs
      · exact h
      · exact h.draining k _
    | _ => cases habout
  · exact h.untouched (untouched_call h.made habout)

theorem Gone.untouched (h : Gone w k) (hu : Untouched w w' k) : Gone w' k :=
  ⟨Nat.lt_of_lt_of_le h.made hu.nextSock, hu.sock ▸ h.fd⟩

theorem gone_hand (hk : k < w.nextSock) (fd : Int) (dst : Option Holder)
    (hdst : dst ≠ some (.socket k)) : Gone (w.hand fd (some (.socket k)) dst).1 k := by
  refine ⟨(hand_nextSock ..).symm ▸ hk, ?_⟩
  rw [hand_socks_src hdst]

theorem gone_unwrapEnd (hk : k < w.nextSock) (fd : Int) : Gone (unwrapEnd w k fd).1 k := by
  unfold unwrapEnd
  dsimp only
  split
  · exact ⟨hk, setFd_fd_self ..⟩
  · have hreturned (w' : World) (hk' : k < w'.nextSock) :
        Gone (w'.hand fd (some (.socket k)) (some .caller)).1 k :=
      gone_hand hk' fd (some .caller) nofun
    exact hreturned (w.setSock k _) hk

theorem gone_gcEnd (hk : k < w.nextSock) : Gone (gcEnd w k).1 k := by
  unfold gcEnd
  split
  · next hfd => exact ⟨hk, hfd⟩
  · exact gone_hand hk _ none nofun

theorem Gone.call (h : Gone w k) (c : Call) : Gone (call w c).1 k := by
  by_cases habout : c.about = some k
  · have hset {w' : World} {s : NetSocket} (hsock : w'.socks k = s) (hs : s.fd = -1)
        (hnext : w'.nextSock = w.nextSock) : Gone w' k := ⟨hnext ▸ h.made, hsock ▸ hs⟩
    cases c with
    | addgcfn j args =>
      cases habout
      show Gone (addgcfnLua w k args).1 k
      unfold addgcfnLua
      split
      · exact h
      · refine hset (setSock_socks_self ..) ?_ rfl
        rw [netGcthreadAdd_fd]
        exact h.fd
    | delgcfn j handle =>
      cases habout
      show Gone (delgcfnLua w k handle).1 k
      unfold delgcfnLua
      split
      · exact h
      · refine hset (setSock_socks_self ..) ?_ rfl
        rw [netGcthreadDel_fd]
        exact h.fd
    | close j onGc withShutdown =>
      cases habout
      unfold LuaNet.Socket.call closeLua
      dsimp only
      split_ifs
      · exact h
      · exact h
      · exact h
      · exact hset (setSock_socks_self ..) h.fd rfl
    | unwrap j onGc =>
      cases habout
      unfold LuaNet.Socket.call unwrapLua
      dsimp only
      split_ifs
      · exact h
      · exact h
      · exact hset (setSock_socks_self ..) h.fd rfl
      · exact gone_unwrapEnd h.made _
    | gc j =>
      cases habout
      unfold LuaNet.Socket.call gcLua
      dsimp only
      split_ifs
      · exact h
      · exact hset (setSock_socks_self ..) h.fd rfl
      · exact gone_gcEnd h.made
    | _ => cases habout
  · exact h.untouched (untouched_call h.made habout)

theorem Fired.untouched (h : Fired w k) (hu : Untouched w w' k) : Fired w' k := by
  refine ⟨Nat.lt_of_lt_of_le h.made hu.nextSock, ?_, ?_, (hu.frames.sublist.map _).subset h.drains⟩
  · rw [hu.sock]
    exact h.stack
  · rw [hu.sock]
    exact h.thread

theorem Fired.same (h : Fired w k) (hsock : w'.socks k = w.socks k) (hframes : w'.frames = w.frames)
    (hnext : w'.nextSock = w.nextSock) : Fired w' k :=
  h.untouched ⟨hsock, hframes ▸ List.suffix_refl _, Nat.le_of_eq hnext.symm⟩

theorem Fired.call (h : Fired w k) {guards : Nat → Option (GcFn × Int)} {c : Call}
    (hc : c.Settled w guards) : Fired (call w c).1 k := by
  by_cases habout : c.about = some k
  · cases c with
    | addgcfn j args =>
      cases habout
      show Fired (addgcfnLua w k args).1 k
      have hnone : (netGcthreadAdd (w.socks k) w.nextFn args).2.1 = none := by
        cases hadd : (netGcthreadAdd (w.socks k) w.nextFn args).2.1 with
        | none => rfl
        | some c => exact nomatch h.thread.symm.trans (netGcthreadAdd_added hadd).1
      unfold addgcfnLua
      split
      · exact h
      · exact h.same ((setSock_socks_self ..).trans (netGcthreadAdd_refused hnone)) rfl rfl
    | delgcfn j handle =>
      cases habout
      show Fired (delgcfnLua w k handle).1 k
      have hnone : (netGcthreadDel (w.socks k) handle).2.1 = none := by
        cases hdel : (netGcthreadDel (w.socks k) handle).2.1 with
        | none => rfl
        | some c => exact nomatch h.thread.symm.trans (netGcthreadDel_removed hdel).1
      unfold delgcfnLua
      split
      · exact h
      · exact h.same ((setSock_socks_self ..).trans (netGcthreadDel_refused hnone)) rfl rfl
    | close j onGc withShutdown =>
      cases habout
      unfold LuaNet.Socket.call closeLua
      dsimp only
      split_ifs with husable hbusy hclosed
      · exact h
      · exact h
      · exact h
      · exact absurd h.thread (by simp at hclosed; simp [hclosed])
    | unwrap j onGc =>
      cases habout
      exact absurd h.drains hc
    | gc j =>
      cases habout
      exact absurd h.drains hc
    | _ => cases habout
  · exact h.untouched (untouched_call h.made habout)

end Calls

section Drains

variable {w : World} {k : Nat} {g : GcFn} {fd : Int}

theorem untouched_drainEnd {f : Frame} (hf : f.sock ≠ k) (w : World) (sys : CloseSys) :
    Untouched w (drainEnd w f sys).1 k := by
  unfold drainEnd
  split
  · exact untouched_hand w f.fd (some (.socket f.sock)) none (by simpa using hf) nofun
  · exact untouched_unwrapEnd hf w f.fd
  · exact untouched_gcEnd hf w

theorem gone_drainEnd {f : Frame} (hf : f.sock = k) (hk : k < w.nextSock) (sys : CloseSys) :
    Gone (drainEnd w f sys).1 k := by
  subst hf
  unfold drainEnd
  split
  · exact gone_hand hk f.fd none nofun
  · exact gone_unwrapEnd hk f.fd
  · exact gone_gcEnd hk

theorem Armed.tick (h : Armed w k g fd)
    (hdetached : ∀ f ∈ w.frames, (w.socks f.sock).gcThread = false) (sys : CloseSys) :
    Armed (drainTick w sys).1 k g fd ∨
      (drainTick w sys).2 = [.invoked k g] ∧ Guarded (drainTick w sys).1 k g fd := by
  rcases drainTick_cases w sys with
    heq | ⟨f, fs, hframes, -, ⟨c, hlast, heq⟩ | ⟨hempty, heq⟩⟩
  · rw [heq]
    exact .inl h
  · rw [heq]
    have hmap : (drainCall w f fs c).frames.map Frame.sock = w.frames.map Frame.sock := by
      rw [hframes]
      rfl
    by_cases hf : f.sock = k
    · subst hf
      have hsock : (drainCall w f fs c).socks f.sock =
          { w.socks f.sock with stack := (w.socks f.sock).stack.dropLast } := setSock_socks_self ..
      obtain ⟨rest, hrest⟩ := List.head?_eq_some_iff.mp h.first
      cases rest with
      | nil =>
        have hc : c = g := by
          rw [hrest] at hlast
          exact (Option.some.inj hlast).symm
        subst hc
        refine .inr ⟨rfl, .fired ⟨h.made, ?_, ?_, List.mem_cons_self⟩⟩
        · rw [hsock, hrest]
          rfl
        · rw [hsock]
          exact hdetached f (hframes ▸ List.mem_cons_self)
      | cons c' rest =>
        refine .inl ⟨h.made, ?_, ?_, ?_⟩
        · rw [hsock]
          exact h.fd
        · rw [hsock, hrest]
          rfl
        · rw [hsock, hmap]
          exact h.pending
    · have hsock : (drainCall w f fs c).socks k = w.socks k := setSock_socks_of_ne (Ne.symm hf)
      refine .inl ⟨h.made, hsock ▸ h.fd, hsock ▸ h.first, ?_⟩
      rw [hsock, hmap]
      exact h.pending
  · have hf : f.sock ≠ k := by
      rintro rfl
      have hfirst := h.first
      rw [hempty] at hfirst
      cases hfirst
    rw [heq]
    have hpopped : Armed { w with frames := fs } k g fd := by
      refine ⟨h.made, h.fd, h.first, h.pending.imp_right fun hmem => ?_⟩
      rw [hframes] at hmem
      exact (List.mem_cons.mp hmem).resolve_left (Ne.symm hf)
    exact .inl (hpopped.untouched (untouched_drainEnd hf _ sys))

theorem Gone.tick (h : Gone w k) (sys : CloseSys) : Gone (drainTick w sys).1 k := by
  rcases drainTick_cases w sys with
    heq | ⟨f, fs, -, -, ⟨c, -, heq⟩ | ⟨-, heq⟩⟩
  · rw [heq]
    exact h
  · rw [heq]
    by_cases hf : f.sock = k
    · subst hf
      refine ⟨h.made, ?_⟩
      rw [drainCall, setSock_socks_self]
      exact h.fd
    · refine ⟨h.made, ?_⟩
      rw [drainCall, setSock_socks_of_ne (Ne.symm hf)]
      exact h.fd
  · rw [heq]
    have hpopped : Gone { w with frames := fs } k := ⟨h.made, h.fd⟩
    by_cases hf : f.sock = k
    · exact gone_drainEnd hf hpopped.made sys
    · exact hpopped.untouched (untouched_drainEnd hf _ sys)

theorem Armed.ret (h : Armed w k g fd) (raised : Bool) : Armed (callbackEnd w raised).1 k g fd := by
  rcases callbackEnd_cases w raised with heq | ⟨f, fs, phase, hframes, heq⟩
  · rw [heq]
    exact h
  · rw [heq]
    refine ⟨h.made, h.fd, h.first, h.pending.imp_right fun hmem => ?_⟩
    rw [hframes] at hmem
    exact hmem

theorem Gone.ret (h : Gone w k) (raised : Bool) : Gone (callbackEnd w raised).1 k := by
  rcases callbackEnd_cases w raised with heq | ⟨f, fs, phase, -, heq⟩
  · rw [heq]
    exact h
  · rw [heq]
    exact ⟨h.made, h.fd⟩

theorem Fired.tick (h : Fired w k) (sys : CloseSys) :
    Fired (drainTick w sys).1 k ∨ Gone (drainTick w sys).1 k := by
  have hdrains := h.drains
  rcases drainTick_cases w sys with
    heq | ⟨f, fs, hframes, -, ⟨c, hlast, heq⟩ | ⟨-, heq⟩⟩
  · rw [heq]
    exact .inl h
  · have hf : k ≠ f.sock := by
      rintro rfl
      rw [h.stack] at hlast
      cases hlast
    have hsock : (drainCall w f fs c).socks k = w.socks k := setSock_socks_of_ne hf
    rw [heq]
    refine .inl ⟨h.made, hsock ▸ h.stack, hsock ▸ h.thread, ?_⟩
    rw [hframes] at hdrains
    exact hdrains
  · rw [heq]
    rw [hframes] at hdrains
    rcases List.mem_cons.mp hdrains with hf | hdrains
    · have hpopped : k < { w with frames := fs }.nextSock := h.made
      exact .inr (gone_drainEnd hf.symm hpopped sys)
    · by_cases hf : f.sock = k
      · have hpopped : k < { w with frames := fs }.nextSock := h.made
        exact .inr (gone_drainEnd hf hpopped sys)
      · have hpopped : Fired { w with frames := fs } k := ⟨h.made, h.stack, h.thread, hdrains⟩
        exact .inl (hpopped.untouched (untouched_drainEnd hf _ sys))

theorem Fired.ret (h : Fired w k) (raised : Bool) : Fired (callbackEnd w raised).1 k := by
  rcases callbackEnd_cases w raised with heq | ⟨f, fs, phase, hframes, heq⟩
  · rw [heq]
    exact h
  · rw [heq]
    have hdrains := h.drains
    rw [hframes] at hdrains
    exact ⟨h.made, h.stack, h.thread, hdrains⟩

theorem Guarded.tick (h : Guarded w k g fd)
    (hdetached : ∀ f ∈ w.frames, (w.socks f.sock).gcThread = false) (sys : CloseSys) :
    Guarded (drainTick w sys).1 k g fd := by
  cases h with
  | armed h => exact (h.tick hdetached sys).elim .armed fun hfired => hfired.2
  | fired h => exact (h.tick sys).elim .fired .gone
  | gone h => exact .gone (h.tick sys)

theorem Guarded.ret (h : Guarded w k g fd) (raised : Bool) :
    Guarded (callbackEnd w raised).1 k g fd := by
  cases h with
  | armed h => exact .armed (h.ret raised)
  | fired h => exact .fired (h.ret raised)
  | gone h => exact .gone (h.ret raised)

end Drains

section Steps

variable {π : Type} {P : Poller π}

/-- What holds in every state: each callback of `init` is in its place, and whatever waits does so
for the descriptor that its socket still has. -/
structure PollInv (P : Poller π) (p : PollWorld π) (es : List Event) : Prop where
  sound : Sound p.world es
  guarded : ∀ k g fd, p.guards k = some (g, fd) → Guarded p.world k g fd
  waits : ∀ x ∈ P.waits p.poller, 0 ≤ x.fd ∧
    ∃ g, p.guards x.sock = some (g, x.fd) ∧ Armed p.world x.sock g x.fd

variable {p : PollWorld π} {es : List Event}

theorem invoke_cases (p : PollWorld π) (e : Event) :
    p.invoke P e = p ∨ ∃ fd, p.invoke P e = { p with poller := P.unwait p.poller fd } := by
  cases e with
  | invoked k c =>
    unfold PollWorld.invoke
    dsimp only
    split
    · split
      · exact .inr ⟨_, rfl⟩
      · exact .inl rfl
    · exact .inl rfl
  | _ => exact .inl rfl

theorem foldl_invoke_world (es : List Event) (p : PollWorld π) :
    (es.foldl (PollWorld.invoke P) p).world = p.world ∧
      (es.foldl (PollWorld.invoke P) p).guards = p.guards := by
  induction es generalizing p with
  | nil => exact ⟨rfl, rfl⟩
  | cons e es ih =>
    rw [List.foldl_cons]
    rcases invoke_cases (P := P) p e with heq | ⟨fd, heq⟩ <;> rw [heq] <;> exact ih _

theorem mem_invoke (hP : P.Lawful) {e : Event} {x : Wait}
    (h : x ∈ P.waits (p.invoke P e).poller) : x ∈ P.waits p.poller := by
  rcases invoke_cases (P := P) p e with heq | ⟨fd, heq⟩ <;> rw [heq] at h
  · exact h
  · exact (hP.unwait p.poller fd x h).1

theorem mem_foldl_invoke (hP : P.Lawful) {es : List Event} {x : Wait}
    (h : x ∈ P.waits (es.foldl (PollWorld.invoke P) p).poller) : x ∈ P.waits p.poller := by
  induction es generalizing p with
  | nil => exact h
  | cons e es ih => exact mem_invoke hP (ih h)

theorem not_mem_invoke (hP : P.Lawful) {k : Nat} {g : GcFn} {x : Wait}
    (hguard : p.guards k = some (g, x.fd)) :
    x ∉ P.waits (p.invoke P (.invoked k g)).poller := by
  unfold PollWorld.invoke
  dsimp only
  rw [hguard]
  dsimp only
  rw [if_pos rfl]
  exact fun hmem => (hP.unwait p.poller x.fd x hmem).2 rfl

theorem PollInv.native (hP : P.Lawful) (h : PollInv P p es) {l : Label}
    (hl : Undisturbed p.world l)
    (hguarded : ∀ k g fd, p.guards k = some (g, fd) → Guarded p.world k g fd →
      Guarded (step p.world l).1 k g fd)
    (harmed : ∀ k g fd, p.guards k = some (g, fd) → Armed p.world k g fd →
      Armed (step p.world l).1 k g fd ∨ (step p.world l).2 = [.invoked k g]) :
    PollInv P (p.nativeStep P l).1 (es ++ (p.nativeStep P l).2) := by
  obtain ⟨hworld, hguards⟩ := foldl_invoke_world (P := P) (step p.world l).2
    { p with world := (step p.world l).1 }
  have hw : (p.nativeStep P l).1.world = (step p.world l).1 := hworld
  have hg : (p.nativeStep P l).1.guards = p.guards := hguards
  refine ⟨?_, fun k g fd hguard => ?_, fun x hx => ?_⟩
  · rw [hw]
    exact step_sound p.world es l hl h.sound
  · rw [hg] at hguard
    rw [hw]
    exact hguarded k g fd hguard (h.guarded k g fd hguard)
  · have hbefore : x ∈ P.waits p.poller :=
      @mem_foldl_invoke _ P { p with world := (step p.world l).1 } hP _ x hx
    obtain ⟨hfd, g, hguard, hx'⟩ := h.waits x hbefore
    rw [hw, hg]
    refine ⟨hfd, g, hguard, ?_⟩
    refine (harmed x.sock g x.fd hguard hx').resolve_right fun hinvoked => ?_
    unfold PollWorld.nativeStep at hx
    dsimp only at hx
    rw [hinvoked] at hx
    exact @not_mem_invoke _ P { p with world := (step p.world l).1 } hP x.sock g x hguard hx

theorem Guarded.call {w : World} {k : Nat} {g : GcFn} {fd : Int} {c : Call}
    {guards : Nat → Option (GcFn × Int)} (h : Guarded w k g fd)
    (hguard : guards k = some (g, fd)) (hc : c.Settled w guards) :
    Guarded (call w c).1 k g fd := by
  cases h with
  | armed h => exact .armed (h.call hguard hc)
  | fired h => exact .fired (h.call hc)
  | gone h => exact .gone (h.call c)

theorem undisturbed_of_settled {c : Call} (h : Settled p (.native (.lua c))) :
    Undisturbed p.world (.lua c) := by
  have hnone {k : Nat} (hk : k ∉ p.world.frames.map Frame.sock) : p.world.Unpinned k :=
    fun f hf hsock => absurd (List.mem_map.mpr ⟨f, hf, hsock⟩) hk
  cases c with
  | unwrap k onGc => exact fun _ _ => hnone h
  | gc k => exact fun _ _ => hnone h
  | _ => trivial

theorem PollInv.lua (hP : P.Lawful) (h : PollInv P p es) {c : Call}
    (hc : Settled p (.native (.lua c))) :
    PollInv P (p.nativeStep P (.lua c)).1 (es ++ (p.nativeStep P (.lua c)).2) := by
  cases hlua : p.world.luaRuns with
  | false =>
    have hstep : step p.world (.lua c) = (p.world, []) := if_neg (Bool.eq_false_iff.mp hlua)
    refine h.native hP (undisturbed_of_settled hc) ?_ ?_ <;> rw [hstep]
    · exact fun _ _ _ _ hguarded => hguarded
    · exact fun _ _ _ _ harmed => .inl harmed
  | true =>
    have hstep : step p.world (.lua c) = call p.world c := if_pos hlua
    refine h.native hP (undisturbed_of_settled hc) ?_ ?_ <;> rw [hstep]
    · exact fun k g fd hguard hguarded => hguarded.call hguard (settled_call hc)
    · exact fun k g fd hguard harmed => .inl (harmed.call hguard (settled_call hc))

theorem PollInv.detached (h : PollInv P p es) :
    ∀ f ∈ p.world.frames, (p.world.socks f.sock).gcThread = false :=
  fun _ hf => h.sound.drains.detached hf

theorem PollInv.tick (hP : P.Lawful) (h : PollInv P p es) (sys : CloseSys) :
    PollInv P (p.nativeStep P (.tick sys)).1 (es ++ (p.nativeStep P (.tick sys)).2) := by
  refine h.native hP trivial ?_ ?_
  · intro k g fd _ hguarded
    exact hguarded.tick h.detached sys
  · intro k g fd _ harmed
    exact (harmed.tick h.detached sys).imp_right fun hfired => hfired.1

theorem PollInv.ret (hP : P.Lawful) (h : PollInv P p es) (raised : Bool) :
    PollInv P (p.nativeStep P (.ret raised)).1 (es ++ (p.nativeStep P (.ret raised)).2) := by
  refine h.native hP trivial ?_ ?_
  · intro k g fd _ hguarded
    exact hguarded.ret raised
  · intro k g fd _ harmed
    exact .inl (harmed.ret raised)

theorem PollInv.fewer (h : PollInv P p es) {s : π}
    (hwaits : ∀ x ∈ P.waits s, x ∈ P.waits p.poller) : PollInv P { p with poller := s } es :=
  ⟨h.sound, h.guarded, fun x hx => h.waits x (hwaits x hx)⟩

theorem PollInv.reply (h : PollInv P p es) (r : Reply) : PollInv P p (es ++ [.reply r]) :=
  ⟨h.sound.reply r, h.guarded, h.waits⟩

theorem PollInv.skip (h : PollInv P p es) : PollInv P p (es ++ []) :=
  ⟨h.sound.skip, h.guarded, h.waits⟩

theorem PollInv.wait (hP : P.Lawful) (h : PollInv P p es) (task k : Nat) (dir : Direction)
    (hl : k ∈ p.world.frames.map Frame.sock → (p.world.socks k).stack ≠ []) :
    PollInv P (p.wait P task k dir).1 (es ++ (p.wait P task k dir).2) := by
  unfold PollWorld.wait
  dsimp only
  split_ifs with hnone hfd
  · exact h.skip
  · exact h.reply _
  · refine ⟨h.sound.skip, h.guarded, fun x hx => ?_⟩
    rcases hP.wait _ _ x hx with hx | rfl
    · exact h.waits x hx
    · have hsome : (p.guards k).isSome = true := by
        cases hguard : p.guards k with
        | none => simp [hguard] at hnone
        | some guard => rfl
      obtain ⟨⟨g, fd⟩, hguard⟩ := Option.isSome_iff_exists.mp hsome
      have harmed : Armed p.world k g fd := by
        cases h.guarded k g fd hguard with
        | armed harmed => exact harmed
        | fired hfired => exact absurd hfired.stack (hl hfired.drains)
        | gone hgone => exact absurd hgone.fd hfd
      refine ⟨(h.sound.owned.range k).resolve_left hfd, g, ?_, ?_⟩
      · show p.guards k = some (g, (p.world.socks k).fd)
        rw [harmed.fd, hguard]
      · show Armed p.world k g (p.world.socks k).fd
        rw [harmed.fd]
        exact harmed

theorem PollInv.init (h : PollInv P p es) (hlua : p.world.luaRuns = true) (k : Nat) (room : Bool)
    (addr : Nat) (hfresh : (p.world.socks k).gcThread = true ∧ (p.world.socks k).stack = [] ∧
      p.guards k = none) : PollInv P (p.init k room addr).1 (es ++ (p.init k room addr).2) := by
  have hstep : step p.world (.lua (.addgcfn k (guardArgs room addr))) =
      addgcfnLua p.world k (guardArgs room addr) := if_pos hlua
  have hsound := step_sound p.world es (.lua (.addgcfn k (guardArgs room addr))) trivial h.sound
  rw [hstep] at hsound
  have hkept {j : Nat} {g : GcFn} {fd : Int} (hguard : p.guards j = some (g, fd)) :
      Guarded (addgcfnLua p.world k (guardArgs room addr)).1 j g fd := by
    show Guarded (call p.world (.addgcfn k (guardArgs room addr))).1 j g fd
    exact (h.guarded j g fd hguard).call hguard trivial
  have harmed {j : Nat} {g : GcFn} {fd : Int} (hguard : p.guards j = some (g, fd))
      (harmed : Armed p.world j g fd) :
      Armed (addgcfnLua p.world k (guardArgs room addr)).1 j g fd := by
    show Armed (call p.world (.addgcfn k (guardArgs room addr))).1 j g fd
    exact harmed.call hguard trivial
  obtain ⟨hthread, hstack, hguard⟩ := hfresh
  unfold PollWorld.init
  dsimp only
  split
  · exact h.skip
  · next husable =>
    rw [Bool.not_eq_true', Bool.not_eq_false] at husable
    cases hadd : (netGcthreadAdd (p.world.socks k) p.world.nextFn (guardArgs room addr)).2.1 with
    | none =>
      refine ⟨hsound, fun j g fd hj => hkept hj, fun x hx => ?_⟩
      obtain ⟨hfd, g, hg, hx⟩ := h.waits x hx
      exact ⟨hfd, g, hg, harmed hg hx⟩
    | some c =>
      have hother {j : Nat} (hj : j ≠ k) :
          Function.update p.guards k (some (c, (p.world.socks k).fd)) j = p.guards j :=
        Function.update_of_ne hj _ _
      refine ⟨hsound, fun j g fd hj => ?_, fun x hx => ?_⟩
      · by_cases hjk : j = k
        · subst hjk
          dsimp only at hj
          rw [Function.update_self] at hj
          cases hj
          obtain ⟨-, -, hs⟩ := netGcthreadAdd_added hadd
          have hmade := h.sound.drains.made husable
          have hsock : (addgcfnLua p.world j (guardArgs room addr)).1.socks j =
              { p.world.socks j with stack := (p.world.socks j).stack ++ [c] } := by
            unfold addgcfnLua
            rw [husable, Bool.not_true, if_neg Bool.false_ne_true]
            exact (setSock_socks_self ..).trans hs
          refine .armed ⟨?_, ?_, ?_, ?_⟩
          · unfold addgcfnLua
            rw [husable, Bool.not_true, if_neg Bool.false_ne_true]
            exact hmade
          · rw [hsock]
          · rw [hsock, hstack]
            rfl
          · rw [hsock]
            exact .inl hthread
        · dsimp only at hj
          rw [hother hjk] at hj
          exact hkept hj
      · obtain ⟨hfd, g, hg, hx⟩ := h.waits x hx
        have hne : x.sock ≠ k := by
          rintro rfl
          rw [hguard] at hg
          cases hg
        refine ⟨hfd, g, ?_, harmed hg hx⟩
        dsimp only
        rw [hother hne, hg]

theorem PollInv.unwait (hP : P.Lawful) (h : PollInv P p es) (k : Nat) (dir : Option Direction) :
    PollInv P (p.unwait P k dir) es := by
  unfold PollWorld.unwait
  dsimp only
  split
  · exact h
  · cases dir with
    | none => exact h.fewer fun x hx => (hP.unwait _ _ x hx).1
    | some dir => exact h.fewer fun x hx => (hP.unwaitDir _ _ _ x hx).1

theorem pollStep_inv (hP : P.Lawful) (p : PollWorld π) (es : List Event) (l : PollLabel)
    (hl : Settled p l) (h : PollInv P p es) :
    PollInv P (pollStep P p l).1 (es ++ (pollStep P p l).2) := by
  cases l with
  | native l =>
    cases l with
    | tick sys => exact h.tick hP sys
    | ret raised => exact h.ret hP raised
    | lua c => exact h.lua hP hl
  | init k room addr =>
    unfold pollStep
    dsimp only
    split
    · next hlua => exact h.init hlua k room addr hl
    · exact h.skip
  | wait task k dir =>
    unfold pollStep
    dsimp only
    split
    · exact h.wait hP task k dir hl
    · exact h.skip
  | unwait k dir =>
    unfold pollStep
    dsimp only
    split
    · exact (h.unwait hP k dir).skip
    · exact h.skip
  | resume task =>
    have hfewer := h.fewer (hP.resume p.poller task)
    exact hfewer.skip

theorem pollNew_inv {s : π} (hs : P.waits s = []) : PollInv P (pollNew s) [] :=
  ⟨worldNew_sound, nofun, fun _ hx => absurd (hs ▸ hx) List.not_mem_nil⟩

end Steps

/-- Whatever waits in the poller does so for a descriptor that is open, that the socket it called
the method of still has, and that nobody else has. -/
def WaitsOwned {π : Type} (P : Poller π) (p : PollWorld π) : Prop :=
  ∀ x ∈ P.waits p.poller, (p.world.socks x.sock).fd = x.fd ∧ p.world.openFds x.fd = true ∧
    ∀ h, p.world.Holds h x.fd → h = .socket x.sock

def listPoller : Poller (List Wait) where
  waits s := s
  wait s x := s ++ [x]
  unwait s fd := s.filter fun y => y.fd ≠ fd
  unwaitDir s fd dir := s.filter fun y => y.fd ≠ fd ∨ y.dir ≠ dir
  resume s task := s.filter fun y => y.task ≠ task

theorem listPoller_lawful : listPoller.Lawful where
  wait _ _ _ hy := (List.mem_append.mp hy).imp_right List.mem_singleton.mp
  unwait _ _ _ hy := (List.mem_filter.mp hy).imp_right of_decide_eq_true
  unwaitDir _ _ _ _ hy := (List.mem_filter.mp hy).imp_right of_decide_eq_true
  resume _ _ _ hy := List.mem_of_mem_filter hy

/-- A coroutine waits for a socket, whose close runs a callback in which another one waits; the
kernel then gives the descriptor to a second socket. -/
def waitInClose : List PollLabel :=
  [.native (.lua (.create [.made 3])), .init 0 true 10, .wait 1 0 .readable,
    .native (.lua (.addgcfn 0 ⟨.nil, .function, 0, true, 11⟩)),
    .native (.lua (.close 0 false false)), .native (.tick ⟨none, none⟩), .wait 2 0 .writable,
    .native (.ret false), .native (.tick ⟨none, none⟩), .native (.lua (.create [.made 4])),
    .native (.ret false), .native (.tick ⟨none, none⟩), .native (.lua (.create [.made 3])),
    .init 2 true 12, .wait 3 2 .readable, .wait 4 0 .readable]

example : (runs (pollStep listPoller) (pollNew []) waitInClose).1.poller =
    [⟨3, 2, 3, .readable⟩] := by decide

end LuaNet.Socket
