import LuaNet.Socket.Ownership

/-! The wait functions of `net.Socket` over a poller, which is not part of the library. A coroutine
that waits is known to the poller by the number of a descriptor, which the kernel gives out again
after a close. So `init` registers a gc callback that drops what waits for the descriptor. -/

namespace LuaNet.Socket

open LuaNet.Lib

inductive Direction
  | readable
  | writable
deriving DecidableEq

def Direction.waitName : Direction → String
  | .readable => "wait_readable"
  | .writable => "wait_writable"

structure Wait where
  task : Nat
  sock : Nat
  fd : Int
  dir : Direction
deriving DecidableEq

/-- `gpoll`: `waits` are the coroutines that wait in it, and `resume` is what it does when it lets
one of them go on, for an event or a timeout. -/
structure Poller (π : Type) where
  waits : π → List Wait
  wait : π → Wait → π
  unwait : π → Int → π
  unwaitDir : π → Int → Direction → π
  resume : π → Nat → π

/-- What is documented of a poller: nothing waits unasked, and nothing waits for a descriptor
behind its `unwait`. -/
structure Poller.Lawful {π : Type} (P : Poller π) : Prop where
  wait : ∀ s x, ∀ y ∈ P.waits (P.wait s x), y ∈ P.waits s ∨ y = x
  unwait : ∀ s fd, ∀ y ∈ P.waits (P.unwait s fd), y ∈ P.waits s ∧ y.fd ≠ fd
  unwaitDir : ∀ s fd dir, ∀ y ∈ P.waits (P.unwaitDir s fd dir),
    y ∈ P.waits s ∧ (y.fd ≠ fd ∨ y.dir ≠ dir)
  resume : ∀ s task, ∀ y ∈ P.waits (P.resume s task), y ∈ P.waits s

/-- `guards` has the callback that `init` registered for a socket, and the argument it is called
with. -/
structure PollWorld (π : Type) where
  world : World
  guards : Nat → Option (GcFn × Int)
  poller : π

def pollNew {π : Type} (s : π) : PollWorld π :=
  { world := worldNew, guards := fun _ => none, poller := s }

def guardArgs (room : Bool) (addr : Nat) : GcFnArgs :=
  { errfn := .function, fn := .function, nargs := 1, room := room, addr := addr }

inductive PollLabel
  | native (l : Label)
  | init (k : Nat) (room : Bool) (addr : Nat)
  | wait (task k : Nat) (dir : Direction)
  | unwait (k : Nat) (dir : Option Direction)
  | resume (task : Nat)

section Poller

variable {π : Type} (P : Poller π)

def PollWorld.invoke (p : PollWorld π) : Event → PollWorld π
  | .invoked k c =>
    match p.guards k with
    | some (g, fd) => if c = g then { p with poller := P.unwait p.poller fd } else p
    | none => p
  | _ => p

def PollWorld.nativeStep (p : PollWorld π) (l : Label) : PollWorld π × List Event :=
  let r := step p.world l
  (r.2.foldl (PollWorld.invoke P) { p with world := r.1 }, r.2)

def PollWorld.init (p : PollWorld π) (k : Nat) (room : Bool) (addr : Nat) :
    PollWorld π × List Event :=
  let s := p.world.socks k
  if !s.usable then (p, [])
  else
    let r := addgcfnLua p.world k (guardArgs room addr)
    match (netGcthreadAdd s p.world.nextFn (guardArgs room addr)).2.1 with
    | some c =>
      ({ p with world := r.1, guards := Function.update p.guards k (some (c, s.fd)) }, r.2)
    | none => ({ p with world := r.1 }, r.2)

/-- `wait_readable` and `wait_writable` of a socket that `init` was called on: a disposed one has no
descriptor to wait for. -/
def PollWorld.wait (p : PollWorld π) (task k : Nat) (dir : Direction) :
    PollWorld π × List Event :=
  let s := p.world.socks k
  if !s.usable || (p.guards k).isNone then (p, [])
  else if s.fd = -1 then (p, [.reply (.errno dir.waitName .ebadf none)])
  else ({ p with poller := P.wait p.poller ⟨task, k, s.fd, dir⟩ }, [])

def PollWorld.unwait (p : PollWorld π) (k : Nat) (dir : Option Direction) : PollWorld π :=
  let s := p.world.socks k
  if !s.usable || decide (s.fd < 0) then p
  else
    match dir with
    | none => { p with poller := P.unwait p.poller s.fd }
    | some dir => { p with poller := P.unwaitDir p.poller s.fd dir }

/-- User code runs in a gc callback too, also in one of `init`. -/
def pollStep (p : PollWorld π) : PollLabel → PollWorld π × List Event
  | .native l => p.nativeStep P l
  | .init k room addr => if p.world.luaRuns then p.init k room addr else (p, [])
  | .wait task k dir => if p.world.luaRuns then p.wait P task k dir else (p, [])
  | .unwait k dir => if p.world.luaRuns then (p.unwait P k dir, []) else (p, [])
  | .resume task => ({ p with poller := P.resume p.poller task }, [])

end Poller

/-- `init` is called on a socket that was just made. A socket is not unwrapped or collected while it
is drained, and nothing waits for it once its drain has called the last callback. The handle of
a callback of `init`, which nobody is given, is not passed to `delgcfn`. -/
def Settled {π : Type} (p : PollWorld π) : PollLabel → Prop
  | .native (.lua (.unwrap k _)) => k ∉ p.world.frames.map Frame.sock
  | .native (.lua (.gc k)) => k ∉ p.world.frames.map Frame.sock
  | .native (.lua (.delgcfn k handle)) =>
    ∀ g fd, p.guards k = some (g, fd) → (netGcthreadDel (p.world.socks k) handle).2.1 ≠ some g
  | .init k _ _ =>
    (p.world.socks k).gcThread = true ∧ (p.world.socks k).stack = [] ∧ p.guards k = none
  | .wait _ k _ => k ∈ p.world.frames.map Frame.sock → (p.world.socks k).stack ≠ []
  | _ => True

structure Untouched (w w' : World) (k : Nat) : Prop where
  sock : w'.socks k = w.socks k
  frames : w.frames <:+ w'.frames
  nextSock : w.nextSock ≤ w'.nextSock

theorem Untouched.refl (w : World) (k : Nat) : Untouched w w k :=
  ⟨rfl, List.suffix_refl _, Nat.le_refl _⟩

theorem Untouched.trans {w w' w'' : World} {k : Nat} (h : Untouched w w' k)
    (h' : Untouched w' w'' k) : Untouched w w'' k :=
  ⟨h'.sock.trans h.sock, h.frames.trans h'.frames, Nat.le_trans h.nextSock h'.nextSock⟩

section Untouched

variable {w : World} {k : Nat}

theorem untouched_hand (w : World) (fd : Int) (src dst : Option Holder)
    (hsrc : src ≠ some (.socket k)) (hdst : dst ≠ some (.socket k)) :
    Untouched w (w.hand fd src dst).1 k :=
  ⟨hand_socks_of_ne hsrc hdst, (hand_frames w fd src dst) ▸ List.suffix_refl _,
    Nat.le_of_eq (hand_nextSock ..).symm⟩

theorem untouched_newSocket (hk : k < w.nextSock) (held : Bool) :
    Untouched w (newSocket w held) k :=
  ⟨newSocket_socks_of_ne (Nat.ne_of_lt hk), List.suffix_refl _, Nat.le_succ _⟩

theorem untouched_openedAndClosed (w : World) (fd : Int) (k : Nat) :
    Untouched w (openedAndClosed w fd).1 k := by
  have hopened : Untouched w _ k := untouched_hand w fd none (some .call) nofun nofun
  exact hopened.trans (untouched_hand _ fd (some .call) none nofun nofun)

theorem untouched_newSocket_hand (hk : k < w.nextSock) (held : Bool) (fd : Int)
    (src : Option Holder) (hsrc : src ≠ some (.socket k)) :
    Untouched w ((newSocket w held).hand fd src (some (.socket w.nextSock))).1 k := by
  have hne : w.nextSock ≠ k := Nat.ne_of_gt hk
  exact (untouched_newSocket hk held).trans (untouched_hand _ fd src _ hsrc (by simpa using hne))

theorem untouched_obtainSocket (hk : k < w.nextSock) (held : Bool) (a : Attempt) :
    Untouched w (obtainSocket w held a).1 k := by
  cases a with
  | refused => exact untouched_newSocket hk false
  | dropped fd =>
    unfold obtainSocket
    dsimp only
    split
    · exact (untouched_newSocket hk false).trans (untouched_openedAndClosed _ fd k)
    · exact Untouched.refl w k
  | made fd =>
    unfold obtainSocket
    dsimp only
    split
    · exact untouched_newSocket_hand hk held fd none nofun
    · exact Untouched.refl w k

theorem untouched_newNetSocket (hk : k < w.nextSock) (as : List Attempt) :
    Untouched w (newNetSocket w as).1 k := by
  induction as generalizing w with
  | nil => exact Untouched.refl w k
  | cons a as ih =>
    have hobtain := untouched_obtainSocket hk true a
    unfold newNetSocket andThen
    dsimp only
    split
    · exact hobtain
    · exact hobtain.trans (ih (Nat.lt_of_lt_of_le hk hobtain.nextSock))

theorem untouched_acceptfd (w : World) (j : Nat) (withAddr : Bool) (a : Attempt) (k : Nat) :
    Untouched w (acceptfdLua w j withAddr a).1 k := by
  unfold acceptfdLua
  split
  · exact Untouched.refl w k
  cases a with
  | refused => exact Untouched.refl w k
  | dropped fd =>
    dsimp only
    split
    · exact untouched_openedAndClosed w fd k
    · exact Untouched.refl w k
  | made fd =>
    dsimp only
    split_ifs
    · exact Untouched.refl w k
    · have hnext : Untouched w { w with nextCtx := w.nextCtx + 1 } k :=
        ⟨rfl, List.suffix_refl _, Nat.le_refl _⟩
      exact hnext.trans (untouched_hand _ fd none (some (.acceptfd w.nextCtx)) nofun nofun)
    · have hopened : Untouched w _ k := untouched_hand w fd none (some .call) nofun nofun
      exact hopened.trans (untouched_hand _ fd (some .call) (some .caller) nofun nofun)

theorem untouched_acceptfdEnd (w : World) (i : Nat) (raised : Bool) (k : Nat) :
    Untouched w (acceptfdEnd w i raised).1 k := by
  unfold acceptfdEnd
  split
  · exact Untouched.refl w k
  · exact untouched_hand w _ (some (.acceptfd i)) _ nofun (by cases raised <;> nofun)

theorem untouched_pair (hk : k < w.nextSock) (a : PairAttempt) :
    Untouched w (pairLua w a).1 k := by
  have hnew : Untouched w (newSocket (newSocket w false) false) k :=
    (untouched_newSocket hk false).trans (untouched_newSocket (Nat.lt_succ_of_lt hk) false)
  cases a with
  | refused => exact hnew
  | dropped fd fd' =>
    unfold pairLua
    dsimp only
    split
    · exact (hnew.trans (untouched_openedAndClosed _ fd k)).trans
        (untouched_openedAndClosed _ fd' k)
    · exact Untouched.refl w k
  | made fd fd' =>
    unfold pairLua
    dsimp only
    split
    · rw [pairLua_made_eq]
      have hfirst := untouched_newSocket_hand hk true fd none nofun
      exact hfirst.trans (untouched_newSocket_hand (Nat.lt_of_lt_of_le hk hfirst.nextSock) true fd'
        none nofun)
    · exact Untouched.refl w k

theorem untouched_wrap (hk : k < w.nextSock) (fd : Int) (checks : Bool) :
    Untouched w (wrapLua w fd checks).1 k := by
  unfold wrapLua
  split_ifs
  · exact Untouched.refl w k
  · exact untouched_newSocket hk false
  · exact Untouched.refl w k
  · exact untouched_newSocket_hand hk true fd (some .caller) nofun

theorem untouched_setSock {j : Nat} (hj : j ≠ k) (w : World) (s : NetSocket) :
    Untouched w (w.setSock j s) k :=
  ⟨setSock_socks_of_ne hj.symm, List.suffix_refl _, Nat.le_refl _⟩

theorem untouched_netGcthreadClose {j : Nat} (hj : j ≠ k) (w : World) (op : Op) :
    Untouched w (netGcthreadClose w j op).1 k :=
  ⟨setSock_socks_of_ne hj.symm, List.suffix_cons _ _, Nat.le_refl _⟩

theorem untouched_unwrapEnd {j : Nat} (hj : j ≠ k) (w : World) (fd : Int) :
    Untouched w (unwrapEnd w j fd).1 k := by
  have hmeta := untouched_setSock hj w { w.socks j with metatable := false }
  unfold unwrapEnd
  dsimp only
  split
  · exact hmeta.trans (untouched_setSock hj _ _)
  · exact hmeta.trans (untouched_hand _ fd (some (.socket j)) (some .caller) (by simpa using hj)
      nofun)

theorem untouched_gcEnd {j : Nat} (hj : j ≠ k) (w : World) : Untouched w (gcEnd w j).1 k := by
  unfold gcEnd
  split
  · exact Untouched.refl w k
  · exact untouched_hand w _ (some (.socket j)) none (by simpa using hj) nofun

def Call.about : Call → Option Nat
  | .addgcfn k _ => some k
  | .delgcfn k _ => some k
  | .close k _ _ => some k
  | .unwrap k _ => some k
  | .gc k => some k
  | _ => none

theorem untouched_call (hk : k < w.nextSock) {c : Call} (hc : c.about ≠ some k) :
    Untouched w (call w c).1 k := by
  have hne {j : Nat} (h : some j ≠ some k) : j ≠ k := fun hj => h (congrArg some hj)
  cases c with
  | create as => exact untouched_newNetSocket hk as
  | accept j a raised =>
    unfold call acceptLua
    dsimp only
    split
    · exact Untouched.refl w k
    · exact untouched_obtainSocket hk _ a
  | acceptfd j withAddr a => exact untouched_acceptfd w j withAddr a k
  | acceptfdEnd i raised => exact untouched_acceptfdEnd w i raised k
  | pair a => exact untouched_pair hk a
  | wrap fd checks => exact untouched_wrap hk fd checks
  | dup j a =>
    unfold call dupLua
    dsimp only
    split
    · exact Untouched.refl w k
    · exact untouched_obtainSocket hk _ a
  | addgcfn j args =>
    unfold call addgcfnLua
    dsimp only
    split
    · exact Untouched.refl w k
    · exact ⟨setSock_socks_of_ne (hne hc).symm, List.suffix_refl _, Nat.le_refl _⟩
  | delgcfn j handle =>
    unfold call delgcfnLua
    dsimp only
    split
    · exact Untouched.refl w k
    · exact untouched_setSock (hne hc) w _
  | close j onGc withShutdown =>
    unfold call closeLua
    dsimp only
    split_ifs
    · exact Untouched.refl w k
    · exact Untouched.refl w k
    · exact Untouched.refl w k
    · exact untouched_netGcthreadClose (hne hc) w _
  | unwrap j onGc =>
    unfold call unwrapLua
    dsimp only
    split_ifs
    · exact Untouched.refl w k
    · exact Untouched.refl w k
    · exact untouched_netGcthreadClose (hne hc) w _
    · exact untouched_unwrapEnd (hne hc) w _
  | gc j =>
    unfold call gcLua
    dsimp only
    split_ifs
    · exact Untouched.refl w k
    · exact untouched_netGcthreadClose (hne hc) w _
    · exact untouched_gcEnd (hne hc) w
  | callerOpen fd =>
    unfold call
    dsimp only
    split
    · exact untouched_hand w fd none (some .caller) nofun nofun
    · exact Untouched.refl w k
  | callerClose fd =>
    unfold call
    dsimp only
    split
    · exact untouched_hand w fd (some .caller) none nofun nofun
    · exact Untouched.refl w k

end Untouched

end LuaNet.Socket
