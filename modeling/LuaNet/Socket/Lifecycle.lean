import LuaNet.Lib.Custody
import LuaNet.Socket.GcThread
import Mathlib.Algebra.Group.Int.Defs
import Mathlib.Algebra.Group.Nat.Defs
import Mathlib.Logic.Function.Basic

/-! The life of native sockets. User code makes sockets, registers gc callbacks and closes,
unwraps or collects; a close, unwrap or `__gc` drains the gc thread of its socket, and each
callback it runs is again user code that may call any method of any socket. `frames` holds the
drains in progress, the innermost first. -/

namespace LuaNet.Socket

open LuaNet.Lib

/-- Who may hold a descriptor: a socket, the context of an `acceptfd` with an address, a C
function that has just been given it, or the caller. -/
inductive Holder
  | socket (k : Nat)
  | acceptfd (i : Nat)
  | call
  | caller
deriving DecidableEq

inductive Op
  | close (withShutdown : Bool)
  | unwrap
  | gc
deriving DecidableEq

/-- A drain in progress: the method, its socket and the `fd` the method read when it began. -/
structure Frame where
  op : Op
  sock : Nat
  fd : Int
  phase : Phase
deriving DecidableEq

structure World where
  socks : Nat → NetSocket
  nextSock : Nat
  ctxs : Nat → Int
  nextCtx : Nat
  caller : Int → Bool
  openFds : Int → Bool
  frames : List Frame
  nextFn : Nat

inductive Event
  | fd (m : Move Int Holder)
  | added (k : Nat) (c : GcFn)
  | removed (k : Nat) (c : GcFn)
  | drain (k : Nat)
  | invoked (k : Nat) (c : GcFn)
  | drained (k : Nat)
  | reply (r : Reply)
deriving DecidableEq

def World.setSock (w : World) (k : Nat) (s : NetSocket) : World :=
  { w with socks := Function.update w.socks k s }

def World.setFd (w : World) (k : Nat) (fd : Int) : World :=
  w.setSock k { w.socks k with fd := fd }

def World.take (w : World) (fd : Int) : Option Holder → World
  | none => { w with openFds := Function.update w.openFds fd true }
  | some (.socket k) => w.setFd k (-1)
  | some (.acceptfd i) => { w with ctxs := Function.update w.ctxs i (-1) }
  | some .call => w
  | some .caller => { w with caller := Function.update w.caller fd false }

def World.put (w : World) (fd : Int) : Option Holder → World
  | none => { w with openFds := Function.update w.openFds fd false }
  | some (.socket k) => w.setFd k fd
  | some (.acceptfd i) => { w with ctxs := Function.update w.ctxs i fd }
  | some .call => w
  | some .caller => { w with caller := Function.update w.caller fd true }

def World.hand (w : World) (fd : Int) (src dst : Option Holder) : World × List Event :=
  ((w.take fd src).put fd dst, [.fd ⟨fd, src, dst⟩])

def World.fresh (w : World) (fd : Int) : Bool := 0 ≤ fd && !w.openFds fd

/-- What comes of asking the kernel for a descriptor: an error, a descriptor that a later check
fails on so that the C function closes it again, or a descriptor that is kept. -/
inductive Attempt
  | refused
  | dropped (fd : Int)
  | made (fd : Int)

def Attempt.isMade : Attempt → Bool
  | .made _ => true
  | _ => false

def openedAndClosed (w : World) (fd : Int) : World × List Event :=
  andThen (w.hand fd none (some .call)) fun w => w.hand fd (some .call) none

def newSocket (w : World) (held : Bool) : World :=
  { w.setSock w.nextSock (netSocketNew held) with nextSock := w.nextSock + 1 }

def obtainSocket (w : World) (held : Bool) : Attempt → World × List Event
  | .refused => (newSocket w false, [])
  | .dropped fd => if w.fresh fd then openedAndClosed (newSocket w false) fd else (w, [])
  | .made fd =>
    if w.fresh fd then (newSocket w held).hand fd none (some (.socket w.nextSock)) else (w, [])

def newNetSocket (w : World) : List Attempt → World × List Event
  | [] => (w, [])
  | a :: as =>
    andThen (obtainSocket w true a) fun w => if a.isMade then (w, []) else newNetSocket w as

/-- `raised` says that the address of the peer cannot be allocated: the error leaves the new
socket to the collector. -/
def acceptLua (w : World) (k : Nat) (a : Attempt) (raised : Bool) : World × List Event :=
  if !(w.socks k).usable then (w, []) else obtainSocket w (!raised) a

/-- With an address the descriptor waits in a context while the address is allocated. -/
def acceptfdLua (w : World) (k : Nat) (withAddr : Bool) (a : Attempt) : World × List Event :=
  if !(w.socks k).usable then (w, [])
  else
    match a with
    | .refused => (w, [])
    | .dropped fd => if w.fresh fd then openedAndClosed w fd else (w, [])
    | .made fd =>
      if !w.fresh fd then (w, [])
      else if withAddr then
        World.hand { w with nextCtx := w.nextCtx + 1 } fd none (some (.acceptfd w.nextCtx))
      else
        andThen (w.hand fd none (some .call)) fun w => w.hand fd (some .call) (some .caller)

/-- The rest of an `acceptfd` with an address: its context is disarmed and the descriptor
returned or, after an allocation error, `acceptfd_gc` closes it. -/
def acceptfdEnd (w : World) (i : Nat) (raised : Bool) : World × List Event :=
  if w.ctxs i = -1 then (w, [])
  else w.hand (w.ctxs i) (some (.acceptfd i)) (if raised then none else some .caller)

inductive PairAttempt
  | refused
  | dropped (fd fd' : Int)
  | made (fd fd' : Int)

def pairLua (w : World) : PairAttempt → World × List Event
  | .refused => (newSocket (newSocket w false) false, [])
  | .dropped fd fd' =>
    if w.fresh fd && w.fresh fd' && fd != fd' then
      andThen (openedAndClosed (newSocket (newSocket w false) false) fd) fun w =>
        openedAndClosed w fd'
    else (w, [])
  | .made fd fd' =>
    if w.fresh fd && w.fresh fd' && fd != fd' then
      andThen
        ((newSocket (newSocket w true) true).hand fd none (some (.socket w.nextSock)))
        fun w' => w'.hand fd' none (some (.socket (w.nextSock + 1)))
    else (w, [])

def intMax : Int := 2 ^ 31 - 1

/-- `checks` says whether the calls that inspect and prepare the descriptor succeed. The caller
wraps only what the caller owns. -/
def wrapLua (w : World) (fd : Int) (checks : Bool) : World × List Event :=
  if fd < 0 || intMax < fd then (w, [.reply (.errno "wrap" .einval none)])
  else if !checks then (newSocket w false, [])
  else if !w.caller fd then (w, [])
  else (newSocket w true).hand fd (some .caller) (some (.socket w.nextSock))

def dupLua (w : World) (k : Nat) (a : Attempt) : World × List Event :=
  if !(w.socks k).usable then (w, []) else obtainSocket w true a

def addgcfnLua (w : World) (k : Nat) (args : GcFnArgs) : World × List Event :=
  if !(w.socks k).usable then (w, [])
  else
    let r := netGcthreadAdd (w.socks k) w.nextFn args
    ({ w.setSock k r.1 with nextFn := w.nextFn + 1 },
      (r.2.1.map fun c => Event.added k c).toList ++ [.reply r.2.2])

def delgcfnLua (w : World) (k : Nat) (handle : Handle) : World × List Event :=
  if !(w.socks k).usable then (w, [])
  else
    let r := netGcthreadDel (w.socks k) handle
    (w.setSock k r.1, (r.2.1.map fun c => Event.removed k c).toList ++ [.reply r.2.2])

def netGcthreadClose (w : World) (k : Nat) (op : Op) : World × List Event :=
  let s := w.socks k
  let frame : Frame := { op := op, sock := k, fd := s.fd, phase := .loop }
  ({ w.setSock k { s with gcThread := false } with frames := frame :: w.frames }, [.drain k])

structure CloseSys where
  shutdown : Option Nat
  close : Option Nat

def closefdReply (withShutdown : Bool) (sys : CloseSys) : Reply :=
  match (if withShutdown then sys.shutdown else none), sys.close with
  | none, none => .bool true
  | some e, none => .errno "shutdown" (.sys e) none
  | some e, some e' => .errno "close" (.sys e') (some ("shutdown", .sys e))
  | none, some e' => .errno "close" (.sys e') none

def closeEnd (w : World) (k : Nat) (fd : Int) (withShutdown : Bool) (sys : CloseSys) :
    World × List Event :=
  andThen (w.hand fd (some (.socket k)) none) fun w =>
    (w, [.reply (closefdReply withShutdown sys)])

def unwrapEnd (w : World) (k : Nat) (fd : Int) : World × List Event :=
  let w := w.setSock k { w.socks k with metatable := false }
  if fd = -1 then (w.setFd k (-1), [.reply (.fd fd)])
  else
    andThen (w.hand fd (some (.socket k)) (some .caller)) fun w => (w, [.reply (.fd fd)])

def gcEnd (w : World) (k : Nat) : World × List Event :=
  if (w.socks k).fd = -1 then (w, []) else w.hand (w.socks k).fd (some (.socket k)) none

/-- `L == s->gc_thread`. User code runs on the gc thread of the innermost drain or on a thread
of its own. -/
def World.onGcThread (w : World) (k : Nat) (onGc : Bool) : Bool :=
  onGc && w.frames.head?.any (fun f => f.sock == k) && (w.socks k).gcThread

def closeLua (w : World) (k : Nat) (onGc withShutdown : Bool) : World × List Event :=
  if !(w.socks k).usable then (w, [])
  else if w.onGcThread k onGc then (w, [.reply (.errno "close" .ebusy none)])
  -- without a gc thread a drain is in progress, which still owns the descriptor
  else if (w.socks k).fd = -1 || !(w.socks k).gcThread then (w, [.reply (.bool true)])
  else netGcthreadClose w k (.close withShutdown)

def unwrapLua (w : World) (k : Nat) (onGc : Bool) : World × List Event :=
  if !(w.socks k).usable then (w, [])
  else if w.onGcThread k onGc then (w, [.reply (.errno "unwrap" .ebusy none)])
  else if (w.socks k).gcThread then netGcthreadClose w k .unwrap
  else unwrapEnd w k (w.socks k).fd

def gcLua (w : World) (k : Nat) : World × List Event :=
  if !(w.socks k).metatable then (w, [])
  else if (w.socks k).gcThread then netGcthreadClose w k .gc
  else gcEnd w k

def drainEnd (w : World) (f : Frame) (sys : CloseSys) : World × List Event :=
  match f.op with
  | .close withShutdown => closeEnd w f.sock f.fd withShutdown sys
  | .unwrap => unwrapEnd w f.sock f.fd
  | .gc => gcEnd w f.sock

def drainCall (w : World) (f : Frame) (fs : List Frame) (c : GcFn) : World :=
  { w.setSock f.sock
      { w.socks f.sock with stack := (w.socks f.sock).stack.dropLast } with
    frames := { f with phase := .fn c } :: fs }

def drainTick (w : World) (sys : CloseSys) : World × List Event :=
  match w.frames with
  | [] => (w, [])
  | f :: fs =>
    if f.phase ≠ .loop then (w, [])
    else
      match (w.socks f.sock).stack.getLast? with
      | some c => (drainCall w f fs c, [.invoked f.sock c])
      | none =>
        -- the thread is empty: the method that began the drain goes on
        andThen ({ w with frames := fs }, [.drained f.sock]) fun w => drainEnd w f sys

/-- User code of the innermost drain ends. A callback that raises runs its error handler; the
error then ends in the loop, which drops it. -/
def callbackEnd (w : World) (raised : Bool) : World × List Event :=
  match w.frames with
  | [] => (w, [])
  | f :: fs =>
    match f.phase with
    | .loop => (w, [])
    | .fn c =>
      let phase := if raised && c.errfn then Phase.errfn c else Phase.loop
      ({ w with frames := { f with phase := phase } :: fs }, [])
    | .errfn _ => ({ w with frames := { f with phase := .loop } :: fs }, [])

inductive Call
  | create (as : List Attempt)
  | accept (k : Nat) (a : Attempt) (raised : Bool)
  | acceptfd (k : Nat) (withAddr : Bool) (a : Attempt)
  | acceptfdEnd (i : Nat) (raised : Bool)
  | pair (a : PairAttempt)
  | wrap (fd : Int) (checks : Bool)
  | dup (k : Nat) (a : Attempt)
  | addgcfn (k : Nat) (args : GcFnArgs)
  | delgcfn (k : Nat) (handle : Handle)
  | close (k : Nat) (onGc withShutdown : Bool)
  | unwrap (k : Nat) (onGc : Bool)
  | gc (k : Nat)
  | callerOpen (fd : Int)
  | callerClose (fd : Int)

def call (w : World) : Call → World × List Event
  | .create as => newNetSocket w as
  | .accept k a raised => acceptLua w k a raised
  | .acceptfd k withAddr a => acceptfdLua w k withAddr a
  | .acceptfdEnd i raised => acceptfdEnd w i raised
  | .pair a => pairLua w a
  | .wrap fd checks => wrapLua w fd checks
  | .dup k a => dupLua w k a
  | .addgcfn k args => addgcfnLua w k args
  | .delgcfn k handle => delgcfnLua w k handle
  | .close k onGc withShutdown => closeLua w k onGc withShutdown
  | .unwrap k onGc => unwrapLua w k onGc
  | .gc k => gcLua w k
  | .callerOpen fd => if w.fresh fd then w.hand fd none (some .caller) else (w, [])
  | .callerClose fd => if w.caller fd then w.hand fd (some .caller) none else (w, [])

/-- `lua`: user code or the collector calls a method. `tick`: the innermost drain takes a turn
of its loop. `ret`: the user code that the innermost drain called returns or raises. -/
inductive Label
  | lua (c : Call)
  | tick (sys : CloseSys)
  | ret (raised : Bool)

def World.luaRuns (w : World) : Bool := w.frames.head?.all fun f => f.phase != .loop

def step (w : World) : Label → World × List Event
  | .lua c => if w.luaRuns then call w c else (w, [])
  | .tick sys => drainTick w sys
  | .ret raised => callbackEnd w raised

def noSocket : NetSocket :=
  { fd := -1, gcThread := false, stack := [], metatable := false, held := false }

def worldNew : World :=
  { socks := fun _ => noSocket, nextSock := 0, ctxs := fun _ => -1, nextCtx := 0,
    caller := fun _ => false, openFds := fun _ => false, frames := [], nextFn := 0 }

@[simp] theorem setSock_socks_self (w : World) (k : Nat) (s : NetSocket) :
    (w.setSock k s).socks k = s := Function.update_self ..

theorem setSock_socks_of_ne {w : World} {j k : Nat} {s : NetSocket} (h : j ≠ k) :
    (w.setSock k s).socks j = w.socks j := Function.update_of_ne h _ _

theorem setFd_fd_self (w : World) (k : Nat) (fd : Int) : ((w.setFd k fd).socks k).fd = fd := by
  rw [World.setFd, setSock_socks_self]

section

variable (w : World) (fd : Int) (src dst : Option Holder)

theorem take_frames : (w.take fd src).frames = w.frames := by
  rcases src with _ | ⟨_ | _ | _ | _⟩ <;> rfl

theorem take_nextSock : (w.take fd src).nextSock = w.nextSock := by
  rcases src with _ | ⟨_ | _ | _ | _⟩ <;> rfl

theorem take_nextFn : (w.take fd src).nextFn = w.nextFn := by
  rcases src with _ | ⟨_ | _ | _ | _⟩ <;> rfl

theorem take_nextCtx : (w.take fd src).nextCtx = w.nextCtx := by
  rcases src with _ | ⟨_ | _ | _ | _⟩ <;> rfl

theorem put_frames : (w.put fd dst).frames = w.frames := by
  rcases dst with _ | ⟨_ | _ | _ | _⟩ <;> rfl

theorem put_nextSock : (w.put fd dst).nextSock = w.nextSock := by
  rcases dst with _ | ⟨_ | _ | _ | _⟩ <;> rfl

theorem put_nextFn : (w.put fd dst).nextFn = w.nextFn := by
  rcases dst with _ | ⟨_ | _ | _ | _⟩ <;> rfl

theorem put_nextCtx : (w.put fd dst).nextCtx = w.nextCtx := by
  rcases dst with _ | ⟨_ | _ | _ | _⟩ <;> rfl

@[simp] theorem hand_frames : (w.hand fd src dst).1.frames = w.frames := by
  rw [World.hand, put_frames, take_frames]

@[simp] theorem hand_nextSock : (w.hand fd src dst).1.nextSock = w.nextSock := by
  rw [World.hand, put_nextSock, take_nextSock]

@[simp] theorem hand_nextFn : (w.hand fd src dst).1.nextFn = w.nextFn := by
  rw [World.hand, put_nextFn, take_nextFn]

@[simp] theorem hand_nextCtx : (w.hand fd src dst).1.nextCtx = w.nextCtx := by
  rw [World.hand, put_nextCtx, take_nextCtx]

variable {w fd src dst}

theorem take_socks_of_ne {j : Nat} (h : src ≠ some (.socket j)) :
    (w.take fd src).socks j = w.socks j := by
  rcases src with _ | ⟨k | _ | _ | _⟩
  case some.socket =>
    have hj : j ≠ k := fun hj => h (by rw [hj])
    exact Function.update_of_ne hj _ _
  all_goals rfl

theorem put_socks_of_ne {j : Nat} (h : dst ≠ some (.socket j)) :
    (w.put fd dst).socks j = w.socks j := by
  rcases dst with _ | ⟨k | _ | _ | _⟩
  case some.socket =>
    have hj : j ≠ k := fun hj => h (by rw [hj])
    exact Function.update_of_ne hj _ _
  all_goals rfl

theorem hand_socks_of_ne {j : Nat} (hsrc : src ≠ some (.socket j))
    (hdst : dst ≠ some (.socket j)) : (w.hand fd src dst).1.socks j = w.socks j := by
  rw [World.hand, put_socks_of_ne hdst, take_socks_of_ne hsrc]

theorem hand_socks_src {k : Nat} (hdst : dst ≠ some (.socket k)) :
    (w.hand fd (some (.socket k)) dst).1.socks k = { w.socks k with fd := -1 } := by
  rw [World.hand, put_socks_of_ne hdst]
  exact Function.update_self ..

theorem hand_socks_dst {k : Nat} (hsrc : src ≠ some (.socket k)) :
    (w.hand fd src (some (.socket k))).1.socks k = { w.socks k with fd := fd } := by
  have hput : (w.hand fd src (some (.socket k))).1.socks k =
      { (w.take fd src).socks k with fd := fd } := Function.update_self ..
  rw [hput, take_socks_of_ne hsrc]

end

section

variable {w : World} {fd : Int} {src dst : Option Holder}

theorem hand_sock_fd (w : World) (fd : Int) (src dst : Option Holder) (k : Nat) :
    ((w.hand fd src dst).1.socks k).fd =
      if dst = some (.socket k) then fd else if src = some (.socket k) then -1
      else (w.socks k).fd := by
  split
  · next hdst =>
    subst hdst
    exact setFd_fd_self _ _ _
  · next hdst =>
    rw [World.hand, put_socks_of_ne hdst]
    split
    · next hsrc =>
      subst hsrc
      exact setFd_fd_self _ _ _
    · next hsrc => rw [take_socks_of_ne hsrc]

theorem take_ctxs_of_ne {i : Nat} (h : src ≠ some (.acceptfd i)) :
    (w.take fd src).ctxs i = w.ctxs i := by
  rcases src with _ | ⟨_ | j | _ | _⟩
  case some.acceptfd =>
    have hi : i ≠ j := fun hi => h (by rw [hi])
    exact Function.update_of_ne hi _ _
  all_goals rfl

theorem put_ctxs_of_ne {i : Nat} (h : dst ≠ some (.acceptfd i)) :
    (w.put fd dst).ctxs i = w.ctxs i := by
  rcases dst with _ | ⟨_ | j | _ | _⟩
  case some.acceptfd =>
    have hi : i ≠ j := fun hi => h (by rw [hi])
    exact Function.update_of_ne hi _ _
  all_goals rfl

theorem hand_ctxs (w : World) (fd : Int) (src dst : Option Holder) (i : Nat) :
    (w.hand fd src dst).1.ctxs i =
      if dst = some (.acceptfd i) then fd else if src = some (.acceptfd i) then -1
      else w.ctxs i := by
  split
  · next hdst =>
    subst hdst
    exact Function.update_self ..
  · next hdst =>
    rw [World.hand, put_ctxs_of_ne hdst]
    split
    · next hsrc =>
      subst hsrc
      exact Function.update_self ..
    · next hsrc => rw [take_ctxs_of_ne hsrc]

theorem update_true_iff {f : Int → Bool} {fd' : Int} :
    Function.update f fd true fd' = true ↔ fd = fd' ∨ f fd' = true := by
  by_cases heq : fd = fd'
  · subst heq
    simp
  · simp [Function.update_of_ne (Ne.symm heq), heq]

theorem update_false_iff {f : Int → Bool} {fd' : Int} :
    Function.update f fd false fd' = true ↔ ¬fd = fd' ∧ f fd' = true := by
  by_cases heq : fd = fd'
  · subst heq
    simp
  · simp [Function.update_of_ne (Ne.symm heq), heq]

theorem take_caller (fd' : Int) :
    (w.take fd src).caller fd' = true ↔
      ¬(src = some .caller ∧ fd = fd') ∧ w.caller fd' = true := by
  rcases src with _ | ⟨_ | _ | _ | _⟩
  case some.caller => exact update_false_iff.trans (by simp)
  all_goals simp [World.take, World.setFd, World.setSock]

theorem put_caller (fd' : Int) :
    (w.put fd dst).caller fd' = true ↔ (dst = some .caller ∧ fd = fd') ∨ w.caller fd' = true := by
  rcases dst with _ | ⟨_ | _ | _ | _⟩
  case some.caller => exact update_true_iff.trans (by simp)
  all_goals simp [World.put, World.setFd, World.setSock]

theorem hand_caller (fd' : Int) :
    (w.hand fd src dst).1.caller fd' = true ↔
      (dst = some .caller ∧ fd = fd') ∨
        ¬(src = some .caller ∧ fd = fd') ∧ w.caller fd' = true := by
  rw [World.hand, put_caller, take_caller]

theorem take_openFds (fd' : Int) :
    (w.take fd src).openFds fd' = true ↔ (src = none ∧ fd = fd') ∨ w.openFds fd' = true := by
  rcases src with _ | ⟨_ | _ | _ | _⟩
  case none => exact update_true_iff.trans (by simp)
  all_goals simp [World.take, World.setFd, World.setSock]

theorem put_openFds (fd' : Int) :
    (w.put fd dst).openFds fd' = true ↔ ¬(dst = none ∧ fd = fd') ∧ w.openFds fd' = true := by
  rcases dst with _ | ⟨_ | _ | _ | _⟩
  case none => exact update_false_iff.trans (by simp)
  all_goals simp [World.put, World.setFd, World.setSock]

theorem hand_openFds (hne : src ≠ dst) (fd' : Int) :
    (w.hand fd src dst).1.openFds fd' = true ↔
      (src = none ∧ fd = fd') ∨ ¬(dst = none ∧ fd = fd') ∧ w.openFds fd' = true := by
  rw [World.hand, put_openFds, take_openFds, and_or_left, and_iff_right_of_imp]
  exact fun hsrc hdst => hne (hsrc.1.trans hdst.1.symm)

theorem hand_fresh_of_ne {fd' : Int} (h : fd ≠ fd') :
    (w.hand fd src dst).1.fresh fd' = w.fresh fd' := by
  have hopen : (w.hand fd src dst).1.openFds fd' = w.openFds fd' := by
    rw [Bool.eq_iff_iff, World.hand, put_openFds, take_openFds]
    simp [h]
  rw [World.fresh, World.fresh, hopen]

end

theorem newSocket_socks_of_ne {w : World} {held : Bool} {j : Nat} (h : j ≠ w.nextSock) :
    (newSocket w held).socks j = w.socks j := Function.update_of_ne h _ _

theorem newSocket_socks_self (w : World) (held : Bool) :
    (newSocket w held).socks w.nextSock = netSocketNew held := Function.update_self ..

theorem newSocket_made {w : World} {held : Bool} {j : Nat} (h : j ≠ w.nextSock) :
    j < (newSocket w held).nextSock ↔ j < w.nextSock := by
  show j < w.nextSock + 1 ↔ j < w.nextSock
  omega

theorem fresh_nonneg {w : World} {fd : Int} (h : w.fresh fd = true) : 0 ≤ fd := by
  simp only [World.fresh, Bool.and_eq_true, decide_eq_true_eq] at h
  exact h.1

theorem fresh_ne {w : World} {fd : Int} (h : w.fresh fd = true) : fd ≠ -1 := by
  have hnonneg := fresh_nonneg h
  omega

theorem drainTick_cases (w : World) (sys : CloseSys) :
    drainTick w sys = (w, []) ∨
    ∃ f fs, w.frames = f :: fs ∧ f.phase = .loop ∧
      ((∃ c, (w.socks f.sock).stack.getLast? = some c ∧
          drainTick w sys = (drainCall w f fs c, [.invoked f.sock c])) ∨
        ((w.socks f.sock).stack = [] ∧
          drainTick w sys = andThen ({ w with frames := fs }, [.drained f.sock]) fun w =>
            drainEnd w f sys)) := by
  cases hframes : w.frames with
  | nil =>
    left
    simp only [drainTick, hframes]
  | cons f fs =>
    by_cases hphase : f.phase = .loop
    · refine .inr ⟨f, fs, rfl, hphase, ?_⟩
      cases hlast : (w.socks f.sock).stack.getLast? with
      | some c =>
        refine .inl ⟨c, rfl, ?_⟩
        simp only [drainTick, hframes, hphase, ne_eq, not_true_eq_false, if_false, hlast]
      | none =>
        refine .inr ⟨List.getLast?_eq_none_iff.mp hlast, ?_⟩
        simp only [drainTick, hframes, hphase, ne_eq, not_true_eq_false, if_false, hlast]
    · left
      simp only [drainTick, hframes, ne_eq, hphase, not_false_eq_true, if_true]

theorem callbackEnd_cases (w : World) (raised : Bool) :
    callbackEnd w raised = (w, []) ∨
    ∃ f fs phase, w.frames = f :: fs ∧
      callbackEnd w raised = ({ w with frames := { f with phase := phase } :: fs }, []) := by
  cases hframes : w.frames with
  | nil =>
    left
    simp only [callbackEnd, hframes]
  | cons f fs =>
    cases hphase : f.phase with
    | loop =>
      left
      simp only [callbackEnd, hframes, hphase]
    | fn c =>
      refine .inr ⟨f, fs, if raised && c.errfn then .errfn c else .loop, rfl, ?_⟩
      simp only [callbackEnd, hframes, hphase]
    | errfn c =>
      refine .inr ⟨f, fs, .loop, rfl, ?_⟩
      simp only [callbackEnd, hframes, hphase]

theorem pairLua_made_eq {w : World} {fd fd' : Int} :
    andThen ((newSocket (newSocket w true) true).hand fd none (some (.socket w.nextSock)))
        (fun w' => w'.hand fd' none (some (.socket (w.nextSock + 1)))) =
      andThen ((newSocket w true).hand fd none (some (.socket w.nextSock))) fun w' =>
        (newSocket w' true).hand fd' none (some (.socket w'.nextSock)) := by
  have hne : w.nextSock + 1 ≠ w.nextSock := Nat.succ_ne_self _
  simp only [andThen, World.hand, World.take, World.put, World.setFd, World.setSock, newSocket,
    Function.update_self, Function.update_of_ne hne, Function.update_idem,
    Function.update_comm hne.symm]

end LuaNet.Socket
