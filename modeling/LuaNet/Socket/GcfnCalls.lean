import LuaNet.Lib.Reentrant
import LuaNet.Socket.GcThread
import Mathlib.Data.List.Nodup
import Mathlib.Data.List.Perm.Subperm

/-! The calls of `addgcfn`, `delgcfn`, `close`, `unwrap` and `__gc` on one socket. Wherever
`addgcfn` allocates, a collection may run finalizers, which may call any of them again, as a
callback may that a drain has called. On Lua 5.1 the finalizers of one stage run on the gc thread
itself, above the registrations. -/

namespace LuaNet.Socket

open LuaNet.Lib

def unused : List Nat → Nat
  | [] => 1
  | a :: as => a + unused as

/-- The allocator: any address that is not in use, so also one that has been freed. -/
def malloc (heap : List Nat) (hint : Nat) : Nat :=
  if hint ≠ 0 ∧ hint ∉ heap then hint else unused heap

/-- `inner` is what the frame that the gc thread is running has above its own values, `heap` the
addresses in use, `made` the registrations that a handle was returned for. -/
structure GcfnWorld where
  sock : NetSocket
  inner : List GcFn
  heap : List Nat
  sockAddr : Nat
  threadAddr : Nat
  made : List GcFn
  nextId : Nat

inductive HandleArg
  | issued (k : Nat)
  | given (h : Handle)

/-- `onThread` asks for a call on the gc thread itself; only a finalizer there can make one. -/
inductive GcfnMethod
  | addgcfn (onThread : Bool) (args : List LuaArg)
  | delgcfn (onThread : Bool) (h : HandleArg)
  | close (onThread : Bool)
  | unwrap (onThread : Bool)
  | gc (onThread : Bool)

inductive Detacher
  | close
  | unwrap
  | gc
deriving DecidableEq

structure AddCall where
  id : Nat
  args : List LuaArg
  onThread : Bool

/-- Where `net_gcthread_add` stands: in `net_pcall` on the gc thread, in `lua_pushcclosure`, in
`lua_pushfstring`, in `lua_errno_new` or on the way to raise an error. -/
inductive AddPoint
  | reserve
  | closure
  | handle (c : GcFn)
  | refuse
  | raising (r : Reply)

inductive GcfnFrame
  | entering (m : GcfnMethod)
  | adding (call : AddCall) (p : AddPoint)
  | draining (m : Detacher) (phase : Phase) (pending : List GcFn)
  | refusing

/-- How a stage or a callback ends: `fails` raises `error`, `refused` is a stack that does not grow, and `hint`
is where the allocator would put a new object. -/
structure GcfnAns where
  fails : Bool := false
  refused : Bool := false
  hint : Nat := 0
  error : String := "not enough memory"

inductive GcfnForeign
  | alloc (hint : Nat)
  | collect (keeps : List Nat)
  | frameEnds

/-- What `addgcfn` answers. `closure` is the closure itself in the place of its handle. -/
inductive AddResult
  | handle (addr : Nat)
  | closure (c : GcFn)
  | failed (r : Reply)

inductive GcfnEvent
  | called (id : Nat)
  | registered (c : GcFn)
  | deleted (c : Option GcFn) (r : Reply)
  | detached (pending : List GcFn)
  | invoked (c : GcFn)
  | returned (id : Nat) (r : AddResult)

abbrev GcfnStep := GcfnWorld × Option GcfnFrame × List GcfnEvent

def AddCall.nargs (call : AddCall) : Nat := call.args.length - 2

/-- The arguments as `luaL_checktype` finds them: `net_getuservalue` has pushed the gc thread
after the last one. -/
def AddCall.arg (call : AddCall) (i : Nat) : LuaArg := (call.args ++ [LuaArg.other]).getD i .nil

def AddCall.errfn (call : AddCall) : LuaArg := call.arg 0

def AddCall.fn (call : AddCall) : LuaArg := call.arg 1

/-- Finalizers run on the gc thread while it grows its stack, and where a call on it allocates. -/
def runsOnThread : List GcfnFrame → Bool
  | .adding _ .reserve :: _ => true
  | .adding call _ :: _ => call.onThread
  | _ => false

def GcfnFrame.reserves : GcfnFrame → Bool
  | .adding _ .reserve => true
  | _ => false

def threadRuns (fs : List GcfnFrame) : Bool := fs.any GcfnFrame.reserves

def Phase.running : Phase → List GcFn
  | .loop => []
  | .fn c => [c]
  | .errfn c => [c]

def GcfnFrame.holds : GcfnFrame → List GcFn
  | .adding _ (.handle c) => [c]
  | .draining _ phase pending => pending ++ phase.running
  | _ => []

namespace GcfnWorld

def registered (w : GcfnWorld) : List GcFn := w.sock.stack ++ w.inner

def frame (w : GcfnWorld) (fs : List GcfnFrame) : List GcFn :=
  if threadRuns fs then w.inner else w.sock.stack

def arg (w : GcfnWorld) : HandleArg → Handle
  | .issued k =>
    match w.made[k]? with
    | some c => .ptr c.addr
    | none => .notString
  | .given h => h

def held (w : GcfnWorld) (fs : List GcfnFrame) : List GcFn :=
  w.registered ++ fs.flatMap GcfnFrame.holds

def enterAdd (lua51 : Bool) (w : GcfnWorld) (call : AddCall) (a : GcfnAns) : AddPoint :=
  if !w.sock.metatable then .raising (.argError 1 "net.socket expected, got userdata")
  else if !w.sock.gcThread then .refuse
  else if call.errfn = .other then .raising (.argError 2 "function expected")
  else if call.fn ≠ .function then .raising (.argError 3 "function expected")
  else if gcfnMaxArgs < call.nargs then
    .raising (.raised "too many arguments to addgcfn (maximum is 252)")
  else if a.fails then .raising (.raised "stack overflow (too many arguments to addgcfn)")
  else if lua51 then .reserve
  else if a.refused then .raising (.raised "too many arguments to addgcfn")
  else .closure

/-- `lua_xmove(L, gc_thread, 1)`, which does nothing between a thread and itself. -/
def register (w : GcfnWorld) (fs : List GcfnFrame) (call : AddCall) (c : GcFn) : GcfnStep :=
  if call.onThread then (w, none, [.returned call.id (.closure c)])
  else if threadRuns fs then
    ({ w with inner := w.inner ++ [c], made := w.made ++ [c] }, none,
      [.returned call.id (.handle c.addr)])
  else
    ({ w with sock := { w.sock with stack := w.sock.stack ++ [c] }, made := w.made ++ [c] }, none,
      [.registered c, .returned call.id (.handle c.addr)])

def leave (w : GcfnWorld) (fs : List GcfnFrame) : GcfnWorld :=
  if threadRuns fs then w else { w with inner := [] }

def addStep (w : GcfnWorld) (fs : List GcfnFrame) (call : AddCall) (p : AddPoint) (a : GcfnAns) :
    GcfnStep :=
  match p with
  | .reserve =>
    -- the protected call has returned, and its frame on the gc thread is gone
    -- `lua_cpcall` of the stack check, whose frame is gone when it returns
    (w.leave fs, some (.adding call (
      if a.fails then .raising (.raised ("net_gcthread_add: " ++ a.error))
      else if a.refused then .raising (.raised "too many arguments to addgcfn")
      else .closure)), [])
  | .closure =>
    if a.fails then (w, none, [.returned call.id (.failed (.raised a.error))])
    else
      let c : GcFn :=
        { id := call.id, addr := malloc w.heap a.hint, errfn := call.errfn = .function }
      ({ w with heap := c.addr :: w.heap }, some (.adding call (.handle c)), [])
  | .handle c =>
    if a.fails then (w, none, [.returned call.id (.failed (.raised a.error))])
    -- a finalizer may have closed the socket in the meantime
    else if !w.sock.gcThread then (w, some (.adding call .refuse), [])
    else w.register fs call c
  | .refuse =>
    (w, none, [.returned call.id
      (.failed (if a.fails then .raised a.error else .errno "addgcfn" .ebadf none))])
  | .raising r =>
    (w, none, [.returned call.id (.failed (if a.fails then .raised a.error else r))])

/-- `net_gcthread_del` on the gc thread: the frame is that of the call itself, with the socket,
the handle and the thread. -/
def delOnThread (w : GcfnWorld) (h : Handle) : Reply :=
  match h, w.sock.gcThread with
  | .ptr addr, true => .bool (addr = w.sockAddr || addr = w.threadAddr)
  | h, _ => (netGcthreadDel w.sock h).2.2

def delStep (w : GcfnWorld) (fs : List GcfnFrame) (onThread : Bool) (h : Handle) :
    GcfnWorld × Option GcFn × Reply :=
  if onThread then (w, none, w.delOnThread h)
  else if threadRuns fs then
    let r := netGcthreadDel { w.sock with stack := w.inner } h
    ({ w with inner := r.1.stack }, r.2)
  else
    let r := netGcthreadDel w.sock h
    ({ w with sock := r.1 }, r.2)

def delgcfnLua (w : GcfnWorld) (fs : List GcfnFrame) (onThread : Bool) (h : Handle) : GcfnStep :=
  if !w.sock.metatable then
    (w, none, [.deleted none (.argError 1 "net.socket expected, got userdata")])
  else
    let r := w.delStep fs onThread h
    (r.1, none, [.deleted r.2.1 r.2.2])

/-- `net_gcthread_close` up to its loop: what is above the frame of the thread is left to the
drain, and nothing else of the thread can be reached any more. On the thread itself that frame is
the one of the method, which has no closures. -/
def netGcthreadClose (w : GcfnWorld) (fs : List GcfnFrame) (onThread : Bool) (m : Detacher) :
    GcfnStep :=
  let pending := if onThread then [] else w.frame fs
  ({ w with sock := { w.sock with gcThread := false, stack := [] }, inner := [] },
    some (.draining m .loop pending), [.detached pending])

def finish (w : GcfnWorld) : Detacher → GcfnWorld
  | .close => { w with sock := { w.sock with fd := -1 } }
  | .unwrap => { w with sock := { w.sock with metatable := false, fd := -1 } }
  | .gc => { w with sock := { w.sock with fd := -1 } }

def closeLua (w : GcfnWorld) (fs : List GcfnFrame) (onThread : Bool) : GcfnStep :=
  if !w.sock.metatable then (w, none, [])
  else if onThread && w.sock.gcThread then (w, some .refusing, [])
  else if w.sock.fd = -1 || !w.sock.gcThread then (w, none, [])
  else w.netGcthreadClose fs onThread .close

def unwrapLua (w : GcfnWorld) (fs : List GcfnFrame) (onThread : Bool) : GcfnStep :=
  if !w.sock.metatable then (w, none, [])
  else if onThread && w.sock.gcThread then (w, some .refusing, [])
  else if !w.sock.gcThread then (w.finish .unwrap, none, [])
  else w.netGcthreadClose fs onThread .unwrap

def gcLua (w : GcfnWorld) (fs : List GcfnFrame) (onThread : Bool) : GcfnStep :=
  if !w.sock.metatable then (w, none, [])
  else if !w.sock.gcThread then (w.finish .gc, none, [])
  else w.netGcthreadClose fs onThread .gc

/-- The loop of `net_gcthread_close` with the body of `gcfn_closure`: an error of the callback goes
to its `errfn`, and whatever is raised in the end is dropped. -/
def drainStep (w : GcfnWorld) (m : Detacher) (phase : Phase) (pending : List GcFn) (a : GcfnAns) :
    GcfnStep :=
  match phase with
  | .loop =>
    match pending.getLast? with
    | none => (w.finish m, none, [])
    | some c => (w, some (.draining m (.fn c) pending.dropLast), [.invoked c])
  | .fn c =>
    (w, some (.draining m (if a.fails && c.errfn then .errfn c else .loop) pending), [])
  | .errfn _ => (w, some (.draining m .loop pending), [])

def act (lua51 : Bool) (w : GcfnWorld) (fs : List GcfnFrame) (f : GcfnFrame) (a : GcfnAns) :
    GcfnStep :=
  match f with
  | .entering (.addgcfn onThread args) =>
    let call : AddCall := ⟨w.nextId, args, onThread && runsOnThread fs⟩
    ({ w with nextId := w.nextId + 1 }, some (.adding call (enterAdd lua51 w call a)),
      [.called w.nextId])
  | .entering (.delgcfn onThread h) =>
    w.delgcfnLua fs (onThread && runsOnThread fs) (w.arg h)
  | .entering (.close onThread) => w.closeLua fs (onThread && runsOnThread fs)
  | .entering (.unwrap onThread) => w.unwrapLua fs (onThread && runsOnThread fs)
  | .entering (.gc onThread) => w.gcLua fs (onThread && runsOnThread fs)
  | .adding call p => w.addStep fs call p a
  | .draining m phase pending => w.drainStep m phase pending a
  | .refusing => (w, none, [])

def foreign (w : GcfnWorld) (fs : List GcfnFrame) : GcfnForeign → GcfnWorld
  | .alloc hint => { w with heap := malloc w.heap hint :: w.heap }
  | .collect keeps =>
    let roots := w.sockAddr :: w.threadAddr :: (w.held fs).map (·.addr) ++ keeps
    { w with heap := w.heap.filter fun a => a ∈ roots }
  | .frameEnds => { w with inner := [] }

end GcfnWorld

def gcfnWorldNew (fd sockAddr threadAddr : Nat) (heap : List Nat) : GcfnWorld :=
  { sock := { netSocketNew true with fd := fd }, inner := [], heap := sockAddr :: threadAddr :: heap,
    sockAddr := sockAddr, threadAddr := threadAddr, made := [], nextId := 0 }

def GcfnFrame.waits : GcfnFrame → Bool
  | .entering _ => false
  | _ => true

def gcfnCalls (lua51 : Bool) :
    Reentrant GcfnWorld GcfnFrame GcfnMethod GcfnForeign GcfnAns GcfnEvent where
  start := .entering
  waits := GcfnFrame.waits
  foreign := GcfnWorld.foreign
  act := GcfnWorld.act lua51

theorem unused_pos (heap : List Nat) : 0 < unused heap := by
  induction heap with
  | nil => exact Nat.one_pos
  | cons b heap ih => exact Nat.add_pos_right b ih

theorem lt_unused {heap : List Nat} {a : Nat} (h : a ∈ heap) : a < unused heap := by
  induction heap with
  | nil => cases h
  | cons b heap ih =>
    rcases List.mem_cons.mp h with rfl | h
    · exact Nat.lt_add_of_pos_right (unused_pos heap)
    · exact Nat.lt_of_lt_of_le (ih h) (Nat.le_add_left _ b)

theorem malloc_fresh (heap : List Nat) (hint : Nat) : malloc heap hint ∉ heap := by
  unfold malloc
  split
  · next h => exact h.2
  · exact fun h => Nat.lt_irrefl _ (lt_unused h)

/-- What holds of the addresses: those of the closures that are alive differ, they are in use, and
a closure never took the place of the socket or of its thread. -/
structure HeapInv (w : GcfnWorld) (fs : List GcfnFrame) : Prop where
  distinct : ((w.held fs).map (·.addr)).Nodup
  used : ∀ c ∈ w.held fs, c.addr ∈ w.heap
  own : w.sockAddr ∈ w.heap ∧ w.threadAddr ∈ w.heap
  apart : ∀ c, c ∈ w.held fs ∨ c ∈ w.made → c.addr ≠ w.sockAddr ∧ c.addr ≠ w.threadAddr
  made : ∀ c ∈ w.registered, c ∈ w.made
  idle : threadRuns fs = false → w.inner = []
  closed : w.sock.gcThread = false → w.registered = []

variable {w w' : GcfnWorld} {fs fs' : List GcfnFrame} {f : GcfnFrame} {call : AddCall} {c : GcFn}
  {a : GcfnAns}

theorem HeapInv.registered_nodup (h : HeapInv w fs) : (w.registered.map (·.addr)).Nodup := by
  have hall := h.distinct
  rw [GcfnWorld.held, List.map_append] at hall
  exact hall.of_append_left

def AddCall.Checked (call : AddCall) : Prop :=
  call.errfn ≠ .other ∧ call.fn = .function ∧ call.nargs ≤ gcfnMaxArgs

theorem enterAdd_checked {lua51 : Bool}
    (h : w.enterAdd lua51 call a = .reserve ∨ w.enterAdd lua51 call a = .closure) :
    w.sock.gcThread = true ∧ call.Checked := by
  unfold GcfnWorld.enterAdd at h
  split_ifs at h with hmeta hthread herrfn hfn hargs
  iterate 6 exact absurd h (by simp)
  · exact ⟨by simpa using hthread, herrfn, not_not.mp hfn, Nat.le_of_not_lt hargs⟩
  · exact absurd h (by simp)
  · exact ⟨by simpa using hthread, herrfn, not_not.mp hfn, Nat.le_of_not_lt hargs⟩

/-- Taken together, the steps of a call that registers `c` do what `netGcthreadAdd` does. -/
theorem register_netGcthreadAdd (hcall : call.Checked) (hthread : w.sock.gcThread = true)
    (hon : call.onThread = false) (hrun : threadRuns fs = false) (hid : c.id = call.id)
    (herrfn : c.errfn = decide (call.errfn = .function)) :
    netGcthreadAdd w.sock call.id ⟨call.errfn, call.fn, call.nargs, true, c.addr⟩ =
      ((w.register fs call c).1.sock, some c, .handle c.addr) := by
  obtain ⟨herr, hfn, hargs⟩ := hcall
  unfold netGcthreadAdd GcfnWorld.register
  simp [hthread, herr, hfn, Nat.not_lt.mpr hargs, hon, hrun, ← hid, ← herrfn]

theorem nodup_map_of_subperm {α β : Type*} {g : α → β} {l l' : List α} (h : List.Subperm l l')
    (hl : (l'.map g).Nodup) : (l.map g).Nodup := by
  obtain ⟨k, hperm, hsub⟩ := h
  exact (hperm.map g).nodup_iff.mp (hl.sublist (hsub.map g))

theorem HeapInv.fewer (h : HeapInv w fs) (hheld : List.Subperm (w'.held fs') (w.held fs))
    (hheap : w'.heap = w.heap) (hsock : w'.sockAddr = w.sockAddr)
    (hthread : w'.threadAddr = w.threadAddr)
    (hmade : ∀ c ∈ w'.made, c ∈ w.held fs ∨ c ∈ w.made) (hreg : ∀ c ∈ w'.registered, c ∈ w'.made)
    (hidle : threadRuns fs' = false → w'.inner = [])
    (hclosed : w'.sock.gcThread = false → w'.registered = []) : HeapInv w' fs' := by
  constructor
  · exact nodup_map_of_subperm hheld h.distinct
  · intro c hc
    rw [hheap]
    exact h.used c (hheld.subset hc)
  · rw [hheap, hsock, hthread]
    exact h.own
  · intro c hc
    rw [hsock, hthread]
    refine h.apart c ?_
    rcases hc with hc | hc
    · exact .inl (hheld.subset hc)
    · exact hmade c hc
  · exact hreg
  · exact hidle
  · exact hclosed

theorem threadRuns_next {o : Option GcfnFrame} (h : threadRuns (o.toList ++ fs) = false) :
    threadRuns fs = false := by
  unfold threadRuns at *
  rw [List.any_append, Bool.or_eq_false_iff] at h
  exact h.2

theorem HeapInv.inner_nil (h : HeapInv w (f :: fs)) (hf : f.reserves = false)
    (hfs : threadRuns fs = false) : w.inner = [] := by
  apply h.idle
  unfold threadRuns at *
  rw [List.any_cons, hf, hfs]
  rfl

theorem held_of_holds (hf : f.holds = []) (w : GcfnWorld) (fs : List GcfnFrame) :
    w.held (f :: fs) = w.held fs := by
  rw [GcfnWorld.held, List.flatMap_cons, hf, List.nil_append, GcfnWorld.held]

theorem HeapInv.next (h : HeapInv w (f :: fs)) (hf : f.reserves = false) {o : Option GcfnFrame}
    (ho : o.toList.flatMap GcfnFrame.holds = []) (n : Nat) :
    HeapInv { w with nextId := n } (o.toList ++ fs) := by
  apply h.fewer
  · unfold GcfnWorld.held
    rw [List.flatMap_append, ho, List.flatMap_cons]
    exact ((List.sublist_append_right f.holds _).append_left _).subperm
  · rfl
  · rfl
  · rfl
  · exact fun c hc => .inr hc
  · exact h.made
  · exact fun hrun => h.inner_nil hf (threadRuns_next hrun)
  · exact h.closed

theorem enterAdd_holds (lua51 : Bool) (w : GcfnWorld) (call : AddCall) (a : GcfnAns) :
    (GcfnFrame.adding call (w.enterAdd lua51 call a)).holds = [] := by
  unfold GcfnWorld.enterAdd
  split_ifs <;> rfl

theorem HeapInv.grown (h : HeapInv w (.adding call (.handle c) :: fs))
    (hregistered : w'.registered = w.registered ++ [c]) (hmade : w'.made = w.made ++ [c])
    (hheap : w'.heap = w.heap) (hsock : w'.sockAddr = w.sockAddr)
    (hthread : w'.threadAddr = w.threadAddr) (hidle : threadRuns fs = false → w'.inner = [])
    (hopen : w'.sock.gcThread = true) : HeapInv w' fs := by
  have hheld : w'.held fs = w.held (.adding call (.handle c) :: fs) := by
    unfold GcfnWorld.held
    rw [hregistered, List.append_assoc, List.flatMap_cons, GcfnFrame.holds]
  have hc : c ∈ w.held (.adding call (.handle c) :: fs) := by
    rw [← hheld]
    apply List.mem_append_left
    rw [hregistered]
    exact List.mem_append_right _ (List.mem_singleton_self c)
  apply h.fewer
  · rw [hheld]
  · exact hheap
  · exact hsock
  · exact hthread
  · intro d hd
    rw [hmade] at hd
    rcases List.mem_append.mp hd with hd | hd
    · exact .inr hd
    · rw [List.mem_singleton.mp hd]
      exact .inl hc
  · intro d hd
    rw [hregistered] at hd
    rw [hmade]
    rcases List.mem_append.mp hd with hd | hd
    · exact List.mem_append_left _ (h.made d hd)
    · exact List.mem_append_right _ hd
  · exact hidle
  · exact fun hclosed => absurd (hclosed.symm.trans hopen) Bool.false_ne_true

theorem HeapInv.register (h : HeapInv w (.adding call (.handle c) :: fs))
    (hthread : w.sock.gcThread = true) :
    HeapInv (w.register fs call c).1 ((w.register fs call c).2.1.toList ++ fs) := by
  unfold GcfnWorld.register
  split
  · exact h.next (o := none) rfl rfl w.nextId
  split
  · next hrun =>
    apply h.grown
    · exact (List.append_assoc _ _ _).symm
    · rfl
    · rfl
    · rfl
    · rfl
    · exact fun hidle => absurd (hidle.symm.trans hrun) Bool.false_ne_true
    · exact hthread
  · next hrun =>
    have hinner : w.inner = [] := h.inner_nil rfl (Bool.eq_false_iff.mpr hrun)
    apply h.grown
    · unfold GcfnWorld.registered
      rw [hinner, List.append_nil, List.append_nil]
    · rfl
    · rfl
    · rfl
    · rfl
    · exact fun _ => hinner
    · exact hthread


inductive AddMove (w : GcfnWorld) (fs : List GcfnFrame) (call : AddCall) (a : GcfnAns) :
    AddPoint → GcfnStep → Prop
  | failed (p : AddPoint) (hp : (GcfnFrame.adding call p).reserves = false) (e : Reply) :
    AddMove w fs call a p (w, none, [.returned call.id (.failed e)])
  | reserved (p : AddPoint) (hp : (GcfnFrame.adding call p).holds = []) :
    AddMove w fs call a .reserve (w.leave fs, some (.adding call p), [])
  | allocated (c : GcFn) (hid : c.id = call.id) (haddr : c.addr = malloc w.heap a.hint) :
    AddMove w fs call a .closure
      ({ w with heap := c.addr :: w.heap }, some (.adding call (.handle c)), [])
  | closed (c : GcFn) : AddMove w fs call a (.handle c) (w, some (.adding call .refuse), [])
  | registered (c : GcFn) (hfails : a.fails = false) (hthread : w.sock.gcThread = true) :
    AddMove w fs call a (.handle c) (w.register fs call c)

theorem addStep_move (w : GcfnWorld) (fs : List GcfnFrame) (call : AddCall) (p : AddPoint)
    (a : GcfnAns) : AddMove w fs call a p (w.addStep fs call p a) := by
  cases p with
  | reserve =>
    apply AddMove.reserved
    split_ifs <;> rfl
  | closure =>
    by_cases hfails : a.fails = true
    · rw [GcfnWorld.addStep, if_pos hfails]
      exact .failed _ rfl _
    · rw [GcfnWorld.addStep, if_neg hfails]
      exact .allocated _ rfl rfl
  | handle c =>
    by_cases hfails : a.fails = true
    · rw [GcfnWorld.addStep, if_pos hfails]
      exact .failed _ rfl _
    rw [GcfnWorld.addStep, if_neg hfails]
    cases hthread : w.sock.gcThread with
    | false => exact .closed c
    | true => exact .registered c (Bool.eq_false_iff.mpr hfails) hthread
  | refuse => exact .failed _ rfl _
  | raising r => exact .failed _ rfl _

theorem HeapInv.leave (h : HeapInv w (.adding call .reserve :: fs))
    (hp : (GcfnFrame.adding call p).holds = []) :
    HeapInv (w.leave fs) (.adding call p :: fs) := by
  have hbefore : w.held (.adding call .reserve :: fs) = w.held fs := held_of_holds rfl w fs
  unfold GcfnWorld.leave
  split
  · next hrun =>
    apply h.fewer
    · rw [held_of_holds hp, hbefore]
    · rfl
    · rfl
    · rfl
    · exact fun c hc => .inr hc
    · exact h.made
    · intro hidle
      exact absurd ((threadRuns_next (o := some _) hidle).symm.trans hrun) Bool.false_ne_true
    · exact h.closed
  · have hsub : ∀ c, c ∈ { w with inner := [] }.registered → c ∈ w.registered := by
      intro c hc
      rw [GcfnWorld.registered, List.append_nil] at hc
      exact List.mem_append_left _ hc
    apply h.fewer
    · rw [held_of_holds hp, hbefore]
      unfold GcfnWorld.held GcfnWorld.registered
      exact (((List.nil_sublist _).append_left _).append_right _).subperm
    · rfl
    · rfl
    · rfl
    · exact fun c hc => .inr hc
    · exact fun c hc => h.made c (hsub c hc)
    · exact fun _ => rfl
    · intro hclosed
      apply List.eq_nil_iff_forall_not_mem.mpr
      intro c hc
      have hmem := hsub c hc
      rw [h.closed hclosed] at hmem
      cases hmem

theorem HeapInv.allocated (h : HeapInv w (.adding call .closure :: fs))
    (haddr : c.addr ∉ w.heap) :
    HeapInv { w with heap := c.addr :: w.heap } (.adding call (.handle c) :: fs) := by
  have hperm : List.Perm ({ w with heap := c.addr :: w.heap }.held (.adding call (.handle c) :: fs))
      (c :: w.held (.adding call .closure :: fs)) := by
    rw [@held_of_holds (.adding call .closure) rfl]
    exact List.perm_middle
  have hmem : ∀ d ∈ { w with heap := c.addr :: w.heap }.held (.adding call (.handle c) :: fs),
      d = c ∨ d ∈ w.held (.adding call .closure :: fs) :=
    fun d hd => List.mem_cons.mp (hperm.mem_iff.mp hd)
  constructor
  · rw [(hperm.map _).nodup_iff, List.map_cons, List.nodup_cons]
    refine ⟨fun hused => ?_, h.distinct⟩
    obtain ⟨d, hd, heq⟩ := List.mem_map.mp hused
    exact haddr (heq ▸ h.used d hd)
  · intro d hd
    rcases hmem d hd with rfl | hd
    · exact List.mem_cons_self
    · exact List.mem_cons_of_mem _ (h.used d hd)
  · exact ⟨List.mem_cons_of_mem _ h.own.1, List.mem_cons_of_mem _ h.own.2⟩
  · intro d hd
    have hcases : d = c ∨ d ∈ w.held (.adding call .closure :: fs) ∨ d ∈ w.made := by
      rcases hd with hd | hd
      · rcases hmem d hd with rfl | hd
        · exact .inl rfl
        · exact .inr (.inl hd)
      · exact .inr (.inr hd)
    rcases hcases with rfl | hd
    · exact ⟨fun heq => haddr (heq ▸ h.own.1), fun heq => haddr (heq ▸ h.own.2)⟩
    · exact h.apart d hd
  · exact h.made
  · exact fun hidle => h.inner_nil rfl (threadRuns_next (o := some _) hidle)
  · exact h.closed

theorem HeapInv.addStep (h : HeapInv w (.adding call p :: fs)) (a : GcfnAns) :
    HeapInv (w.addStep fs call p a).1 ((w.addStep fs call p a).2.1.toList ++ fs) := by
  have hmove := addStep_move w fs call p a
  generalize w.addStep fs call p a = r at hmove
  cases hmove with
  | failed p hp e => exact h.next (o := none) hp rfl w.nextId
  | reserved q hq => exact h.leave hq
  | allocated c hid haddr =>
    apply h.allocated
    rw [haddr]
    exact malloc_fresh w.heap a.hint
  | closed c => exact h.next (o := some (.adding call .refuse)) rfl rfl w.nextId
  | registered c hfails hthread => exact h.register hthread

theorem netGcthreadDel_fewer (s : NetSocket) (h : Handle) :
    (netGcthreadDel s h).1.gcThread = s.gcThread ∧
      List.Sublist (netGcthreadDel s h).1.stack s.stack := by
  cases hremoved : (netGcthreadDel s h).2.1 with
  | none =>
    rw [netGcthreadDel_refused hremoved]
    exact ⟨rfl, List.Sublist.refl _⟩
  | some c =>
    rw [(netGcthreadDel_removed hremoved).2.2]
    exact ⟨rfl, List.erase_sublist⟩

theorem HeapInv.delStep (h : HeapInv w (f :: fs)) (hf : f.reserves = false)
    (hholds : f.holds = []) (onThread : Bool) (handle : Handle) :
    HeapInv (w.delStep fs onThread handle).1 fs := by
  unfold GcfnWorld.delStep
  split
  · exact h.next (o := none) hf rfl w.nextId
  split
  · next hrun =>
    have hsub : List.Sublist (netGcthreadDel { w.sock with stack := w.inner } handle).1.stack
        w.inner := (netGcthreadDel_fewer _ handle).2
    have hreg := (hsub.append_left w.sock.stack).subset
    apply h.fewer
    · rw [held_of_holds hholds]
      exact ((hsub.append_left w.sock.stack).append_right _).subperm
    · rfl
    · rfl
    · rfl
    · exact fun c hc => .inr hc
    · exact fun c hc => h.made c (hreg hc)
    · exact fun hidle => absurd (hidle.symm.trans hrun) Bool.false_ne_true
    · intro hclosed
      have hnil := h.closed hclosed
      exact List.eq_nil_of_subset_nil fun c hc => hnil ▸ hreg hc
  · next hrun =>
    obtain ⟨hthread, hsub⟩ := netGcthreadDel_fewer w.sock handle
    have hreg := (hsub.append_right w.inner).subset
    apply h.fewer
    · rw [held_of_holds hholds]
      exact ((hsub.append_right w.inner).append_right _).subperm
    · rfl
    · rfl
    · rfl
    · exact fun c hc => .inr hc
    · exact fun c hc => h.made c (hreg hc)
    · exact h.inner_nil hf
    · intro hclosed
      have hnil := h.closed (hthread.symm.trans hclosed)
      exact List.eq_nil_of_subset_nil fun c hc => hnil ▸ hreg hc

theorem frame_sublist (w : GcfnWorld) (fs : List GcfnFrame) :
    List.Sublist (w.frame fs) w.registered := by
  unfold GcfnWorld.frame GcfnWorld.registered
  split
  · exact List.sublist_append_right _ _
  · exact List.sublist_append_left _ _

inductive DetachMove (w : GcfnWorld) (fs : List GcfnFrame) (onThread : Bool) (m : Detacher) :
    GcfnStep → Prop
  | refused (hon : onThread = true) (hm : m ≠ .gc) :
    DetachMove w fs onThread m (w, some .refusing, [])
  | nothing (s : NetSocket) (hthread : s.gcThread = w.sock.gcThread)
      (hstack : s.stack = w.sock.stack) :
    DetachMove w fs onThread m ({ w with sock := s }, none, [])
  | detached (hthread : w.sock.gcThread = true) (hon : onThread = false ∨ m = .gc) :
    DetachMove w fs onThread m (w.netGcthreadClose fs onThread m)

theorem finish_nothing (w : GcfnWorld) (fs : List GcfnFrame) (onThread : Bool) (m m' : Detacher) :
    DetachMove w fs onThread m (w.finish m', none, []) := by
  cases m' <;> exact .nothing _ rfl rfl

theorem closeLua_move (w : GcfnWorld) (fs : List GcfnFrame) (onThread : Bool) :
    DetachMove w fs onThread .close (w.closeLua fs onThread) := by
  unfold GcfnWorld.closeLua
  split_ifs with hmeta hbusy hclosed
  · exact .nothing w.sock rfl rfl
  · exact .refused ((Bool.and_eq_true ..).mp hbusy).1 nofun
  · exact .nothing w.sock rfl rfl
  · simp only [Bool.or_eq_true, Bool.not_eq_true', not_or, Bool.not_eq_false] at hclosed
    refine .detached hclosed.2 (.inl ?_)
    simpa only [hclosed.2, Bool.and_true, Bool.not_eq_true] using hbusy

theorem unwrapLua_move (w : GcfnWorld) (fs : List GcfnFrame) (onThread : Bool) :
    DetachMove w fs onThread .unwrap (w.unwrapLua fs onThread) := by
  unfold GcfnWorld.unwrapLua
  split_ifs with hmeta hbusy hclosed
  · exact .nothing w.sock rfl rfl
  · exact .refused ((Bool.and_eq_true ..).mp hbusy).1 nofun
  · exact finish_nothing w fs onThread .unwrap .unwrap
  · rw [Bool.not_eq_true', Bool.not_eq_false] at hclosed
    refine .detached hclosed (.inl ?_)
    simpa only [hclosed, Bool.and_true, Bool.not_eq_true] using hbusy

theorem gcLua_move (w : GcfnWorld) (fs : List GcfnFrame) (onThread : Bool) :
    DetachMove w fs onThread .gc (w.gcLua fs onThread) := by
  unfold GcfnWorld.gcLua
  split_ifs with hmeta hclosed
  · exact .nothing w.sock rfl rfl
  · exact finish_nothing w fs onThread .gc .gc
  · rw [Bool.not_eq_true', Bool.not_eq_false] at hclosed
    exact .detached hclosed (.inr rfl)

theorem HeapInv.resock (h : HeapInv w fs) {s : NetSocket} (hthread : s.gcThread = w.sock.gcThread)
    (hstack : s.stack = w.sock.stack) : HeapInv { w with sock := s } fs := by
  have hreg : { w with sock := s }.registered = w.registered := by
    unfold GcfnWorld.registered
    rw [hstack]
  apply h.fewer
  · unfold GcfnWorld.held
    rw [hreg]
  · rfl
  · rfl
  · rfl
  · exact fun c hc => .inr hc
  · rw [hreg]
    exact h.made
  · exact h.idle
  · rw [hreg]
    exact fun hclosed => h.closed (hthread.symm.trans hclosed)

theorem HeapInv.detach {m : Detacher} {onThread : Bool} {r : GcfnStep} (h : HeapInv w (f :: fs))
    (hf : f.reserves = false) (hholds : f.holds = []) (hmove : DetachMove w fs onThread m r) :
    HeapInv r.1 (r.2.1.toList ++ fs) := by
  cases hmove with
  | refused hon hm => exact h.next (o := some .refusing) hf rfl w.nextId
  | nothing s hthread hstack =>
    exact (h.next (o := none) hf rfl w.nextId).resock hthread hstack
  | detached hthread hon =>
    apply h.fewer
    · rw [held_of_holds hholds]
      have hsub : List.Sublist (if onThread then [] else w.frame fs) w.registered := by
        split
        · exact List.nil_sublist _
        · exact frame_sublist w fs
      have hheld : (w.netGcthreadClose fs onThread m).1.held
          ((w.netGcthreadClose fs onThread m).2.1.toList ++ fs) =
            (if onThread then [] else w.frame fs) ++ fs.flatMap GcfnFrame.holds :=
        congrArg (· ++ fs.flatMap GcfnFrame.holds) (List.append_nil _)
      rw [hheld]
      exact (hsub.append_right _).subperm
    · rfl
    · rfl
    · rfl
    · exact fun c hc => .inr hc
    · exact fun c hc => absurd hc List.not_mem_nil
    · exact fun _ => rfl
    · exact fun _ => rfl

inductive DrainMove (w : GcfnWorld) (m : Detacher) : Phase → List GcFn → GcfnStep → Prop
  | ended : DrainMove w m .loop [] (w.finish m, none, [])
  | invoked (pending : List GcFn) (c : GcFn) :
    DrainMove w m .loop (pending ++ [c]) (w, some (.draining m (.fn c) pending), [.invoked c])
  | raised (pending : List GcFn) (c : GcFn) :
    DrainMove w m (.fn c) pending (w, some (.draining m (.errfn c) pending), [])
  | returned (phase : Phase) (pending : List GcFn) (hphase : phase ≠ .loop) :
    DrainMove w m phase pending (w, some (.draining m .loop pending), [])

theorem drainStep_move (w : GcfnWorld) (m : Detacher) (phase : Phase) (pending : List GcFn)
    (a : GcfnAns) : DrainMove w m phase pending (w.drainStep m phase pending a) := by
  cases phase with
  | loop =>
    rcases List.eq_nil_or_concat' pending with rfl | ⟨pending, c, rfl⟩
    · exact .ended
    · rw [GcfnWorld.drainStep, List.getLast?_concat, List.dropLast_concat]
      exact .invoked pending c
  | fn c =>
    rw [GcfnWorld.drainStep]
    split
    · exact .raised pending c
    · exact .returned (.fn c) pending nofun
  | errfn c => exact .returned (.errfn c) pending nofun

theorem HeapInv.drainStep {m : Detacher} {phase : Phase} {pending : List GcFn}
    (h : HeapInv w (.draining m phase pending :: fs)) :
    HeapInv (w.drainStep m phase pending a).1
      ((w.drainStep m phase pending a).2.1.toList ++ fs) := by
  have hmove := drainStep_move w m phase pending a
  generalize w.drainStep m phase pending a = r at hmove
  have hfewer : ∀ phase' pending', List.Sublist (pending' ++ Phase.running phase')
      (pending ++ phase.running) → HeapInv w (.draining m phase' pending' :: fs) := by
    intro phase' pending' hsub
    apply h.fewer
    · exact ((hsub.append_right _).append_left _).subperm
    · rfl
    · rfl
    · rfl
    · exact fun c hc => .inr hc
    · exact h.made
    · exact fun hidle => h.inner_nil rfl (threadRuns_next (o := some _) hidle)
    · exact h.closed
  cases hmove with
  | ended =>
    have hnext : HeapInv w fs := h.next (o := none) rfl rfl w.nextId
    cases m <;> exact hnext.resock rfl rfl
  | invoked pending c => exact hfewer _ _ (by rw [Phase.running, Phase.running, List.append_nil])
  | raised pending c => exact hfewer _ _ (List.Sublist.refl _)
  | returned phase pending hphase =>
    exact hfewer _ _ ((List.nil_sublist _).append_left pending)

theorem HeapInv.act (lua51 : Bool) (h : HeapInv w (f :: fs)) (a : GcfnAns) :
    HeapInv (w.act lua51 fs f a).1 ((w.act lua51 fs f a).2.1.toList ++ fs) := by
  cases f with
  | entering m =>
    cases m with
    | addgcfn onThread args =>
      refine h.next (o := some _) rfl ?_ (w.nextId + 1)
      rw [Option.toList_some, List.flatMap_singleton, enterAdd_holds]
    | delgcfn onThread handle =>
      unfold GcfnWorld.act GcfnWorld.delgcfnLua
      dsimp only
      split
      · exact h.next (o := none) rfl rfl w.nextId
      · exact h.delStep rfl rfl _ _
    | close onThread => exact h.detach rfl rfl (closeLua_move w fs _)
    | unwrap onThread => exact h.detach rfl rfl (unwrapLua_move w fs _)
    | gc onThread => exact h.detach rfl rfl (gcLua_move w fs _)
  | adding call p => exact h.addStep a
  | draining m phase pending => exact h.drainStep
  | refusing => exact h.next (o := none) rfl rfl w.nextId

theorem HeapInv.foreign (h : HeapInv w fs) (x : GcfnForeign) : HeapInv (w.foreign fs x) fs := by
  cases x with
  | alloc hint =>
    exact {
      distinct := h.distinct
      used := fun c hc => List.mem_cons_of_mem _ (h.used c hc)
      own := ⟨List.mem_cons_of_mem _ h.own.1, List.mem_cons_of_mem _ h.own.2⟩
      apart := h.apart
      made := h.made
      idle := h.idle
      closed := h.closed }
  | collect keeps =>
    have hkeep : ∀ b, b ∈ w.sockAddr :: w.threadAddr :: (w.held fs).map (·.addr) ++ keeps →
        b ∈ w.heap → b ∈ (w.foreign fs (.collect keeps)).heap :=
      fun b hroot hb => List.mem_filter.mpr ⟨hb, decide_eq_true hroot⟩
    exact {
      distinct := h.distinct
      used := fun c hc => hkeep _ (List.mem_append_left _ (List.mem_cons_of_mem _
        (List.mem_cons_of_mem _ (List.mem_map_of_mem hc)))) (h.used c hc)
      own := ⟨hkeep _ List.mem_cons_self h.own.1,
        hkeep _ (List.mem_cons_of_mem _ List.mem_cons_self) h.own.2⟩
      apart := h.apart
      made := h.made
      idle := h.idle
      closed := h.closed }
  | frameEnds =>
    have hsub : List.Sublist ({ w with inner := [] }).registered w.registered :=
      (List.nil_sublist w.inner).append_left w.sock.stack
    apply h.fewer
    · exact (hsub.append_right _).subperm
    · rfl
    · rfl
    · rfl
    · exact fun c hc => .inr hc
    · exact fun c hc => h.made c (hsub.subset hc)
    · exact fun _ => rfl
    · intro hclosed
      have hnil := h.closed hclosed
      exact List.eq_nil_of_subset_nil fun c hc => hnil ▸ hsub.subset hc

theorem HeapInv.new (fd sockAddr threadAddr : Nat) (heap : List Nat) :
    HeapInv (gcfnWorldNew fd sockAddr threadAddr heap) [] where
  distinct := List.nodup_nil
  used _ hc := absurd hc List.not_mem_nil
  own := ⟨List.mem_cons_self, List.mem_cons_of_mem _ List.mem_cons_self⟩
  apart _ hc := hc.elim (fun h => absurd h List.not_mem_nil) fun h => absurd h List.not_mem_nil
  made _ hc := absurd hc List.not_mem_nil
  idle _ := rfl
  closed _ := rfl

theorem heapInv_kept (lua51 : Bool) :
    (gcfnCalls lua51).Kept (fun _ _ _ _ => True) fun w fs _ => HeapInv w fs where
  call w fs _ m h _ := by
    have hholds : (GcfnFrame.entering m).holds = [] := rfl
    apply h.fewer
    · rw [show (gcfnCalls lua51).start m = GcfnFrame.entering m from rfl, held_of_holds hholds]
    · rfl
    · rfl
    · rfl
    · exact fun c hc => .inr hc
    · exact h.made
    · exact fun hidle => h.idle (threadRuns_next (o := some _) hidle)
    · exact h.closed
  foreign _ _ _ x h _ := h.foreign x
  act _ _ _ _ a h _ _ := h.act lua51 a

end LuaNet.Socket
