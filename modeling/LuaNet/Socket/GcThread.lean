import Mathlib.Data.List.Basic
import Mathlib.Tactic.Common

/-! The native socket and its gc thread, a Lua thread whose stack holds the closures registered
with `addgcfn`, the last one on top. -/

namespace LuaNet.Socket

/-- A registration: the closure that `addgcfn` put on the gc thread. `addr` is what
`lua_topointer` answers for it, `errfn` says whether an error handler came with it. -/
structure GcFn where
  id : Nat
  addr : Nat
  errfn : Bool
deriving DecidableEq

/-- `net_socket_t` and its gc thread. `stack` is the stack of the thread, bottom first, and
`gcThread` says whether `s->gc_thread` still points to it. `held` says whether the constructor
gave the userdata to Lua code; if not, only the collector reaches it. -/
structure NetSocket where
  fd : Int
  gcThread : Bool
  stack : List GcFn
  metatable : Bool
  held : Bool

def netSocketNew (held : Bool) : NetSocket :=
  { fd := -1, gcThread := true, stack := [], metatable := true, held := held }

def NetSocket.usable (s : NetSocket) : Bool := s.held && s.metatable

inductive Errno
  | ebusy
  | ebadf
  | einval
  | sys (code : Nat)
deriving DecidableEq

inductive Reply
  | bool (b : Bool)
  | fd (fd : Int)
  | handle (addr : Nat)
  | errno (op : String) (e : Errno) (cause : Option (String × Errno))
  | argError (arg : Nat) (msg : String)
  | raised (msg : String)
deriving DecidableEq

inductive LuaArg
  | nil
  | function
  | other
deriving DecidableEq

/-- The arguments of `addgcfn`. `room` says whether the stacks grow and the closure and its
handle are allocated; `addr` is where the closure is allocated. -/
structure GcFnArgs where
  errfn : LuaArg
  fn : LuaArg
  nargs : Nat
  room : Bool
  addr : Nat

inductive Phase
  | loop
  | fn (c : GcFn)
  | errfn (c : GcFn)
deriving DecidableEq

def gcfnMaxArgs : Nat := 255 - 3

/-- `net_gcthread_add` where no finalizer that runs inside of it calls a method of its socket,
with the registration it made. -/
def netGcthreadAdd (s : NetSocket) (id : Nat) (args : GcFnArgs) :
    NetSocket × Option GcFn × Reply :=
  if !s.gcThread then (s, none, .errno "addgcfn" .ebadf none)
  else if args.errfn = .other then (s, none, .argError 2 "function expected")
  else if args.fn ≠ .function then (s, none, .argError 3 "function expected")
  else if gcfnMaxArgs < args.nargs then
    (s, none, .raised "too many arguments to addgcfn (maximum is 252)")
  else if !args.room then (s, none, .raised "too many arguments to addgcfn")
  else
    let c : GcFn := { id := id, addr := args.addr, errfn := args.errfn = .function }
    ({ s with stack := s.stack ++ [c] }, some c, .handle args.addr)

/-- What `delgcfn` makes of its argument: no string, a string without the handle prefix, a
prefix without a pointer, or the pointer. -/
inductive Handle
  | notString
  | badPrefix
  | badPointer
  | ptr (addr : Nat)

def netGcthreadDel (s : NetSocket) (handle : Handle) : NetSocket × Option GcFn × Reply :=
  match handle, s.gcThread with
  | .notString, _ => (s, none, .argError 2 "string expected")
  | _, false => (s, none, .bool false)
  | .badPrefix, true =>
    (s, none, .argError 2 "not a net.socket.gcfn handle (expected 'net.socket.gcfn: 0x...')")
  | .badPointer, true => (s, none, .argError 2 "invalid net.socket.gcfn handle")
  | .ptr addr, true =>
    match s.stack.find? fun c => c.addr == addr with
    | some c =>
      ({ s with stack := s.stack.eraseP fun c => c.addr == addr }, some c, .bool true)
    | none => (s, none, .bool false)

theorem netGcthreadAdd_refused {s : NetSocket} {id : Nat} {args : GcFnArgs}
    (h : (netGcthreadAdd s id args).2.1 = none) : (netGcthreadAdd s id args).1 = s := by
  unfold netGcthreadAdd at *
  split_ifs at * <;> rfl

theorem netGcthreadAdd_added {s : NetSocket} {id : Nat} {args : GcFnArgs} {c : GcFn}
    (h : (netGcthreadAdd s id args).2.1 = some c) :
    s.gcThread = true ∧ c.id = id ∧
      (netGcthreadAdd s id args).1 = { s with stack := s.stack ++ [c] } := by
  unfold netGcthreadAdd at *
  split_ifs at * with hthread
  all_goals cases h
  exact ⟨by simpa using hthread, rfl, rfl⟩

theorem eraseP_eq_erase_of_find {α : Type*} [DecidableEq α] {l : List α} {p : α → Bool} {c : α}
    (h : l.find? p = some c) : l.eraseP p = l.erase c := by
  induction l with
  | nil => cases h
  | cons d l ih =>
    by_cases hd : p d = true
    · rw [List.find?_cons_of_pos hd] at h
      cases h
      rw [List.eraseP_cons_of_pos hd, List.erase_cons_head]
    · rw [List.find?_cons_of_neg hd] at h
      have hne : d ≠ c := by
        rintro rfl
        exact hd (List.find?_some h)
      rw [List.eraseP_cons_of_neg hd, ih h, List.erase_cons_tail (by simpa using hne)]

theorem netGcthreadDel_refused {s : NetSocket} {handle : Handle}
    (h : (netGcthreadDel s handle).2.1 = none) : (netGcthreadDel s handle).1 = s := by
  unfold netGcthreadDel at *
  split at * <;> try rfl
  split at * <;> first | rfl | cases h

theorem netGcthreadDel_removed {s : NetSocket} {handle : Handle} {c : GcFn}
    (h : (netGcthreadDel s handle).2.1 = some c) :
    s.gcThread = true ∧ c ∈ s.stack ∧
      (netGcthreadDel s handle).1 = { s with stack := s.stack.erase c } := by
  unfold netGcthreadDel at *
  split at * <;> try cases h
  next addr hthread =>
    split at *
    · next d hfind =>
      cases h
      exact ⟨hthread, List.mem_of_find?_eq_some hfind,
        by rw [eraseP_eq_erase_of_find hfind]⟩
    · cases h

end LuaNet.Socket
