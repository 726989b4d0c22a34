import LuaNet.Lib.Lifetime

/-! The OpenSSL objects of a TLS context and of its BIO userdata: how `accept_lua` and
`connect_lua` build them, how the methods use them, and how `close`, the finalizers and
`lua_close` free them. A construction is cut where it allocates in Lua, since the allocation can
raise, and any finalizer can run in it. -/

namespace LuaNet.Tls

open LuaNet.Lib

inductive Dir
  | rx | tx
deriving DecidableEq

inductive Part
  | ssl
  | bio (d : Dir)
  | method (d : Dir)
  | mem (d : Dir)
deriving DecidableEq

abbrev Resource := Nat × Part

inductive Userdata
  | context (k : Nat)
  | bio (k : Nat)
deriving DecidableEq

def Userdata.conn : Userdata → Nat
  | .context k => k
  | .bio k => k

/-- The userdata whose finalizer frees the part; the SSL object takes its BIOs with it. -/
def ownerOfPart (k : Nat) : Part → Userdata
  | .ssl => .context k
  | .bio _ => .context k
  | .method _ => .bio k
  | .mem _ => .bio k

inductive Stage
  | parentRef
  | bioUserdata
  | bioRef
  | sessionKey
deriving DecidableEq

structure Opening where
  client : Bool
  keyed : Bool
  stage : Stage
deriving DecidableEq

inductive OpenPoint
  | sslNew
  | options
  | bioType
  | methodNew (d : Dir)
  | methodSet (d : Dir)
  | memNew (d : Dir)
  | memGrow (d : Dir)
  | bioNew (d : Dir)

/-- `held` tells which pointers are set: `ctx->ssl`, the two BIOs of the SSL object,
`bio->rx_method` and so on; `ctxBio` is `ctx->bio` and `ref` the reference `bio->ref`. `objs` are
the userdata whose finalizers have not run, the newest first. -/
structure LifeWorld where
  held : Resource → Bool
  ctxBio : Nat → Bool
  ref : Nat → Bool
  opening : Nat → Option Opening
  objs : List Userdata
  next : Nat
  closing : Bool

def LifeWorld.start : LifeWorld where
  held := fun _ => false
  ctxBio := fun _ => false
  ref := fun _ => false
  opening := fun _ => none
  objs := []
  next := 0
  closing := false

structure LifeState extends LifeWorld where
  events : List (LifeEvent Resource)

namespace LifeState

def acquire (r : Resource) (s : LifeState) : LifeState :=
  { s with held := Function.update s.held r true, events := s.events ++ [.acquired r] }

def touch (r : Resource) (s : LifeState) : LifeState :=
  { s with events := s.events ++ [.used r] }

def free (r : Resource) (s : LifeState) : LifeState :=
  { s with held := Function.update s.held r false, events := s.events ++ [.freed r] }

def touchHeld (r : Resource) (s : LifeState) : LifeState :=
  if s.held r then s.touch r else s

def release (r : Resource) (s : LifeState) : LifeState :=
  if s.held r then s.free r else s

def setRef (k : Nat) (b : Bool) (s : LifeState) : LifeState :=
  { s with ref := Function.update s.ref k b }

def setCtxBio (k : Nat) (b : Bool) (s : LifeState) : LifeState :=
  { s with ctxBio := Function.update s.ctxBio k b }

def setOpening (k : Nat) (o : Option Opening) (s : LifeState) : LifeState :=
  { s with opening := Function.update s.opening k o }

def push (o : Userdata) (s : LifeState) : LifeState := { s with objs := o :: s.objs }

def drop (o : Userdata) (s : LifeState) : LifeState := { s with objs := s.objs.erase o }

def bioFree (k : Nat) (d : Dir) (s : LifeState) : LifeState :=
  (s.touch (k, .method d)).free (k, .bio d)

def bioRelease (k : Nat) (d : Dir) (s : LifeState) : LifeState :=
  if s.held (k, .bio d) then s.bioFree k d else s

def sslFree (k : Nat) (s : LifeState) : LifeState :=
  ((s.bioRelease k .tx).bioRelease k .rx).free (k, .ssl)

def cleanupSsl (k : Nat) (s : LifeState) : LifeState :=
  if s.held (k, .ssl) then (s.touch (k, .ssl)).sslFree k else s

def tlsBioFree (k : Nat) (s : LifeState) : LifeState :=
  ((((s.release (k, .mem .rx)).release (k, .mem .tx)).release (k, .method .rx)).release
    (k, .method .tx)).setRef k false

def cleanupContext (k : Nat) (s : LifeState) : LifeState :=
  if (s.cleanupSsl k).ctxBio k then ((s.cleanupSsl k).tlsBioFree k).setCtxBio k false
  else s.cleanupSsl k

def build (r : Resource) (new set : Bool) (s : LifeState) : Bool × LifeState :=
  if new then (false, s)
  else if set then (false, (s.acquire r).free r)
  else (true, s.acquire r)

def bioMethodNew (fails : OpenPoint → Bool) (k : Nat) (d : Dir) : LifeState → Bool × LifeState :=
  build (k, .method d) (fails (.methodNew d)) (fails (.methodSet d))

def bioBufInit (fails : OpenPoint → Bool) (k : Nat) (d : Dir) : LifeState → Bool × LifeState :=
  build (k, .mem d) (fails (.memNew d)) (fails (.memGrow d))

def bioBufsInit (fails : OpenPoint → Bool) (k : Nat) (s : LifeState) : Bool × LifeState :=
  let rx := s.bioBufInit fails k .rx
  if rx.1 then rx.2.bioBufInit fails k .tx else rx

def tlsBioParts (fails : OpenPoint → Bool) (k : Nat) (s : LifeState) : Bool × LifeState :=
  let rx := s.bioMethodNew fails k .rx
  let tx := rx.2.bioMethodNew fails k .tx
  if rx.1 && tx.1 then tx.2.bioBufsInit fails k else (false, tx.2)

def bioNew (k : Nat) (d : Dir) (s : LifeState) : LifeState :=
  (s.touch (k, .method d)).acquire (k, .bio d)

def tlsBioSetup (fails : OpenPoint → Bool) (k : Nat) (s : LifeState) : Bool × LifeState :=
  if fails (.bioNew .rx) then (false, s)
  else if fails (.bioNew .tx) then (false, (s.bioNew k .rx).bioFree k .rx)
  else (true, (s.bioNew k .rx).bioNew k .tx)

def giveUp (k : Nat) (s : LifeState) : LifeState := (s.cleanupContext k).setOpening k none

def goTo (k : Nat) (o : Opening) (stage : Stage) (s : LifeState) : LifeState :=
  s.setOpening k (some { o with stage := stage })

def contextNew (client keyed : Bool) (s : LifeState) : LifeState :=
  { (s.push (.context s.next)).setOpening s.next (some ⟨client, keyed, .parentRef⟩) with
    next := s.next + 1 }

def acceptLua : LifeState → LifeState := contextNew false false

def connectLua (keyed : Bool) : LifeState → LifeState := contextNew true keyed

def newSsl (fails : OpenPoint → Bool) (k : Nat) (o : Opening) (s : LifeState) : LifeState :=
  if fails .sslNew then s.giveUp k
  else if o.client && fails .options then (s.acquire (k, .ssl)).giveUp k
  else if fails .bioType then (s.acquire (k, .ssl)).giveUp k
  else (s.acquire (k, .ssl)).goTo k o .bioUserdata

def newBio (fails : OpenPoint → Bool) (k : Nat) (o : Opening) (s : LifeState) : LifeState :=
  let parts := (s.push (.bio k)).tlsBioParts fails k
  if parts.1 then parts.2.goTo k o .bioRef else (parts.2.tlsBioFree k).giveUp k

def setupBio (fails : OpenPoint → Bool) (k : Nat) (o : Opening) (s : LifeState) : LifeState :=
  let setup := ((s.setRef k true).setCtxBio k true).tlsBioSetup fails k
  if setup.1 then
    if o.client && o.keyed then setup.2.goTo k o .sessionKey else setup.2.setOpening k none
  else setup.2.giveUp k

def advance (fails : OpenPoint → Bool) (k : Nat) (o : Opening) (s : LifeState) : LifeState :=
  match o.stage with
  | .parentRef => s.newSsl fails k o
  | .bioUserdata => s.newBio fails k o
  | .bioRef => s.setupBio fails k o
  | .sessionKey => (s.touch (k, .ssl)).setOpening k none

def useDir (k : Nat) (s : LifeState) (d : Dir) : LifeState :=
  if s.held (k, .bio d) then
    ((s.touch (k, .bio d)).touch (k, .method d)).touchHeld (k, .mem d)
  else s

def useSsl (k : Nat) (ds : List Dir) (s : LifeState) : LifeState :=
  if s.held (k, .ssl) then ds.foldl (useDir k) (s.touch (k, .ssl)) else s

def shutdown (k : Nat) (ds : List Dir) (done : Bool) (s : LifeState) : LifeState :=
  if done then (s.useSsl k ds).cleanupSsl k else s.useSsl k ds

def gc (o : Userdata) (s : LifeState) : LifeState :=
  match o with
  | .context k => (s.cleanupContext k).drop o
  | .bio k => (s.tlsBioFree k).drop o

end LifeState

/-- `advance` and `raise` are the two outcomes of an allocation in a construction. `use` and
`shutdown` call OpenSSL, `transfer` is a fill or a drain. `collect` is a finalizer that the
garbage collector runs, `luaClose` begins the end of the Lua state, and `finalize` is the next
finalizer that this runs. -/
inductive LifeOp
  | accept
  | connect (keyed : Bool)
  | advance (k : Nat) (fails : OpenPoint → Bool)
  | raise (k : Nat)
  | use (k : Nat) (ds : List Dir)
  | transfer (k : Nat) (d : Dir)
  | shutdown (k : Nat) (ds : List Dir) (done : Bool)
  | close (k : Nat)
  | collect (o : Userdata)
  | luaClose
  | finalize

/-- A userdata that the garbage collector may find unreachable: no running construction has it on
its stack, and a BIO has no reference in the registry. -/
def LifeWorld.collectable (w : LifeWorld) (o : Userdata) : Bool :=
  !w.closing && decide (o ∈ w.objs) && (w.opening o.conn).isNone &&
    match o with
    | .context _ => true
    | .bio k => !w.ref k

def LifeWorld.finalizing (w : LifeWorld) : Option Userdata :=
  if w.closing then w.objs.head?.filter fun o => (w.opening o.conn).isNone else none

def LifeState.onContext (k : Nat) (f : LifeState → LifeState) (s : LifeState) : LifeState :=
  if s.opening k = none then f s else s

def lifeExec (s : LifeState) : LifeOp → LifeState
  | .accept => s.acceptLua
  | .connect keyed => s.connectLua keyed
  | .advance k fails =>
    match s.opening k with
    | some o => s.advance fails k o
    | none => s
  | .raise k => s.setOpening k none
  | .use k ds => s.onContext k (·.useSsl k ds)
  | .transfer k d => s.onContext k (·.touchHeld (k, .mem d))
  | .shutdown k ds done => s.onContext k (·.shutdown k ds done)
  | .close k => s.onContext k (·.cleanupContext k)
  | .collect o => if s.collectable o then s.gc o else s
  | .luaClose => { s with closing := true, opening := fun _ => none }
  | .finalize =>
    match s.finalizing with
    | some o => s.gc o
    | none => s

def lifeStep (w : LifeWorld) (op : LifeOp) : LifeWorld × List (LifeEvent Resource) :=
  ((lifeExec ⟨w, []⟩ op).toLifeWorld, (lifeExec ⟨w, []⟩ op).events)

/-- The userdata of a BIO whose SSL object still owns what has been made from its methods. -/
def LifeWorld.attached (w : LifeWorld) : Option Userdata → Bool
  | some (.bio k) => w.held (k, .bio .rx) || w.held (k, .bio .tx)
  | _ => false

/-- No finalizer of a BIO userdata runs while the SSL object still owns its BIOs. -/
def Orderly (w : LifeWorld) : LifeOp → Prop
  | .finalize => w.attached w.finalizing = false
  | _ => True

instance (w : LifeWorld) : ∀ op, Decidable (Orderly w op)
  | .finalize => inferInstanceAs (Decidable (_ = false))
  | .accept => isTrue trivial
  | .connect _ => isTrue trivial
  | .advance .. => isTrue trivial
  | .raise _ => isTrue trivial
  | .use .. => isTrue trivial
  | .transfer .. => isTrue trivial
  | .shutdown .. => isTrue trivial
  | .close _ => isTrue trivial
  | .collect _ => isTrue trivial
  | .luaClose => isTrue trivial

end LuaNet.Tls
