import LuaNet.Lib.Raising
import LuaNet.Tls.Context

/-! The selection of a server in `client_hello_cb`. The connection takes over one server as a
whole: what it goes by is at every answer all of the same server, and the SNI callback is asked
once. -/

namespace LuaNet.Tls

open LuaNet.Lib

structure SslAttrs where
  sslCtx : Nat
  cipherServerPreference : Bool
  noTicket : Bool
  numTickets : Nat
  minProto : Int
  maxProto : Int
  verifyMode : Int
  verifyCallback : Nat
  verifyDepth : Int
  param : Nat
deriving DecidableEq

structure TlsServer where
  attrs : SslAttrs
  sniCallback : Bool

/-- `parent` is `ctx->parent` and `parentRef` what the registry holds under `ctx->parent_ref`; the
SSL object has the attributes `ssl`. `rejected` says that OpenSSL was told to end the handshake,
`closed` that the context has been cleaned up. -/
structure SniConn where
  parent : Option ParentId
  parentRef : Option ParentId
  appData : Bool
  sniDone : Bool
  ssl : SslAttrs
  rejected : Bool
  closed : Bool
  dead : List ParentId

inductive HelloFrame
  | hello (name : ServerName)
  | entering
  | calling
  | referring (target : ParentId)

/-- Which of the settings that can fail do not, and what the SSL object is left with when one
does. -/
structure SwitchAns where
  setSslCtx : Bool := true
  numTickets : Bool := true
  minProto : Bool := true
  maxProto : Bool := true
  set1Param : Bool := true
  left : SslAttrs

structure HelloAns where
  raised : Bool := false
  target : Option ParentId := none
  switch : SwitchAns

inductive SniEvent
  | invoked
  | selected (target : ParentId)
  | answered (ok : Bool) (conn : SniConn)

inductive SniForeign
  | appData (set : Bool)
  | collect (p : ParentId)
  | close (left : SslAttrs)

abbrev SniStep := SniConn × Option HelloFrame × List SniEvent

def applySetting (ok : Bool) (left : SslAttrs) (f : SslAttrs → SslAttrs) :
    Raising SslAttrs Unit Unit :=
  fun ssl => if ok then (.ok (), f ssl) else (.error (), left)

def switchServer (target : SslAttrs) (a : SwitchAns) : Raising SslAttrs Unit Unit := do
  applySetting a.setSslCtx a.left fun ssl => { ssl with sslCtx := target.sslCtx }
  -- `SSL_set_SSL_CTX` copies none of the following
  Raising.update fun ssl =>
    { ssl with cipherServerPreference := target.cipherServerPreference }
  Raising.update fun ssl => { ssl with noTicket := target.noTicket }
  applySetting a.numTickets a.left fun ssl => { ssl with numTickets := target.numTickets }
  applySetting a.minProto a.left fun ssl => { ssl with minProto := target.minProto }
  applySetting a.maxProto a.left fun ssl => { ssl with maxProto := target.maxProto }
  Raising.update fun ssl =>
    { ssl with verifyMode := target.verifyMode, verifyCallback := target.verifyCallback }
  Raising.update fun ssl => { ssl with verifyDepth := target.verifyDepth }
  applySetting a.set1Param a.left fun ssl => { ssl with param := target.param }

def SwitchAns.succeeds (a : SwitchAns) : Bool :=
  a.setSslCtx && a.numTickets && a.minProto && a.maxProto && a.set1Param

namespace SniConn

/-- `accept_lua`: `SSL_new` copies the attributes of the `SSL_CTX`. -/
def accept (servers : ParentId → TlsServer) (s : ParentId) : SniConn where
  parent := some s
  parentRef := some s
  appData := false
  sniDone := false
  ssl := (servers s).attrs
  rejected := false
  closed := false
  dead := []

def answer (conn : SniConn) (ok : Bool) : SniStep :=
  ({ conn with rejected := conn.rejected || !ok }, none, [.answered ok conn])

def clientHelloCb (servers : ParentId → TlsServer) (conn : SniConn) (name : ServerName) :
    SniStep :=
  if !conn.appData then conn.answer false
  else
    match conn.parent with
    | none => conn.answer false
    | some p =>
      if !(servers p).sniCallback then conn.answer true
      -- a HelloRetryRequest brings a second ClientHello; the first selection stands
      else if conn.sniDone then conn.answer true
      else
        let conn := { conn with sniDone := true }
        match name with
        | .absent => conn.answer true
        | .malformed => conn.answer false
        | .unrecognized => conn.answer false
        | .ipLiteral => conn.answer true
        | .hostName => (conn, some .entering, [])

def switchTo (servers : ParentId → TlsServer) (conn : SniConn) (target : ParentId)
    (a : SwitchAns) : SniStep :=
  let r := switchServer (servers target).attrs a conn.ssl
  let conn := { conn with parentRef := some target, parent := some target, ssl := r.2 }
  let ok := match r.1 with
    | .ok () => true
    | .error () => false
  let answered := conn.answer ok
  (answered.1, answered.2.1, .selected target :: answered.2.2)

def act (servers : ParentId → TlsServer) (conn : SniConn) (_ : List HelloFrame) (f : HelloFrame)
    (a : HelloAns) : SniStep :=
  match f with
  | .hello name => if conn.rejected then (conn, none, []) else conn.clientHelloCb servers name
  | .entering => if a.raised then conn.answer false else (conn, some .calling, [.invoked])
  | .calling =>
    if a.raised then conn.answer false
    else
      match a.target with
      | none => conn.answer true
      | some target =>
        -- what the callback returns is there
        if target ∈ conn.dead then (conn, some .calling, [])
        else (conn, some (.referring target), [])
  | .referring target =>
    if a.raised then conn.answer false else conn.switchTo servers target a.switch

def foreign (conn : SniConn) (fs : List HelloFrame) : SniForeign → SniConn
  | .appData set => { conn with appData := set }
  | .collect p =>
    if conn.parentRef = some p ∨ fs.any (fun f => match f with
        | .referring target => target = p
        | _ => false) then conn
    else { conn with dead := p :: conn.dead }
  | .close left => { conn with parent := none, parentRef := none, ssl := left, closed := true }

end SniConn

def HelloFrame.waits : HelloFrame → Bool
  | .hello _ => false
  | _ => true

def sniMachine (servers : ParentId → TlsServer) :
    Reentrant SniConn HelloFrame ServerName SniForeign HelloAns SniEvent where
  start := .hello
  waits := HelloFrame.waits
  foreign := SniConn.foreign
  act := SniConn.act servers

/-! What is kept. -/

def SniEvent.isInvoked : SniEvent → Bool
  | .invoked => true
  | _ => false

def SniEvent.isSelected : SniEvent → Bool
  | .selected _ => true
  | _ => false

def chosen (s : ParentId) (es : List SniEvent) : ParentId :=
  es.foldl (fun q e => match e with
    | .selected target => target
    | _ => q) s

def SniConn.Anchored (conn : SniConn) : Prop :=
  ∃ p, conn.parent = some p ∧ conn.parentRef = some p ∧ p ∉ conn.dead

structure SniConn.Serves (servers : ParentId → TlsServer) (conn : SniConn) (q : ParentId) :
    Prop where
  parent : conn.parent = some q
  parentRef : conn.parentRef = some q
  alive : q ∉ conn.dead
  ssl : conn.ssl = (servers q).attrs

/-- What an answer of `client_hello_cb` means; a connection that was closed meanwhile is none. -/
def SniEvent.Consistent (servers : ParentId → TlsServer) (s : ParentId)
    (before : List SniEvent) : SniEvent → Prop
  | .answered ok conn => conn.closed = false →
      conn.Anchored ∧ (ok = true → conn.Serves servers (chosen s before))
  | _ => True

def HelloFrame.isEntering : HelloFrame → Bool
  | .entering => true
  | _ => false

def HelloFrame.selecting : HelloFrame → Bool
  | .hello _ => false
  | _ => true

structure SniInv (servers : ParentId → TlsServer) (s : ParentId) (conn : SniConn)
    (fs : List HelloFrame) (es : List SniEvent) : Prop where
  anchored : conn.closed = false → conn.Anchored
  /-- A rejected connection is not used again, except by a selection that is under way. -/
  serves : conn.closed = false → (conn.rejected = false ∨ ∃ f ∈ fs, f.selecting = true) →
    conn.Serves servers (chosen s es)
  asked : es.countP SniEvent.isInvoked + fs.countP HelloFrame.isEntering ≤
    if conn.sniDone then 1 else 0
  once : es.countP SniEvent.isSelected + fs.countP HelloFrame.selecting ≤
    if conn.sniDone then 1 else 0
  target : ∀ t, .referring t ∈ fs → t ∉ conn.dead
  consistent : Each (SniEvent.Consistent servers s) es

theorem chosen_append (s : ParentId) (es fs : List SniEvent) :
    chosen s (es ++ fs) = chosen (chosen s es) fs := List.foldl_append

theorem switchServer_run (target : SslAttrs) (a : SwitchAns) (ssl : SslAttrs) :
    switchServer target a ssl =
      if a.succeeds then (.ok (), target) else (.error (), a.left) := by
  unfold switchServer SwitchAns.succeeds
  cases a.setSslCtx
  · rfl
  cases a.numTickets
  · rfl
  cases a.minProto
  · rfl
  cases a.maxProto
  · rfl
  cases a.set1Param <;> rfl

section Steps

variable {servers : ParentId → TlsServer} {s : ParentId} {conn : SniConn} {f : HelloFrame}
  {fs : List HelloFrame} {es : List SniEvent}

theorem SniInv.start (servers : ParentId → TlsServer) (s : ParentId) :
    SniInv servers s (SniConn.accept servers s) [] [] where
  anchored _ := ⟨s, rfl, rfl, List.not_mem_nil⟩
  serves _ _ := ⟨rfl, rfl, List.not_mem_nil, rfl⟩
  asked := Nat.le_refl _
  once := Nat.le_refl _
  target _ ht := absurd ht List.not_mem_nil
  consistent := Each.nil _

theorem SniInv.pop (h : SniInv servers s conn (f :: fs) es) : SniInv servers s conn fs es where
  anchored := h.anchored
  serves hopen hcase := h.serves hopen (hcase.imp_right fun hf => by
    obtain ⟨g, hg, hsel⟩ := hf
    exact ⟨g, List.mem_cons_of_mem f hg, hsel⟩)
  asked := by
    have hsub := (List.sublist_cons_self f fs).countP_le (p := HelloFrame.isEntering)
    have hasked := h.asked
    omega
  once := by
    have hsub := (List.sublist_cons_self f fs).countP_le (p := HelloFrame.selecting)
    have honce := h.once
    omega
  target t ht := h.target t (List.mem_cons_of_mem f ht)
  consistent := h.consistent

theorem SniInv.answer (h : SniInv servers s conn fs es) {ok : Bool}
    (hok : ok = true → conn.closed = false → conn.Serves servers (chosen s es)) :
    SniInv servers s (conn.answer ok).1 ((conn.answer ok).2.1.toList ++ fs)
      (es ++ (conn.answer ok).2.2) where
  anchored := h.anchored
  serves hopen hcase := by
    have hserves : conn.Serves servers (chosen s es) := by
      apply h.serves hopen
      rcases hcase with hrejected | hf
      · exact Or.inl (Bool.or_eq_false_iff.1 hrejected).1
      · exact Or.inr hf
    rw [chosen_append]
    exact ⟨hserves.parent, hserves.parentRef, hserves.alive, hserves.ssl⟩
  asked := by
    have hasked := h.asked
    rw [List.countP_append]
    exact hasked
  once := by
    have honce := h.once
    rw [List.countP_append]
    exact honce
  target := h.target
  consistent := by
    apply h.consistent.snoc
    intro hopen
    exact ⟨h.anchored hopen, fun htrue => hok htrue hopen⟩

theorem SniInv.hello {name : ServerName} (h : SniInv servers s conn (.hello name :: fs) es)
    (hgoing : conn.rejected = false) :
    SniInv servers s (conn.clientHelloCb servers name).1
      ((conn.clientHelloCb servers name).2.1.toList ++ fs)
      (es ++ (conn.clientHelloCb servers name).2.2) := by
  have hserves (hopen : conn.closed = false) : conn.Serves servers (chosen s es) :=
    h.serves hopen (Or.inl hgoing)
  have hreject : SniInv servers s (conn.answer false).1
      ((conn.answer false).2.1.toList ++ fs) (es ++ (conn.answer false).2.2) :=
    h.pop.answer nofun
  have haccept : SniInv servers s (conn.answer true).1
      ((conn.answer true).2.1.toList ++ fs) (es ++ (conn.answer true).2.2) :=
    h.pop.answer fun _ => hserves
  unfold SniConn.clientHelloCb
  split
  · exact hreject
  split
  · exact hreject
  split
  · exact haccept
  split
  · exact haccept
  next hnot =>
    -- from here on the callback is settled, whatever the name is
    have hasked : es.countP SniEvent.isInvoked + fs.countP HelloFrame.isEntering = 0 := by
      have hasked := h.pop.asked
      rw [if_neg hnot] at hasked
      exact Nat.le_zero.1 hasked
    have honce : es.countP SniEvent.isSelected + fs.countP HelloFrame.selecting = 0 := by
      have honce := h.pop.once
      rw [if_neg hnot] at honce
      exact Nat.le_zero.1 honce
    have hdone : SniInv servers s { conn with sniDone := true } fs es :=
      { anchored := h.anchored
        serves := fun hopen _ => by
          have hall := hserves hopen
          exact ⟨hall.parent, hall.parentRef, hall.alive, hall.ssl⟩
        asked := by rw [hasked]; exact Nat.zero_le _
        once := by rw [honce]; exact Nat.zero_le _
        target := h.pop.target
        consistent := h.consistent }
    have hdoneServes : conn.closed = false →
        SniConn.Serves servers { conn with sniDone := true } (chosen s es) := fun hopen => by
      have hall := hserves hopen
      exact ⟨hall.parent, hall.parentRef, hall.alive, hall.ssl⟩
    cases name with
    | absent => exact hdone.answer fun _ => hdoneServes
    | malformed => exact hdone.answer nofun
    | unrecognized => exact hdone.answer nofun
    | ipLiteral => exact hdone.answer fun _ => hdoneServes
    | hostName =>
      -- the call goes on to the SNI callback, the only one that ever will
      refine ⟨h.anchored, fun hopen _ => ?_, ?_, ?_, ?_, ?_⟩
      · rw [List.append_nil]
        exact hdoneServes hopen
      · rw [List.append_nil]
        show _ + List.countP _ (.entering :: fs) ≤ 1
        rw [List.countP_cons_of_pos rfl]
        omega
      · rw [List.append_nil]
        show _ + List.countP _ (.entering :: fs) ≤ 1
        rw [List.countP_cons_of_pos rfl]
        omega
      · intro t ht
        rcases List.mem_cons.1 ht with heq | ht
        · exact absurd heq nofun
        · exact h.pop.target t ht
      · rw [List.append_nil]
        exact h.consistent

theorem SniInv.advance {f' : HelloFrame} (h : SniInv servers s conn (f :: fs) es)
    (hf : f.selecting = true) (hf' : f'.selecting = true) (new : List SniEvent)
    (hasked : new.countP SniEvent.isInvoked + [f'].countP HelloFrame.isEntering ≤
      [f].countP HelloFrame.isEntering)
    (hselected : new.countP SniEvent.isSelected = 0)
    (htarget : ∀ t, f' = .referring t → t ∉ conn.dead)
    (hchosen : chosen (chosen s es) new = chosen s es)
    (hnew : ∀ before, ∀ e ∈ new, SniEvent.Consistent servers s before e) :
    SniInv servers s conn (f' :: fs) (es ++ new) where
  anchored := h.anchored
  serves hopen _ := by
    rw [chosen_append, hchosen]
    exact h.serves hopen (Or.inr ⟨f, List.mem_cons_self, hf⟩)
  asked := by
    have hold := h.asked
    rw [← List.singleton_append, List.countP_append] at hold
    rw [List.countP_append, ← List.singleton_append, List.countP_append]
    omega
  once := by
    have hold := h.once
    rw [List.countP_cons_of_pos hf] at hold
    rw [List.countP_append, hselected, List.countP_cons_of_pos hf']
    omega
  target t ht := by
    rcases List.mem_cons.1 ht with heq | ht
    · exact htarget t heq.symm
    · exact h.pop.target t ht
  consistent := h.consistent.append_of_forall hnew

theorem SniInv.switched {target : ParentId}
    (h : SniInv servers s conn (.referring target :: fs) es) {ssl : SslAttrs} {ok : Bool}
    (hok : ok = true → ssl = (servers target).attrs) (conn' : SniConn)
    (hconn' : conn' = { conn with
      parentRef := some target, parent := some target, ssl := ssl }) :
    SniInv servers s (conn'.answer ok).1 fs
      (es ++ [.selected target] ++ [.answered ok conn']) := by
  have halive : target ∉ conn.dead := h.target target List.mem_cons_self
  have hsome : es.countP SniEvent.isSelected + (fs.countP HelloFrame.selecting + 1) ≤
      if conn.sniDone then 1 else 0 := by
    have honce := h.once
    rwa [List.countP_cons_of_pos rfl] at honce
  -- one selection at most is counted, and this is it
  have hidle : ¬∃ f ∈ fs, f.selecting = true := by
    rintro ⟨f, hf, hsel⟩
    have hpos : 0 < fs.countP HelloFrame.selecting := List.countP_pos_iff.2 ⟨f, hf, hsel⟩
    split at hsome <;> omega
  have hanchored : conn'.Anchored := by
    rw [hconn']
    exact ⟨target, rfl, rfl, halive⟩
  have hserves : ok = true → conn'.Serves servers target := by
    intro htrue
    rw [hconn']
    exact ⟨rfl, rfl, halive, hok htrue⟩
  have hchosen : chosen s (es ++ [.selected target]) = target := by
    rw [chosen_append]
    rfl
  refine ⟨fun _ => hanchored, fun _ hcase => ?_, ?_, ?_, ?_, ?_⟩
  · have htrue : ok = true := by
      rcases hcase with hrejected | hbusy
      · exact Bool.not_eq_eq_eq_not.1 (Bool.or_eq_false_iff.1 hrejected).2
      · exact absurd hbusy hidle
    have hall := hserves htrue
    rw [chosen_append, hchosen]
    exact ⟨hall.parent, hall.parentRef, hall.alive, hall.ssl⟩
  · have hasked := h.pop.asked
    rw [List.countP_append, List.countP_append, hconn']
    exact hasked
  · rw [List.countP_append, List.countP_append, hconn']
    show es.countP SniEvent.isSelected + 1 + 0 + _ ≤ if conn.sniDone then 1 else 0
    omega
  · rw [hconn']
    exact h.pop.target
  · have hselected : SniEvent.Consistent servers s es (.selected target) := trivial
    refine (h.consistent.snoc hselected).snoc fun _ => ⟨hanchored, ?_⟩
    rw [hchosen]
    exact hserves

theorem SniInv.switch {target : ParentId} (h : SniInv servers s conn (.referring target :: fs) es)
    (a : SwitchAns) :
    SniInv servers s (conn.switchTo servers target a).1
      ((conn.switchTo servers target a).2.1.toList ++ fs)
      (es ++ (conn.switchTo servers target a).2.2) := by
  unfold SniConn.switchTo
  simp only [switchServer_run]
  rw [List.append_cons]
  cases a.succeeds with
  | true => exact h.switched (fun _ => rfl) _ rfl
  | false => exact h.switched (fun hok : false = true => absurd hok Bool.false_ne_true) _ rfl

theorem SniInv.act (h : SniInv servers s conn (f :: fs) es) (a : HelloAns) :
    SniInv servers s (conn.act servers fs f a).1
      ((conn.act servers fs f a).2.1.toList ++ fs) (es ++ (conn.act servers fs f a).2.2) := by
  have hreject : SniInv servers s (conn.answer false).1
      ((conn.answer false).2.1.toList ++ fs) (es ++ (conn.answer false).2.2) :=
    h.pop.answer nofun
  unfold SniConn.act
  cases f with
  | hello name =>
    simp only
    split
    · rw [List.append_nil]
      exact h.pop
    next hgoing => exact h.hello (Bool.eq_false_iff.2 hgoing)
  | entering =>
    simp only
    split
    · exact hreject
    · exact h.advance rfl rfl [.invoked] (Nat.le_refl _) rfl (fun t ht => absurd ht nofun) rfl
        fun before e he => by
          rw [List.mem_singleton.1 he]
          trivial
  | calling =>
    have hstay {f' : HelloFrame} (hf' : f'.selecting = true)
        (hidle : [f'].countP HelloFrame.isEntering = 0)
        (htarget : ∀ t, f' = .referring t → t ∉ conn.dead) :
        SniInv servers s conn (f' :: fs) (es ++ []) :=
      h.advance rfl hf' [] (Nat.le_of_eq (by rw [hidle]; rfl)) rfl htarget rfl
        fun before e he => absurd he List.not_mem_nil
    simp only
    split
    · exact hreject
    split
    · exact h.pop.answer fun _ hopen => h.serves hopen (Or.inr ⟨.calling, List.mem_cons_self, rfl⟩)
    next target _ =>
      split
      · exact hstay rfl rfl fun t ht => absurd ht nofun
      next halive =>
        apply hstay rfl rfl
        intro t ht
        rw [← HelloFrame.referring.inj ht]
        exact halive
  | referring target =>
    simp only
    split
    · exact hreject
    · exact h.switch a.switch

theorem SniInv.foreign (h : SniInv servers s conn fs es) (x : SniForeign) :
    SniInv servers s (conn.foreign fs x) fs es := by
  cases x with
  | appData set =>
    refine ⟨h.anchored, fun hopen hcase => ?_, h.asked, h.once, h.target, h.consistent⟩
    have hall := h.serves hopen hcase
    exact ⟨hall.parent, hall.parentRef, hall.alive, hall.ssl⟩
  | close left =>
    exact ⟨nofun, nofun, h.asked, h.once, h.target, h.consistent⟩
  | collect p =>
    simp only [SniConn.foreign]
    split
    · exact h
    next hfree =>
      rw [not_or] at hfree
      have hnot : ∀ q, conn.parentRef = some q → q ∉ conn.dead → q ∉ p :: conn.dead := by
        intro q hq halive hmem
        rcases List.mem_cons.1 hmem with rfl | hmem
        · exact hfree.1 hq
        · exact halive hmem
      refine ⟨fun hopen => ?_, fun hopen hcase => ?_, h.asked, h.once, fun t ht hmem => ?_,
        h.consistent⟩
      · obtain ⟨q, hparent, href, halive⟩ := h.anchored hopen
        exact ⟨q, hparent, href, hnot q href halive⟩
      · have hall := h.serves hopen hcase
        exact ⟨hall.parent, hall.parentRef, hnot _ hall.parentRef hall.alive, hall.ssl⟩
      · rcases List.mem_cons.1 hmem with rfl | hmem
        · apply hfree.2
          rw [List.any_eq_true]
          exact ⟨.referring t, ht, decide_eq_true rfl⟩
        · exact h.target t ht hmem

theorem SniInv.call (h : SniInv servers s conn fs es) (name : ServerName) :
    SniInv servers s conn (.hello name :: fs) es where
  anchored := h.anchored
  serves hopen hcase := h.serves hopen (hcase.imp_right fun hf => by
    obtain ⟨f, hf, hsel⟩ := hf
    rcases List.mem_cons.1 hf with rfl | hf
    · exact absurd hsel Bool.false_ne_true
    · exact ⟨f, hf, hsel⟩)
  asked := by
    rw [List.countP_cons_of_neg Bool.false_ne_true]
    exact h.asked
  once := by
    rw [List.countP_cons_of_neg Bool.false_ne_true]
    exact h.once
  target t ht := by
    rcases List.mem_cons.1 ht with heq | ht
    · exact absurd heq nofun
    · exact h.target t ht
  consistent := h.consistent

end Steps

theorem SniInv.step {servers : ParentId → TlsServer} {s : ParentId}
    {w : SniConn × List HelloFrame} {es : List SniEvent} (h : SniInv servers s w.1 w.2 es)
    (l : ReentrantLabel ServerName SniForeign HelloAns) :
    SniInv servers s ((sniMachine servers).step w l).1.1 ((sniMachine servers).step w l).1.2
      (es ++ ((sniMachine servers).step w l).2) := by
  obtain ⟨conn, fs⟩ := w
  cases l with
  | call name =>
    rw [Reentrant.step]
    split
    · rw [List.append_nil]
      exact h.call name
    · rw [List.append_nil]
      exact h
  | foreign x =>
    rw [Reentrant.step]
    split
    · rw [List.append_nil]
      exact h.foreign x
    · rw [List.append_nil]
      exact h
  | act a =>
    cases fs with
    | nil =>
      rw [Reentrant.step, List.append_nil]
      exact h
    | cons f fs => exact h.act a

theorem SniInv.runs (servers : ParentId → TlsServer) (s : ParentId)
    (ls : List (ReentrantLabel ServerName SniForeign HelloAns)) :
    SniInv servers s (runs (sniMachine servers).step (SniConn.accept servers s, []) ls).1.1
      (runs (sniMachine servers).step (SniConn.accept servers s, []) ls).1.2
      ([] ++ (runs (sniMachine servers).step (SniConn.accept servers s, []) ls).2) :=
  runs_history (I := fun (w : SniConn × List HelloFrame) es => SniInv servers s w.1 w.2 es)
    (fun _ _ l h => h.step l) (SniInv.start servers s) ls

def HelloFrame.fails (servers : ParentId → TlsServer) (conn : SniConn) (a : HelloAns) :
    HelloFrame → Bool
  | .hello name =>
    !conn.rejected && (!conn.appData ||
      match conn.parent with
      | none => true
      | some p => (servers p).sniCallback && !conn.sniDone &&
        match name with
        | .malformed => true
        | .unrecognized => true
        | _ => false)
  | .entering => a.raised
  | .calling => a.raised
  | .referring _ => a.raised || !a.switch.succeeds

theorem answer_false (conn : SniConn) :
    conn.answer false = ({ conn with rejected := true }, none, [.answered false conn]) := by
  simp only [SniConn.answer, Bool.not_false, Bool.or_true]

theorem act_of_fails {servers : ParentId → TlsServer} {conn : SniConn} {f : HelloFrame}
    {a : HelloAns} (fs : List HelloFrame) (h : f.fails servers conn a = true) :
    ∃ es conn', conn.act servers fs f a =
      ({ conn' with rejected := true }, none, es ++ [.answered false conn']) := by
  have hreject : ∃ es conn', conn.answer false =
      ({ conn' with rejected := true }, none, es ++ [.answered false conn']) :=
    ⟨[], conn, answer_false conn⟩
  cases f with
  | hello name =>
    simp only [HelloFrame.fails, Bool.and_eq_true, Bool.or_eq_true, Bool.not_eq_true'] at h
    obtain ⟨hgoing, hcase⟩ := h
    simp only [SniConn.act, hgoing, Bool.false_eq_true, if_false, SniConn.clientHelloCb]
    by_cases happ : conn.appData = true
    swap
    · rw [Bool.not_eq_true] at happ
      simp only [happ, Bool.not_false, if_true]
      exact hreject
    have hcase := hcase.resolve_left (by rw [happ]; exact nofun)
    simp only [happ, Bool.not_true, Bool.false_eq_true, if_false]
    cases hparent : conn.parent with
    | none => exact hreject
    | some p =>
      simp only [hparent, Bool.and_eq_true, Bool.not_eq_true'] at hcase
      obtain ⟨⟨hcallback, hdone⟩, hname⟩ := hcase
      simp only [hcallback, hdone, Bool.not_true, Bool.false_eq_true, if_false]
      cases name with
      | malformed => exact ⟨[], _, answer_false _⟩
      | unrecognized => exact ⟨[], _, answer_false _⟩
      | absent => exact absurd hname Bool.false_ne_true
      | ipLiteral => exact absurd hname Bool.false_ne_true
      | hostName => exact absurd hname Bool.false_ne_true
  | entering =>
    simp only [HelloFrame.fails] at h
    simp only [SniConn.act, h, if_true]
    exact hreject
  | calling =>
    simp only [HelloFrame.fails] at h
    simp only [SniConn.act, h, if_true]
    exact hreject
  | referring target =>
    simp only [HelloFrame.fails, Bool.or_eq_true, Bool.not_eq_true'] at h
    by_cases hraised : a.raised = true
    · simp only [SniConn.act, hraised, if_true]
      exact hreject
    · have hfails := h.resolve_left hraised
      simp only [SniConn.act, hraised, Bool.false_eq_true, if_false, SniConn.switchTo,
        switchServer_run, hfails, answer_false]
      exact ⟨[.selected target], { conn with
        parentRef := some target, parent := some target, ssl := a.switch.left }, rfl⟩

def unlikeServers (p : ParentId) : TlsServer where
  attrs := {
    sslCtx := p, cipherServerPreference := p = 0, noTicket := p = 0, numTickets := p,
    minProto := p, maxProto := p, verifyMode := p, verifyCallback := p, verifyDepth := p,
    param := p }
  sniCallback := true

def selectingOne : List (ReentrantLabel ServerName SniForeign HelloAns) :=
  let going : HelloAns := { target := some 1, switch := { left := (unlikeServers 0).attrs } }
  [.foreign (.appData true), .call .hostName, .act going, .act going, .act going]

end LuaNet.Tls
