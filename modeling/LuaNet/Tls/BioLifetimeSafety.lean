import LuaNet.Tls.BioLifetime
import Mathlib.Order.Nat

/-! As long as the finalizer of no BIO userdata comes before the end of its SSL object, nothing is
used or freed after its end, no method is freed before its BIOs, and nothing is left when all
finalizers have run. -/

namespace LuaNet.Tls

open LuaNet.Lib

/-- A method is freed when the BIO that has been made from it is gone. -/
def MethodsOutlive (es : List (LifeEvent Resource)) : Prop :=
  Each (fun before e => ∀ k d, e = .freed (k, .method d) →
    aliveAfter (k, .bio d) before = false) es

structure Core (es : List (LifeEvent Resource)) (s : LifeState) : Prop where
  tracks : Tracks s.held (es ++ s.events)
  outlive : MethodsOutlive (es ++ s.events)
  owned : ∀ k p, s.held (k, p) = true → ownerOfPart k p ∈ s.objs
  wired : ∀ k d, s.held (k, .bio d) = true →
    s.held (k, .ssl) = true ∧ s.held (k, .method d) = true ∧ s.ref k = true
  fresh : ∀ k p, s.next ≤ k → s.held (k, p) = false

/-- What a construction has made when it waits for an allocation. -/
def Standing (s : LifeWorld) (k : Nat) : Stage → Prop
  | .parentRef => .context k ∈ s.objs ∧ ∀ p, s.held (k, p) = false
  | .bioUserdata => s.held (k, .ssl) = true ∧ ∀ p, p ≠ .ssl → s.held (k, p) = false
  | .bioRef => s.held (k, .ssl) = true ∧
      ∀ d, s.held (k, .method d) = true ∧ s.held (k, .bio d) = false
  | .sessionKey => s.held (k, .ssl) = true

structure LifeInv (es : List (LifeEvent Resource)) (s : LifeState) : Prop extends Core es s where
  standing : ∀ k o, s.opening k = some o → k < s.next ∧ Standing s.toLifeWorld k o.stage

structure SameBut (k : Nat) (s t : LifeState) : Prop where
  held : ∀ j p, j ≠ k → t.held (j, p) = s.held (j, p)
  opening : ∀ j, j ≠ k → t.opening j = s.opening j
  objs : ∀ o, o.conn ≠ k → o ∈ s.objs → o ∈ t.objs
  next : s.next ≤ t.next

structure Reaches (es : List (LifeEvent Resource)) (k : Nat) (s t : LifeState) : Prop where
  core : Core es t
  same : SameBut k s t

section Parts

variable {es : List (LifeEvent Resource)} {k : Nat} {s t u : LifeState} {r : Resource}

theorem SameBut.refl (k : Nat) (s : LifeState) : SameBut k s s :=
  ⟨fun _ _ _ => rfl, fun _ _ => rfl, fun _ _ h => h, le_rfl⟩

theorem SameBut.trans (h : SameBut k s t) (h' : SameBut k t u) : SameBut k s u where
  held j p hj := (h'.held j p hj).trans (h.held j p hj)
  opening j hj := (h'.opening j hj).trans (h.opening j hj)
  objs o ho hmem := h'.objs o ho (h.objs o ho hmem)
  next := h.next.trans h'.next

theorem SameBut.of_update {k : Nat} {p : Part} {b : Bool}
    (hheld : t.held = Function.update s.held (k, p) b) (hopening : t.opening = s.opening)
    (hobjs : t.objs = s.objs) (hnext : t.next = s.next) : SameBut k s t where
  held j q hj := by
    have hne : (j, q) ≠ (k, p) := fun heq => hj (congrArg Prod.fst heq)
    rw [hheld, Function.update_of_ne hne]
  opening j _ := by rw [hopening]
  objs o _ hmem := by rwa [hobjs]
  next := hnext.ge

theorem Core.reaches (h : Core es s) (k : Nat) : Reaches es k s s := ⟨h, SameBut.refl k s⟩

theorem Reaches.trans (h : Reaches es k s t) (h' : Reaches es k t u) : Reaches es k s u :=
  ⟨h'.core, h.same.trans h'.same⟩

theorem LifeInv.step (h : LifeInv es s) (ht : Reaches es k s t)
    (hk : ∀ o, t.opening k = some o → k < t.next ∧ Standing t.toLifeWorld k o.stage) :
    LifeInv es t where
  toCore := ht.core
  standing j o ho := by
    by_cases hj : j = k
    · subst hj
      exact hk o ho
    rw [ht.same.opening j hj] at ho
    obtain ⟨hnext, hstand⟩ := h.standing j o ho
    have hheld (p : Part) : t.held (j, p) = s.held (j, p) := ht.same.held j p hj
    refine ⟨hnext.trans_le ht.same.next, ?_⟩
    match hstage : o.stage, hstand with
    | .parentRef, hstand =>
      exact ⟨ht.same.objs (.context j) hj hstand.1, fun p => (hheld p).trans (hstand.2 p)⟩
    | .bioUserdata, hstand =>
      exact ⟨(hheld .ssl).trans hstand.1, fun p hp => (hheld p).trans (hstand.2 p hp)⟩
    | .bioRef, hstand =>
      exact ⟨(hheld .ssl).trans hstand.1, fun d =>
        ⟨(hheld _).trans (hstand.2 d).1, (hheld _).trans (hstand.2 d).2⟩⟩
    | .sessionKey, hstand => exact (hheld .ssl).trans hstand

theorem MethodsOutlive.snoc {fs : List (LifeEvent Resource)} (h : MethodsOutlive fs)
    {e : LifeEvent Resource} (he : ∀ k d, e = .freed (k, .method d) →
      aliveAfter (k, .bio d) fs = false) : MethodsOutlive (fs ++ [e]) :=
  Each.snoc h he

def Loose (s : LifeState) (r : Resource) : Prop :=
  ∀ d, s.held (r.1, .bio d) = true → r.2 ≠ .ssl ∧ r.2 ≠ .method d

theorem loose_of_unheld (h : ∀ d, s.held (r.1, .bio d) = false) : Loose s r :=
  fun d hd => absurd ((h d).symm.trans hd) Bool.false_ne_true

theorem Core.touch (h : Core es s) (hr : s.held r = true) : Reaches es r.1 s (s.touch r) where
  core := by
    refine ⟨?_, ?_, h.owned, h.wired, h.fresh⟩
    · show Tracks s.held (es ++ (s.events ++ [.used r]))
      rw [← List.append_assoc]
      exact h.tracks.use hr
    · show MethodsOutlive (es ++ (s.events ++ [.used r]))
      rw [← List.append_assoc]
      exact h.outlive.snoc (fun _ _ he => nomatch he)
  same := ⟨fun _ _ _ => rfl, fun _ _ => rfl, fun _ _ h => h, le_rfl⟩

theorem Core.touchHeld (h : Core es s) (r : Resource) : Reaches es r.1 s (s.touchHeld r) := by
  unfold LifeState.touchHeld
  split
  next hr => exact h.touch hr
  next => exact h.reaches r.1

theorem Core.acquire (h : Core es s) (hr : s.held r = false)
    (howner : ownerOfPart r.1 r.2 ∈ s.objs) (hnext : r.1 < s.next)
    (hwired : ∀ d, r.2 = .bio d → s.held (r.1, .ssl) = true ∧ s.held (r.1, .method d) = true ∧
      s.ref r.1 = true) : Reaches es r.1 s (s.acquire r) where
  core := by
    have hstays {q : Resource} (hq : s.held q = true) : (s.acquire r).held q = true := by
      have hne : q ≠ r := fun heq => absurd ((heq ▸ hr).symm.trans hq) Bool.false_ne_true
      exact (Function.update_of_ne hne _ _).trans hq
    have hnew {q : Resource} (hq : (s.acquire r).held q = true) (hne : q ≠ r) :
        s.held q = true := (Function.update_of_ne hne _ _).symm.trans hq
    refine ⟨?_, ?_, fun k p hp => ?_, fun k d hd => ?_, fun k p hk => ?_⟩
    · show Tracks (Function.update s.held r true) (es ++ (s.events ++ [.acquired r]))
      rw [← List.append_assoc]
      exact h.tracks.acquire hr
    · show MethodsOutlive (es ++ (s.events ++ [.acquired r]))
      rw [← List.append_assoc]
      exact h.outlive.snoc (fun _ _ he => nomatch he)
    · by_cases heq : (k, p) = r
      · subst heq
        exact howner
      · exact h.owned k p (hnew hp heq)
    · have hwire : s.held (k, .ssl) = true ∧ s.held (k, .method d) = true ∧ s.ref k = true := by
        by_cases heq : (k, .bio d) = r
        · subst heq
          exact hwired d rfl
        · exact h.wired k d (hnew hd heq)
      exact ⟨hstays hwire.1, hstays hwire.2.1, hwire.2.2⟩
    · have hne : (k, p) ≠ r := by
        rintro rfl
        exact absurd hnext hk.not_gt
      exact (Function.update_of_ne hne _ _).trans (h.fresh k p hk)
  same := SameBut.of_update rfl rfl rfl rfl

theorem Core.free (h : Core es s) (hr : s.held r = true) (hloose : Loose s r) :
    Reaches es r.1 s (s.free r) where
  core := by
    have hold {q : Resource} (hq : (s.free r).held q = true) : q ≠ r ∧ s.held q = true := by
      have hne : q ≠ r := by
        rintro rfl
        exact absurd hq (by simp [LifeState.free])
      exact ⟨hne, (Function.update_of_ne hne _ _).symm.trans hq⟩
    have hstays {q : Resource} (hne : q ≠ r) (hq : s.held q = true) :
        (s.free r).held q = true := (Function.update_of_ne hne _ _).trans hq
    refine ⟨?_, ?_, fun k p hp => h.owned k p (hold hp).2, fun k d hd => ?_, fun k p hk => ?_⟩
    · show Tracks (Function.update s.held r false) (es ++ (s.events ++ [.freed r]))
      rw [← List.append_assoc]
      exact h.tracks.free hr
    · show MethodsOutlive (es ++ (s.events ++ [.freed r]))
      rw [← List.append_assoc]
      refine h.outlive.snoc fun k d he => ?_
      cases he
      rw [h.tracks.alive]
      by_contra hbio
      exact (hloose d (eq_true_of_ne_false hbio)).2 rfl
    · obtain ⟨-, hbio⟩ := hold hd
      obtain ⟨hssl, hmethod, href⟩ := h.wired k d hbio
      have hssl' : (k, Part.ssl) ≠ r := by
        rintro rfl
        exact (hloose d hbio).1 rfl
      have hmethod' : (k, Part.method d) ≠ r := by
        rintro rfl
        exact (hloose d hbio).2 rfl
      exact ⟨hstays hssl' hssl, hstays hmethod' hmethod, href⟩
    · by_contra hheld
      obtain ⟨-, hheld⟩ := hold (eq_true_of_ne_false hheld)
      exact absurd ((h.fresh k p hk).symm.trans hheld) Bool.false_ne_true
  same := SameBut.of_update rfl rfl rfl rfl

@[simp] theorem LifeState.release_held (r : Resource) (s : LifeState) :
    (s.release r).held = Function.update s.held r false := by
  unfold LifeState.release
  split
  next => rfl
  next hr => exact (Function.update_eq_self_iff.mpr (eq_false_of_ne_true hr).symm).symm

@[simp] theorem LifeState.bioRelease_held (k : Nat) (d : Dir) (s : LifeState) :
    (s.bioRelease k d).held = Function.update s.held (k, .bio d) false := by
  unfold LifeState.bioRelease
  split
  next => rfl
  next hr => exact (Function.update_eq_self_iff.mpr (eq_false_of_ne_true hr).symm).symm

theorem Core.release (h : Core es s) (hloose : Loose s r) : Reaches es r.1 s (s.release r) := by
  unfold LifeState.release
  split
  next hr => exact h.free hr hloose
  next => exact h.reaches r.1

theorem Core.bioFree (h : Core es s) {k : Nat} {d : Dir} (hbio : s.held (k, .bio d) = true) :
    Reaches es k s (s.bioFree k d) := by
  have htouch : Reaches es k s (s.touch (k, .method d)) := h.touch (h.wired k d hbio).2.1
  have hloose : Loose (s.touch (k, .method d)) (k, .bio d) := fun _ _ => ⟨nofun, nofun⟩
  exact htouch.trans (htouch.core.free hbio hloose)

theorem Core.bioRelease (h : Core es s) (k : Nat) (d : Dir) :
    Reaches es k s (s.bioRelease k d) := by
  unfold LifeState.bioRelease
  split
  next hbio => exact h.bioFree hbio
  next => exact h.reaches k

theorem Core.sslFree (h : Core es s) {k : Nat} (hssl : s.held (k, .ssl) = true) :
    Reaches es k s (s.sslFree k) := by
  have htx := h.bioRelease k .tx
  have hrx := htx.core.bioRelease k .rx
  have hheld : ((s.bioRelease k .tx).bioRelease k .rx).held (k, .ssl) = true := by
    simpa using hssl
  have hloose : Loose ((s.bioRelease k .tx).bioRelease k .rx) (k, .ssl) := by
    apply loose_of_unheld
    intro d
    cases d <;> simp
  exact (htx.trans hrx).trans (hrx.core.free hheld hloose)

theorem Core.cleanupSsl (h : Core es s) (k : Nat) :
    Reaches es k s (s.cleanupSsl k) ∧ (s.cleanupSsl k).held (k, .ssl) = false := by
  unfold LifeState.cleanupSsl
  split
  next hssl =>
    have htouch : Reaches es k s (s.touch (k, .ssl)) := h.touch hssl
    exact ⟨htouch.trans (htouch.core.sslFree hssl), Function.update_self ..⟩
  next hssl => exact ⟨h.reaches k, eq_false_of_ne_true hssl⟩

theorem Core.unwired (h : Core es s) {k : Nat} (hssl : s.held (k, .ssl) = false) (d : Dir) :
    s.held (k, .bio d) = false := by
  by_contra hbio
  have hwired := h.wired k d (eq_true_of_ne_false hbio)
  exact absurd (hssl.symm.trans hwired.1) Bool.false_ne_true

theorem Core.setRef (h : Core es s) {k : Nat} {b : Bool}
    (hb : b = false → ∀ d, s.held (k, .bio d) = false) : Reaches es k s (s.setRef k b) where
  core := by
    refine ⟨h.tracks, h.outlive, h.owned, fun j d hbio => ?_, h.fresh⟩
    obtain ⟨hssl, hmethod, href⟩ := h.wired j d hbio
    refine ⟨hssl, hmethod, ?_⟩
    show Function.update s.ref k b j = true
    by_cases hj : j = k
    · subst hj
      rw [Function.update_self]
      by_contra hfalse
      have hunheld := hb (eq_false_of_ne_true hfalse) d
      exact absurd (hunheld.symm.trans hbio) Bool.false_ne_true
    · rwa [Function.update_of_ne hj]
  same := ⟨fun _ _ _ => rfl, fun _ _ => rfl, fun _ _ h => h, le_rfl⟩

theorem Core.setCtxBio (h : Core es s) (k : Nat) (b : Bool) :
    Reaches es k s (s.setCtxBio k b) where
  core := ⟨h.tracks, h.outlive, h.owned, h.wired, h.fresh⟩
  same := ⟨fun _ _ _ => rfl, fun _ _ => rfl, fun _ _ h => h, le_rfl⟩

theorem Core.setOpening (h : Core es s) (k : Nat) (o : Option Opening) :
    Reaches es k s (s.setOpening k o) where
  core := ⟨h.tracks, h.outlive, h.owned, h.wired, h.fresh⟩
  same := ⟨fun _ _ _ => rfl, fun _ hj => Function.update_of_ne hj _ _, fun _ _ h => h, le_rfl⟩

theorem Core.push (h : Core es s) (o : Userdata) : Reaches es o.conn s (s.push o) where
  core := ⟨h.tracks, h.outlive, fun k p hp => List.mem_cons_of_mem o (h.owned k p hp), h.wired,
    h.fresh⟩
  same := ⟨fun _ _ _ => rfl, fun _ _ => rfl, fun _ _ h => List.mem_cons_of_mem o h, le_rfl⟩

theorem Core.drop (h : Core es s) {o : Userdata}
    (ho : ∀ k p, ownerOfPart k p = o → s.held (k, p) = false) :
    Reaches es o.conn s (s.drop o) where
  core := by
    refine ⟨h.tracks, h.outlive, fun k p hp => ?_, h.wired, h.fresh⟩
    have hne : ownerOfPart k p ≠ o := fun heq =>
      absurd ((ho k p heq).symm.trans hp) Bool.false_ne_true
    exact (List.mem_erase_of_ne hne).mpr (h.owned k p hp)
  same := by
    refine ⟨fun _ _ _ => rfl, fun _ _ => rfl, fun q hq hmem => ?_, le_rfl⟩
    have hne : q ≠ o := fun heq => hq (congrArg Userdata.conn heq)
    exact (List.mem_erase_of_ne hne).mpr hmem

theorem LifeState.tlsBioFree_held (k : Nat) (s : LifeState) :
    (s.tlsBioFree k).held = Function.update (Function.update (Function.update (Function.update
      s.held (k, .mem .rx) false) (k, .mem .tx) false) (k, .method .rx) false)
        (k, .method .tx) false := by
  simp [LifeState.tlsBioFree, LifeState.setRef]

theorem Core.tlsBioFree (h : Core es s) {k : Nat} (hbio : ∀ d, s.held (k, .bio d) = false) :
    Reaches es k s (s.tlsBioFree k) := by
  have hloose {t : LifeState} {p : Part} (ht : ∀ d, t.held (k, .bio d) = false) :
      Loose t (k, p) := loose_of_unheld ht
  have hrx := h.release (hloose (p := .mem .rx) hbio)
  have htx := hrx.core.release (hloose (p := .mem .tx) fun d => by simpa using hbio d)
  have hmrx := htx.core.release (hloose (p := .method .rx) fun d => by simpa using hbio d)
  have hmtx := hmrx.core.release (hloose (p := .method .tx) fun d => by simpa using hbio d)
  have href := hmtx.core.setRef (k := k) (b := false) fun _ d => by simpa using hbio d
  exact (((hrx.trans htx).trans hmrx).trans hmtx).trans href

theorem Core.cleanupContext (h : Core es s) (k : Nat) :
    Reaches es k s (s.cleanupContext k) ∧ (s.cleanupContext k).held (k, .ssl) = false := by
  obtain ⟨hssl, hnone⟩ := h.cleanupSsl k
  unfold LifeState.cleanupContext
  split
  next =>
    have hbio := hssl.core.tlsBioFree (hssl.core.unwired hnone)
    refine ⟨(hssl.trans hbio).trans (hbio.core.setCtxBio k false), ?_⟩
    show ((s.cleanupSsl k).tlsBioFree k).held (k, .ssl) = false
    simpa [LifeState.tlsBioFree_held] using hnone
  next => exact ⟨hssl, hnone⟩

theorem Core.gc (h : Core es s) {o : Userdata}
    (ho : ∀ k, o = .bio k → ∀ d, s.held (k, .bio d) = false) : Reaches es o.conn s (s.gc o) := by
  cases o with
  | context k =>
    obtain ⟨hclean, hssl⟩ := h.cleanupContext k
    refine hclean.trans (hclean.core.drop (o := .context k) fun j p hp => ?_)
    cases p with
    | ssl =>
      cases hp
      exact hssl
    | bio d =>
      cases hp
      exact hclean.core.unwired hssl d
    | method d => cases hp
    | mem d => cases hp
  | bio k =>
    have hfree := h.tlsBioFree (ho k rfl)
    refine hfree.trans (hfree.core.drop (o := .bio k) fun j p hp => ?_)
    cases p with
    | ssl => cases hp
    | bio d => cases hp
    | method d =>
      cases hp
      cases d <;> simp [LifeState.tlsBioFree_held]
    | mem d =>
      cases hp
      cases d <;> simp [LifeState.tlsBioFree_held]

theorem Core.useDir (h : Core es s) (k : Nat) (d : Dir) : Reaches es k s (s.useDir k d) := by
  unfold LifeState.useDir
  split
  next hbio =>
    have hb : Reaches es k s (s.touch (k, .bio d)) := h.touch hbio
    have hm : Reaches es k (s.touch (k, .bio d)) ((s.touch (k, .bio d)).touch (k, .method d)) :=
      hb.core.touch (h.wired k d hbio).2.1
    exact (hb.trans hm).trans (hm.core.touchHeld (k, .mem d))
  next => exact h.reaches k

theorem Core.useDirs (h : Core es s) (k : Nat) (ds : List Dir) :
    Reaches es k s (ds.foldl (LifeState.useDir k) s) := by
  induction ds generalizing s with
  | nil => exact h.reaches k
  | cons d ds ih =>
    have hd := h.useDir k d
    exact hd.trans (ih hd.core)

theorem Core.useSsl (h : Core es s) (k : Nat) (ds : List Dir) :
    Reaches es k s (s.useSsl k ds) := by
  unfold LifeState.useSsl
  split
  next hssl =>
    have htouch : Reaches es k s (s.touch (k, .ssl)) := h.touch hssl
    exact htouch.trans (htouch.core.useDirs k ds)
  next => exact h.reaches k

theorem Core.shutdown (h : Core es s) (k : Nat) (ds : List Dir) (done : Bool) :
    Reaches es k s (s.shutdown k ds done) := by
  have huse := h.useSsl k ds
  unfold LifeState.shutdown
  split
  next => exact huse.trans (huse.core.cleanupSsl k).1
  next => exact huse

end Parts

section Construction

variable {es : List (LifeEvent Resource)} {k : Nat} {s t : LifeState}

theorem LifeState.setOpening_self (k : Nat) (o : Option Opening) (s : LifeState) :
    (s.setOpening k o).opening k = o := Function.update_self ..

theorem LifeState.build_held (r : Resource) (new set : Bool) (s : LifeState)
    (hr : s.held r = false) :
    (s.build r new set).2.held = Function.update s.held r (s.build r new set).1 := by
  have hself : Function.update s.held r false = s.held := Function.update_eq_self_iff.mpr hr.symm
  unfold LifeState.build
  split
  next => exact hself.symm
  next =>
    split
    next => exact Function.update_idem ..
    next => rfl

theorem Core.build (h : Core es s) {p : Part} (new set : Bool) (hp : s.held (k, p) = false)
    (howner : ownerOfPart k p ∈ s.objs) (hnext : k < s.next) (hnot : ∀ d, p ≠ .bio d)
    (hbio : ∀ d, s.held (k, .bio d) = false) :
    Reaches es k s (s.build (k, p) new set).2 ∧
      (s.build (k, p) new set).2.objs = s.objs ∧ (s.build (k, p) new set).2.next = s.next := by
  unfold LifeState.build
  split
  next => exact ⟨h.reaches k, rfl, rfl⟩
  next =>
    have hacq := h.acquire hp howner hnext fun d hd => absurd hd (hnot d)
    split
    next =>
      have hheld : (s.acquire (k, p)).held (k, p) = true := Function.update_self ..
      have hloose : Loose (s.acquire (k, p)) (k, p) := by
        apply loose_of_unheld
        intro d
        have hne : (k, Part.bio d) ≠ (k, p) := fun heq => hnot d (congrArg Prod.snd heq).symm
        exact (Function.update_of_ne hne _ _).trans (hbio d)
      exact ⟨hacq.trans (hacq.core.free hheld hloose), rfl, rfl⟩
    next => exact ⟨hacq, rfl, rfl⟩

structure Bare (es : List (LifeEvent Resource)) (k : Nat) (s : LifeState) : Prop
    extends Core es s where
  ssl : s.held (k, .ssl) = true
  bios : ∀ d, s.held (k, .bio d) = false
  obj : .bio k ∈ s.objs
  known : k < s.next

theorem Bare.build (h : Bare es k s) {p : Part} (new set : Bool) (hp : s.held (k, p) = false)
    (howner : ownerOfPart k p = .bio k) :
    Reaches es k s (s.build (k, p) new set).2 ∧ Bare es k (s.build (k, p) new set).2 := by
  have hnot (d : Dir) : p ≠ .bio d := by
    rintro rfl
    cases howner
  have hssl : p ≠ .ssl := by
    rintro rfl
    cases howner
  have hheld := LifeState.build_held (k, p) new set s hp
  have hother {q : Part} (hq : q ≠ p) : (s.build (k, p) new set).2.held (k, q) = s.held (k, q) := by
    have hne : (k, q) ≠ (k, p) := fun heq => hq (congrArg Prod.snd heq)
    rw [hheld, Function.update_of_ne hne]
  obtain ⟨hreach, hobjs, hnext⟩ :=
    h.toCore.build new set hp (howner ▸ h.obj) h.known hnot h.bios
  refine ⟨hreach, hreach.core, ?_, fun d => ?_, ?_, ?_⟩
  · exact (hother hssl.symm).trans h.ssl
  · exact (hother (hnot d).symm).trans (h.bios d)
  · rw [hobjs]
    exact h.obj
  · rw [hnext]
    exact h.known

theorem Bare.bioBufsInit (h : Bare es k s) (fails : OpenPoint → Bool)
    (hmem : ∀ d, s.held (k, .mem d) = false) :
    Reaches es k s (s.bioBufsInit fails k).2 ∧ Bare es k (s.bioBufsInit fails k).2 ∧
      ∀ d, (s.bioBufsInit fails k).2.held (k, .method d) = s.held (k, .method d) := by
  have hrx := h.build (fails (.memNew .rx)) (fails (.memGrow .rx)) (hmem .rx) rfl
  have hrxHeld := LifeState.build_held (k, .mem .rx) (fails (.memNew .rx))
    (fails (.memGrow .rx)) s (hmem .rx)
  unfold LifeState.bioBufsInit LifeState.bioBufInit
  dsimp only
  split
  next =>
    have htxFree : (s.build (k, .mem .rx) (fails (.memNew .rx)) (fails (.memGrow .rx))).2.held
        (k, .mem .tx) = false := by
      rw [hrxHeld]
      simpa using hmem .tx
    have htx := hrx.2.build (fails (.memNew .tx)) (fails (.memGrow .tx)) htxFree rfl
    refine ⟨hrx.1.trans htx.1, htx.2, fun d => ?_⟩
    rw [LifeState.build_held _ _ _ _ htxFree, hrxHeld]
    simp
  next =>
    refine ⟨hrx.1, hrx.2, fun d => ?_⟩
    rw [hrxHeld]
    simp

theorem Bare.tlsBioParts (h : Bare es k s) (fails : OpenPoint → Bool)
    (hnone : ∀ p, p ≠ .ssl → s.held (k, p) = false) :
    Reaches es k s (s.tlsBioParts fails k).2 ∧ Bare es k (s.tlsBioParts fails k).2 ∧
      ((s.tlsBioParts fails k).1 = true →
        ∀ d, (s.tlsBioParts fails k).2.held (k, .method d) = true) := by
  have hrx := h.build (fails (.methodNew .rx)) (fails (.methodSet .rx))
    (hnone (.method .rx) nofun) rfl
  have hrxHeld := LifeState.build_held (k, .method .rx) (fails (.methodNew .rx))
    (fails (.methodSet .rx)) s (hnone (.method .rx) nofun)
  unfold LifeState.tlsBioParts LifeState.bioMethodNew
  dsimp only
  generalize s.build (k, .method .rx) (fails (.methodNew .rx)) (fails (.methodSet .rx)) = rx at *
  have htxFree : rx.2.held (k, .method .tx) = false := by
    rw [hrxHeld]
    simpa using hnone (.method .tx) nofun
  have htx := hrx.2.build (fails (.methodNew .tx)) (fails (.methodSet .tx)) htxFree rfl
  have htxHeld := LifeState.build_held (k, .method .tx) (fails (.methodNew .tx))
    (fails (.methodSet .tx)) rx.2 htxFree
  generalize rx.2.build (k, .method .tx) (fails (.methodNew .tx)) (fails (.methodSet .tx)) = tx
    at *
  have hboth := hrx.1.trans htx.1
  split
  next hmade =>
    obtain ⟨hrxMade, htxMade⟩ := Bool.and_eq_true_iff.mp hmade
    have hmem (d : Dir) : tx.2.held (k, .mem d) = false := by
      rw [htxHeld, hrxHeld]
      simpa using hnone (.mem d) nofun
    obtain ⟨hbufs, hbare, hmethods⟩ := htx.2.bioBufsInit fails hmem
    refine ⟨hboth.trans hbufs, hbare, fun _ d => ?_⟩
    rw [hmethods d, htxHeld, hrxHeld]
    cases d
    · simpa using hrxMade
    · simpa using htxMade
  next => exact ⟨hboth, htx.2, nofun⟩

theorem Core.giveUp (h : Core es s) (k : Nat) :
    Reaches es k s (s.giveUp k) ∧ (s.giveUp k).opening k = none := by
  have hclean := (h.cleanupContext k).1
  exact ⟨hclean.trans (hclean.core.setOpening k none), Function.update_self ..⟩

theorem LifeInv.ends (h : LifeInv es s) (ht : Reaches es k s t) (hnone : t.opening k = none) :
    LifeInv es t :=
  h.step ht fun _ ho => nomatch hnone.symm.trans ho

theorem LifeInv.goTo (h : LifeInv es s) (ht : Reaches es k s t) {o : Opening} {stage : Stage}
    (hk : k < t.next) (hstand : Standing t.toLifeWorld k stage) :
    LifeInv es (t.goTo k o stage) := by
  refine h.step (ht.trans (ht.core.setOpening k _)) fun o' ho => ⟨hk, ?_⟩
  cases (LifeState.setOpening_self k (some { o with stage := stage }) t).symm.trans ho
  exact hstand

theorem LifeInv.contextNew (h : LifeInv es s) (client keyed : Bool) :
    LifeInv es (s.contextNew client keyed) := by
  have hpush := (h.toCore.push (.context s.next)).trans
    ((h.toCore.push (.context s.next)).core.setOpening s.next (some ⟨client, keyed, .parentRef⟩))
  have hcore : Core es (s.contextNew client keyed) :=
    ⟨hpush.core.tracks, hpush.core.outlive, hpush.core.owned, hpush.core.wired,
      fun j p hj => h.fresh j p ((Nat.le_succ _).trans hj)⟩
  have hsame : SameBut s.next s (s.contextNew client keyed) :=
    ⟨hpush.same.held, hpush.same.opening, hpush.same.objs, Nat.le_succ _⟩
  refine h.step ⟨hcore, hsame⟩ fun o ho => ⟨Nat.lt_succ_self _, ?_⟩
  cases (LifeState.setOpening_self s.next (some ⟨client, keyed, .parentRef⟩) s).symm.trans ho
  exact ⟨List.mem_cons_self, fun p => h.fresh s.next p le_rfl⟩

theorem LifeInv.newSsl (h : LifeInv es s) (fails : OpenPoint → Bool) (o : Opening)
    (hk : k < s.next) (hobj : .context k ∈ s.objs) (hnone : ∀ p, s.held (k, p) = false) :
    LifeInv es (s.newSsl fails k o) := by
  have hssl : Reaches es k s (s.acquire (k, .ssl)) :=
    h.toCore.acquire (hnone .ssl) hobj hk (fun _ hd => nomatch hd)
  have hfail : LifeInv es ((s.acquire (k, .ssl)).giveUp k) :=
    h.ends (hssl.trans (hssl.core.giveUp k).1) (hssl.core.giveUp k).2
  unfold LifeState.newSsl
  split
  next => exact h.ends (h.toCore.giveUp k).1 (h.toCore.giveUp k).2
  next =>
    split
    next => exact hfail
    next =>
      split
      next => exact hfail
      next =>
        refine h.goTo hssl hk ⟨Function.update_self .., fun p hp => ?_⟩
        have hne : (k, p) ≠ (k, Part.ssl) := fun heq => hp (congrArg Prod.snd heq)
        exact (Function.update_of_ne hne _ _).trans (hnone p)

theorem LifeInv.newBio (h : LifeInv es s) (fails : OpenPoint → Bool) (o : Opening)
    (hk : k < s.next) (hssl : s.held (k, .ssl) = true)
    (hnone : ∀ p, p ≠ .ssl → s.held (k, p) = false) : LifeInv es (s.newBio fails k o) := by
  have hpush : Reaches es k s (s.push (.bio k)) := h.toCore.push (.bio k)
  have hbare : Bare es k (s.push (.bio k)) :=
    ⟨hpush.core, hssl, fun d => hnone (.bio d) nofun, List.mem_cons_self, hk⟩
  obtain ⟨hparts, hbare', hmethods⟩ := hbare.tlsBioParts fails hnone
  unfold LifeState.newBio
  dsimp only
  split
  next hmade =>
    exact h.goTo (hpush.trans hparts) hbare'.known
      ⟨hbare'.ssl, fun d => ⟨hmethods hmade d, hbare'.bios d⟩⟩
  next =>
    have hfree := hbare'.toCore.tlsBioFree hbare'.bios
    have hgive := hfree.core.giveUp k
    exact h.ends (((hpush.trans hparts).trans hfree).trans hgive.1) hgive.2

theorem Core.bioNew (h : Core es s) {d : Dir} (hk : k < s.next)
    (hssl : s.held (k, .ssl) = true) (hmethod : s.held (k, .method d) = true)
    (hbio : s.held (k, .bio d) = false) (href : s.ref k = true) :
    Reaches es k s (s.bioNew k d) := by
  have htouch : Reaches es k s (s.touch (k, .method d)) := h.touch hmethod
  refine htouch.trans (htouch.core.acquire hbio (h.owned k .ssl hssl) hk fun d' hd => ?_)
  cases hd
  exact ⟨hssl, hmethod, href⟩

theorem Core.tlsBioSetup (h : Core es s) (fails : OpenPoint → Bool) (hk : k < s.next)
    (hssl : s.held (k, .ssl) = true)
    (hready : ∀ d, s.held (k, .method d) = true ∧ s.held (k, .bio d) = false)
    (href : s.ref k = true) :
    Reaches es k s (s.tlsBioSetup fails k).2 ∧
      (s.tlsBioSetup fails k).2.held (k, .ssl) = true ∧
      (s.tlsBioSetup fails k).2.next = s.next := by
  have hrx := h.bioNew hk hssl (hready .rx).1 (hready .rx).2 href
  have hother {p : Part} (hp : p ≠ .bio .rx) :
      (s.bioNew k .rx).held (k, p) = s.held (k, p) := by
    have hne : (k, p) ≠ (k, Part.bio .rx) := fun heq => hp (congrArg Prod.snd heq)
    exact Function.update_of_ne hne _ _
  have hrxSsl : (s.bioNew k .rx).held (k, .ssl) = true := (hother (p := .ssl) nofun).trans hssl
  unfold LifeState.tlsBioSetup
  split
  next => exact ⟨h.reaches k, hssl, rfl⟩
  next =>
    split
    next =>
      have hheld : (s.bioNew k .rx).held (k, .bio .rx) = true := Function.update_self ..
      refine ⟨hrx.trans (hrx.core.bioFree hheld), ?_, rfl⟩
      have hne : (k, Part.ssl) ≠ (k, Part.bio .rx) := nofun
      exact (Function.update_of_ne hne _ _).trans hrxSsl
    next =>
      have hmethod := (hother (p := .method .tx) nofun).trans (hready .tx).1
      have hbio := (hother (p := .bio .tx) nofun).trans (hready .tx).2
      have htx : Reaches es k (s.bioNew k .rx) ((s.bioNew k .rx).bioNew k .tx) :=
        hrx.core.bioNew hk hrxSsl hmethod hbio href
      refine ⟨hrx.trans htx, ?_, rfl⟩
      have hne : (k, Part.ssl) ≠ (k, Part.bio .tx) := nofun
      exact (Function.update_of_ne hne _ _).trans hrxSsl

theorem LifeInv.setupBio (h : LifeInv es s) (fails : OpenPoint → Bool) (o : Opening)
    (hk : k < s.next) (hssl : s.held (k, .ssl) = true)
    (hready : ∀ d, s.held (k, .method d) = true ∧ s.held (k, .bio d) = false) :
    LifeInv es (s.setupBio fails k o) := by
  have href : Reaches es k s (s.setRef k true) := h.toCore.setRef nofun
  have hctx := href.trans (href.core.setCtxBio k true)
  obtain ⟨hsetup, hssl', hnext⟩ :=
    hctx.core.tlsBioSetup fails hk hssl hready (Function.update_self ..)
  have hall := hctx.trans hsetup
  unfold LifeState.setupBio
  dsimp only
  split
  next =>
    split
    next => exact h.goTo hall (hnext ▸ hk) hssl'
    next => exact h.ends (hall.trans (hall.core.setOpening k none)) (Function.update_self ..)
  next => exact h.ends (hall.trans (hall.core.giveUp k).1) (hall.core.giveUp k).2

theorem LifeInv.advance (h : LifeInv es s) (fails : OpenPoint → Bool) {o : Opening}
    (ho : s.opening k = some o) : LifeInv es (s.advance fails k o) := by
  obtain ⟨hk, hstand⟩ := h.standing k o ho
  unfold LifeState.advance
  match o.stage, hstand with
  | .parentRef, hstand => exact h.newSsl fails o hk hstand.1 hstand.2
  | .bioUserdata, hstand => exact h.newBio fails o hk hstand.1 hstand.2
  | .bioRef, hstand => exact h.setupBio fails o hk hstand.1 hstand.2
  | .sessionKey, hstand =>
    have htouch : Reaches es k s (s.touch (k, .ssl)) := h.toCore.touch hstand
    exact h.ends (htouch.trans (htouch.core.setOpening k none)) (Function.update_self ..)

end Construction

section Opening

variable (k : Nat) (s : LifeState)

@[simp] theorem LifeState.touchHeld_opening (r : Resource) :
    (s.touchHeld r).opening = s.opening := by
  unfold LifeState.touchHeld
  split <;> rfl

@[simp] theorem LifeState.release_opening (r : Resource) : (s.release r).opening = s.opening := by
  unfold LifeState.release
  split <;> rfl

@[simp] theorem LifeState.bioRelease_opening (d : Dir) :
    (s.bioRelease k d).opening = s.opening := by
  unfold LifeState.bioRelease
  split <;> rfl

@[simp] theorem LifeState.cleanupSsl_opening : (s.cleanupSsl k).opening = s.opening := by
  unfold LifeState.cleanupSsl
  split
  · simp [LifeState.sslFree, LifeState.free, LifeState.touch]
  · rfl

@[simp] theorem LifeState.tlsBioFree_opening : (s.tlsBioFree k).opening = s.opening := by
  simp [LifeState.tlsBioFree, LifeState.setRef]

@[simp] theorem LifeState.cleanupContext_opening :
    (s.cleanupContext k).opening = s.opening := by
  unfold LifeState.cleanupContext
  split <;> simp [LifeState.setCtxBio]

@[simp] theorem LifeState.gc_opening (o : Userdata) : (s.gc o).opening = s.opening := by
  cases o <;> simp [LifeState.gc, LifeState.drop]

@[simp] theorem LifeState.useDir_opening (d : Dir) : (s.useDir k d).opening = s.opening := by
  unfold LifeState.useDir
  split
  · simp [LifeState.touch]
  · rfl

@[simp] theorem LifeState.useDirs_opening (ds : List Dir) :
    (ds.foldl (LifeState.useDir k) s).opening = s.opening := by
  induction ds generalizing s with
  | nil => rfl
  | cons d ds ih => rw [List.foldl_cons, ih, LifeState.useDir_opening]

@[simp] theorem LifeState.useSsl_opening (ds : List Dir) :
    (s.useSsl k ds).opening = s.opening := by
  unfold LifeState.useSsl
  split
  · simp [LifeState.touch]
  · rfl

@[simp] theorem LifeState.shutdown_opening (ds : List Dir) (done : Bool) :
    (s.shutdown k ds done).opening = s.opening := by
  unfold LifeState.shutdown
  split <;> simp

end Opening

section Runs

variable {es : List (LifeEvent Resource)} {s : LifeState}

theorem LifeInv.onContext (h : LifeInv es s) {k : Nat} {f : LifeState → LifeState}
    (hf : Reaches es k s (f s)) (hopening : (f s).opening = s.opening) :
    LifeInv es (s.onContext k f) := by
  unfold LifeState.onContext
  split
  next hnone => exact h.ends hf ((congrFun hopening k).trans hnone)
  next => exact h

theorem LifeInv.gc (h : LifeInv es s) {o : Userdata} (hnone : s.opening o.conn = none)
    (ho : ∀ k, o = .bio k → ∀ d, s.held (k, .bio d) = false) : LifeInv es (s.gc o) := by
  refine h.ends (h.toCore.gc ho) ?_
  rw [LifeState.gc_opening]
  exact hnone

theorem LifeInv.luaClose (h : LifeInv es s) :
    LifeInv es { s with closing := true, opening := fun _ => none } where
  tracks := h.tracks
  outlive := h.outlive
  owned := h.owned
  wired := h.wired
  fresh := h.fresh
  standing _ _ ho := nomatch ho

theorem Core.unwired_of_ref (h : Core es s) {k : Nat} (href : s.ref k = false) (d : Dir) :
    s.held (k, .bio d) = false := by
  by_contra hbio
  have hwired := h.wired k d (eq_true_of_ne_false hbio)
  exact absurd (href.symm.trans hwired.2.2) Bool.false_ne_true

theorem LifeWorld.idle_of_finalizing (w : LifeWorld) {o : Userdata}
    (ho : w.finalizing = some o) : w.opening o.conn = none := by
  rw [LifeWorld.finalizing] at ho
  split at ho
  next => exact Option.isNone_iff_eq_none.mp (Option.filter_eq_some_iff.mp ho).2
  next => cases ho

theorem LifeInv.exec (h : LifeInv es s) {op : LifeOp} (hop : Orderly s.toLifeWorld op) :
    LifeInv es (lifeExec s op) := by
  cases op with
  | accept => exact h.contextNew false false
  | connect keyed => exact h.contextNew true keyed
  | advance k fails =>
    rw [lifeExec]
    split
    next o ho => exact h.advance fails ho
    next => exact h
  | raise k => exact h.ends (h.toCore.setOpening k none) (LifeState.setOpening_self k none s)
  | use k ds => exact h.onContext (h.toCore.useSsl k ds) (s.useSsl_opening k ds)
  | transfer k d => exact h.onContext (h.toCore.touchHeld (k, .mem d)) (s.touchHeld_opening _)
  | shutdown k ds done =>
    exact h.onContext (h.toCore.shutdown k ds done) (s.shutdown_opening k ds done)
  | close k => exact h.onContext (h.toCore.cleanupContext k).1 (s.cleanupContext_opening k)
  | collect o =>
    rw [lifeExec]
    split
    next hcollect =>
      rw [LifeWorld.collectable.eq_def, Bool.and_eq_true, Bool.and_eq_true,
        Option.isNone_iff_eq_none] at hcollect
      -- a BIO userdata can be collected once its context has dropped the reference to it
      refine h.gc hcollect.1.2 ?_
      rintro k rfl
      exact h.toCore.unwired_of_ref (by simpa using hcollect.2)
    next => exact h
  | luaClose => exact h.luaClose
  | finalize =>
    rw [lifeExec]
    split
    next o ho =>
      rw [Orderly, ho] at hop
      -- here the order of the finalizers matters: the BIO userdata must not come first
      refine h.gc (s.toLifeWorld.idle_of_finalizing ho) ?_
      rintro k rfl d
      rw [LifeWorld.attached, Bool.or_eq_false_iff] at hop
      cases d with
      | rx => exact hop.1
      | tx => exact hop.2
    next => exact h

theorem LifeInv.settle (h : LifeInv es s) : LifeInv (es ++ s.events) ⟨s.toLifeWorld, []⟩ where
  tracks := by
    rw [List.append_nil]
    exact h.tracks
  outlive := by
    rw [List.append_nil]
    exact h.outlive
  owned := h.owned
  wired := h.wired
  fresh := h.fresh
  standing := h.standing

theorem lifeInv_start : LifeInv [] ⟨LifeWorld.start, []⟩ where
  tracks := tracks_nil
  outlive := Each.nil _
  owned _ _ hp := nomatch hp
  wired _ _ hd := nomatch hd
  fresh _ _ _ := rfl
  standing _ _ ho := nomatch ho

theorem lifeInv_runs {ops : List LifeOp} (hops : Along lifeStep Orderly LifeWorld.start ops) :
    LifeInv (runs lifeStep LifeWorld.start ops).2 ⟨(runs lifeStep LifeWorld.start ops).1, []⟩ := by
  have hinv := runs_history_along (P := Orderly) (I := fun w es => LifeInv es ⟨w, []⟩)
    (fun w es op hop h => (h.exec hop).settle) lifeInv_start hops
  simpa using hinv

/-- What is asked of the connections: nothing is used or freed that does not live, no method is
freed while a BIO made from it lives, and when no finalizer is left to run, everything has been
freed as often as it has been made. -/
structure LifetimesKept (w : LifeWorld) (es : List (LifeEvent Resource)) : Prop where
  safe : SafeLives es
  outlive : MethodsOutlive es
  settled : w.objs = [] → ∀ r, es.count (.freed r) = es.count (.acquired r)

theorem LifeInv.kept {w : LifeWorld} (h : LifeInv es ⟨w, []⟩) : LifetimesKept w es := by
  have htracks : Tracks w.held es := by simpa using h.tracks
  refine ⟨htracks.safe, by simpa using h.outlive, fun hobjs r => ?_⟩
  have hdead : w.held r = false := by
    by_contra hheld
    have howner := h.owned r.1 r.2 (eq_true_of_ne_false hheld)
    rw [hobjs] at howner
    exact absurd howner List.not_mem_nil
  have hcount := safeLives_count htracks.safe r
  rw [htracks.alive, hdead] at hcount
  exact hcount.symm

theorem lifetimes_kept {ops : List LifeOp} (h : Along lifeStep Orderly LifeWorld.start ops) :
    LifetimesKept (runs lifeStep LifeWorld.start ops).1 (runs lifeStep LifeWorld.start ops).2 :=
  (lifeInv_runs h).kept

def opened : List LifeOp :=
  [.accept, .advance 0 fun _ => false, .advance 0 fun _ => false, .advance 0 fun _ => false]

/-- Closed before the end of the Lua state. -/
theorem lifetimes_kept_closed :
    let run := runs lifeStep LifeWorld.start (opened ++ [.close 0, .luaClose, .finalize, .finalize])
    run.1.objs = [] ∧ LifetimesKept run.1 run.2 :=
  ⟨by decide, lifetimes_kept (by decide)⟩

/-- Still open at the end of the Lua state: the BIO userdata is the newer one, so its finalizer
frees the methods first, and then `SSL_free` calls them for the BIOs. -/
theorem lifetimes_broken :
    let run := runs lifeStep LifeWorld.start (opened ++ [.luaClose, .finalize, .finalize])
    run.2 = run.2.take 12 ++ .freed (0, .method .tx) :: run.2.drop 13 ∧
      aliveAfter (0, .bio .tx) (run.2.take 12) = true ∧ .freed (0, .ssl) ∈ run.2.drop 13 ∧
        ¬ SafeLives run.2 := by
  intro run
  refine ⟨by decide, by decide, by decide, fun hsafe => ?_⟩
  have hsplit : run.2 = run.2.take 14 ++ .used (0, .method .tx) :: run.2.drop 15 := by decide
  have hmethod := hsafe _ _ _ hsplit _ rfl
  exact absurd hmethod (by decide)

end Runs

end LuaNet.Tls
