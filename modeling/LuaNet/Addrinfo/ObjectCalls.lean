import LuaNet.Addrinfo.ObjectsKept

/-! `net_addrinfo_new` gives a finished object that stays what its source was, or leaves nothing
behind that the collector does not take away. -/

namespace LuaNet.Addrinfo

open LuaNet.Lib

/-! A call while it runs. -/

section Running

/-- What does not change in the course of a call; `ample` says that no allocation is refused. -/
structure CallCtx where
  frame : Nat
  ample : Prop
  list : Option Nat
  lists : Nat

/-- `made` are the finished objects, and `on` is the one on the stack that is being made. -/
structure Running (c : CallCtx) (made : List (Nat × NetAddrinfo)) (on : Option (Nat × ObjShape))
    (w : AddrWorld) : Prop where
  kept : ObjsKept made w
  on : ∀ i shape, on = some (i, shape) → w.Stands i shape ∧ c.frame ≤ i ∧ ∀ p ∈ made, p.1 ≠ i
  frame : w.frame = c.frame
  frame_le : c.frame ≤ w.objs.length
  ample : c.ample → ∀ a ∈ w.memory, a.granted = true
  vars : w.list = c.list ∧ w.lists = c.lists

theorem stands_of_same {w v : AddrWorld} {j : Nat} {shape : ObjShape} (hs : w.Stands j shape)
    (hobj : v.objs[j]? = w.objs[j]?) (hframe : v.frame = w.frame)
    (hfield : ∀ o field, w.objs[j]? = some o → w.Field o field (shape.fields field) →
      v.Field o field (shape.fields field)) : v.Stands j shape := by
  obtain ⟨o, hj, hgone, hshape⟩ := hs
  refine ⟨o, hobj.trans hj, by rwa [hframe], fun hlive => ?_⟩
  obtain ⟨hhints, hlen, hfields⟩ := hshape hlive
  exact ⟨hhints, hlen, fun field => hfield o field hj (hfields field)⟩

variable {c : CallCtx} {made : List (Nat × NetAddrinfo)} {on : Option (Nat × ObjShape)}
  {w v : AddrWorld} {i : Nat} {shape : ObjShape} {field : RefField} {bytes : Bytes}

theorem shape_settled (info : NetAddrinfo) (field : RefField) (b : Nat) (bytes : Bytes) :
    info.shape.fields field ≠ .loose b bytes := by
  cases field with
  | addr => nofun
  | canonname =>
    show (info.canonname.map FieldState.kept).getD .empty ≠ _
    cases info.canonname <;> nofun

theorem Running.gcLua (h : Running c made on w) (hi : i < c.frame) :
    Running c made on (gcLua i w) := by
  have hrest := gcLua_rest i w
  have hi' : i < w.frame := by rwa [h.frame]
  refine ⟨⟨h.kept.refs.gcLua i, fun p hp => ?_⟩, fun j shape hon => ?_, ?_, ?_, ?_, ?_⟩
  · exact stands_gcLua h.kept.refs hi' (h.kept.stands p hp)
  · obtain ⟨hs, hother⟩ := h.on j shape hon
    exact ⟨stands_gcLua h.kept.refs hi' hs, hother⟩
  · exact hrest.2.1.trans h.frame
  · rw [hrest.2.2.1]
    exact h.frame_le
  · rw [hrest.2.2.2.1]
    exact h.ample
  · rw [hrest.2.2.2.2.1, hrest.2.2.2.2.2]
    exact h.vars

theorem Running.collect (h : Running c made on w) (is : List Nat) :
    Running c made on (w.collect is) := by
  induction is generalizing w with
  | nil => exact h
  | cons i is ih =>
    refine ih ?_
    show Running c made on (if i < w.frame then _ else w)
    split
    · next hlt => exact h.gcLua (by rwa [← h.frame])
    · exact h

theorem alloc_rule :
    Raising.Triple (Running c made on) alloc (fun _ => Running c made on) fun e w =>
      Running c made on w ∧ e = .memory ∧ ¬ c.ample := by
  intro w h
  rw [alloc]
  cases hmemory : w.memory with
  | nil => exact h
  | cons a memory =>
    have hrest : Running c made on { w with memory := memory } := by
      refine ⟨⟨h.kept.refs.of_same rfl rfl rfl, h.kept.stands⟩, h.on, h.frame, h.frame_le, fun hample b hb => ?_,
        h.vars⟩
      exact h.ample hample b (by rw [hmemory]; exact List.mem_cons_of_mem _ hb)
    have hafter := hrest.collect a.collected
    simp only
    cases hgranted : a.granted with
    | true => exact hafter
    | false =>
      refine ⟨hafter, rfl, fun hample => ?_⟩
      have hyes := h.ample hample a (by rw [hmemory]; exact List.mem_cons_self)
      rw [hgranted] at hyes
      cases hyes

theorem Running.step {shape' : ObjShape} (h : Running c made (some (i, shape)) w)
    (hrefs : RefsKept v) (hself : v.Stands i shape')
    (hobjs : ∀ j, i ≠ j → v.objs[j]? = w.objs[j]?)
    (hfield : ∀ (j : Nat) (o : InfoObject) field s, i ≠ j → w.objs[j]? = some o →
      (∀ b bytes, s ≠ .loose b bytes) → w.Field o field s → v.Field o field s)
    (hlen : v.objs.length = w.objs.length)
    (hsame : v.frame = w.frame ∧ v.memory = w.memory ∧ v.list = w.list ∧ v.lists = w.lists) :
    Running c made (some (i, shape')) v := by
  obtain ⟨-, hframe, hother⟩ := h.on i shape rfl
  obtain ⟨hframe', hmemory, hlist, hlists⟩ := hsame
  refine ⟨⟨hrefs, fun p hp => ?_⟩, fun j shape hon => ?_, hframe'.trans h.frame, ?_, ?_, ?_⟩
  · have hne : i ≠ p.1 := Ne.symm (hother p hp)
    exact stands_of_same (h.kept.stands p hp) (hobjs p.1 hne) hframe' fun o field hj =>
      hfield p.1 o field _ hne hj (shape_settled p.2 field)
  · cases hon
    exact ⟨hself, hframe, hother⟩
  · rw [hlen]
    exact h.frame_le
  · rw [hmemory]
    exact h.ample
  · rw [hlist, hlists]
    exact h.vars

theorem Running.self (h : Running c made (some (i, shape)) w) :
    ∃ o, w.objs[i]? = some o ∧ o.gone = false ∧ o.toAddrHints = shape.toAddrHints ∧
      o.addrlen = shape.addrlen ∧ ∀ field, w.Field o field (shape.fields field) := by
  obtain ⟨⟨o, hi, hgone, hshape⟩, hframe, -⟩ := h.on i shape rfl
  have hlive : o.gone = false := by
    cases hcase : o.gone with
    | false => rfl
    | true =>
      have hlt := hgone hcase
      rw [h.frame] at hlt
      exact absurd hframe (Nat.not_le.mpr hlt)
  exact ⟨o, hi, hlive, hshape hlive⟩

def ObjShape.setField (shape : ObjShape) (field : RefField) (s : FieldState) : ObjShape :=
  { shape with fields := Function.update shape.fields field s }

@[simp] theorem setField_self (shape : ObjShape) (field : RefField) (s : FieldState) :
    (shape.setField field s).fields field = s := Function.update_self _ _ _

theorem setField_other {field' : RefField} (shape : ObjShape) (s : FieldState)
    (h : field' ≠ field) : (shape.setField field s).fields field' = shape.fields field' :=
  Function.update_of_ne h _ _

theorem setField_setField (shape : ObjShape) (field : RefField) (s s' : FieldState) :
    (shape.setField field s).setField field s' = shape.setField field s' := by
  rw [ObjShape.setField, ObjShape.setField, ObjShape.setField]
  simp only [Function.update_idem]

theorem Running.addBlock (h : Running c made (some (i, shape)) w)
    (hempty : shape.fields field = .empty) (bytes : Bytes) :
    Running c made (some (i, shape.setField field (.loose w.blocks.length bytes)))
      (w.addBlock i field bytes) := by
  obtain ⟨o, hi, hlive, hhints, hlen, hfields⟩ := h.self
  have hfree : o.ref field = none := by
    have hfield := hfields field
    rw [hempty] at hfield
    exact hfield.1
  have hrefs := h.kept.refs
  refine h.step (hrefs.addBlock hi hfree bytes) ?_ (fun j => List.getElem?_modify_ne _ _)
    (fun j o' field' s _ _ _ hs => field_addBlock hs) (List.length_modify _ _ _) ⟨rfl, rfl, rfl, rfl⟩
  refine ⟨_, modify_self hi, fun hgone => ?_, fun _ => ⟨hhints, hlen, fun field' => ?_⟩⟩
  · have hgone' : o.gone = true := hgone
    rw [hlive] at hgone'
    cases hgone'
  · by_cases hfield : field' = field
    · subst hfield
      rw [setField_self]
      exact field_addBlock_self hrefs hfree
    · rw [setField_other shape _ hfield]
      exact field_point_other hfield (field_addBlock (hfields field'))

theorem Running.addRef {b : Nat} (h : Running c made (some (i, shape)) w)
    (hloose : shape.fields field = .loose b bytes)
    (hothers : ∀ field', field' ≠ field → ∀ b' old, shape.fields field' ≠ .loose b' old)
    (slot : Nat) :
    Running c made (some (i, shape.setField field (.kept bytes))) (w.addRef i field b slot) := by
  obtain ⟨o, hi, hlive, hhints, hlen, hfields⟩ := h.self
  have hfield := hfields field
  rw [hloose] at hfield
  refine h.step (h.kept.refs.addRef hi hlive hfield slot) ?_ (fun j => List.getElem?_modify_ne _ _)
    (fun j o' field' s _ _ hsettled hs => field_addRef hs hsettled) (List.length_modify _ _ _)
    ⟨rfl, rfl, rfl, rfl⟩
  refine ⟨_, modify_self hi, fun hgone => ?_, fun _ => ⟨hhints, hlen, fun field' => ?_⟩⟩
  · have hgone' : o.gone = true := hgone
    rw [hlive] at hgone'
    cases hgone'
  · by_cases hne : field' = field
    · subst hne
      rw [setField_self]
      exact field_addRef_self hfield
    · rw [setField_other shape _ hne]
      exact field_keep_other hne (field_addRef (hfields field') (hothers field' hne))

theorem Running.write {old : Bytes} (h : Running c made (some (i, shape)) w)
    (hkept : shape.fields .addr = .kept old) (bytes : Bytes) :
    ∃ b, (w.objs[i]?.bind fun o => o.ptr .addr) = some b ∧ (w.deref b).isSome = true ∧
      Running c made (some (i, shape.setField .addr (.kept bytes)))
        { w with blocks := w.blocks.set b bytes } := by
  obtain ⟨o, hi, hlive, hhints, hlen, hfields⟩ := h.self
  have haddr := hfields .addr
  rw [hkept] at haddr
  obtain ⟨r, b, href, hptr, hcell, hblock⟩ := haddr
  have hrefs := h.kept.refs
  refine ⟨b, ?_, ?_, ?_⟩
  · rw [hi]
    exact hptr
  · rw [AddrWorld.deref, if_pos (List.mem_of_getElem? hcell), hblock]
    rfl
  · refine h.step (hrefs.write b bytes) ?_ (fun _ _ => rfl) (fun j o' field' s hne hj _ hs => ?_) rfl
      ⟨rfl, rfl, rfl, rfl⟩
    · refine ⟨o, hi, fun hgone => ?_, fun _ => ⟨hhints, hlen, fun field => ?_⟩⟩
      · rw [hlive] at hgone
        cases hgone
      · by_cases hfield : field = .addr
        · subst hfield
          rw [setField_self]
          refine ⟨r, b, href, hptr, hcell, ?_⟩
          rw [List.getElem?_set, if_pos rfl, if_pos (List.getElem?_eq_some_iff.mp hblock).1]
        · rw [setField_other shape _ hfield]
          exact field_write hrefs hi hi href hcell (fun hsame => hfield hsame.2.symm) (hfields field)
    · exact field_write hrefs hi hj href hcell (fun hsame => hne hsame.1) hs

/-- What an object was on the way to is lost with an error; the finished objects are not. -/
theorem Running.off (h : Running c made on w) : Running c made none w :=
  ⟨h.kept, nofun, h.frame, h.frame_le, h.ample, h.vars⟩

theorem Running.finish {info : NetAddrinfo} (h : Running c made (some (i, info.shape)) w) :
    Running c (made ++ [(i, info)]) none w := by
  refine ⟨⟨h.kept.refs, fun p hp => ?_⟩, nofun, h.frame, h.frame_le, h.ample, h.vars⟩
  rcases List.mem_append.mp hp with hp | hp
  · exact h.kept.stands p hp
  · cases List.mem_singleton.mp hp
    exact (h.on i _ rfl).1

theorem RefsKept.addInfo (hrefs : RefsKept w) {o : InfoObject} (ho : ∀ field, o.ref field = none) :
    RefsKept { w with objs := w.objs ++ [o] } := by
  have hold {j : Nat} {o' : InfoObject} {field : RefField} {r : Nat}
      (hj : (w.objs ++ [o])[j]? = some o') (hr : o'.ref field = some r) : w.objs[j]? = some o' := by
    rcases Nat.lt_trichotomy j w.objs.length with hlt | heq | hgt
    · rwa [List.getElem?_append_left hlt] at hj
    · rw [heq, List.getElem?_concat_length] at hj
      cases hj
      rw [ho] at hr
      cases hr
    · rw [List.getElem?_eq_none] at hj
      · cases hj
      · rw [List.length_append]
        exact hgt
  refine ⟨fun j o' field r hj hr => hrefs.live j o' field r (hold hj hr) hr,
    fun j o' field r hj hr => hrefs.anchored j o' field r (hold hj hr) hr,
    fun j k o₁ o₂ field field' r hj hk hr hr' =>
      hrefs.apart j k o₁ o₂ field field' r (hold hj hr) (hold hk hr') hr hr',
    fun r b hcell => ?_, hrefs.made, hrefs.blocks⟩
  obtain ⟨j, o', field, hj, hr⟩ := hrefs.used r b hcell
  have hlt : j < w.objs.length := (List.getElem?_eq_some_iff.mp hj).1
  exact ⟨j, o', field, (List.getElem?_append_left hlt).trans hj, hr⟩

theorem stands_lt (hs : w.Stands i shape) : i < w.objs.length := by
  obtain ⟨o, hi, -⟩ := hs
  exact (List.getElem?_eq_some_iff.mp hi).1

def blankShape (src : AddrInfo) : ObjShape := ⟨src.toAddrHints, src.addrlen, fun _ => .empty⟩

theorem Running.addInfo (h : Running c made none w) (src : AddrInfo) :
    Running c made (some (w.objs.length, blankShape src))
      { w with objs := w.objs ++ [{ toAddrHints := src.toAddrHints, addrlen := src.addrlen }] } := by
  refine ⟨⟨h.kept.refs.addInfo fun _ => rfl, fun p hp => ?_⟩, fun j shape hon => ?_, h.frame, ?_,
    h.ample, h.vars⟩
  · have hlt := stands_lt (h.kept.stands p hp)
    exact stands_of_same (h.kept.stands p hp) (List.getElem?_append_left hlt) rfl
      fun _ _ _ hfield => hfield
  · cases hon
    refine ⟨⟨_, List.getElem?_concat_length, nofun, fun _ => ⟨rfl, rfl, fun _ => ⟨rfl, rfl⟩⟩⟩,
      h.frame_le, fun p hp => ?_⟩
    exact Nat.ne_of_lt (stands_lt (h.kept.stands p hp))
  · rw [List.length_append]
    exact Nat.le_add_right_of_le h.frame_le

end Running

/-! The rules of the steps, and of `net_addrinfo_new`. -/

section Rules

variable {c : CallCtx} {made : List (Nat × NetAddrinfo)} {i : Nat} {shape : ObjShape}
  {field : RefField}

def OutOfMemory (c : CallCtx) (made : List (Nat × NetAddrinfo)) (e : AddrError) (w : AddrWorld) :
    Prop := Running c made none w ∧ e = .memory ∧ ¬ c.ample

theorem alloc_or_out {on : Option (Nat × ObjShape)} :
    Raising.Triple (Running c made on) alloc (fun _ => Running c made on)
      (OutOfMemory c made) :=
  alloc_rule.mono (fun _ h => h) (fun _ _ h => h) fun _ _ h => ⟨h.1.off, h.2⟩

theorem newInfo_rule (src : AddrInfo) :
    Raising.Triple (Running c made none) (newInfo src)
      (fun i => Running c made (some (i, blankShape src)))
      (OutOfMemory c made) := by
  refine alloc_or_out.bind fun _ => Raising.Triple.state.bind fun w => ?_
  intro v hv
  obtain ⟨rfl, h⟩ := hv
  exact h.addInfo src

theorem anchor_rule (bytes : Bytes) (hempty : shape.fields field = .empty)
    (hothers : ∀ field', field' ≠ field → ∀ b old, shape.fields field' ≠ .loose b old) :
    Raising.Triple (Running c made (some (i, shape))) (anchor i field bytes)
      (fun _ => Running c made (some (i, shape.setField field (.kept bytes))))
      (OutOfMemory c made) := by
  refine alloc_or_out.bind fun _ => Raising.Triple.state.bind fun w => ?_
  let loose := shape.setField field (.loose w.blocks.length bytes)
  have hblock : Raising.Triple (fun v => w = v ∧ Running c made (some (i, shape)) v)
      (Raising.update (·.addBlock i field bytes) : AddrM Unit)
      (fun _ => Running c made (some (i, loose))) (OutOfMemory c made) := by
    refine Raising.Triple.update fun v hv => ?_
    obtain ⟨rfl, h⟩ := hv
    exact h.addBlock hempty bytes
  refine hblock.bind fun _ => alloc_or_out.bind fun slot => Raising.Triple.update fun v hv => ?_
  have hself : loose.fields field = .loose w.blocks.length bytes := setField_self _ _ _
  have hsettled : ∀ field', field' ≠ field → ∀ b old, loose.fields field' ≠ .loose b old := by
    intro field' hne b old
    rw [setField_other shape _ hne]
    exact hothers field' hne b old
  have hafter := hv.addRef hself hsettled slot
  rwa [setField_setField] at hafter

theorem writeAddr_rule {old : Bytes} (bytes : Bytes) :
    Raising.Triple (Running c made (some (i, shape.setField .addr (.kept old)))) (writeAddr i bytes)
      (fun _ => Running c made (some (i, shape.setField .addr (.kept bytes))))
      (OutOfMemory c made) := by
  refine Raising.Triple.state.bind fun w => ?_
  intro v hv
  obtain ⟨rfl, h⟩ := hv
  obtain ⟨b, hptr, hlive, hafter⟩ := h.write (setField_self _ _ _) bytes
  rw [setField_setField] at hafter
  simp only [hptr, if_pos hlive]
  exact hafter

inductive Blamed (c : CallCtx) (src : AddrInfo) : AddrError → Prop
  | memory (h : ¬ c.ample) : Blamed c src .memory
  | oversize (h : src.usable = none) : Blamed c src (.raised (oversizeText src.addrlen))
  | overread {addr : Bytes} (h : src.usable = some addr) (hshort : addr.length < src.addrlen) :
    Blamed c src .overread

def Makes (src : AddrInfo) (info : NetAddrinfo) : Prop := outcome (netAddrinfoNew src) = .ok info

theorem usable_makes {src : AddrInfo} {addr : Bytes} (h : src.usable = some addr)
    (hlen : src.addrlen ≤ addr.length) :
    ∃ info, Makes src info ∧ info.toAddrHints = src.toAddrHints ∧ info.addrlen = src.addrlen ∧
      info.addr = storage (addr.take src.addrlen) ∧ info.canonname = src.canonname.map cString := by
  rw [AddrInfo.usable] at h
  split at h
  · next hfits =>
    have hfetch : 0 + src.addrlen ≤ addr.length := by rwa [Nat.zero_add]
    have hrun : outcome (netAddrinfoNew src) = .ok
        { toAddrHints := src.toAddrHints
          addr := storage (addr.take src.addrlen)
          addrlen := src.addrlen
          canonname := src.canonname.map cString
          addr_length := storage_length _
          addrlen_le := hfits } := by
      rw [outcome, netAddrinfoNew, h]
      simp only [dif_pos hfits, Walk.fetch_of_le hfetch, Walk.pure_bind, List.drop_zero]
      rfl
    exact ⟨_, hrun, rfl, rfl, rfl, rfl⟩
  · cases h

theorem netAddrinfoNew_refused {src : AddrInfo} (h : src.usable = none) :
    ∃ e, outcome (netAddrinfoNew src) = .error e := by
  cases haddr : src.addr with
  | none =>
    simp only [outcome, netAddrinfoNew, haddr]
    exact ⟨_, rfl⟩
  | some addr =>
    have hlong : ¬ src.addrlen ≤ storageSize := by
      intro hfits
      rw [AddrInfo.usable, if_pos hfits, haddr] at h
      cases h
    simp only [outcome, netAddrinfoNew, haddr, dif_neg hlong]
    exact ⟨_, rfl⟩

theorem usable_of_makes {src : AddrInfo} {info : NetAddrinfo} (h : Makes src info) :
    src.usable ≠ none := by
  intro hnone
  obtain ⟨e, hfail⟩ := netAddrinfoNew_refused hnone
  rw [Makes, hfail] at h
  cases h

theorem copyCanonname_rule (name : Option Bytes) (hempty : shape.fields .canonname = .empty)
    (hothers : ∀ b old, shape.fields .addr ≠ .loose b old) :
    Raising.Triple (Running c made (some (i, shape))) (copyCanonname i name)
      (fun _ => Running c made (some (i, shape.setField .canonname
        (((name.map cString).map FieldState.kept).getD .empty))))
      (OutOfMemory c made) := by
  cases name with
  | none =>
    have hsame : shape.setField .canonname .empty = shape := by
      rw [ObjShape.setField, ← hempty, Function.update_eq_self]
    refine Raising.Triple.pure fun w hw => ?_
    show Running c made (some (i, shape.setField .canonname .empty)) w
    rwa [hsame]
  | some name =>
    refine anchor_rule (cString name) hempty fun field hne => ?_
    cases field with
    | addr => exact hothers
    | canonname => exact absurd rfl hne

theorem copyAddr_rule (addr : Bytes) (n : Nat) {P : AddrWorld → Prop} :
    Raising.Triple P (copyAddr addr n)
      (fun bytes w => (bytes = addr.take n ∧ n ≤ addr.length) ∧ P w)
      fun e w => P w ∧ e = .overread ∧ addr.length < n := by
  rw [copyAddr]
  split
  · next hle => exact Raising.Triple.pure fun w hw => ⟨⟨rfl, hle⟩, hw⟩
  · next hlt => exact Raising.Triple.raise fun w hw => ⟨hw, rfl, Nat.lt_of_not_le hlt⟩

theorem made_shape {src : AddrInfo} {info : NetAddrinfo} {addr : Bytes}
    (hhints : info.toAddrHints = src.toAddrHints) (hlen : info.addrlen = src.addrlen)
    (haddr : info.addr = addr) (hname : info.canonname = src.canonname.map cString) :
    ((blankShape src).setField .addr (.kept addr)).setField .canonname
      (((src.canonname.map cString).map FieldState.kept).getD .empty) = info.shape := by
  rw [NetAddrinfo.shape, hhints, hlen, haddr, hname]
  simp only [ObjShape.setField, blankShape, ObjShape.mk.injEq, true_and]
  funext field
  cases field <;> rfl

theorem netAddrinfoNewObject_rule (src : AddrInfo) :
    Raising.Triple (Running c made none) (netAddrinfoNewObject src)
      (fun i w => ∃ info, Makes src info ∧ Running c (made ++ [(i, info)]) none w ∧ c.frame ≤ i ∧
        ∀ p ∈ made, p.1 ≠ i)
      fun e w => Running c made none w ∧ Blamed c src e := by
  have hout {α : Type} {P : AddrWorld → Prop} {m : AddrM α} {Q : α → AddrWorld → Prop}
      (h : Raising.Triple P m Q (OutOfMemory c made)) :
      Raising.Triple P m Q fun e w => Running c made none w ∧ Blamed c src e := by
    refine h.mono (fun _ hP => hP) (fun _ _ hQ => hQ) fun e w hE => ?_
    obtain ⟨hrun, rfl, hample⟩ := hE
    exact ⟨hrun, .memory hample⟩
  refine (hout (newInfo_rule src)).bind fun i => ?_
  have hblank : ∀ field, field ≠ .addr → ∀ b old, (blankShape src).fields field ≠ .loose b old :=
    fun _ _ _ _ => nofun
  refine (hout (anchor_rule [] rfl hblank)).bind fun _ => ?_
  cases husable : src.usable with
  | none => exact Raising.Triple.raise fun w hw => ⟨hw.off, .oversize husable⟩
  | some addr =>
    refine ((copyAddr_rule addr src.addrlen).mono (fun _ h => h) (fun _ _ h => h) ?_).bind
      fun bytes => Raising.Triple.of_fact fun hbytes => ?_
    · rintro e w ⟨hw, rfl, hshort⟩
      exact ⟨hw.off, .overread husable hshort⟩
    obtain ⟨rfl, hlen⟩ := hbytes
    obtain ⟨info, hmakes, hhints, hinfolen, haddr, hname⟩ := usable_makes husable hlen
    refine (hout (writeAddr_rule (storage (addr.take src.addrlen)))).bind fun _ => ?_
    have haddr_kept : ∀ b old, ((blankShape src).setField .addr
        (.kept (storage (addr.take src.addrlen)))).fields .addr ≠ .loose b old := fun _ _ => nofun
    refine (hout (copyCanonname_rule src.canonname rfl haddr_kept)).bind fun _ => ?_
    refine Raising.Triple.pure fun w hw => ?_
    rw [made_shape hhints hinfolen haddr hname] at hw
    exact ⟨info, hmakes, hw.finish, (hw.on i _ rfl).2⟩

theorem view_of_stands {w : AddrWorld} {o : InfoObject} {info : NetAddrinfo}
    (h : w.Stands i info.shape) (hi : w.objs[i]? = some o) (hlive : o.gone = false) :
    w.view o = some info := by
  obtain ⟨o', hi', -, hshape⟩ := h
  rw [hi] at hi'
  cases hi'
  obtain ⟨hhints, hlen, hfields⟩ := hshape hlive
  have hlen' : o.addrlen = info.addrlen := hlen
  have hhints' : o.toAddrHints = info.toAddrHints := hhints
  have hderef {field : RefField} {bytes : Bytes} (h : w.Field o field (.kept bytes)) :
      ∃ b, o.ptr field = some b ∧ w.deref b = some bytes := by
    obtain ⟨r, b, -, hptr, hcell, hblock⟩ := h
    refine ⟨b, hptr, ?_⟩
    rw [AddrWorld.deref, if_pos (List.mem_of_getElem? hcell), hblock]
  obtain ⟨b, hptr, haddr⟩ := hderef (hfields .addr)
  have hfits : info.addr.length = storageSize ∧ info.addrlen ≤ storageSize :=
    ⟨info.addr_length, info.addrlen_le⟩
  have hname : w.derefName (o.ptr .canonname) = some info.canonname := by
    have hfield := hfields .canonname
    cases hcase : info.canonname with
    | none =>
      rw [NetAddrinfo.shape, hcase] at hfield
      rw [hfield.2]
      rfl
    | some name =>
      rw [NetAddrinfo.shape, hcase] at hfield
      obtain ⟨b', hptr', hname'⟩ := hderef hfield
      rw [hptr', AddrWorld.derefName, hname']
      rfl
  rw [AddrWorld.view, hptr, hname]
  simp only [Option.bind_eq_bind, Option.bind_some, haddr, hhints', hlen']
  exact dif_pos hfits

end Rules

end LuaNet.Addrinfo
