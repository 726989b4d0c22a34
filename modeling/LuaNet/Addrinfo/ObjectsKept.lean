import LuaNet.Addrinfo.Objects

/-! What `net.addrinfo` objects point to stays alive and as it is, whatever is made and finalized
next to them, and the registry has one reference for each field that holds one. -/

namespace LuaNet.Addrinfo

open LuaNet.Lib

inductive FieldState
  | empty
  | loose (b : Nat) (bytes : Bytes)
  | kept (bytes : Bytes)

def AddrWorld.Field (w : AddrWorld) (o : InfoObject) (field : RefField) : FieldState → Prop
  | .empty => o.ref field = none ∧ o.ptr field = none
  | .loose b bytes => o.ref field = none ∧ o.ptr field = some b ∧ w.blocks[b]? = some bytes ∧
      some b ∉ w.registry
  | .kept bytes => ∃ r b, o.ref field = some r ∧ o.ptr field = some b ∧
      w.registry[r]? = some (some b) ∧ w.blocks[b]? = some bytes

/-- What is known of an object. -/
structure ObjShape extends AddrHints where
  addrlen : Nat
  fields : RefField → FieldState

def AddrWorld.Stands (w : AddrWorld) (i : Nat) (shape : ObjShape) : Prop :=
  ∃ o, w.objs[i]? = some o ∧ (o.gone = true → i < w.frame) ∧
    (o.gone = false → o.toAddrHints = shape.toAddrHints ∧ o.addrlen = shape.addrlen ∧
      ∀ field, w.Field o field (shape.fields field))

/-- The references: each number in use belongs to one field of one object, whose block it keeps
alive and whose finalizer has not run. -/
structure RefsKept (w : AddrWorld) : Prop where
  live : ∀ (i : Nat) (o : InfoObject) field r, w.objs[i]? = some o → o.ref field = some r →
    o.gone = false
  anchored : ∀ (i : Nat) (o : InfoObject) field r, w.objs[i]? = some o → o.ref field = some r →
    ∃ b, o.ptr field = some b ∧ w.registry[r]? = some (some b)
  apart : ∀ (i j : Nat) (o o' : InfoObject) field field' r, w.objs[i]? = some o →
    w.objs[j]? = some o' → o.ref field = some r → o'.ref field' = some r → i = j ∧ field = field'
  used : ∀ (r b : Nat), w.registry[r]? = some (some b) →
    ∃ (i : Nat) (o : InfoObject) (field : RefField), w.objs[i]? = some o ∧ o.ref field = some r
  made : ∀ (r b : Nat), w.registry[r]? = some (some b) → b < w.blocks.length
  blocks : ∀ (r r' : Nat) (b : Nat), w.registry[r]? = some (some b) → w.registry[r']? = some (some b) → r = r'

def NetAddrinfo.shape (info : NetAddrinfo) : ObjShape where
  toAddrHints := info.toAddrHints
  addrlen := info.addrlen
  fields
    | .addr => .kept info.addr
    | .canonname => (info.canonname.map FieldState.kept).getD .empty

structure ObjsKept (made : List (Nat × NetAddrinfo)) (w : AddrWorld) : Prop where
  refs : RefsKept w
  stands : ∀ p ∈ made, w.Stands p.1 p.2.shape

theorem not_anchored {w : AddrWorld} {b : Nat} :
    some b ∉ w.registry ↔ ∀ r : Nat, w.registry[r]? ≠ some (some b) := by
  rw [List.mem_iff_getElem?]
  exact not_exists

theorem RefsKept.of_same {w v : AddrWorld} (h : RefsKept w) (hobjs : v.objs = w.objs)
    (hregistry : v.registry = w.registry) (hblocks : v.blocks = w.blocks) : RefsKept v := by
  constructor
  · rw [hobjs]
    exact h.live
  · rw [hobjs, hregistry]
    exact h.anchored
  · rw [hobjs]
    exact h.apart
  · rw [hobjs, hregistry]
    exact h.used
  · rw [hregistry, hblocks]
    exact h.made
  · rw [hregistry]
    exact h.blocks

/-! Finalizers. -/

section Finalize

variable {w : AddrWorld} {i j r : Nat} {o o' : InfoObject} {field : RefField}

theorem unref_registry (ref : Option Nat) (r : Nat) :
    (w.unref ref).registry[r]? =
      if ref = some r then w.registry[r]?.map fun _ => none else w.registry[r]? := by
  cases ref with
  | none => rfl
  | some r' =>
    rw [AddrWorld.unref, List.getElem?_set]
    by_cases hr : r' = r
    · subst hr
      by_cases hlt : r' < w.registry.length
      · simp [hlt]
      · simp [hlt]
    · simp [hr]

theorem unref_eq (ref : Option Nat) :
    w.unref ref = { w with registry := (w.unref ref).registry } := by
  cases ref with
  | none => rfl
  | some r => rfl

theorem unref_objs (ref : Option Nat) : (w.unref ref).objs = w.objs := by rw [unref_eq]

theorem gcLua_of_some (h : w.objs[i]? = some o) :
    gcLua i w =
      { (w.unref (o.ref .addr)).unref (o.ref .canonname) with
        objs := w.objs.set i o.finalized } := by
  rw [gcLua, h]
  simp only [unref_objs]

theorem gcLua_number (h : w.objs[i]? = some o) (r : Nat) :
    (∃ field, o.ref field = some r) ∧
        (gcLua i w).registry[r]? = w.registry[r]?.map (fun _ => none) ∨
      (∀ field, o.ref field ≠ some r) ∧ (gcLua i w).registry[r]? = w.registry[r]? := by
  have hrun : (gcLua i w).registry[r]? =
      ((w.unref (o.ref .addr)).unref (o.ref .canonname)).registry[r]? := by
    rw [gcLua_of_some h]
  rw [hrun, unref_registry, unref_registry]
  by_cases hname : o.ref .canonname = some r
  · refine .inl ⟨⟨_, hname⟩, ?_⟩
    rw [if_pos hname]
    split
    · rw [Option.map_map]
      rfl
    · rfl
  · rw [if_neg hname]
    by_cases haddr : o.ref .addr = some r
    · exact .inl ⟨⟨_, haddr⟩, if_pos haddr⟩
    · refine .inr ⟨?_, if_neg haddr⟩
      rintro (_ | _)
      · exact haddr
      · exact hname

theorem gcLua_rest (i : Nat) (w : AddrWorld) :
    (gcLua i w).blocks = w.blocks ∧ (gcLua i w).frame = w.frame ∧
      (gcLua i w).objs.length = w.objs.length ∧ (gcLua i w).memory = w.memory ∧
      (gcLua i w).list = w.list ∧ (gcLua i w).lists = w.lists := by
  cases h : w.objs[i]? with
  | none =>
    have hsame : gcLua i w = w := by rw [gcLua, h]
    rw [hsame]
    exact ⟨rfl, rfl, rfl, rfl, rfl, rfl⟩
  | some o =>
    rw [gcLua_of_some h, unref_eq, unref_eq]
    exact ⟨rfl, rfl, List.length_set, rfl, rfl, rfl⟩

theorem gcLua_obj (h : w.objs[i]? = some o) (hj : (gcLua i w).objs[j]? = some o') :
    i = j ∧ o' = o.finalized ∨ i ≠ j ∧ w.objs[j]? = some o' := by
  rw [gcLua_of_some h] at hj
  have hj' : (w.objs.set i o.finalized)[j]? = some o' := hj
  rw [List.getElem?_set] at hj'
  by_cases hij : i = j
  · subst hij
    have hlt : i < w.objs.length := (List.getElem?_eq_some_iff.mp h).1
    rw [if_pos rfl, if_pos hlt] at hj'
    exact .inl ⟨rfl, (Option.some_inj.mp hj').symm⟩
  · rw [if_neg hij] at hj'
    exact .inr ⟨hij, hj'⟩

theorem gcLua_registered (h : w.objs[i]? = some o) {b : Nat}
    (hr : (gcLua i w).registry[r]? = some (some b)) :
    w.registry[r]? = some (some b) ∧ ∀ field, o.ref field ≠ some r := by
  rcases gcLua_number h r with ⟨-, hcell⟩ | ⟨hnot, hcell⟩
  · rw [hcell] at hr
    cases hbefore : w.registry[r]? with
    | none =>
      rw [hbefore] at hr
      cases hr
    | some c =>
      rw [hbefore] at hr
      cases hr
  · exact ⟨hcell.symm.trans hr, hnot⟩

theorem gcLua_kept_number (hrefs : RefsKept w) (h : w.objs[i]? = some o) (hij : i ≠ j)
    (hj : w.objs[j]? = some o') (hr : o'.ref field = some r) :
    (gcLua i w).registry[r]? = w.registry[r]? := by
  rcases gcLua_number h r with ⟨⟨field', hr'⟩, -⟩ | ⟨-, hcell⟩
  · exact absurd (hrefs.apart i j o o' field' field r h hj hr' hr).1 hij
  · exact hcell

theorem RefsKept.gcLua (hrefs : RefsKept w) (i : Nat) : RefsKept (gcLua i w) := by
  cases h : w.objs[i]? with
  | none =>
    have hsame : Addrinfo.gcLua i w = w := by rw [Addrinfo.gcLua, h]
    rwa [hsame]
  | some o =>
    constructor
    · intro j o' field r hj hr
      rcases gcLua_obj h hj with ⟨-, rfl⟩ | ⟨-, hj'⟩
      · cases hr
      · exact hrefs.live j o' field r hj' hr
    · intro j o' field r hj hr
      rcases gcLua_obj h hj with ⟨-, rfl⟩ | ⟨hij, hj'⟩
      · cases hr
      · obtain ⟨b, hptr, hcell⟩ := hrefs.anchored j o' field r hj' hr
        exact ⟨b, hptr, (gcLua_kept_number hrefs h hij hj' hr).trans hcell⟩
    · intro j k o₁ o₂ field field' r hj hk hr hr'
      rcases gcLua_obj h hj with ⟨-, rfl⟩ | ⟨-, hj'⟩
      · cases hr
      rcases gcLua_obj h hk with ⟨-, rfl⟩ | ⟨-, hk'⟩
      · cases hr'
      exact hrefs.apart j k o₁ o₂ field field' r hj' hk' hr hr'
    · intro r b hcell
      obtain ⟨hcell', hnot⟩ := gcLua_registered h hcell
      obtain ⟨j, o', field, hj, hr⟩ := hrefs.used r b hcell'
      have hij : i ≠ j := by
        rintro rfl
        rw [h] at hj
        cases hj
        exact hnot field hr
      refine ⟨j, o', field, ?_, hr⟩
      rw [gcLua_of_some h]
      exact (List.getElem?_set_ne hij).trans hj
    · intro r b hcell
      rw [(gcLua_rest i w).1]
      exact hrefs.made r b (gcLua_registered h hcell).1
    · intro r r' b hcell hcell'
      exact hrefs.blocks r r' b (gcLua_registered h hcell).1 (gcLua_registered h hcell').1

theorem field_gcLua (hrefs : RefsKept w) (hij : i ≠ j) (hj : w.objs[j]? = some o') {s : FieldState}
    (hs : w.Field o' field s) : (gcLua i w).Field o' field s := by
  cases h : w.objs[i]? with
  | none =>
    have hsame : Addrinfo.gcLua i w = w := by rw [Addrinfo.gcLua, h]
    rwa [hsame]
  | some o =>
    have hblocks := (gcLua_rest i w).1
    cases s with
    | empty => exact hs
    | loose b bytes =>
      obtain ⟨href, hptr, hblock, hloose⟩ := hs
      refine ⟨href, hptr, by rwa [hblocks], not_anchored.mpr fun r hcell => ?_⟩
      exact not_anchored.mp hloose r (gcLua_registered h hcell).1
    | kept bytes =>
      obtain ⟨r, b, href, hptr, hcell, hblock⟩ := hs
      exact ⟨r, b, href, hptr, (gcLua_kept_number hrefs h hij hj href).trans hcell,
        by rwa [hblocks]⟩

theorem stands_gcLua (hrefs : RefsKept w) (hi : i < w.frame) {shape : ObjShape}
    (hs : w.Stands j shape) : (gcLua i w).Stands j shape := by
  obtain ⟨o', hj, hframe, hshape⟩ := hs
  have hrest := gcLua_rest i w
  by_cases hij : i = j
  · subst hij
    have hlt : i < w.objs.length := (List.getElem?_eq_some_iff.mp hj).1
    refine ⟨o'.finalized, ?_, fun _ => by rwa [hrest.2.1], nofun⟩
    rw [gcLua_of_some hj]
    show (w.objs.set i o'.finalized)[i]? = _
    rw [List.getElem?_set, if_pos rfl, if_pos hlt]
  · refine ⟨o', ?_, by rwa [hrest.2.1], fun hgone => ?_⟩
    · cases h : w.objs[i]? with
      | none =>
        rw [Addrinfo.gcLua, h]
        exact hj
      | some o =>
        rw [gcLua_of_some h]
        exact (List.getElem?_set_ne hij).trans hj
    · obtain ⟨hhints, hlen, hfields⟩ := hshape hgone
      exact ⟨hhints, hlen, fun field => field_gcLua hrefs hij hj (hfields field)⟩

end Finalize

/-! Making an object, from one step of `net_addrinfo_new` to the next. -/

section Make

variable {w : AddrWorld} {i j b r : Nat} {o o' : InfoObject} {field field' : RefField}
  {bytes : Bytes} {s : FieldState}

theorem modify_obj {g : InfoObject → InfoObject} (h : (w.objs.modify i g)[j]? = some o') :
    i = j ∧ (∃ o, w.objs[i]? = some o ∧ o' = g o) ∨ i ≠ j ∧ w.objs[j]? = some o' := by
  by_cases hij : i = j
  · subst hij
    rw [List.getElem?_modify_eq] at h
    obtain ⟨o, ho, rfl⟩ := Option.map_eq_some_iff.mp h
    exact .inl ⟨rfl, o, ho, rfl⟩
  · rw [List.getElem?_modify_ne _ _ hij] at h
    exact .inr ⟨hij, h⟩

theorem modify_self {g : InfoObject → InfoObject} (h : w.objs[i]? = some o) :
    (w.objs.modify i g)[i]? = some (g o) := by
  rw [List.getElem?_modify_eq, h]
  rfl

theorem RefsKept.addBlock (hrefs : RefsKept w) (h : w.objs[i]? = some o) (hfree : o.ref field = none)
    (bytes : Bytes) : RefsKept (w.addBlock i field bytes) := by
  -- the references of the object are as they were
  have hobj {j : Nat} {o' : InfoObject} (hj : (w.addBlock i field bytes).objs[j]? = some o') :
      ∃ o₁, w.objs[j]? = some o₁ ∧ o'.ref = o₁.ref ∧ o'.gone = o₁.gone ∧
        ∀ field' r, o₁.ref field' = some r → o'.ptr field' = o₁.ptr field' := by
    rcases modify_obj hj with ⟨rfl, o₁, ho₁, rfl⟩ | ⟨-, hj'⟩
    · rw [h] at ho₁
      cases ho₁
      refine ⟨o, h, rfl, rfl, fun field' r hr => Function.update_of_ne ?_ _ _⟩
      rintro rfl
      rw [hfree] at hr
      cases hr
    · exact ⟨o', hj', rfl, rfl, fun _ _ _ => rfl⟩
  constructor
  · intro j o' field' r hj hr
    obtain ⟨o₁, hj', href, hgone, -⟩ := hobj hj
    rw [href] at hr
    rw [hgone]
    exact hrefs.live j o₁ field' r hj' hr
  · intro j o' field' r hj hr
    obtain ⟨o₁, hj', href, -, hptr⟩ := hobj hj
    rw [href] at hr
    rw [hptr field' r hr]
    exact hrefs.anchored j o₁ field' r hj' hr
  · intro j k o' o'' field₁ field₂ r hj hk hr hr'
    obtain ⟨o₁, hj', href, -, -⟩ := hobj hj
    obtain ⟨o₂, hk', href', -, -⟩ := hobj hk
    rw [href] at hr
    rw [href'] at hr'
    exact hrefs.apart j k o₁ o₂ field₁ field₂ r hj' hk' hr hr'
  · intro r b hcell
    obtain ⟨j, o', field', hj, hr⟩ := hrefs.used r b hcell
    by_cases hij : i = j
    · subst hij
      exact ⟨i, _, field', modify_self hj, hr⟩
    · exact ⟨j, o', field', (List.getElem?_modify_ne _ _ hij).trans hj, hr⟩
  · intro r b hcell
    have hlt := hrefs.made r b hcell
    show b < (w.blocks ++ [bytes]).length
    rw [List.length_append]
    exact Nat.lt_add_right _ hlt
  · exact hrefs.blocks

theorem field_addBlock (hs : w.Field o' field' s) : (w.addBlock i field bytes).Field o' field' s := by
  have hblock {b : Nat} {old : Bytes} (hb : w.blocks[b]? = some old) :
      (w.blocks ++ [bytes])[b]? = some old := by
    rw [List.getElem?_append_left (List.getElem?_eq_some_iff.mp hb).1, hb]
  cases s with
  | empty => exact hs
  | loose b old => exact ⟨hs.1, hs.2.1, hblock hs.2.2.1, hs.2.2.2⟩
  | kept old =>
    obtain ⟨r, b, href, hptr, hcell, hb⟩ := hs
    exact ⟨r, b, href, hptr, hcell, hblock hb⟩

theorem field_addBlock_self (hrefs : RefsKept w) (hfree : o.ref field = none) :
    (w.addBlock i field bytes).Field (o.point field w.blocks.length) field
      (.loose w.blocks.length bytes) := by
  refine ⟨hfree, Function.update_self _ _ _, List.getElem?_concat_length, ?_⟩
  refine not_anchored.mpr fun r hcell => ?_
  exact Nat.lt_irrefl _ (hrefs.made r _ hcell)

theorem field_point_other (hne : field' ≠ field) (hs : w.Field o field' s) :
    w.Field (o.point field b) field' s := by
  have hptr : (o.point field b).ptr field' = o.ptr field' := Function.update_of_ne hne _ _
  cases s with
  | empty => exact ⟨hs.1, hptr.trans hs.2⟩
  | loose b' old => exact ⟨hs.1, hptr.trans hs.2.1, hs.2.2⟩
  | kept old =>
    obtain ⟨r, b', href, hb', hrest⟩ := hs
    exact ⟨r, b', href, hptr.trans hb', hrest⟩

theorem addRef_registry (w : AddrWorld) (i : Nat) (field : RefField) (b slot r : Nat) :
    (w.addRef i field b slot).registry[r]? =
      if r = w.refSlot slot then some (some b) else w.registry[r]? := by
  show (if w.registry[slot]? = some none then w.registry.set slot (some b)
    else w.registry ++ [some b])[r]? = _
  rw [AddrWorld.refSlot]
  by_cases hslot : w.registry[slot]? = some none
  · rw [if_pos hslot, if_pos hslot, List.getElem?_set]
    by_cases hr : slot = r
    · subst hr
      rw [if_pos rfl, if_pos rfl, if_pos (List.getElem?_eq_some_iff.mp hslot).1]
    · rw [if_neg hr, if_neg (Ne.symm hr)]
  · rw [if_neg hslot, if_neg hslot]
    by_cases hr : r = w.registry.length
    · subst hr
      rw [if_pos rfl, List.getElem?_concat_length]
    · rw [if_neg hr]
      by_cases hlt : r < w.registry.length
      · exact List.getElem?_append_left hlt
      · rw [List.getElem?_eq_none (Nat.le_of_not_lt hlt), List.getElem?_eq_none]
        rw [List.length_append, List.length_singleton]
        omega

theorem refSlot_free (w : AddrWorld) (slot b : Nat) :
    w.registry[w.refSlot slot]? ≠ some (some b) := by
  rw [AddrWorld.refSlot]
  split
  · next h =>
    rw [h]
    nofun
  · rw [List.getElem?_eq_none (Nat.le_refl _)]
    nofun

theorem addRef_old {slot c : Nat} (hcell : w.registry[r]? = some (some c)) :
    (w.addRef i field b slot).registry[r]? = some (some c) := by
  rw [addRef_registry, if_neg, hcell]
  rintro rfl
  exact refSlot_free w slot c hcell

theorem addRef_cell {slot c : Nat} (h : (w.addRef i field b slot).registry[r]? = some (some c)) :
    r = w.refSlot slot ∧ c = b ∨ r ≠ w.refSlot slot ∧ w.registry[r]? = some (some c) := by
  rw [addRef_registry] at h
  by_cases hr : r = w.refSlot slot
  · rw [if_pos hr] at h
    cases h
    exact .inl ⟨hr, rfl⟩
  · rw [if_neg hr] at h
    exact .inr ⟨hr, h⟩

theorem RefsKept.addRef (hrefs : RefsKept w) (h : w.objs[i]? = some o) (hlive : o.gone = false)
    (hs : w.Field o field (.loose b bytes)) (slot : Nat) : RefsKept (w.addRef i field b slot) := by
  obtain ⟨hfree, hptr, hblock, hloose⟩ := hs
  have hnew : (w.addRef i field b slot).registry[w.refSlot slot]? = some (some b) := by
    rw [addRef_registry, if_pos rfl]
  -- a field has the new reference, or it has what it had
  have hobj {j : Nat} {o' : InfoObject} {field' : RefField} {r : Nat}
      (hj : (w.addRef i field b slot).objs[j]? = some o') (hr : o'.ref field' = some r) :
      (i = j ∧ field' = field ∧ r = w.refSlot slot ∧ o'.ptr = o.ptr ∧ o'.gone = o.gone) ∨
        ∃ o₁, w.objs[j]? = some o₁ ∧ o₁.ref field' = some r ∧ o'.ptr = o₁.ptr ∧
          o'.gone = o₁.gone := by
    rcases modify_obj hj with ⟨rfl, o₁, ho₁, rfl⟩ | ⟨-, hj'⟩
    · rw [h] at ho₁
      cases ho₁
      by_cases hfield : field' = field
      · subst hfield
        have hself : (o.keep field' (w.refSlot slot)).ref field' = some (w.refSlot slot) :=
          Function.update_self _ _ _
        rw [hself] at hr
        cases hr
        exact .inl ⟨rfl, rfl, rfl, rfl, rfl⟩
      · have hother : (o.keep field (w.refSlot slot)).ref field' = o.ref field' :=
          Function.update_of_ne hfield _ _
        rw [hother] at hr
        exact .inr ⟨o, h, hr, rfl, rfl⟩
    · exact .inr ⟨o', hj', hr, rfl, rfl⟩
  have hapart {j : Nat} {o₁ : InfoObject} {field' : RefField} (hj : w.objs[j]? = some o₁) :
      o₁.ref field' ≠ some (w.refSlot slot) := fun hr => by
    obtain ⟨c, -, hcell⟩ := hrefs.anchored j o₁ field' _ hj hr
    exact refSlot_free w slot c hcell
  constructor
  · intro j o' field' r hj hr
    rcases hobj hj hr with ⟨-, -, -, -, hgone⟩ | ⟨o₁, hj', hr', -, hgone⟩
    · rw [hgone, hlive]
    · rw [hgone]
      exact hrefs.live j o₁ field' r hj' hr'
  · intro j o' field' r hj hr
    rcases hobj hj hr with ⟨rfl, rfl, rfl, hptr', -⟩ | ⟨o₁, hj', hr', hptr', -⟩
    · exact ⟨b, by rw [hptr', hptr], hnew⟩
    · obtain ⟨c, hc, hcell⟩ := hrefs.anchored j o₁ field' r hj' hr'
      exact ⟨c, by rw [hptr', hc], addRef_old hcell⟩
  · intro j k o' o'' field₁ field₂ r hj hk hr hr'
    rcases hobj hj hr with ⟨rfl, rfl, rfl, -⟩ | ⟨o₁, hj', hr₁, -⟩
    · rcases hobj hk hr' with ⟨rfl, rfl, -⟩ | ⟨o₂, hk', hr₂, -⟩
      · exact ⟨rfl, rfl⟩
      · exact absurd hr₂ (hapart hk')
    · rcases hobj hk hr' with ⟨rfl, rfl, rfl, -⟩ | ⟨o₂, hk', hr₂, -⟩
      · exact absurd hr₁ (hapart hj')
      · exact hrefs.apart j k o₁ o₂ field₁ field₂ r hj' hk' hr₁ hr₂
  · intro r c hcell
    rcases addRef_cell hcell with ⟨rfl, -⟩ | ⟨-, hcell'⟩
    · exact ⟨i, _, field, modify_self h, Function.update_self _ _ _⟩
    · obtain ⟨j, o₁, field', hj, hr⟩ := hrefs.used r c hcell'
      by_cases hij : i = j
      · subst hij
        rw [h] at hj
        cases hj
        have hne : field' ≠ field := by
          rintro rfl
          rw [hfree] at hr
          cases hr
        exact ⟨i, _, field', modify_self h, (Function.update_of_ne hne _ _).trans hr⟩
      · exact ⟨j, o₁, field', (List.getElem?_modify_ne _ _ hij).trans hj, hr⟩
  · intro r c hcell
    rcases addRef_cell hcell with ⟨-, rfl⟩ | ⟨-, hcell'⟩
    · exact (List.getElem?_eq_some_iff.mp hblock).1
    · exact hrefs.made r c hcell'
  · intro r r' c hcell hcell'
    rcases addRef_cell hcell with ⟨rfl, rfl⟩ | ⟨-, hold⟩
    · rcases addRef_cell hcell' with ⟨hr', -⟩ | ⟨-, hold'⟩
      · exact hr'.symm
      · exact absurd hold' (not_anchored.mp hloose r')
    · rcases addRef_cell hcell' with ⟨-, rfl⟩ | ⟨-, hold'⟩
      · exact absurd hold (not_anchored.mp hloose r)
      · exact hrefs.blocks r r' c hold hold'

theorem field_addRef {slot : Nat} (hs : w.Field o' field' s)
    (hsettled : ∀ b' old, s ≠ .loose b' old) : (w.addRef i field b slot).Field o' field' s := by
  cases s with
  | empty => exact hs
  | loose b' old => exact absurd rfl (hsettled b' old)
  | kept old =>
    obtain ⟨r, b', href, hptr, hcell, hb'⟩ := hs
    exact ⟨r, b', href, hptr, addRef_old hcell, hb'⟩

theorem field_addRef_self {slot : Nat} (hs : w.Field o field (.loose b bytes)) :
    (w.addRef i field b slot).Field (o.keep field (w.refSlot slot)) field (.kept bytes) := by
  obtain ⟨-, hptr, hblock, -⟩ := hs
  refine ⟨w.refSlot slot, b, Function.update_self _ _ _, hptr, ?_, hblock⟩
  rw [addRef_registry, if_pos rfl]

theorem field_keep_other (hne : field' ≠ field) (hs : w.Field o field' s) :
    w.Field (o.keep field r) field' s := by
  have href : (o.keep field r).ref field' = o.ref field' := Function.update_of_ne hne _ _
  cases s with
  | empty => exact ⟨href.trans hs.1, hs.2⟩
  | loose b' old => exact ⟨href.trans hs.1, hs.2⟩
  | kept old =>
    obtain ⟨r', b', hr', hrest⟩ := hs
    exact ⟨r', b', href.trans hr', hrest⟩

theorem field_write (hrefs : RefsKept w) (h : w.objs[i]? = some o) (hj : w.objs[j]? = some o')
    (hr : o.ref field = some r) (hcell : w.registry[r]? = some (some b))
    (hother : ¬ (i = j ∧ field = field')) (hs : w.Field o' field' s) :
    ({ w with blocks := w.blocks.set b bytes } : AddrWorld).Field o' field' s := by
  cases s with
  | empty => exact hs
  | loose b' old =>
    obtain ⟨href, hptr, hb', hloose⟩ := hs
    have hne : b ≠ b' := by
      rintro rfl
      exact not_anchored.mp hloose r hcell
    exact ⟨href, hptr, (List.getElem?_set_ne hne).trans hb', hloose⟩
  | kept old =>
    obtain ⟨r', b', href, hptr, hcell', hb'⟩ := hs
    have hne : b ≠ b' := by
      rintro rfl
      cases hrefs.blocks r r' b hcell hcell'
      exact hother (hrefs.apart i j o o' field field' r h hj hr href)
    exact ⟨r', b', href, hptr, hcell', (List.getElem?_set_ne hne).trans hb'⟩

theorem RefsKept.write (hrefs : RefsKept w) (b : Nat) (bytes : Bytes) :
    RefsKept { w with blocks := w.blocks.set b bytes } where
  live := hrefs.live
  anchored := hrefs.anchored
  apart := hrefs.apart
  used := hrefs.used
  made r b' hcell := by
    have hlt := hrefs.made r b' hcell
    show b' < (w.blocks.set b bytes).length
    rwa [List.length_set]
  blocks := hrefs.blocks

end Make

end LuaNet.Addrinfo
