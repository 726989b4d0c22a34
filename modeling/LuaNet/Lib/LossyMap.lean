import Mathlib.Data.List.Induction
import Mathlib.Logic.Function.Basic
import Mathlib.Tactic.Common

/-! A two-level map that may lose entries. An entry is written to the strong level, may be
demoted to the weak level and promoted back, and may be collected only from the weak level.
A history is the list of everything that happened to the map. -/

namespace LuaNet.Lib

inductive MapEvent (κ β : Type*)
  | put (k : κ) (v : β)
  | take (k : κ)
  | clear
  | demote (k : κ)
  | promote (k : κ)
  | collect (k : κ)

def MapEvent.Writes {κ β : Type*} (k : κ) : MapEvent κ β → Prop
  | .put k' _ => k' = k
  | .take k' => k' = k
  | .clear => True
  | _ => False

structure LossyMap (κ β : Type*) where
  strong : κ → Option β
  weak : κ → Option β

namespace LossyMap

variable {κ β : Type*} [DecidableEq κ]

def empty : LossyMap κ β := ⟨fun _ => none, fun _ => none⟩

def apply (m : LossyMap κ β) : MapEvent κ β → LossyMap κ β
  | .put k v => ⟨Function.update m.strong k (some v), Function.update m.weak k none⟩
  | .take k => ⟨Function.update m.strong k none, Function.update m.weak k none⟩
  | .clear => empty
  | .demote k =>
    match m.strong k with
    | some v => ⟨Function.update m.strong k none, Function.update m.weak k (some v)⟩
    | none => m
  | .promote k =>
    match m.weak k with
    | some v => ⟨Function.update m.strong k (some v), Function.update m.weak k none⟩
    | none => m
  | .collect k => ⟨m.strong, Function.update m.weak k none⟩

def run (m : LossyMap κ β) (es : List (MapEvent κ β)) : LossyMap κ β := es.foldl apply m

def visible (m : LossyMap κ β) (k : κ) : Option β := (m.strong k).or (m.weak k)

/-- What a key stands for after a history: the value last put, unless taken or cleared since. -/
def lastPut (es : List (MapEvent κ β)) (k : κ) : Option β :=
  es.foldl (fun last e =>
    match e with
    | .put k' v => if k' = k then some v else last
    | .take k' => if k' = k then none else last
    | .clear => none
    | _ => last) none

theorem run_append (m : LossyMap κ β) (es fs : List (MapEvent κ β)) :
    m.run (es ++ fs) = (m.run es).run fs := List.foldl_append

theorem run_snoc (m : LossyMap κ β) (es : List (MapEvent κ β)) (e : MapEvent κ β) :
    m.run (es ++ [e]) = (m.run es).apply e := List.foldl_append

section LastPut

variable {es : List (MapEvent κ β)} {e : MapEvent κ β} {k : κ} {v : β}

theorem lastPut_put : lastPut (es ++ [.put k v]) k = some v := by
  simp only [lastPut, List.foldl_append, List.foldl_cons, List.foldl_nil, if_true]

theorem lastPut_take : lastPut (es ++ [.take k]) k = none := by
  simp only [lastPut, List.foldl_append, List.foldl_cons, List.foldl_nil, if_true]

theorem lastPut_clear : lastPut (es ++ [.clear]) k = none := by
  simp only [lastPut, List.foldl_append, List.foldl_cons, List.foldl_nil]

theorem lastPut_frame (h : ¬ e.Writes k) : lastPut (es ++ [e]) k = lastPut es k := by
  unfold lastPut
  rw [List.foldl_append, List.foldl_cons, List.foldl_nil]
  cases e with
  | put k' v' => exact if_neg h
  | take k' => exact if_neg h
  | clear => exact absurd trivial h
  | demote k' => rfl
  | promote k' => rfl
  | collect k' => rfl

theorem lastPut_append_frame {fs : List (MapEvent κ β)} (h : ∀ e ∈ fs, ¬ e.Writes k) :
    lastPut (es ++ fs) k = lastPut es k := by
  induction fs using List.reverseRecOn with
  | nil => rw [List.append_nil]
  | append_singleton fs e ih =>
    rw [← List.append_assoc, lastPut_frame (h e (List.mem_append_right _ (List.mem_singleton_self e)))]
    exact ih fun f hf => h f (List.mem_append_left _ hf)

end LastPut

section Apply

variable (m : LossyMap κ β) {e : MapEvent κ β} {k : κ}

theorem apply_strong_frame (hw : ¬ e.Writes k) (hd : e ≠ .demote k) (hp : e ≠ .promote k) :
    (m.apply e).strong k = m.strong k := by
  cases e with
  | put k' v => exact Function.update_of_ne (fun heq => hw heq.symm) _ _
  | take k' => exact Function.update_of_ne (fun heq => hw heq.symm) _ _
  | clear => exact absurd trivial hw
  | demote k' =>
    simp only [apply]
    split
    · exact Function.update_of_ne (fun heq => hd (congrArg MapEvent.demote heq.symm)) _ _
    · rfl
  | promote k' =>
    simp only [apply]
    split
    · exact Function.update_of_ne (fun heq => hp (congrArg MapEvent.promote heq.symm)) _ _
    · rfl
  | collect k' => rfl

theorem apply_weak_frame (hw : ¬ e.Writes k) (hd : e ≠ .demote k) (hp : e ≠ .promote k)
    (hc : e ≠ .collect k) : (m.apply e).weak k = m.weak k := by
  cases e with
  | put k' v => exact Function.update_of_ne (fun heq => hw heq.symm) _ _
  | take k' => exact Function.update_of_ne (fun heq => hw heq.symm) _ _
  | clear => exact absurd trivial hw
  | demote k' =>
    simp only [apply]
    split
    · exact Function.update_of_ne (fun heq => hd (congrArg MapEvent.demote heq.symm)) _ _
    · rfl
  | promote k' =>
    simp only [apply]
    split
    · exact Function.update_of_ne (fun heq => hp (congrArg MapEvent.promote heq.symm)) _ _
    · rfl
  | collect k' => exact Function.update_of_ne (fun heq => hc (congrArg MapEvent.collect heq.symm)) _ _

theorem apply_demote (k : κ) :
    (m.apply (.demote k)).strong k = none ∧
      (m.apply (.demote k)).weak k = (m.strong k).or (m.weak k) := by
  simp only [apply]
  cases hs : m.strong k with
  | none => exact ⟨hs, Option.none_or.symm⟩
  | some v => exact ⟨Function.update_self _ _ _, Function.update_self _ _ _⟩

theorem apply_promote (k : κ) :
    (m.apply (.promote k)).strong k = (m.weak k).or (m.strong k) ∧
      (m.apply (.promote k)).weak k = none := by
  simp only [apply]
  cases hw : m.weak k with
  | none => exact ⟨Option.none_or.symm, hw⟩
  | some v => exact ⟨Function.update_self _ _ _, Function.update_self _ _ _⟩

theorem apply_demote_visible (k k' : κ) : (m.apply (.demote k)).visible k' = m.visible k' := by
  by_cases hk : k = k'
  · subst hk
    rw [visible, (apply_demote m k).1, (apply_demote m k).2, Option.none_or, visible]
  · have hne : (MapEvent.demote k : MapEvent κ β) ≠ .demote k' := fun heq => hk (by cases heq; rfl)
    have hw : ¬ (MapEvent.demote k : MapEvent κ β).Writes k' := not_false
    rw [visible, visible, apply_strong_frame m hw hne (nomatch ·),
      apply_weak_frame m hw hne (nomatch ·) (nomatch ·)]

end Apply

/-- Whatever level shows a value, it is the one last put under its key. -/
theorem run_sound (es : List (MapEvent κ β)) {k : κ} {v : β}
    (h : (empty.run es).strong k = some v ∨ (empty.run es).weak k = some v) :
    lastPut es k = some v := by
  induction es using List.reverseRecOn with
  | nil => rcases h with h | h <;> cases h
  | append_singleton es e ih =>
    rw [run_snoc] at h
    by_cases hw : e.Writes k
    · cases e with
      | put k' v' =>
        obtain rfl : k' = k := hw
        rw [lastPut_put]
        simpa only [apply, Function.update_self, reduceCtorEq, or_false] using h
      | take k' =>
        obtain rfl : k' = k := hw
        simp only [apply, Function.update_self, reduceCtorEq, or_self] at h
      | clear => rcases h with h | h <;> cases h
      | demote k' => exact absurd hw not_false
      | promote k' => exact absurd hw not_false
      | collect k' => exact absurd hw not_false
    · rw [lastPut_frame hw]
      refine ih ?_
      by_cases hd : e = .demote k
      · rw [hd, (apply_demote _ k).1, (apply_demote _ k).2, Option.or_eq_some_iff] at h
        rcases h with h | h | ⟨-, h⟩
        · cases h
        · exact .inl h
        · exact .inr h
      · by_cases hp : e = .promote k
        · rw [hp, (apply_promote _ k).1, (apply_promote _ k).2, Option.or_eq_some_iff] at h
          rcases h with (h | ⟨-, h⟩) | h
          · exact .inr h
          · exact .inl h
          · cases h
        · rw [apply_strong_frame _ hw hd hp] at h
          by_cases hc : e = .collect k
          · rw [hc] at h
            simp only [apply, Function.update_self, reduceCtorEq, or_false] at h
            exact .inl h
          · rwa [apply_weak_frame _ hw hd hp hc] at h

theorem demoted_of_weak (es : List (MapEvent κ β)) {k : κ} {v : β}
    (h : (empty.run es).weak k = some v) : .demote k ∈ es := by
  induction es using List.reverseRecOn with
  | nil => cases h
  | append_singleton es e ih =>
    by_cases hd : e = .demote k
    · exact List.mem_append_right _ (List.mem_singleton.mpr hd.symm)
    · refine List.mem_append_left _ (ih ?_)
      rw [run_snoc] at h
      by_cases hp : e = .promote k
      · rw [hp, (apply_promote _ k).2] at h
        cases h
      · by_cases hc : e = .collect k
        · rw [hc] at h
          simp only [apply, Function.update_self, reduceCtorEq] at h
        · by_cases hw : e.Writes k
          · cases e with
            | put k' v' =>
              obtain rfl : k' = k := hw
              simp only [apply, Function.update_self, reduceCtorEq] at h
            | take k' =>
              obtain rfl : k' = k := hw
              simp only [apply, Function.update_self, reduceCtorEq] at h
            | clear => cases h
            | demote k' => exact absurd hw not_false
            | promote k' => exact absurd hw not_false
            | collect k' => exact absurd hw not_false
          · rwa [apply_weak_frame _ hw hd hp hc] at h

theorem visible_sound {es : List (MapEvent κ β)} {k : κ} {v : β}
    (h : (empty.run es).visible k = some v) : lastPut es k = some v := by
  refine run_sound es ?_
  rcases Option.or_eq_some_iff.mp h with h | ⟨-, h⟩
  · exact .inl h
  · exact .inr h

/-! How an entry gets lost: it is put, later demoted, later collected, and not written since. -/

def Since (k : κ) (e : MapEvent κ β) (P : List (MapEvent κ β) → Prop)
    (es : List (MapEvent κ β)) : Prop :=
  ∃ before after, es = before ++ e :: after ∧ P before ∧ ∀ f ∈ after, ¬ f.Writes k

def PutSince (k : κ) (v : β) : List (MapEvent κ β) → Prop := Since k (.put k v) fun _ => True

def DemotedSince (k : κ) (v : β) : List (MapEvent κ β) → Prop :=
  Since k (.demote k) (PutSince k v)

def LostSince (k : κ) (v : β) : List (MapEvent κ β) → Prop :=
  Since k (.collect k) (DemotedSince k v)

section Fate

variable {k : κ} {v : β} {e f : MapEvent κ β} {P : List (MapEvent κ β) → Prop}
  {es : List (MapEvent κ β)}

omit [DecidableEq κ] in
theorem Since.now (h : P es) : Since k e P (es ++ [e]) :=
  ⟨es, [], rfl, h, fun _ hf => absurd hf List.not_mem_nil⟩

omit [DecidableEq κ] in
theorem Since.later (h : Since k e P es) (hf : ¬ f.Writes k) : Since k e P (es ++ [f]) := by
  obtain ⟨a, b, rfl, hP, hb⟩ := h
  refine ⟨a, b ++ [f], by rw [List.append_assoc, List.cons_append], hP, fun g hg => ?_⟩
  rcases List.mem_append.mp hg with hg | hg
  · exact hb g hg
  · rwa [List.mem_singleton.mp hg]

omit [DecidableEq κ] in
theorem DemotedSince.putSince (h : DemotedSince k v es) : PutSince k v es := by
  obtain ⟨-, c, rfl, ⟨a, b, rfl, -, hb⟩, hc⟩ := h
  refine ⟨a, b ++ .demote k :: c, by rw [List.append_assoc, List.cons_append], trivial, ?_⟩
  intro g hg
  rcases List.mem_append.mp hg with hg | hg
  · exact hb g hg
  · rcases List.mem_cons.mp hg with rfl | hg
    · exact not_false
    · exact hc g hg

omit [DecidableEq κ] in
theorem Since.mem (h : Since k e P es) : e ∈ es := by
  obtain ⟨a, b, rfl, -, -⟩ := h
  exact List.mem_append_right _ List.mem_cons_self

omit [DecidableEq κ] in
theorem LostSince.demoted (h : LostSince k v es) : .demote k ∈ es := by
  obtain ⟨a, b, rfl, hd, -⟩ := h
  exact List.mem_append_left _ hd.mem

/-- A key that stands for a value is in one of the levels, or has been lost. -/
theorem fate (es : List (MapEvent κ β)) (h : lastPut es k = some v) :
    ((empty.run es).strong k = some v ∧ PutSince k v es) ∨
      ((empty.run es).weak k = some v ∧ DemotedSince k v es) ∨ LostSince k v es := by
  induction es using List.reverseRecOn with
  | nil => cases h
  | append_singleton es e ih =>
    rw [run_snoc]
    by_cases hw : e.Writes k
    · cases e with
      | put k' v' =>
        obtain rfl : k' = k := hw
        rw [lastPut_put] at h
        cases h
        exact .inl ⟨Function.update_self _ _ _, Since.now trivial⟩
      | take k' =>
        obtain rfl : k' = k := hw
        rw [lastPut_take] at h
        cases h
      | clear =>
        rw [lastPut_clear] at h
        cases h
      | demote k' => exact absurd hw not_false
      | promote k' => exact absurd hw not_false
      | collect k' => exact absurd hw not_false
    · rw [lastPut_frame hw] at h
      have same (v' : β) (hv' : (empty.run es).strong k = some v' ∨
          (empty.run es).weak k = some v') : v' = v :=
        Option.some.inj ((run_sound es hv').symm.trans h)
      rcases ih h with ⟨hs, hput⟩ | ⟨hweak, hdem⟩ | hlost
      · by_cases hd : e = .demote k
        · subst hd
          refine .inr (.inl ⟨?_, Since.now hput⟩)
          rw [(apply_demote _ k).2, hs, Option.some_or]
        · refine .inl ⟨?_, hput.later hw⟩
          by_cases hp : e = .promote k
          · rw [hp, (apply_promote _ k).1]
            cases hwk : (empty.run es).weak k with
            | none => rw [Option.none_or, hs]
            | some v' => rw [Option.some_or, same v' (.inr hwk)]
          · rw [apply_strong_frame _ hw hd hp, hs]
      · by_cases hd : e = .demote k
        · subst hd
          refine .inr (.inl ⟨?_, hdem.later hw⟩)
          rw [(apply_demote _ k).2]
          cases hsk : (empty.run es).strong k with
          | none => rw [Option.none_or, hweak]
          | some v' => rw [Option.some_or, same v' (.inl hsk)]
        · by_cases hp : e = .promote k
          · subst hp
            refine .inl ⟨?_, hdem.putSince.later hw⟩
            rw [(apply_promote _ k).1, hweak, Option.some_or]
          · by_cases hc : e = .collect k
            · subst hc
              exact .inr (.inr (Since.now hdem))
            · refine .inr (.inl ⟨?_, hdem.later hw⟩)
              rw [apply_weak_frame _ hw hd hp hc, hweak]
      · exact .inr (.inr (hlost.later hw))

/-- An entry disappears without being taken or cleared only if it was demoted, then collected. -/
theorem visible_or_lost (h : lastPut es k = some v) :
    (empty.run es).visible k = some v ∨ LostSince k v es := by
  rcases fate es h with ⟨hs, -⟩ | ⟨hw, -⟩ | hl
  · exact .inl (by rw [visible, hs, Option.some_or])
  · refine .inl ?_
    cases hs : (empty.run es).strong k with
    | none => rw [visible, hs, hw, Option.none_or]
    | some v' =>
      rw [visible, hs, Option.some_or]
      exact (run_sound es (.inl hs)).symm.trans h
  · exact .inr hl

theorem visible_eq_lastPut (h : ∀ k, .demote k ∉ es) (k : κ) :
    (empty.run es).visible k = lastPut es k := by
  cases hl : lastPut es k with
  | none =>
    cases hv : (empty.run es).visible k with
    | none => rfl
    | some v => exact absurd ((visible_sound hv).symm.trans hl) (Option.some_ne_none v)
  | some v =>
    rcases visible_or_lost hl with hv | hlost
    · exact hv
    · exact absurd hlost.demoted (h k)

end Fate
end LossyMap
end LuaNet.Lib
