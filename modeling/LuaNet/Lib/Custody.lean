import LuaNet.Lib.Run
import Mathlib.Data.List.Induction
import Mathlib.Tactic.Common

/-! Custody of resources. An observation may move one resource from one owner to another, where
`none` stands for nobody. A history is lawful when every move takes the resource from the owner
it has at that point; in a lawful history no two moves take one resource from the same owner
unless it came back in between. -/

namespace LuaNet.Lib

variable {ε δ η : Type*}

structure Move (δ η : Type*) where
  what : δ
  src : Option η
  dst : Option η
deriving DecidableEq

section

variable [DecidableEq δ] (move : ε → Option (Move δ η))

def ownerNext (d : δ) (o : Option η) (e : ε) : Option η :=
  match move e with
  | some m => if m.what = d then m.dst else o
  | none => o

def ownerOf (d : δ) (es : List ε) : Option η := es.foldl (ownerNext move d) none

def Lawful (es : List ε) : Prop :=
  Each (fun before e => ∀ m, move e = some m → ownerOf move m.what before = m.src) es

variable {move}

theorem ownerOf_snoc (d : δ) (es : List ε) (e : ε) :
    ownerOf move d (es ++ [e]) = ownerNext move d (ownerOf move d es) e := by
  rw [ownerOf, List.foldl_append, List.foldl_cons, List.foldl_nil, ← ownerOf]

theorem ownerNext_of_none {d : δ} {o : Option η} {e : ε} (h : move e = none) :
    ownerNext move d o e = o := by
  simp only [ownerNext, h]

theorem ownerNext_of_ne {d : δ} {o : Option η} {e : ε} {m : Move δ η} (h : move e = some m)
    (hd : m.what ≠ d) : ownerNext move d o e = o := by
  simp only [ownerNext, h, if_neg hd]

theorem ownerNext_of_eq {o : Option η} {e : ε} {m : Move δ η} (h : move e = some m) :
    ownerNext move m.what o e = m.dst := by
  simp only [ownerNext, h, if_true]

theorem Lawful.snoc_move {es : List ε} {e : ε} {m : Move δ η} (h : Lawful move es)
    (he : move e = some m) (hm : ownerOf move m.what es = m.src) : Lawful move (es ++ [e]) := by
  refine Each.snoc h ?_
  intro n hn
  rw [he] at hn
  cases hn
  exact hm

theorem ownerOf_append_of_none {d : δ} {es fs : List ε} (hfs : ∀ e ∈ fs, move e = none) :
    ownerOf move d (es ++ fs) = ownerOf move d es := by
  induction fs using List.reverseRecOn with
  | nil => rw [List.append_nil]
  | append_singleton fs e ih =>
    rw [← List.append_assoc, ownerOf_snoc, ih fun f hf => hfs f (List.mem_append_left _ hf)]
    exact ownerNext_of_none (hfs e (List.mem_append_right _ (List.mem_singleton_self e)))

theorem Lawful.append_of_none {es fs : List ε} (h : Lawful move es)
    (hfs : ∀ e ∈ fs, move e = none) : Lawful move (es ++ fs) :=
  Each.append_of_forall h fun _ f hf _ hm => nomatch (hfs f hf).symm.trans hm

theorem Lawful.owner_stays {es fs : List ε} {d : δ} {x : Option η}
    (h : Lawful move (es ++ fs)) (hx : ownerOf move d es = x)
    (hfs : ∀ g ∈ fs, ∀ m, move g = some m → m.what = d → m.src ≠ x) :
    ownerOf move d (es ++ fs) = x := by
  induction fs using List.reverseRecOn with
  | nil => rwa [List.append_nil]
  | append_singleton fs g ih =>
    rw [← List.append_assoc] at h ⊢
    have hkeep : ownerOf move d (es ++ fs) = x :=
      ih (Each.left h) fun g' hg' => hfs g' (List.mem_append_left _ hg')
    rw [ownerOf_snoc, hkeep]
    cases hg : move g with
    | none => exact ownerNext_of_none hg
    | some m =>
      by_cases hd : m.what = d
      · subst hd
        have hsrc : ownerOf move m.what (es ++ fs) = m.src := h _ g [] rfl m hg
        exact absurd (hsrc.symm.trans hkeep)
          (hfs g (List.mem_append_right _ (List.mem_singleton_self g)) m hg rfl)
      · exact ownerNext_of_ne hg hd

end

/-- After each `P` no `Q` comes before an `R`. -/
def Separated (P Q R : ε → Prop) (es : List ε) : Prop :=
  ∀ before e mid f after, es = before ++ e :: (mid ++ f :: after) → P e → Q f → ∃ g ∈ mid, R g

theorem Separated.mono {P Q R R' : ε → Prop} {es : List ε} (h : Separated P Q R es)
    (hR : ∀ e, R e → R' e) : Separated P Q R' es := by
  intro before e mid f after heq he hf
  obtain ⟨g, hg, hgR⟩ := h before e mid f after heq he hf
  exact ⟨g, hg, hR g hgR⟩

theorem Lawful.separated [DecidableEq δ] {move : ε → Option (Move δ η)} {es : List ε}
    (h : Lawful move es) {d : δ} {x : Option η} {P Q : ε → Prop}
    (hP : ∀ e, P e → ∃ m, move e = some m ∧ m.what = d ∧ m.dst = x)
    (hQ : ∀ e, Q e → ∃ m, move e = some m ∧ m.what = d ∧ m.src ≠ x) :
    Separated P Q (fun g => ∃ m, move g = some m ∧ m.what = d ∧ m.src = x) es := by
  intro before e mid f after heq he hf
  by_contra hnone
  obtain ⟨m, hm, rfl, rfl⟩ := hP e he
  obtain ⟨n, hn, hwhat, hsrc⟩ := hQ f hf
  have hstart : ownerOf move m.what (before ++ [e]) = m.dst := by
    rw [ownerOf_snoc, ownerNext_of_eq hm]
  have hsplit : es = (before ++ [e] ++ mid) ++ f :: after := by
    rw [heq, List.append_assoc, List.append_assoc, List.singleton_append]
  have hlaw : Lawful move (before ++ [e] ++ mid) := Each.left (hsplit ▸ h)
  have hstay : ownerOf move m.what (before ++ [e] ++ mid) = m.dst :=
    hlaw.owner_stays hstart fun g hg k hk hkd hks => hnone ⟨g, hg, k, hk, hkd, hks⟩
  have htaken : ownerOf move n.what (before ++ [e] ++ mid) = n.src := h _ f after hsplit n hn
  rw [hwhat] at htaken
  exact hsrc (htaken.symm.trans hstay)

end LuaNet.Lib
