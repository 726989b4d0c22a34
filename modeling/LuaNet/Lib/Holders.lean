import LuaNet.Lib.Custody
import Mathlib.Logic.Function.Basic

/-! Custody by holders that have room for one resource each, and the count of what comes in and
goes out. -/

namespace LuaNet.Lib

variable {ε δ η : Type*} [DecidableEq δ] {move : ε → Option (Move δ η)}

def enters (move : ε → Option (Move δ η)) (d : δ) (e : ε) : Bool :=
  match move e with
  | some m => decide (m.what = d) && m.src.isNone && m.dst.isSome
  | none => false

def leaves (move : ε → Option (Move δ η)) (d : δ) (e : ε) : Bool :=
  match move e with
  | some m => decide (m.what = d) && m.src.isSome && m.dst.isNone
  | none => false

theorem enters_of_move {e : ε} {m : Move δ η} (h : move e = some m) (d : δ) :
    enters move d e = (decide (m.what = d) && m.src.isNone && m.dst.isSome) := by
  rw [enters, h]

theorem leaves_of_move {e : ε} {m : Move δ η} (h : move e = some m) (d : δ) :
    leaves move d e = (decide (m.what = d) && m.src.isSome && m.dst.isNone) := by
  rw [leaves, h]

/-- In a lawful history a resource leaves as often as it enters, but for its stay now. -/
theorem Lawful.count {es : List ε} (h : Lawful move es) (d : δ) :
    es.countP (enters move d) =
      es.countP (leaves move d) + (ownerOf move d es).isSome.toNat := by
  induction es using List.reverseRecOn with
  | nil => rfl
  | append_singleton es e ih =>
    have hbefore := ih (Each.left h)
    rw [List.countP_append, List.countP_append, List.countP_singleton, List.countP_singleton,
      ownerOf_snoc, hbefore]
    cases hm : move e with
    | none => simp [enters, leaves, hm, ownerNext_of_none hm]
    | some m =>
      rw [enters_of_move hm, leaves_of_move hm]
      by_cases hd : m.what = d
      · subst hd
        have hsrc : ownerOf move m.what es = m.src := h es e [] rfl m hm
        rw [ownerNext_of_eq hm, hsrc]
        cases m.src <;> cases m.dst <;> simp
      · rw [ownerNext_of_ne hm hd]
        simp [hd]

/-- A table that says of each holder what it holds. -/
structure Places (move : ε → Option (Move δ η)) (table : η → Option δ) (es : List ε) : Prop where
  lawful : Lawful move es
  owner : ∀ d h, ownerOf move d es = some h ↔ table h = some d

theorem places_nil : Places move (fun _ => none) [] := ⟨Each.nil _, fun _ _ => ⟨nofun, nofun⟩⟩

section Places

variable [DecidableEq η] {table : η → Option δ} {es : List ε} {e : ε} {d : δ} {x y : η}

omit [DecidableEq η] in
theorem Places.ownerless (h : Places move table es) (hd : ∀ x, table x ≠ some d) :
    ownerOf move d es = none := by
  cases hown : ownerOf move d es with
  | none => rfl
  | some x => exact absurd ((h.owner d x).mp hown) (hd x)

theorem Places.enter (h : Places move table es) (he : move e = some ⟨d, none, some x⟩)
    (hx : table x = none) (hd : ∀ y, table y ≠ some d) :
    Places move (Function.update table x (some d)) (es ++ [e]) where
  lawful := h.lawful.snoc_move he (h.ownerless hd)
  owner := by
    intro c y
    rw [ownerOf_snoc]
    by_cases hc : d = c
    · subst hc
      have hnext : ownerNext move d (ownerOf move d es) e = some x := ownerNext_of_eq he
      rw [hnext, Option.some_inj]
      by_cases hy : y = x
      · simp [hy]
      · simp [hy, Ne.symm hy, hd y]
    · rw [ownerNext_of_ne he hc, h.owner c y]
      by_cases hy : y = x
      · simp [hy, hx, hc]
      · simp [hy]

theorem Places.leave (h : Places move table es) (he : move e = some ⟨d, some x, none⟩)
    (hx : table x = some d) : Places move (Function.update table x none) (es ++ [e]) where
  lawful := h.lawful.snoc_move he ((h.owner d x).mpr hx)
  owner := by
    intro c y
    rw [ownerOf_snoc]
    by_cases hc : d = c
    · subst hc
      have hnext : ownerNext move d (ownerOf move d es) e = none := ownerNext_of_eq he
      have hfree (hy : y ≠ x) : table y ≠ some d := fun hheld =>
        hy (Option.some_inj.mp (((h.owner d y).mpr hheld).symm.trans ((h.owner d x).mpr hx)))
      rw [hnext]
      by_cases hy : y = x
      · simp [hy]
      · simp [hy, hfree hy]
    · rw [ownerNext_of_ne he hc, h.owner c y]
      by_cases hy : y = x
      · simp [hy, hx, hc]
      · simp [hy]

theorem Places.pass (h : Places move table es) (he : move e = some ⟨d, some x, some y⟩)
    (hx : table x = some d) (hy : table y = none) :
    Places move (Function.update (Function.update table x none) y (some d)) (es ++ [e]) where
  lawful := h.lawful.snoc_move he ((h.owner d x).mpr hx)
  owner := by
    have hne : x ≠ y := by
      rintro rfl
      exact absurd (hx.symm.trans hy) nofun
    intro c z
    rw [ownerOf_snoc]
    by_cases hc : d = c
    · subst hc
      have hnext : ownerNext move d (ownerOf move d es) e = some y := ownerNext_of_eq he
      have hfree (hz : z ≠ x) : table z ≠ some d := fun hheld =>
        hz (Option.some_inj.mp (((h.owner d z).mpr hheld).symm.trans ((h.owner d x).mpr hx)))
      rw [hnext, Option.some_inj]
      by_cases hzy : z = y
      · simp [hzy]
      · by_cases hzx : z = x
        · simp [hzx, hne, Ne.symm hne]
        · simp [hzy, hzx, Ne.symm hzy, hfree hzx]
    · rw [ownerNext_of_ne he hc, h.owner c z]
      by_cases hzy : z = y
      · simp [hzy, hy, hc]
      · by_cases hzx : z = x
        · simp [hzx, hne, hx, hc]
        · simp [hzy, hzx]

end Places

end LuaNet.Lib
