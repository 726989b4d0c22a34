import LuaNet.Lib.Run

/-! Conservation of what flows through a stateful component. A ledger says what a state holds
and what an observation brings in and takes out; a run is balanced when everything taken out,
followed by what is still held, is what was held before followed by everything brought in. -/

namespace LuaNet.Lib

variable {σ ι ε α : Type*}

structure Ledger (σ ε α : Type*) where
  held : σ → List α
  inflow : ε → List α
  outflow : ε → List α

namespace Ledger

variable (L : Ledger σ ε α)

def Balanced (s : σ) (es : List ε) (t : σ) : Prop :=
  es.flatMap L.outflow ++ L.held t = L.held s ++ es.flatMap L.inflow

theorem balanced_nil (s : σ) : L.Balanced s [] s := by
  simp only [Balanced, List.flatMap_nil, List.nil_append, List.append_nil]

theorem balanced_single {s t : σ} {e : ε}
    (h : L.outflow e ++ L.held t = L.held s ++ L.inflow e) : L.Balanced s [e] t := by
  simpa only [Balanced, List.flatMap_cons, List.flatMap_nil, List.append_nil] using h

variable {L}

theorem balanced_frame {s t : σ} {es : List ε} (hheld : L.held t = L.held s)
    (hin : ∀ e ∈ es, L.inflow e = []) (hout : ∀ e ∈ es, L.outflow e = []) :
    L.Balanced s es t := by
  rw [Balanced, hheld, List.flatMap_eq_nil_iff.mpr hin, List.flatMap_eq_nil_iff.mpr hout,
    List.nil_append, List.append_nil]

theorem Balanced.trans {s t u : σ} {es fs : List ε} (h : L.Balanced s es t)
    (h' : L.Balanced t fs u) : L.Balanced s (es ++ fs) u := by
  unfold Balanced at *
  rw [List.flatMap_append, List.flatMap_append, List.append_assoc, h', ← List.append_assoc, h,
    List.append_assoc]

/-- Steps that balance, under an invariant they keep, make every run balance. -/
theorem runs_balanced {step : σ → ι → σ × List ε} {I : σ → Prop}
    (hstep : ∀ s i, I s → I (step s i).1 ∧ L.Balanced s (step s i).2 (step s i).1)
    {s : σ} (hs : I s) (is : List ι) :
    L.Balanced s (runs step s is).2 (runs step s is).1 :=
  runs_trace hstep L.balanced_nil Balanced.trans hs is

end Ledger
end LuaNet.Lib
