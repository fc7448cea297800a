import Mathlib.Data.Option.Basic

/-!
# Machines that take one input at a time

A machine moves on an input, or cannot. `run` gives the state after a list of inputs, if each
of them could be taken. What every move keeps, every run keeps (`run_keeps`).
-/

namespace Machine

variable {σ ι : Type*} {step : σ → ι → Option σ}

def run (step : σ → ι → Option σ) : σ → List ι → Option σ
  | s, [] => some s
  | s, i :: inputs => (step s i).bind fun t => run step t inputs

lemma run_cons {s t u : σ} {i : ι} {inputs : List ι} (h : step s i = some t)
    (hrun : run step t inputs = some u) : run step s (i :: inputs) = some u := by
  rw [run, h]
  exact hrun

lemma run_keeps {P : σ → Prop} (hstep : ∀ {s t i}, P s → step s i = some t → P t) {s t : σ}
    {inputs : List ι} (h : P s) (hrun : run step s inputs = some t) : P t := by
  induction inputs generalizing s with
  | nil =>
    cases hrun
    exact h
  | cons i inputs ih =>
    obtain ⟨next, hnext, hrun⟩ := Option.bind_eq_some_iff.mp hrun
    exact ih (hstep h hnext) hrun

end Machine
