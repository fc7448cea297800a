import Mathlib.Data.List.Basic

/-!
# Runs with a log

A machine answers calls one after the other, and the log of a run has each call with its
answer. A call may have no answer, and then the run has none.

`run_inv` is the rule for an invariant of the state and the log so far: it is enough to
show that a call keeps it, given how the call compares with the calls before it.
`Justified` is a property of every entry of a log in view of the entries before it.
-/

namespace Log

open List

variable {σ ι α : Type*}

def run (step : σ → ι → Option (σ × α)) (s : σ) : List ι → Option (σ × List (ι × α))
  | [] => some (s, [])
  | call :: calls =>
    match step s call with
    | none => none
    | some (s', answer) =>
      (run step s' calls).map fun (t, log) => (t, (call, answer) :: log)

variable {step : σ → ι → Option (σ × α)} {s t : σ} {calls : List ι} {log : List (ι × α)} {ε : Type*}
  {P : List ε → ε → Prop}

lemma run_calls (h : run step s calls = some (t, log)) : log.map Prod.fst = calls := by
  induction calls generalizing s log with
  | nil =>
    cases h
    rfl
  | cons call calls ih =>
    cases hs : step s call with
    | none => simp [run, hs] at h
    | some next =>
      simp only [run, hs, Option.map_eq_some_iff] at h
      obtain ⟨⟨t', later⟩, hrun, heq⟩ := h
      cases heq
      rw [map_cons, ih hrun]

lemma run_inv {Inv : σ → List (ι × α) → Prop} {R : ι → ι → Prop}
    (hstep : ∀ s log, ∀ call ∈ calls, Inv s log → (∀ e ∈ log, R e.1 call) →
      ∃ s' answer, step s call = some (s', answer) ∧ Inv s' (log ++ [(call, answer)]))
    (h : Inv s log) (hR : (log.map Prod.fst ++ calls).Pairwise R) :
    ∃ t later, run step s calls = some (t, later) ∧ Inv t (log ++ later) := by
  induction calls generalizing s log with
  | nil => exact ⟨s, [], rfl, by rwa [append_nil]⟩
  | cons call calls ih =>
    have hbefore : ∀ e ∈ log, R e.1 call := by
      intro e he
      exact (pairwise_append.mp hR).2.2 e.1 (mem_map_of_mem he) call
        mem_cons_self
    obtain ⟨s', answer, hs, hinv⟩ := hstep s log call mem_cons_self h hbefore
    have hrest : ((log ++ [(call, answer)]).map Prod.fst ++ calls).Pairwise R := by
      rwa [map_append, map_singleton, append_assoc, singleton_append]
    obtain ⟨t, later, ht, hlater⟩ :=
      ih (fun s log c hc => hstep s log c (mem_cons_of_mem call hc)) hinv hrest
    refine ⟨t, (call, answer) :: later, ?_, ?_⟩
    · simp only [run, hs, ht, Option.map_some]
    · rwa [append_assoc, singleton_append] at hlater

/-- Every entry has `P` in view of those before it. -/
def Justified {ε : Type*} (P : List ε → ε → Prop) (log : List ε) : Prop :=
  ∀ before entry after, log = before ++ entry :: after → P before entry

lemma Justified.nil : Justified P [] :=
  fun _ _ _ h => absurd h (by simp)

lemma Justified.snoc {log : List ε} {entry : ε} (h : Justified P log) (he : P log entry) :
    Justified P (log ++ [entry]) := by
  intro before e after heq
  rcases eq_nil_or_concat after with rfl | ⟨after, last, rfl⟩
  · obtain ⟨rfl, hl⟩ := append_inj' heq rfl
    cases hl
    exact he
  · rw [concat_eq_append, ← cons_append, ← append_assoc] at heq
    exact h before e after (append_inj' heq rfl).1

end Log
