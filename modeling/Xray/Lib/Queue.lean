import Mathlib.Data.List.Basic

/-!
# A queue that loses nothing while it lives

What was put in is what was taken out, what is queued, and perhaps a rest that was thrown
away. `Conserved` says that a rest is thrown away only with the whole queue and only when
its owner is dead; so what is taken out is always a prefix of what was put in, and while
the owner lives the two differ by what is queued.
-/

namespace Queue

variable {α : Type*} {total got queued : List α} {dead dead' : Prop}

def Conserved (total got queued : List α) (dead : Prop) : Prop :=
  ∃ lost, total = got ++ queued ++ lost ∧ (lost ≠ [] → queued = [] ∧ dead)

namespace Conserved

lemma nil : Conserved ([] : List α) [] [] dead := ⟨[], rfl, fun h => absurd rfl h⟩

section

variable (h : Conserved total got queued dead)

include h

lemma got_initial : got <+: total := by
  obtain ⟨lost, rfl, -⟩ := h
  exact ⟨queued ++ lost, (List.append_assoc ..).symm⟩

lemma alive (halive : ¬ dead) : total = got ++ queued := by
  obtain ⟨lost, rfl, hlost⟩ := h
  by_cases hnil : lost = []
  · rw [hnil, List.append_nil]
  · exact absurd (hlost hnil).2 halive

lemma push (halive : ¬ dead) (items : List α) :
    Conserved (total ++ items) got (queued ++ items) dead := by
  refine ⟨[], ?_, fun h => absurd rfl h⟩
  rw [h.alive halive, List.append_nil, List.append_assoc]

end

lemma take {items rest : List α} (h : Conserved total got (items ++ rest) dead) :
    Conserved total (got ++ items) rest dead := by
  obtain ⟨lost, rfl, hlost⟩ := h
  refine ⟨lost, by simp only [List.append_assoc], fun hne => ?_⟩
  exact ⟨(List.append_eq_nil_iff.mp (hlost hne).1).2, (hlost hne).2⟩

lemma clear (h : Conserved total got queued dead) (hdead : dead') :
    Conserved total got [] dead' := by
  obtain ⟨lost, rfl, -⟩ := h
  exact ⟨queued ++ lost, by simp only [List.append_nil, List.append_assoc], fun _ => ⟨rfl, hdead⟩⟩

lemma mono (h : Conserved total got queued dead) (himp : dead → dead') :
    Conserved total got queued dead' := by
  obtain ⟨lost, rfl, hlost⟩ := h
  exact ⟨lost, rfl, fun hne => ⟨(hlost hne).1, himp (hlost hne).2⟩⟩

end Conserved

end Queue
