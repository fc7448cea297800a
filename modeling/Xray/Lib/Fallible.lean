import Mathlib.Data.List.Forall2

/-!
# Computations that may fail

Inversion of a sequence of fallible steps: the whole succeeds when each step
does, and the value of each is at hand. A proof about a parser takes its steps
apart with these and never unfolds the monad.
-/

namespace Fallible

variable {ε α β : Type} {x : Except ε α} {f : α → Except ε β} {r : β} {e : ε}

lemma bind_eq_ok : x >>= f = .ok r ↔ ∃ a, x = .ok a ∧ f a = .ok r := by
  constructor
  · intro h
    cases x with
    | error e => cases h
    | ok a => exact ⟨a, rfl, h⟩
  · intro h
    obtain ⟨a, hx, hf⟩ := h
    rw [hx]
    exact hf

lemma bind_ok {a : α} : (.ok a : Except ε α) >>= f = f a := rfl

lemma bind_error : (.error e : Except ε α) >>= f = .error e := rfl

lemma pure_eq_ok {a b : α} : (pure a : Except ε α) = .ok b ↔ a = b :=
  ⟨fun h => by cases h; rfl, fun h => by rw [h]; rfl⟩

lemma mapM_ok {R : β → α → Prop} :
    ∀ {l : List α}, (∀ a ∈ l, ∃ b, f a = .ok b ∧ R b a) →
      ∃ bs, l.mapM f = .ok bs ∧ List.Forall₂ R bs l
  | [], _ => ⟨[], rfl, .nil⟩
  | a :: l, h => by
    obtain ⟨b, hb, hr⟩ := h a (by simp)
    obtain ⟨bs, hbs, hrs⟩ := mapM_ok (l := l) fun a ha => h a (List.mem_cons_of_mem _ ha)
    refine ⟨b :: bs, ?_, .cons hr hrs⟩
    rw [List.mapM_cons, hb, hbs]
    rfl

end Fallible
