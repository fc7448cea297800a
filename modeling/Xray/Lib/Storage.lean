import Mathlib.Data.List.Basic

/-!
# Storage that is overwritten in place

`overwrite s n c` writes `c` over the elements of `s` from the `n`-th on. The storage keeps its
length: what would stand past its end is dropped.
-/

namespace Storage

variable {α : Type*}

def overwrite : List α → Nat → List α → List α
  | [], _, _ => []
  | a :: s, n + 1, content => a :: overwrite s n content
  | a :: s, 0, [] => a :: s
  | _ :: s, 0, c :: content => c :: overwrite s 0 content

@[simp] lemma length_overwrite (s : List α) (n : Nat) (content : List α) :
    (overwrite s n content).length = s.length := by
  fun_induction overwrite s n content with
  | case1 | case3 => rfl
  | case2 a s n content ih | case4 a s c content ih =>
    rw [List.length_cons, List.length_cons, ih]

lemma overwrite_zero {middle content : List α} (rest : List α)
    (h : content.length = middle.length) : overwrite (middle ++ rest) 0 content = content ++ rest := by
  induction middle generalizing content with
  | nil =>
    obtain rfl := List.eq_nil_of_length_eq_zero h
    cases rest <;> rfl
  | cons a middle ih =>
    cases content with
    | nil => cases h
    | cons c content =>
      rw [List.cons_append, overwrite, ih (Nat.succ.inj h), List.cons_append]

lemma overwrite_middle {s front middle rest content : List α} {n : Nat}
    (hs : s = front ++ (middle ++ rest)) (hn : n = front.length)
    (h : content.length = middle.length) : overwrite s n content = front ++ (content ++ rest) := by
  subst hs hn
  induction front with
  | nil => exact overwrite_zero rest h
  | cons a front ih => rw [List.cons_append, List.length_cons, overwrite, ih, List.cons_append]

end Storage
