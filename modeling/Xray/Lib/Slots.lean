import Mathlib.Algebra.Order.Ring.Nat
import Mathlib.Data.List.Forall2

/-!
# Slots that are filled one by one

A row of slots, each empty or filled once. How many are filled and how much they
weigh change in step with `set`, and the row is full when as many are filled as there
are slots.

`restrict` is the row that has some of the contents it is to be filled with. To set a
slot is to have one more, and to have them all is to be full.
-/

namespace Slots

open List

variable {α : Type*}

def filled (slots : List (Option α)) : Nat := slots.countP Option.isSome

def weight (w : α → Nat) (slots : List (Option α)) : Nat := (slots.map fun s => s.elim 0 w).sum

lemma filled_le (slots : List (Option α)) : filled slots ≤ slots.length := countP_le_length

lemma filled_replicate (n : Nat) : filled (List.replicate n (none : Option α)) = 0 := by
  simp [filled, countP_replicate]

lemma filled_map_some (contents : List α) : filled (contents.map some) = contents.length := by
  rw [filled, countP_map]
  exact countP_eq_length.mpr fun _ _ => rfl

lemma weight_replicate (w : α → Nat) (n : Nat) : weight w (List.replicate n none) = 0 := by
  simp [weight]

variable {slots : List (Option α)} {contents : List α}

lemma filled_set {k : Nat} (h : slots[k]? = some none) (a : α) :
    filled (slots.set k (some a)) = filled slots + 1 := by
  induction slots generalizing k with
  | nil => simp at h
  | cons s slots ih =>
    cases k with
    | zero =>
      cases h
      simp [filled]
    | succ k =>
      have hk := ih (k := k) h
      simp only [filled, set_cons_succ, countP_cons] at hk ⊢
      omega

lemma weight_set (w : α → Nat) {k : Nat} (h : slots[k]? = some none) (a : α) :
    weight w (slots.set k (some a)) = weight w slots + w a := by
  induction slots generalizing k with
  | nil => simp at h
  | cons s slots ih =>
    cases k with
    | zero =>
      cases h
      simp [weight, Nat.add_comm]
    | succ k =>
      have hk := ih (k := k) h
      simp only [weight, set_cons_succ, map_cons, sum_cons] at hk ⊢
      omega

lemma exists_of_full (h : filled slots = slots.length) :
    ∃ contents : List α, slots = contents.map some := by
  induction slots with
  | nil => exact ⟨[], rfl⟩
  | cons s slots ih =>
    have hle := filled_le slots
    cases s with
    | none =>
      simp only [filled] at h hle
      simp at h
      omega
    | some a =>
      obtain ⟨contents, rfl⟩ := ih (by simpa [filled] using h)
      exact ⟨a :: contents, rfl⟩

lemma filled_lt {k : Nat} (h : slots[k]? = some none) : filled slots < slots.length := by
  have hle := filled_le slots
  rcases Nat.lt_or_ge (filled slots) slots.length with hlt | hge
  · exact hlt
  · obtain ⟨contents, rfl⟩ := exists_of_full (Nat.le_antisymm hle hge)
    rw [getElem?_map] at h
    exact absurd h (by cases contents[k]? <;> simp)

/-- The contents at the places where `p` holds. -/
def restrict (p : Nat → Bool) (contents : List α) : List (Option α) :=
  contents.mapIdx fun k a => if p k then some a else none

@[simp] lemma length_restrict (p : Nat → Bool) (contents : List α) :
    (restrict p contents).length = contents.length := length_mapIdx

lemma getElem?_restrict (p : Nat → Bool) (contents : List α) (k : Nat) :
    (restrict p contents)[k]? = contents[k]?.map fun a => if p k then some a else none :=
  getElem?_mapIdx

lemma restrict_congr {p q : Nat → Bool} (h : ∀ k < contents.length, p k = q k) :
    restrict p contents = restrict q contents := by
  refine ext_getElem? fun k => ?_
  rw [getElem?_restrict, getElem?_restrict]
  rcases Nat.lt_or_ge k contents.length with hk | hk
  · rw [h k hk]
  · rw [getElem?_eq_none hk]
    rfl

lemma restrict_false (contents : List α) :
    restrict (fun _ => false) contents = List.replicate contents.length none := by
  refine ext_getElem? fun k => ?_
  rw [getElem?_restrict]
  rcases Nat.lt_or_ge k contents.length with hk | hk
  · simp [hk]
  · simp [Nat.not_lt.mpr hk]

lemma restrict_true {p : Nat → Bool} (h : ∀ k < contents.length, p k) :
    restrict p contents = contents.map some := by
  refine ext_getElem? fun k => ?_
  rw [getElem?_restrict, getElem?_map]
  rcases Nat.lt_or_ge k contents.length with hk | hk
  · simp [h k hk]
  · rw [getElem?_eq_none hk]
    rfl

lemma set_restrict (p : Nat → Bool) {k : Nat} {a : α} (h : contents[k]? = some a) :
    (restrict p contents).set k (some a) = restrict (fun j => p j || j == k) contents := by
  refine ext_getElem? fun j => ?_
  rw [getElem?_set, getElem?_restrict, getElem?_restrict]
  by_cases hj : k = j
  · subst hj
    have hk := (List.getElem_of_getElem? h).1
    rw [length_restrict, if_pos hk, h]
    simp
  · have hne : (j == k) = false := by simpa using Ne.symm hj
    simp [hj, hne]

lemma weight_restrict_le (w : α → Nat) (p : Nat → Bool) (contents : List α) :
    weight w (restrict p contents) ≤ (contents.map w).sum := by
  induction contents generalizing p with
  | nil => exact Nat.le_refl 0
  | cons a contents ih =>
    have hrest := ih fun k => p (k + 1)
    simp only [restrict, mapIdx_cons] at hrest ⊢
    split
    · exact Nat.add_le_add_left hrest _
    · exact Nat.le_trans (Nat.add_le_add_left hrest _) (by simp)

end Slots
