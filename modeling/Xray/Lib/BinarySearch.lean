import Mathlib.Data.List.Basic

/-!
# Binary search (`binary_search_by` of Rust's slices)

The search narrows a range without looking for equality, and compares once at the end. On items
that are in strict order it finds the place of the item that is equal, if there is one.
-/

namespace BinarySearch

variable {α : Type*} (f : α → Ordering)

/-- Halves the range of `size` items from `base` on until one item is left. -/
def narrow (items : List α) (base size : Nat) : Nat :=
  if 1 < size then
    narrow items
      (if (items[base + size / 2]?).map f = some .gt then base else base + size / 2)
      (size - size / 2)
  else base
termination_by size
decreasing_by omega

/-- The place of an item that compares as equal. -/
def binarySearchBy (items : List α) : Option Nat :=
  if items = [] then none
  else
    let base := narrow f items 0 items.length
    if (items[base]?).map f = some .eq then some base else none

variable {f}

/-- First come the items below, then at most one that is equal, then those above. -/
def Ordered (f : α → Ordering) (items : List α) : Prop :=
  items.Pairwise fun a b => f a ≠ .lt → f b = .gt

variable {items : List α}

lemma Ordered.gt_of_lt (h : Ordered f items) {i j : Nat} {a b : α} (ha : items[i]? = some a)
    (hb : items[j]? = some b) (hij : i < j) (hne : f a ≠ .lt) : f b = .gt := by
  obtain ⟨hi, rfl⟩ := List.getElem_of_getElem? ha
  obtain ⟨hj, rfl⟩ := List.getElem_of_getElem? hb
  exact List.pairwise_iff_getElem.mp h i j hi hj hij hne

lemma narrow_eq (h : Ordered f items) {i base size : Nat} {a : α} (ha : items[i]? = some a)
    (heq : f a = .eq) (hle : base ≤ i) (hlt : i < base + size) (hsize : base + size ≤ items.length) :
    narrow f items base size = i := by
  induction size using Nat.strongRecOn generalizing base with
  | ind size ih =>
  rw [narrow]
  split
  · next hlong =>
    have hmid : base + size / 2 < items.length := by omega
    have hb : items[base + size / 2]? = some (items[base + size / 2]) :=
      List.getElem?_eq_getElem hmid
    have hne : f a ≠ .lt := by rw [heq]; simp
    split
    · next hgt =>
      -- the item is before the middle, which is above it
      rw [hb, Option.map_some, Option.some.injEq] at hgt
      have hbefore : i < base + size / 2 := by
        rcases Nat.lt_trichotomy i (base + size / 2) with hlt | rfl | hgt'
        · exact hlt
        · rw [hb, Option.some.injEq] at ha
          rw [ha, heq] at hgt
          simp at hgt
        · have := h.gt_of_lt hb ha hgt' (by rw [hgt]; simp)
          rw [heq] at this
          simp at this
      exact ih _ (by omega) hle (by omega) (by omega)
    next hnot =>
    rw [hb, Option.map_some, Option.some.injEq] at hnot
    have hafter : base + size / 2 ≤ i := by
      refine Nat.le_of_not_lt fun hbefore => hnot ?_
      exact h.gt_of_lt ha hb hbefore hne
    exact ih _ (by omega) hafter (by omega) (by omega)
  · omega

lemma binarySearchBy_of_eq (h : Ordered f items) {i : Nat} {a : α} (ha : items[i]? = some a)
    (heq : f a = .eq) : binarySearchBy f items = some i := by
  have hlt : i < items.length := (List.getElem_of_getElem? ha).1
  have hsome : items ≠ [] := by
    rintro rfl
    exact absurd hlt (Nat.not_lt_zero _)
  have hnarrow : narrow f items 0 items.length = i :=
    narrow_eq h ha heq (Nat.zero_le _) (by omega) (by omega)
  rw [binarySearchBy, if_neg hsome]
  dsimp only
  rw [hnarrow, ha, Option.map_some, heq, if_pos rfl]

lemma eq_of_binarySearchBy {i : Nat} (h : binarySearchBy f items = some i) :
    ∃ a, items[i]? = some a ∧ f a = .eq := by
  rw [binarySearchBy] at h
  split at h
  · cases h
  · dsimp only at h
    split at h
    · next hfound =>
      cases h
      exact Option.map_eq_some_iff.mp hfound
    · cases h

end BinarySearch
