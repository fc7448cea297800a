import Mathlib.Data.List.AList
import Mathlib.Data.Finset.Erase
import Mathlib.Data.Finset.Insert

/-!
# Indexes of a slot table

A slot table is a partial function from positions. An index answers which slot
holds the entry with a given key, and a marker set holds a stamp for each taken
slot. Both are kept in step with the table by the same three updates: filling
an empty slot, clearing a slot, and replacing an entry by one with the same key.
-/

namespace SlotIndex

open AList

variable {E K T : Type*} [DecidableEq K]

/-- The index finds exactly the entries, by their key. -/
def Indexes (key : E → K) (index : AList (fun _ : K => Nat)) (slots : Nat → Option E) : Prop :=
  ∀ k i, index.lookup k = some i ↔ ∃ e, slots i = some e ∧ key e = k

/-- The set holds exactly the stamps of the entries, with their slots. -/
def Marks (stamp : E → T) (marks : Finset (T × Nat)) (slots : Nat → Option E) : Prop :=
  ∀ t i, (t, i) ∈ marks ↔ ∃ e, slots i = some e ∧ stamp e = t

lemma update_eq_some {slots : Nat → Option E} {i j : Nat} {x : Option E} {e : E} :
    Function.update slots i x j = some e ↔ (j = i ∧ x = some e) ∨ (j ≠ i ∧ slots j = some e) := by
  rw [Function.update_apply]
  split <;> simp [*]

variable {key : E → K} {index : AList (fun _ : K => Nat)} {slots : Nat → Option E} {i j : Nat}
  {e e' : E}

section

variable (h : Indexes key index slots)

include h

lemma Indexes.unique (hi : slots i = some e)
    (hj : slots j = some e') (heq : key e = key e') : i = j :=
  Option.some.inj (((h _ _).mpr ⟨e, hi, heq⟩).symm.trans ((h _ _).mpr ⟨e', hj, rfl⟩))

lemma Indexes.fill (hempty : slots i = none) (hkey : index.lookup (key e) = none) :
    Indexes key (index.insert (key e) i) (Function.update slots i (some e)) := by
  intro k j
  simp only [update_eq_some]
  by_cases hk : k = key e
  · subst hk
    rw [lookup_insert]
    constructor
    · intro hj
      obtain rfl := Option.some.inj hj
      exact ⟨e, .inl ⟨rfl, rfl⟩, rfl⟩
    · intro hj
      obtain ⟨e', ⟨rfl, -⟩ | ⟨-, he'⟩, hkey'⟩ := hj
      · rfl
      · exact absurd (hkey.symm.trans ((h _ _).mpr ⟨e', he', hkey'⟩)) (by simp)
  · rw [lookup_insert_ne hk, h]
    constructor
    · intro hj
      obtain ⟨e', he', hkey'⟩ := hj
      refine ⟨e', .inr ⟨?_, he'⟩, hkey'⟩
      intro hji
      subst hji
      cases hempty.symm.trans he'
    · intro hj
      obtain ⟨e', ⟨-, he'⟩ | ⟨-, he'⟩, hkey'⟩ := hj
      · obtain rfl := Option.some.inj he'
        exact absurd hkey'.symm hk
      · exact ⟨e', he', hkey'⟩

lemma Indexes.clear (hi : slots i = some e) :
    Indexes key (index.erase (key e)) (Function.update slots i none) := by
  intro k j
  simp only [update_eq_some]
  by_cases hk : k = key e
  · subst hk
    rw [lookup_erase]
    constructor
    · intro hj
      cases hj
    intro hj
    obtain ⟨e', ⟨-, he'⟩ | ⟨hne, he'⟩, hkey'⟩ := hj
    · cases he'
    · exact absurd (h.unique he' hi hkey') hne
  · rw [lookup_erase_ne hk, h]
    constructor
    · intro hj
      obtain ⟨e', he', hkey'⟩ := hj
      refine ⟨e', .inr ⟨?_, he'⟩, hkey'⟩
      intro hji
      subst hji
      obtain rfl := Option.some.inj (hi.symm.trans he')
      exact hk hkey'.symm
    · intro hj
      obtain ⟨e', ⟨-, he'⟩ | ⟨-, he'⟩, hkey'⟩ := hj
      · cases he'
      · exact ⟨e', he', hkey'⟩

lemma Indexes.replace (hi : slots i = some e)
    (hkey : key e' = key e) : Indexes key index (Function.update slots i (some e')) := by
  intro k j
  simp only [update_eq_some]
  rw [h]
  constructor
  · intro hj
    obtain ⟨x, hx, hkx⟩ := hj
    by_cases hji : j = i
    · subst hji
      obtain rfl := Option.some.inj (hi.symm.trans hx)
      exact ⟨e', .inl ⟨rfl, rfl⟩, hkey.trans hkx⟩
    · exact ⟨x, .inr ⟨hji, hx⟩, hkx⟩
  · intro hj
    obtain ⟨x, ⟨rfl, hx⟩ | ⟨-, hx⟩, hkx⟩ := hj
    · obtain rfl := Option.some.inj hx
      exact ⟨e, hi, hkey.symm.trans hkx⟩
    · exact ⟨x, hx, hkx⟩

end

lemma length_keys_insert {k : K} (hk : index.lookup k = none) :
    (index.insert k i).keys.length = index.keys.length + 1 := by
  rw [keys_insert, List.length_cons, List.erase_of_not_mem (mem_keys.not.mp (lookup_eq_none.mp hk))]

lemma length_keys_erase {k : K} (hk : index.lookup k = some i) :
    (index.erase k).keys.length + 1 = index.keys.length := by
  have hmem : k ∈ index.keys := by
    rw [← mem_keys, ← lookup_isSome, hk]
    rfl
  rw [keys_erase, List.length_erase_of_mem hmem]
  have := List.length_pos_of_mem hmem
  omega

variable [DecidableEq T] {stamp : E → T} {marks : Finset (T × Nat)}

variable (h : Marks stamp marks slots)

include h

lemma Marks.fill (hempty : slots i = none) :
    Marks stamp (insert (stamp e, i) marks) (Function.update slots i (some e)) := by
  intro t j
  rw [Finset.mem_insert, h, Prod.mk.injEq]
  simp only [update_eq_some]
  constructor
  · intro hj
    rcases hj with ⟨rfl, rfl⟩ | ⟨x, hx, hsx⟩
    · exact ⟨e, .inl ⟨rfl, rfl⟩, rfl⟩
    refine ⟨x, .inr ⟨?_, hx⟩, hsx⟩
    intro hji
    subst hji
    cases hempty.symm.trans hx
  · intro hj
    obtain ⟨x, ⟨rfl, hx⟩ | ⟨-, hx⟩, hsx⟩ := hj
    · obtain rfl := Option.some.inj hx
      exact .inl ⟨hsx.symm, rfl⟩
    · exact .inr ⟨x, hx, hsx⟩

lemma Marks.clear (hi : slots i = some e) :
    Marks stamp (marks.erase (stamp e, i)) (Function.update slots i none) := by
  intro t j
  rw [Finset.mem_erase, h, ne_eq, Prod.mk.injEq]
  simp only [update_eq_some]
  constructor
  · intro hj
    obtain ⟨hne, x, hx, hsx⟩ := hj
    refine ⟨x, .inr ⟨?_, hx⟩, hsx⟩
    intro hji
    subst hji
    obtain rfl := Option.some.inj (hi.symm.trans hx)
    exact hne ⟨hsx.symm, rfl⟩
  · intro hj
    obtain ⟨x, ⟨-, hx⟩ | ⟨hne, hx⟩, hsx⟩ := hj
    · cases hx
    · exact ⟨fun heq => hne heq.2, x, hx, hsx⟩

lemma Marks.replace (hi : slots i = some e) (x : E) :
    Marks stamp (insert (stamp x, i) (marks.erase (stamp e, i)))
      (Function.update slots i (some x)) := by
  have hfill := (h.clear hi).fill (e := x) (Function.update_self ..)
  rwa [Function.update_idem] at hfill

end SlotIndex
