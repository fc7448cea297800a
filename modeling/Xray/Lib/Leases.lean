import Mathlib.Order.Lattice

/-!
# Leases of addresses to names

A table says which name holds which address, and until when. A grant renews
the name's own lease, takes an address nobody holds, or takes over a lease that
has run out. This is the whole contract of a lease allocator, and the two facts
wanted of one follow from it: an address has one holder, and a promise made
until some time is kept until then, whatever is granted meanwhile.
-/

namespace Leases

variable {N A T : Type*} [DecidableEq N] [LinearOrder T]

/-- What each name holds: an address and the time its lease ends. -/
abbrev Table (N A T : Type*) := N → Option (A × T)

def Exclusive (table : Table N A T) : Prop :=
  ∀ ⦃n n' a t t'⦄, table n = some (a, t) → table n' = some (a, t') → n = n'

def Held (table : Table N A T) (n : N) (a : A) (t : T) : Prop :=
  ∃ u, table n = some (a, u) ∧ t ≤ u

/-- The address is granted to the name at `now`, until `expiry`. -/
inductive Grant (now expiry : T) (n : N) (a : A) : Table N A T → Table N A T → Prop
  | renew {table : Table N A T} {t : T} (own : table n = some (a, t)) :
      Grant now expiry n a table (Function.update table n (some (a, expiry)))
  | fresh {table : Table N A T} (absent : table n = none) (free : ∀ n' t, table n' ≠ some (a, t)) :
      Grant now expiry n a table (Function.update table n (some (a, expiry)))
  | takeOver {table : Table N A T} {n' : N} {t : T} (absent : table n = none)
      (old : table n' = some (a, t)) (expired : t ≤ now) :
      Grant now expiry n a table
        (Function.update (Function.update table n' none) n (some (a, expiry)))

variable {now expiry : T} {n n₀ : N} {a a₀ : A} {t₀ : T} {table table' : Table N A T}

variable (hg : Grant now expiry n a table table')

include hg

lemma Grant.holds : table' n = some (a, expiry) := by
  cases hg <;> exact Function.update_self ..

lemma Grant.eq_of_held (h : Exclusive table)
    (hheld : Held table n₀ a t₀) (hnow : now < t₀) : n = n₀ := by
  obtain ⟨u, hu, htu⟩ := hheld
  cases hg with
  | renew own => exact h own hu
  | fresh absent free => exact absurd hu (free n₀ u)
  | takeOver absent old expired =>
    obtain rfl := h old hu
    obtain ⟨-, rfl⟩ := Prod.mk.inj (Option.some.inj (old.symm.trans hu))
    exact absurd (lt_of_lt_of_le hnow htu) (not_lt.mpr expired)

lemma Grant.held (hheld : Held table n₀ a₀ t₀)
    (hnow : now < t₀) (hexpiry : t₀ ≤ expiry) : Held table' n₀ a₀ t₀ := by
  obtain ⟨u, hu, htu⟩ := hheld
  by_cases hn : n₀ = n
  · subst hn
    cases hg with
    | renew own =>
      obtain ⟨rfl, -⟩ := Prod.mk.inj (Option.some.inj (own.symm.trans hu))
      exact ⟨expiry, Function.update_self .., hexpiry⟩
    | fresh absent free | takeOver absent old expired =>
      exact absurd (absent.symm.trans hu) (by simp)
  · refine ⟨u, ?_, htu⟩
    cases hg with
    | renew own | fresh absent free => rw [Function.update_of_ne hn, hu]
    | takeOver absent old expired =>
      rw [Function.update_of_ne hn, Function.update_of_ne _, hu]
      intro heq
      subst heq
      obtain ⟨-, rfl⟩ := Prod.mk.inj (Option.some.inj (old.symm.trans hu))
      exact absurd (lt_of_lt_of_le hnow htu) (not_lt.mpr expired)

end Leases
