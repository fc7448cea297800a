import Mathlib.Algebra.Order.Ring.Nat
import Mathlib.Data.List.Basic

/-!
# Association lists

A map as a list of keys with values, in the order of the keys if they are added in that
order. What is found under a key after a change is said by one lemma for each operation, and so
is what the values weigh together.
-/

namespace Assoc

open List

section

variable {κ ν : Type}

def weight (f : ν → Nat) (entries : List (κ × ν)) : Nat := (entries.map fun e => f e.2).sum

lemma weight_cons (f : ν → Nat) (key : κ) (v : ν) (entries : List (κ × ν)) :
    weight f ((key, v) :: entries) = f v + weight f entries := by
  rw [weight, map_cons, sum_cons, weight]

lemma weight_concat (f : ν → Nat) (key : κ) (v : ν) (entries : List (κ × ν)) :
    weight f (entries ++ [(key, v)]) = weight f entries + f v := by
  rw [weight, map_append, sum_append, map_singleton, sum_singleton, weight]

lemma weight_filter_of_zero (f : ν → Nat) (p : κ × ν → Bool) {entries : List (κ × ν)}
    (hzero : ∀ e ∈ entries, p e = false → f e.2 = 0) :
    weight f (entries.filter p) = weight f entries := by
  induction entries with
  | nil => rfl
  | cons e entries ih =>
    obtain ⟨j, v⟩ := e
    have hrest := ih fun e he => hzero e (mem_cons_of_mem (j, v) he)
    cases hp : p (j, v) with
    | true => rw [filter_cons_of_pos hp, weight_cons, weight_cons, hrest]
    | false =>
      have hv : f v = 0 := hzero (j, v) mem_cons_self hp
      rw [filter_cons_of_neg (by simp [hp]), weight_cons, hrest, hv, Nat.zero_add]

end

variable {κ ν : Type} [DecidableEq κ]

def get (key : κ) : List (κ × ν) → Option ν
  | [] => none
  | (k, v) :: rest => if k = key then some v else get key rest

def modify (key : κ) (f : ν → ν) (entries : List (κ × ν)) : List (κ × ν) :=
  entries.map fun (k, v) => if k = key then (k, f v) else (k, v)

def remove (key : κ) (entries : List (κ × ν)) : List (κ × ν) :=
  entries.filter fun e => e.1 ≠ key

variable {key : κ} {v : ν} {entries : List (κ × ν)}

lemma get_modify (key k : κ) (f : ν → ν) (entries : List (κ × ν)) :
    get k (modify key f entries) = if k = key then (get k entries).map f else get k entries := by
  induction entries with
  | nil => simp [modify, get]
  | cons e entries ih =>
    obtain ⟨j, v⟩ := e
    simp only [modify] at ih ⊢
    by_cases hj : j = key
    · by_cases hk : k = key
      · simp [get, hj, hk]
      · simp [get, hj, Ne.symm hk, ih, hk]
    · by_cases hk : j = k
      · have hne : k ≠ key := hk ▸ hj
        simp [get, hk, hne]
      · simp [get, hj, hk, ih]

lemma get_eq_none_of_not_mem (h : key ∉ entries.map Prod.fst) : get key entries = none := by
  induction entries with
  | nil => rfl
  | cons e entries ih =>
    simp only [map_cons, mem_cons, not_or] at h
    rw [get, if_neg (Ne.symm h.1), ih h.2]

lemma exists_get_of_mem (h : key ∈ entries.map Prod.fst) : ∃ v, get key entries = some v := by
  induction entries with
  | nil => cases h
  | cons e entries ih =>
    rw [get]
    split
    · exact ⟨e.2, rfl⟩
    next hne =>
    rcases mem_cons.mp h with hkey | hmem
    · exact absurd hkey.symm hne
    · exact ih hmem

lemma filter_key_of_get (hdistinct : (entries.map Prod.fst).Nodup) (h : get key entries = some v) :
    entries.filter (fun e => e.1 = key) = [(key, v)] := by
  induction entries with
  | nil => cases h
  | cons e entries ih =>
    rw [map_cons, nodup_cons] at hdistinct
    rw [get] at h
    split at h
    · next hkey =>
      cases h
      rw [filter_cons_of_pos (by simpa using hkey), ← hkey]
      congr 1
      rw [filter_eq_nil_iff]
      intro other hother hsame
      rw [← of_decide_eq_true hsame] at hdistinct
      exact hdistinct.1 (mem_map_of_mem hother)
    · next hkey =>
      rw [filter_cons_of_neg (by simpa using hkey)]
      exact ih hdistinct.2 h

lemma keys_modify (key : κ) (f : ν → ν) (entries : List (κ × ν)) :
    (modify key f entries).map Prod.fst = entries.map Prod.fst := by
  rw [modify, map_map]
  refine map_congr_left fun e _ => ?_
  show (if e.1 = key then (e.1, f e.2) else (e.1, e.2)).1 = e.1
  split <;> rfl

lemma get_remove (key k : κ) (entries : List (κ × ν)) :
    get k (remove key entries) = if k = key then none else get k entries := by
  induction entries with
  | nil => simp [remove, get]
  | cons e entries ih =>
    obtain ⟨j, v⟩ := e
    simp only [remove] at ih ⊢
    by_cases hj : j = key
    · rw [filter_cons_of_neg (by simpa using hj), ih]
      by_cases hk : k = key
      · simp [hk]
      · have hne : j ≠ k := fun h => hk (h ▸ hj)
        simp [get, hk, hne]
    · rw [filter_cons_of_pos (by simpa using hj)]
      by_cases hk : j = k
      · have hne : k ≠ key := hk ▸ hj
        simp [get, hk, hne]
      · simp only [get, hk, if_false, ih]

lemma get_concat (k key : κ) (v : ν) (entries : List (κ × ν)) :
    get k (entries ++ [(key, v)]) = (get k entries).or (if key = k then some v else none) := by
  induction entries with
  | nil => simp [get]
  | cons e entries ih =>
    simp only [cons_append, get, ih]
    split <;> rfl

lemma get_map (k : κ) (f : ν → ν) (entries : List (κ × ν)) :
    get k (entries.map fun (k, v) => (k, f v)) = (get k entries).map f := by
  induction entries with
  | nil => rfl
  | cons e entries ih =>
    simp only [map_cons, get, ih]
    split <;> rfl

lemma get_filter {k : κ} (p : κ × ν → Bool) (hdistinct : (entries.map Prod.fst).Nodup) :
    get k (entries.filter p) = (get k entries).filter fun v => p (k, v) := by
  induction entries with
  | nil => rfl
  | cons e entries ih =>
    obtain ⟨j, v⟩ := e
    rw [map_cons, nodup_cons] at hdistinct
    by_cases hk : j = k
    · subst hk
      by_cases hp : p (j, v)
      · rw [filter_cons_of_pos hp, get, get, if_pos rfl, if_pos rfl, Option.filter_some, if_pos hp]
      · have hnone : get j entries = none := get_eq_none_of_not_mem hdistinct.1
        rw [filter_cons_of_neg hp, ih hdistinct.2, hnone, get, if_pos rfl,
          Option.filter_some, if_neg hp, Option.filter_none]
    · have hskip : get k ((j, v) :: entries) = get k entries := by rw [get, if_neg hk]
      rw [hskip, ← ih hdistinct.2]
      by_cases hp : p (j, v)
      · rw [filter_cons_of_pos hp, get, if_neg hk]
      · rw [filter_cons_of_neg hp]

lemma modify_cons (key j : κ) (g : ν → ν) (v : ν) (entries : List (κ × ν)) :
    modify key g ((j, v) :: entries) = (j, if j = key then g v else v) :: modify key g entries := by
  rw [modify, map_cons]
  congr 1
  show (if j = key then (j, g v) else (j, v)) = _
  split <;> rfl

lemma weight_modify_of_not_mem (f : ν → Nat) (g : ν → ν) (h : key ∉ entries.map Prod.fst) :
    weight f (modify key g entries) = weight f entries := by
  induction entries with
  | nil => rfl
  | cons e entries ih =>
    simp only [map_cons, mem_cons, not_or] at h
    rw [modify_cons, if_neg (Ne.symm h.1), weight_cons, weight_cons, ih h.2]

lemma weight_modify (f : ν → Nat) (g : ν → ν) (hdistinct : (entries.map Prod.fst).Nodup)
    (hget : get key entries = some v) :
    weight f (modify key g entries) + f v = weight f entries + f (g v) := by
  induction entries with
  | nil => exact absurd hget (by simp [get])
  | cons e entries ih =>
    rw [map_cons, nodup_cons] at hdistinct
    rw [get] at hget
    split at hget
    · next hj =>
      cases hget
      have hrest := weight_modify_of_not_mem f g hdistinct.1
      rw [modify_cons, if_pos hj, weight_cons, weight_cons, ← hj, hrest]
      omega
    next hj =>
    have hrest := ih hdistinct.2 hget
    rw [modify_cons, if_neg hj, weight_cons, weight_cons]
    omega

lemma weight_remove (f : ν → Nat) (hdistinct : (entries.map Prod.fst).Nodup)
    (hget : get key entries = some v) : weight f (remove key entries) + f v = weight f entries := by
  induction entries with
  | nil => exact absurd hget (by simp [get])
  | cons e entries ih =>
    obtain ⟨j, w⟩ := e
    rw [map_cons, nodup_cons] at hdistinct
    rw [get] at hget
    split at hget
    · next hj =>
      cases hget
      have hrest : remove key ((j, v) :: entries) = entries := by
        rw [remove, filter_cons_of_neg (by simpa using hj), filter_eq_self]
        intro e' he'
        have hne : e'.1 ≠ j := fun h => hdistinct.1 (mem_map.mpr ⟨e', he', h⟩)
        rw [← hj]
        exact decide_eq_true hne
      rw [hrest, weight_cons, Nat.add_comm]
    next hj =>
    have hcons : remove key ((j, w) :: entries) = (j, w) :: remove key entries := by
      rw [remove, filter_cons_of_pos (by simpa using hj), remove]
    have hrest := ih hdistinct.2 hget
    rw [hcons, weight_cons, weight_cons]
    omega

end Assoc
