import Mathlib.Data.List.DropRight
import Mathlib.Data.List.Infix

/-!
# Byte strings and ASCII case

A string is the list of its UTF-8 bytes. The operations here only ever look at
ASCII bytes, which never occur inside a longer encoding, so working on bytes
and working on characters give the same answers.

`lower` folds ASCII case. It moves letters only, so it commutes with every
positional operation, and a byte that is not a letter is found at the same
places before and after it.
-/

namespace Ascii

open List

abbrev Str := List UInt8

abbrev dot : UInt8 := 46

def text (s : String) : Str := s.toList.map fun c => UInt8.ofNat c.toNat

def isUpper (b : UInt8) : Bool := 65 ≤ b && b ≤ 90

def isLower (b : UInt8) : Bool := 97 ≤ b && b ≤ 122

def isDecimal (b : UInt8) : Bool := 48 ≤ b && b ≤ 57

def isAlphanumeric (b : UInt8) : Bool := isUpper b || isLower b || isDecimal b

def toUpper (b : UInt8) : UInt8 := if isLower b then b - 32 else b

def toLower (b : UInt8) : UInt8 := if isUpper b then b + 32 else b

def lower (s : Str) : Str := s.map toLower

def eqIgnoreCase (s t : Str) : Bool := lower s == lower t

/-- The contiguous windows of width `n`, from left to right. -/
def windows {α : Type*} (n : Nat) (xs : List α) : List (List α) :=
  (List.range (xs.length + 1 - n)).map fun i => (xs.drop i).take n

/-- The string without the bytes at either end that `p` holds of. -/
def trim (p : UInt8 → Bool) (s : Str) : Str := (s.dropWhile p).rdropWhile p

/-- What stands before and behind the first copy of `b`. -/
def splitOnce (b : UInt8) : Str → Option (Str × Str)
  | [] => none
  | c :: s => if c = b then some ([], s) else (splitOnce b s).map fun (l, r) => (c :: l, r)

/-- What stands before and behind the last copy of `b`. -/
def rsplitOnce (b : UInt8) (s : Str) : Option (Str × Str) :=
  (splitOnce b s.reverse).map fun (r, l) => (l.reverse, r.reverse)

/-- The parts between the copies of `b`. -/
def splitAll (b : UInt8) : Str → List Str
  | [] => [[]]
  | c :: s =>
    if c = b then [] :: splitAll b s
    else
      match splitAll b s with
      | [] => [[c]]
      | part :: parts => (c :: part) :: parts

/-- The string without its trailing copies of `b`. -/
def trimEnd (b : UInt8) (s : Str) : Str := s.rdropWhile (· == b)

variable {b : UInt8} {s l : Str} {p : UInt8 → Bool}

lemma splitAll_of_not_mem (h : b ∉ s) : splitAll b s = [s] := by
  induction s with
  | nil => rfl
  | cons c s ih =>
    rw [mem_cons, not_or] at h
    rw [splitAll, if_neg (Ne.symm h.1), ih h.2]

lemma splitAll_append (h : b ∉ s) (t : Str) : splitAll b (s ++ b :: t) = s :: splitAll b t := by
  induction s with
  | nil => rw [nil_append, splitAll, if_pos rfl]
  | cons c s ih =>
    rw [mem_cons, not_or] at h
    rw [cons_append, splitAll, if_neg (Ne.symm h.1), ih h.2]

lemma splitAll_ne_nil (b : UInt8) (s : Str) : splitAll b s ≠ [] := by
  cases s with
  | nil => simp [splitAll]
  | cons c s =>
    rw [splitAll]
    split
    · simp
    · split <;> simp

lemma splitAll_append_last {last : Str} {parts : List Str} (h : splitAll b s = parts ++ [last])
    (t : Str) : splitAll b (s ++ t) = parts ++ splitAll b (last ++ t) := by
  induction s generalizing parts last with
  | nil =>
    have h : [] ++ [[]] = parts ++ [last] := h
    obtain ⟨rfl, hlast⟩ := append_inj' h rfl
    cases hlast
    rfl
  | cons c s ih =>
    obtain ⟨first, rest, hparts⟩ := exists_cons_of_ne_nil (splitAll_ne_nil b s)
    rw [splitAll] at h
    rw [cons_append, splitAll]
    split at h
    · next hc =>
      rw [if_pos hc]
      cases parts with
      | nil =>
        have htail := tail_eq_of_cons_eq h
        exact absurd htail (splitAll_ne_nil b s)
      | cons part parts =>
        obtain ⟨rfl, htail⟩ := List.cons.inj h
        rw [ih htail]
        rfl
    next hc =>
    rw [if_neg hc]
    rw [hparts] at h
    cases parts with
    | nil =>
      obtain ⟨rfl, rfl⟩ := List.cons.inj h
      have hs : splitAll b s = [] ++ [first] := hparts
      rw [ih hs, nil_append, nil_append, cons_append, splitAll, if_neg hc]
    | cons part parts =>
      obtain ⟨rfl, rfl⟩ := List.cons.inj h
      have hs : splitAll b s = (first :: parts) ++ [last] := hparts
      rw [ih hs]
      rfl

lemma isUpper_iff (b : UInt8) : isUpper b ↔ 65 ≤ b.toNat ∧ b.toNat ≤ 90 := by
  simp [isUpper, UInt8.le_iff_toNat_le]

lemma toNat_toLower (b : UInt8) :
    (toLower b).toNat = if 65 ≤ b.toNat ∧ b.toNat ≤ 90 then b.toNat + 32 else b.toNat := by
  simp only [toLower, isUpper_iff]
  split
  · next h =>
    show (b.toNat + 32) % 256 = b.toNat + 32
    omega
  · rfl

lemma not_isUpper_toLower (b : UInt8) : ¬ isUpper (toLower b) := by
  rw [isUpper_iff, toNat_toLower]
  split <;> omega

lemma toLower_toLower (b : UInt8) : toLower (toLower b) = toLower b := by
  rw [toLower, if_neg (not_isUpper_toLower b)]

lemma toLower_eq_dot_iff (b : UInt8) : toLower b = dot ↔ b = dot := by
  rw [← UInt8.toNat_inj, ← UInt8.toNat_inj, toNat_toLower]
  have hdot : dot.toNat = 46 := rfl
  split <;> omega

@[simp] lemma lower_nil : lower [] = [] := rfl

@[simp] lemma length_lower (s : Str) : (lower s).length = s.length := by simp [lower]

@[simp] lemma lower_lower (s : Str) : lower (lower s) = lower s := by
  simp [lower, toLower_toLower]

lemma lower_drop (s : Str) (n : Nat) : lower (s.drop n) = (lower s).drop n := by
  simp [lower, map_drop]

lemma lower_eq_self (h : ¬ s.any isUpper) : lower s = s := by
  rw [any_eq_true] at h
  refine (map_congr_left fun b hb => ?_).trans s.map_id
  rw [toLower, if_neg fun hup => h ⟨b, hb, hup⟩]
  rfl

lemma lower_getElem?_eq_dot_iff (s : Str) (i : Nat) :
    (lower s)[i]? = some dot ↔ s[i]? = some dot := by
  rw [lower, getElem?_map]
  cases h : s[i]? with
  | none => simp
  | some b => simp [toLower_eq_dot_iff]

lemma eqIgnoreCase_iff (s t : Str) : eqIgnoreCase s t ↔ lower s = lower t := by
  simp [eqIgnoreCase]

lemma splitOnce_append (h : b ∉ l) (r : Str) : splitOnce b (l ++ b :: r) = some (l, r) := by
  induction l with
  | nil => rw [nil_append, splitOnce, if_pos rfl]
  | cons c l ih =>
    have hc : c ≠ b := fun hc => h (hc ▸ mem_cons_self)
    rw [cons_append, splitOnce, if_neg hc, ih fun hmem => h (mem_cons_of_mem _ hmem)]
    rfl

lemma splitOnce_eq_some {r : Str} (h : splitOnce b s = some (l, r)) :
    s = l ++ b :: r ∧ b ∉ l := by
  induction s generalizing l with
  | nil => cases h
  | cons c s ih =>
    rw [splitOnce] at h
    split at h
    · next hc =>
      cases h
      exact ⟨by rw [hc]; rfl, by simp⟩
    next hc =>
    obtain ⟨⟨l', r'⟩, hsplit, h⟩ := Option.map_eq_some_iff.mp h
    cases h
    obtain ⟨rfl, hmem⟩ := ih hsplit
    exact ⟨rfl, by simp [hmem, Ne.symm hc]⟩

lemma trim_cons (h : p b) (s : Str) : trim p (b :: s) = trim p s := by
  rw [trim, dropWhile_cons, if_pos h, trim]

lemma trim_concat (h : p b) (s : Str) : trim p (s ++ [b]) = trim p s := by
  rw [trim, dropWhile_append]
  split
  · next hempty =>
    rw [trim, isEmpty_iff.mp hempty, dropWhile_cons_of_pos h, dropWhile_nil]
  · rw [rdropWhile_concat_pos _ _ _ h, trim]

lemma trim_trim {q : UInt8 → Bool} (h : ∀ b, p b → q b) :
    trim p (trim q s) = trim q s := by
  have hfirst : (trim q s).dropWhile p = trim q s := by
    refine dropWhile_eq_self_iff.mpr fun hpos hp => ?_
    have hfront := rdropWhile_prefix q (s.dropWhile q)
    have hget := hfront.getElem hpos
    have hlen : 0 < (s.dropWhile q).length := Nat.lt_of_lt_of_le hpos hfront.length_le
    refine dropWhile_get_zero_not q s hlen (h _ ?_)
    rw [get_eq_getElem, ← hget]
    exact hp
  rw [trim, hfirst, rdropWhile_eq_self_iff]
  intro hne hp
  exact rdropWhile_last_not q (s.dropWhile q) hne (h _ hp)

lemma trim_eq_self (h : ∀ b ∈ s, p b = false) : trim p s = s := by
  have hfirst : s.dropWhile p = s := by
    refine dropWhile_eq_self_iff.mpr fun hpos hp => ?_
    rw [h _ (getElem_mem hpos)] at hp
    cases hp
  rw [trim, hfirst, rdropWhile_eq_self_iff]
  intro hne hp
  rw [h _ (getLast_mem hne)] at hp
  cases hp

lemma trim_sublist (p : UInt8 → Bool) (s : Str) : (trim p s).Sublist s := by
  have hfront := rdropWhile_prefix p (s.dropWhile p)
  exact hfront.sublist.trans (dropWhile_sublist p)

lemma mem_windows_iff {α : Type*} {n : Nat} {xs w : List α} :
    w ∈ windows n xs ↔ w <:+: xs ∧ w.length = n := by
  rw [windows, mem_map]
  constructor
  · intro h
    obtain ⟨i, hi, rfl⟩ := h
    have hlt := mem_range.mp hi
    refine ⟨⟨xs.take i, (xs.drop i).drop n, ?_⟩, ?_⟩
    · rw [append_assoc, take_append_drop, take_append_drop]
    · rw [length_take, length_drop]
      omega
  · intro h
    obtain ⟨⟨s, t, rfl⟩, rfl⟩ := h
    refine ⟨s.length, mem_range.mpr ?_, ?_⟩
    · simp only [length_append]
      omega
    · simp

/-- Some window of `s` reads `needle` up to case exactly when the folded needle
occurs in the folded string. -/
lemma any_windows_iff (s needle : Str) :
    (windows needle.length s).any (eqIgnoreCase · needle) ↔ lower needle <:+: lower s := by
  rw [any_eq_true]
  constructor
  · intro h
    obtain ⟨w, hw, heq⟩ := h
    rw [← (eqIgnoreCase_iff w needle).mp heq]
    exact (mem_windows_iff.mp hw).1.map toLower
  · intro h
    obtain ⟨pre, post, h⟩ := h
    obtain ⟨front, back, rfl, hfront, -⟩ := map_eq_append_iff.mp h.symm
    obtain ⟨before, w, rfl, -, heq⟩ := map_eq_append_iff.mp hfront
    refine ⟨w, mem_windows_iff.mpr ⟨⟨before, back, rfl⟩, ?_⟩, (eqIgnoreCase_iff w needle).mpr heq⟩
    change lower w = lower needle at heq
    rw [← length_lower w, heq, length_lower]

end Ascii
