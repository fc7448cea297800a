import Mathlib.Data.Nat.Digits.Lemmas
import Xray.Lib.Ascii

/-!
# Numbers as text

`numeral b n` is the text of a number in a base of at most sixteen, without leading zeros,
and `number b` reads digits of either case. Reading gives back what was written.
-/

namespace Numeral

open Ascii List

def digit (d : Nat) : UInt8 := if d < 10 then UInt8.ofNat (48 + d) else UInt8.ofNat (87 + d)

def digitValue (b : UInt8) : Option Nat :=
  if 48 ≤ b.toNat ∧ b.toNat ≤ 57 then some (b.toNat - 48)
  else if 97 ≤ b.toNat ∧ b.toNat ≤ 102 then some (b.toNat - 87)
  else if 65 ≤ b.toNat ∧ b.toNat ≤ 70 then some (b.toNat - 55)
  else none

def isDigit (base : Nat) (b : UInt8) : Bool := (digitValue b).any (· < base)

def numeral (base n : Nat) : Str :=
  if n = 0 then [48] else (Nat.digits base n).reverse.map digit

def number (base : Nat) (digits : Str) : Nat :=
  digits.foldl (fun n b => n * base + (digitValue b).getD 0) 0

lemma digitValue_digit : ∀ {d : Nat}, d < 16 → digitValue (digit d) = some d := by
  decide

variable {base n : Nat}

lemma digit_lt_of_mem {d : Nat} (hbase : 1 < base) (hle : base ≤ 16) (hd : d ∈ Nat.digits base n) :
    d < 16 :=
  Nat.lt_of_lt_of_le (Nat.digits_lt_base hbase hd) hle

lemma number_map_digit (digits : List Nat) (hdigits : ∀ d ∈ digits, d < 16) :
    number base (digits.reverse.map digit) = Nat.ofDigits base digits := by
  rw [number, map_reverse, foldl_reverse]
  induction digits with
  | nil => rfl
  | cons d digits ih =>
    rw [map_cons, foldr_cons, ih fun e he => hdigits e (mem_cons_of_mem _ he),
      digitValue_digit (hdigits d mem_cons_self), Nat.mul_comm,
      Nat.add_comm]
    rfl

lemma number_numeral (hbase : 1 < base) (hle : base ≤ 16) (n : Nat) :
    number base (numeral base n) = n := by
  rw [numeral]
  split
  · next h =>
    rw [h]
    show 0 * base + 0 = 0
    omega
  · rw [number_map_digit _ fun d => digit_lt_of_mem hbase hle, Nat.ofDigits_digits]

lemma numeral_ne_nil (base n : Nat) : numeral base n ≠ [] := by
  rw [numeral]
  split
  · exact cons_ne_nil _ _
  · next h => simpa [Nat.digits_ne_nil_iff_ne_zero] using h

lemma length_numeral_le {k : Nat} (hbase : 1 < base) (hk : 0 < k) (h : n < base ^ k) :
    (numeral base n).length ≤ k := by
  rw [numeral]
  split
  · exact hk
  · rw [length_map, length_reverse]
    exact (Nat.digits_length_le_iff hbase n).mpr h

lemma number_lt (digits : Str) (h : ∀ b ∈ digits, isDigit base b) :
    number base digits < base ^ digits.length := by
  rw [number]
  induction digits using List.reverseRecOn with
  | nil => exact Nat.one_pos
  | append_singleton digits b ih =>
    have hdigits := ih fun c hc => h c (mem_append_left _ hc)
    have hb := h b (by simp)
    rw [isDigit] at hb
    rw [foldl_append, foldl_cons, foldl_nil, length_append]
    cases hvalue : digitValue b with
    | none => simp [hvalue] at hb
    | some d =>
      have hd : d < base := by simpa [hvalue] using hb
      rw [Option.getD_some]
      calc _ < (digits.foldl (fun n b => n * base + (digitValue b).getD 0) 0) * base + base := by
            omega
        _ = (digits.foldl (fun n b => n * base + (digitValue b).getD 0) 0 + 1) * base := by ring
        _ ≤ base ^ digits.length * base := Nat.mul_le_mul_right _ hdigits

lemma isDigit_of_mem_numeral (hbase : 1 < base) (hle : base ≤ 16) {b : UInt8}
    (hb : b ∈ numeral base n) : isDigit base b := by
  rw [numeral] at hb
  split at hb
  · rw [mem_singleton.mp hb]
    simp [isDigit, digitValue]
    omega
  · obtain ⟨d, hd, rfl⟩ := mem_map.mp hb
    rw [mem_reverse] at hd
    rw [isDigit, digitValue_digit (digit_lt_of_mem hbase hle hd)]
    simpa using Nat.digits_lt_base hbase hd

lemma le_of_isDigit {b : UInt8} (h : isDigit base b) : 48 ≤ b.toNat := by
  rw [isDigit, digitValue] at h
  split at h
  · omega
  split at h
  · omega
  split at h
  · omega
  · simp at h

end Numeral
