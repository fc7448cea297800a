import Mathlib.Tactic.Ring

/-!
# Byte strings and big-endian numbers

`toBe n x` are the `n` big-endian bytes of `x`, which drops what does not fit,
and `ofBe` reads them back. A wire format is a sequence of such fields, so the
lemmas are those a reader of one needs: how long a field is, and what reading
gives after writing, in either order.
-/

abbrev Bytes := List UInt8

namespace Bytes

def toBe : Nat → Nat → Bytes
  | 0, _ => []
  | n + 1, x => UInt8.ofNat (x / 256 ^ n) :: toBe n x

def ofBe : Bytes → Nat
  | [] => 0
  | b :: bs => b.toNat * 256 ^ bs.length + ofBe bs

/-- The bytes are the encoding of a text. -/
def isUtf8 (bytes : Bytes) : Bool := (String.fromUTF8? ⟨bytes.toArray⟩).isSome

@[simp] lemma length_toBe (n x : Nat) : (toBe n x).length = n := by
  induction n with
  | zero => rfl
  | succ n ih => rw [toBe, List.length_cons, ih]

lemma ofBe_lt (bs : Bytes) : ofBe bs < 256 ^ bs.length := by
  induction bs with
  | nil => simp [ofBe]
  | cons b bs ih =>
    have hb : b.toNat < 256 := b.toNat_lt
    have hle : (b.toNat + 1) * 256 ^ bs.length ≤ 256 * 256 ^ bs.length := Nat.mul_le_mul_right _ hb
    rw [Nat.add_mul] at hle
    rw [ofBe, List.length_cons]
    omega

lemma ofBe_toBe (n x : Nat) : ofBe (toBe n x) = x % 256 ^ n := by
  induction n with
  | zero => simp [toBe, ofBe, Nat.mod_one]
  | succ n ih =>
    have hbyte : (UInt8.ofNat (x / 256 ^ n)).toNat = x / 256 ^ n % 256 := UInt8.toNat_ofNat'
    rw [toBe, ofBe, ih, length_toBe, hbyte, Nat.pow_succ, Nat.mod_mul, Nat.mul_comm, Nat.add_comm]

lemma ofBe_toBe_of_lt {n x : Nat} (h : x < 256 ^ n) : ofBe (toBe n x) = x := by
  rw [ofBe_toBe, Nat.mod_eq_of_lt h]

lemma toBe_mod (n m x : Nat) (h : n ≤ m) : toBe n (x % 256 ^ m) = toBe n x := by
  induction n with
  | zero => rfl
  | succ n ih =>
    rw [toBe, ih (by omega)]
    congr 1
    refine UInt8.toNat_inj.mp ?_
    have hm : 256 ^ m = 256 ^ n * (256 * 256 ^ (m - (n + 1))) := by
      rw [← Nat.mul_assoc, ← Nat.pow_succ, ← Nat.pow_add]
      congr 1
      omega
    rw [hm, Nat.mod_mul_right_div_self]
    exact Nat.mod_mul_right_mod _ _ _

lemma toBe_ofBe (bs : Bytes) : toBe bs.length (ofBe bs) = bs := by
  induction bs with
  | nil => rfl
  | cons b bs ih =>
    have hlt := ofBe_lt bs
    rw [List.length_cons, toBe, ofBe]
    congr 1
    · rw [Nat.add_comm, Nat.add_mul_div_right _ _ (Nat.pow_pos (by omega)),
        Nat.div_eq_of_lt hlt, Nat.zero_add, UInt8.ofNat_toNat]
    · rw [← toBe_mod _ _ _ (Nat.le_refl _), Nat.add_comm, Nat.add_mul_mod_self_right,
        Nat.mod_eq_of_lt hlt, ih]

end Bytes
