import Xray.Kcp.Segment

/-!
# What an mKCP side writes, its peer reads

A datagram holds one segment, and reading it gives that segment back. A data
segment must not be empty, an ack must have no more numbers than a byte counts,
and a command must be none of those with a body; the engine keeps to all three.
-/

namespace Xray.Kcp

open Bytes List

lemma u16At_be16 (n : UInt16) : u16At (be16 n) = n := by
  have hlt : n.toNat < 256 ^ 2 := n.toNat_lt
  rw [u16At, be16, take_of_length_le (by simp), ofBe_toBe_of_lt hlt, UInt16.ofNat_toNat]

lemma u32At_be32 (n : UInt32) (rest : Bytes) : u32At (be32 n ++ rest) = n := by
  have hlt : n.toNat < 256 ^ 4 := n.toNat_lt
  rw [u32At, be32, take_left' (length_toBe 4 _), ofBe_toBe_of_lt hlt, UInt32.ofNat_toNat]

@[simp] lemma length_be32 (n : UInt32) : (be32 n).length = 4 := length_toBe 4 _

lemma drop_be32 (n : UInt32) (rest : Bytes) (i : Nat) :
    (be32 n ++ rest).drop (i + 4) = rest.drop i := by
  rw [Nat.add_comm, ← drop_drop, drop_left' (length_be32 n)]

lemma u32s_be32 (numbers : List UInt32) (rest : Bytes) :
    u32s numbers.length (numbers.flatMap be32 ++ rest) = numbers := by
  induction numbers with
  | nil => rfl
  | cons number numbers ih =>
    rw [flatMap_cons, append_assoc, length_cons, u32s, u32At_be32,
      drop_left' (length_be32 number), ih]

lemma length_flatMap_be32 (numbers : List UInt32) :
    (numbers.flatMap be32).length = numbers.length * 4 := by
  induction numbers with
  | nil => rfl
  | cons number numbers ih =>
    rw [flatMap_cons, length_append, length_be32, length_cons]
    omega

lemma readSegments_singleton {buf : Bytes} {segment : Segment}
    (h : readSegment buf = some (segment, [])) : readSegments buf = [segment] := by
  have hnil : readSegments [] = [] := by
    rw [readSegments]
    rfl
  rw [readSegments]
  split
  · next hnone => cases hnone.symm.trans h
  · next hsome =>
    rw [h] at hsome
    cases hsome
    rw [hnil]

lemma u32At_fields (a b c : UInt32) (rest : Bytes) :
    u32At (be32 a ++ (be32 b ++ (be32 c ++ rest))) = a ∧
      u32At ((be32 a ++ (be32 b ++ (be32 c ++ rest))).drop 4) = b ∧
      u32At ((be32 a ++ (be32 b ++ (be32 c ++ rest))).drop 8) = c ∧
      ∀ i, (be32 a ++ (be32 b ++ (be32 c ++ rest))).drop (12 + i) = rest.drop i := by
  refine ⟨u32At_be32 a _, ?_, ?_, fun i => ?_⟩
  · rw [drop_be32 a _ 0, drop_zero, u32At_be32]
  · rw [drop_be32 a _ 4, drop_be32 b _ 0, drop_zero, u32At_be32]
  · rw [show 12 + i = i + 8 + 4 by omega, drop_be32, drop_be32, drop_be32]

lemma be16_eq (n : UInt16) : ∃ c₁ c₂, be16 n = [c₁, c₂] := ⟨_, _, rfl⟩

lemma readSegments_data (segment : DataSegment) (hne : segment.payload ≠ [])
    (hlen : segment.payload.length < 65536) :
    readSegments segment.encode = [.data segment] := by
  have hpos := length_pos_iff.mpr hne
  have hsize := length_toBe 2 segment.payload.length
  have hlength : ofBe (toBe 2 segment.payload.length) = segment.payload.length :=
    ofBe_toBe_of_lt (by omega)
  obtain ⟨c₁, c₂, hconv⟩ := be16_eq segment.conv
  obtain ⟨hfirst, hsecond, hthird, hrest⟩ := u32At_fields segment.timestamp segment.number
    segment.sendingNext (toBe 2 segment.payload.length ++ segment.payload)
  refine readSegments_singleton ?_
  simp only [DataSegment.encode, hconv, cons_append, nil_append, append_assoc,
    readSegment, if_true, hfirst, hsecond, hthird, hrest 0, hrest 2, drop_zero]
  rw [if_neg (by simp only [length_append, length_be32, hsize]; omega),
    take_left' hsize, drop_left' hsize, hlength, if_neg (by omega), take_length,
    drop_length, ← hconv, u16At_be16]

lemma readSegments_ack (segment : AckSegment) (hlen : segment.numbers.length < 256) :
    readSegments segment.encode = [.ack { segment with limit := ackNumberLimit }] := by
  have hcount : (UInt8.ofNat segment.numbers.length).toNat = segment.numbers.length :=
    UInt8.toNat_ofNat_of_lt' hlen
  have hnumbers := u32s_be32 segment.numbers []
  rw [append_nil] at hnumbers
  obtain ⟨c₁, c₂, hconv⟩ := be16_eq segment.conv
  obtain ⟨hfirst, hsecond, hthird, hrest⟩ := u32At_fields segment.receivingWindow
    segment.receivingNext segment.timestamp
    (UInt8.ofNat segment.numbers.length :: segment.numbers.flatMap be32)
  have hgetD : ∀ buf : Bytes, buf.getD 12 0 = (buf.drop (12 + 0)).headD 0 := by
    intro buf
    rw [getD_eq_getElem?_getD, headD_eq_head?_getD, head?_drop]
  refine readSegments_singleton ?_
  simp only [AckSegment.encode, hconv, cons_append, nil_append, append_assoc,
    readSegment, show cmdAck ≠ cmdData by decide, if_false, if_true, hfirst, hsecond, hthird,
    hgetD, hrest 0, hrest 1, drop_zero, headD_cons, drop_one, tail_cons,
    hcount, hnumbers]
  rw [if_neg (by simp only [length_append, length_cons, length_be32]; omega),
    if_neg (by rw [length_flatMap_be32]; omega), ← length_flatMap_be32, drop_length,
    ← hconv, u16At_be16]
  rfl

lemma readSegments_cmd (segment : CmdSegment) (hdata : segment.cmd ≠ cmdData)
    (hack : segment.cmd ≠ cmdAck) : readSegments segment.encode = [.cmd segment] := by
  obtain ⟨c₁, c₂, hconv⟩ := be16_eq segment.conv
  obtain ⟨hfirst, hsecond, hthird, hrest⟩ := u32At_fields segment.sendingNext
    segment.receivingNext segment.peerRto []
  simp only [append_nil] at hfirst hsecond hthird hrest
  refine readSegments_singleton ?_
  simp only [CmdSegment.encode, hconv, cons_append, nil_append, append_assoc,
    readSegment, if_neg hdata, if_neg hack, hfirst, hsecond, hthird, hrest 0]
  rw [← hconv, u16At_be16]
  rfl

end Xray.Kcp
