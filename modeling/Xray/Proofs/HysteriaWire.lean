import Xray.Hysteria.Wire
import Xray.Lib.Fallible

/-!
# Hysteria datagrams read back

What `encodeUdpMessage` writes for a valid message `decodeUdpMessage` reads back, and
the fragments of a message are valid messages that fit the datagrams they are cut for.
-/

namespace Xray.Hysteria

open Bytes List Fallible UdpMessage

lemma validateAddress_eq_ok {address : Bytes} :
    validateAddress address = .ok () ↔ address ≠ [] ∧ address.length ≤ maxAddressLength := by
  rw [validateAddress]
  split
  · next h =>
    refine ⟨by simp, fun ⟨hne, hle⟩ => ?_⟩
    rcases h with rfl | hlt
    · exact absurd rfl hne
    · omega
  · next h =>
    rw [not_or] at h
    exact ⟨fun _ => ⟨h.1, by omega⟩, fun _ => rfl⟩

structure UdpMessage.Valid (message : UdpMessage) : Prop where
  address : message.address.val ≠ [] ∧ message.address.val.length ≤ maxAddressLength
  payload : message.payload ≠ [] ∧ message.payload.length ≤ maxUdpPayload
  count : message.fragmentCount ≠ 0
  id : message.fragmentCount ≠ 1 → message.fragmentId < message.fragmentCount

lemma one_lt_count {count : UInt8} (h0 : count ≠ 0) (h1 : count ≠ 1) : 1 < count := by
  have h0' : count.toNat ≠ 0 := fun h => h0 (UInt8.toNat_inj.mp h)
  have h1' : count.toNat ≠ 1 := fun h => h1 (UInt8.toNat_inj.mp h)
  show 1 < count.toNat
  omega

variable {message : UdpMessage}

lemma UdpMessage.validate_eq_ok : message.validate = .ok () ↔ message.Valid := by
  rw [validate, bind_eq_ok]
  constructor
  · rintro ⟨_, haddress, h⟩
    split at h
    · simp at h
    next hpayload =>
    split at h
    · simp at h
    next hcount =>
    rw [not_or] at hpayload hcount
    refine ⟨validateAddress_eq_ok.mp haddress, ⟨hpayload.1, by omega⟩, hcount.1, ?_⟩
    intro hne
    have hlt := one_lt_count hcount.1 hne
    exact UInt8.not_le.mp fun hle => hcount.2 ⟨hlt, hle⟩
  · intro h
    refine ⟨(), validateAddress_eq_ok.mpr h.address, ?_⟩
    rw [if_neg, if_neg]
    · rintro (h0 | ⟨hlt, hle⟩)
      · exact h.count h0
      · exact UInt8.not_le.mpr (h.id fun h1 => absurd (h1 ▸ hlt) (by decide)) hle
    · rintro (h0 | hlt)
      · exact h.payload.1 h0
      · exact absurd h.payload.2 (by omega)

lemma take_append {a : Bytes} (b : Bytes) {n : Nat} (h : a.length = n) :
    take n (a ++ b) = .ok (a, b) := by
  subst h
  rw [take, if_neg, take_left, drop_left]
  rw [length_append]
  omega

/-- The first byte of a varint has its width and the top of its value. -/
lemma varint_cons {b : UInt8} {digits : Bytes}
    (h : digits.length = 2 ^ (b.toNat / 64) - 1) (rest : Bytes) :
    varint (b :: (digits ++ rest)) =
      .ok (b.toNat % 64 * 256 ^ digits.length + ofBe digits, rest) := by
  have hfirst : take 1 (b :: (digits ++ rest)) = .ok ([b], digits ++ rest) :=
    take_append (a := [b]) _ rfl
  have hb : ofBe [b] = b.toNat := by simp [ofBe]
  rw [h]
  simp only [varint, hfirst, hb, bind_ok, take_append rest h]
  rfl

lemma varint_toBe {tag m n : Nat} (htag : tag < 4) (hm : m = 2 ^ tag - 1)
    (hn : n < 64 * 256 ^ m) (rest : Bytes) :
    varint (toBe (m + 1) (tag * (64 * 256 ^ m) + n) ++ rest) = .ok (n, rest) := by
  have hpos : 0 < 256 ^ m := Nat.pow_pos (by decide)
  have hdiv : (tag * (64 * 256 ^ m) + n) / 256 ^ m = tag * 64 + n / 256 ^ m := by
    rw [← Nat.mul_assoc, Nat.add_comm, Nat.add_mul_div_right _ _ hpos, Nat.add_comm]
  have hmod : (tag * (64 * 256 ^ m) + n) % 256 ^ m = n % 256 ^ m := by
    rw [← Nat.mul_assoc, Nat.add_comm, Nat.add_mul_mod_self_right]
  have hlt : n / 256 ^ m < 64 := Nat.div_lt_of_lt_mul (by rwa [Nat.mul_comm])
  have hsplit : 256 ^ m * (n / 256 ^ m) + n % 256 ^ m = n := Nat.div_add_mod n _
  rw [toBe, hdiv, cons_append]
  generalize n / 256 ^ m = top at *
  have hfirst : (UInt8.ofNat (tag * 64 + top)).toNat = tag * 64 + top := by
    rw [UInt8.toNat_ofNat']
    omega
  have hwidth : (tag * 64 + top) / 64 = tag := by omega
  have htop : (tag * 64 + top) % 64 = top := by omega
  rw [varint_cons (by rw [hfirst, hwidth, length_toBe, hm]), hfirst, htop, length_toBe,
    ofBe_toBe, hmod, Nat.mul_comm, hsplit]

lemma varint_putVarint {n : Nat} (hn : n < 2 ^ 30) (rest : Bytes) :
    varint (putVarint n ++ rest) = .ok (n, rest) := by
  rw [putVarint]
  split
  · next h =>
    have hr := @varint_toBe 0 0 n (by decide) rfl (by omega) rest
    rwa [Nat.zero_mul, Nat.zero_add, Nat.zero_add] at hr
  split
  · next h =>
    have hor : n ||| 0x4000 = 1 * (64 * 256 ^ 1) + n := by
      rw [Nat.or_comm]
      exact (Nat.two_pow_add_eq_or_of_lt (i := 14) h 1).symm
    rw [hor]
    exact varint_toBe (by decide) rfl (by omega) rest
  · have hor : n ||| 0x80000000 = 2 * (64 * 256 ^ 3) + n := by
      rw [Nat.or_comm]
      exact (Nat.two_pow_add_eq_or_of_lt (i := 31) (by omega) 1).symm
    rw [hor]
    exact varint_toBe (by decide) rfl (by omega) rest

lemma length_putVarint (n : Nat) : (putVarint n).length = varintLength n := by
  rw [putVarint, varintLength]
  split
  · rw [length_toBe]
  · split <;> rw [length_toBe]

lemma readAddress_append {address : Str}
    (h : address.val ≠ [] ∧ address.val.length ≤ maxAddressLength) (rest : Bytes) :
    readAddress (putVarint address.val.length ++ address.val ++ rest) = .ok (address, rest) := by
  have hlen : address.val.length < 2 ^ 30 := by
    have := h.2
    rw [maxAddressLength] at this
    omega
  have hread : boundedBytes maxAddressLength .address
      (putVarint address.val.length ++ address.val ++ rest) = .ok (address.val, rest) := by
    rw [boundedBytes, append_assoc, varint_putVarint hlen]
    show (if _ then _ else _) = _
    rw [if_neg (Nat.not_lt.mpr h.2)]
    exact take_append rest rfl
  rw [readAddress, hread]
  show dite _ _ _ = _
  rw [dif_pos address.property, validateAddress_eq_ok.mpr h]
  rfl

lemma encodeUdpMessage_eq_ok (h : message.Valid) :
    ∃ bytes, encodeUdpMessage message = .ok bytes ∧
      bytes.length = message.headerLength + message.payload.length ∧
      decodeUdpMessage bytes = .ok message := by
  have hvalid := validate_eq_ok.mpr h
  generalize hhead : toBe 4 message.sessionId.toNat ++ toBe 2 message.packetId.toNat ++
    [message.fragmentId, message.fragmentCount] = header
  have hlen : header.length = 8 := by simp [← hhead]
  refine ⟨header ++ (putVarint message.address.val.length ++ message.address.val ++
    message.payload), ?_, ?_, ?_⟩
  · rw [encodeUdpMessage, hvalid, hhead, append_assoc, append_assoc, append_assoc]
    rfl
  · rw [length_append, length_append, length_append, length_putVarint, headerLength]
    omega
  have hsession : UInt32.ofNat (ofBe (header.take 4)) = message.sessionId := by
    rw [← hhead, append_assoc, take_left' (length_toBe _ _),
      ofBe_toBe_of_lt message.sessionId.toNat_lt, UInt32.ofNat_toNat]
  have hpacket : UInt16.ofNat (ofBe ((header.drop 4).take 2)) = message.packetId := by
    rw [← hhead, append_assoc, drop_left' (length_toBe _ _),
      take_left' (length_toBe _ _), ofBe_toBe_of_lt message.packetId.toNat_lt,
      UInt16.ofNat_toNat]
  have hid : header.getD 6 0 = message.fragmentId := by simp [← hhead]
  have hcount : header.getD 7 0 = message.fragmentCount := by simp [← hhead]
  rw [decodeUdpMessage, take_append _ hlen]
  simp only [readAddress_append h.address, bind_ok, hsession, hpacket, hid, hcount]
  rw [hvalid]
  rfl

variable {capacity : Nat}

lemma flatten_chunks (h : 0 < capacity) (payload : Bytes) :
    (chunks capacity payload).flatten = payload := by
  fun_induction chunks capacity payload with
  | case1 payload hempty =>
    rcases hempty with h0 | rfl
    · omega
    · rfl
  | case2 payload hne ih => rw [flatten_cons, ih, take_append_drop]

lemma mem_chunks {payload chunk : Bytes} (h : chunk ∈ chunks capacity payload) :
    chunk ≠ [] ∧ chunk.length ≤ capacity := by
  fun_induction chunks capacity payload with
  | case1 => simp at h
  | case2 payload hne ih =>
    rcases mem_cons.mp h with rfl | h
    · rw [not_or] at hne
      refine ⟨fun htake => ?_, length_take_le _ _⟩
      rcases take_eq_nil_iff.mp htake with h0 | h0
      · exact hne.1 h0
      · exact hne.2 h0
    · exact ih h

lemma length_chunks (h : 0 < capacity) (payload : Bytes) :
    (chunks capacity payload).length = divCeil payload.length capacity := by
  fun_induction chunks capacity payload with
  | case1 payload hempty =>
    rcases hempty with h0 | rfl
    · omega
    · rw [divCeil, length_nil, Nat.div_eq_of_lt (by simp; omega)]
  | case2 payload hne ih =>
    have hpos := length_pos_iff.mpr fun h0 => hne (.inr h0)
    rw [length_cons, ih, length_drop, divCeil, divCeil]
    rcases Nat.lt_or_ge capacity payload.length with hlt | hge
    · rw [show payload.length + capacity - 1 = payload.length - capacity + capacity - 1 + capacity
        by omega, Nat.add_div_right _ h]
    · rw [Nat.div_eq_of_lt (by omega),
        show payload.length + capacity - 1 = payload.length - 1 + capacity by omega,
        Nat.add_div_right _ h, Nat.div_eq_of_lt (by omega)]

def UdpMessage.piece (message : UdpMessage) (count index : Nat) (payload : Bytes) : UdpMessage :=
  { message with
    fragmentId := UInt8.ofNat index
    fragmentCount := UInt8.ofNat count
    payload }

structure Cut (message : UdpMessage) (maxDatagramSize : Nat) (pieces : List Bytes) : Prop where
  valid : message.Valid
  piece : ∀ piece ∈ pieces, piece ≠ [] ∧ message.headerLength + piece.length ≤ maxDatagramSize
  flatten : pieces.flatten = message.payload
  count : 0 < pieces.length ∧ pieces.length ≤ 255

lemma fragmentUdpMessage_cut {maxDatagramSize : Nat} {fragments : List UdpMessage}
    (h : fragmentUdpMessage message maxDatagramSize = .ok fragments) :
    ∃ pieces, Cut message maxDatagramSize pieces ∧
      fragments = pieces.mapIdx (message.piece pieces.length) := by
  obtain ⟨_, hvalid, h⟩ := bind_eq_ok.mp h
  split at h
  · simp at h
  split at h
  · simp at h
  next hlimit =>
  have hcapacity : 0 < maxDatagramSize - message.headerLength := by omega
  have hvalid := validate_eq_ok.mp hvalid
  have hlen := length_chunks hcapacity message.payload
  have hflat := flatten_chunks hcapacity message.payload
  simp only [← hlen] at h
  split at h
  · simp at h
  next hcount =>
  refine ⟨_, ⟨hvalid, fun piece hp => ?_, hflat, ?_, by omega⟩, (pure_eq_ok.mp h).symm⟩
  · have := mem_chunks hp
    exact ⟨this.1, by omega⟩
  · refine length_pos_iff.mpr fun h0 => hvalid.payload.1 ?_
    rw [← hflat, h0, flatten_nil]

namespace Cut

variable {message : UdpMessage} {maxDatagramSize : Nat} {pieces : List Bytes}

variable (h : Cut message maxDatagramSize pieces)

include h

lemma toNat_count (k : Nat) (piece : Bytes) :
    (message.piece pieces.length k piece).fragmentCount.toNat = pieces.length := by
  have := h.count
  rw [UdpMessage.piece, UInt8.toNat_ofNat']
  omega

lemma count_ne_one (hone : pieces.length ≠ 1)
    (k : Nat) (piece : Bytes) : (message.piece pieces.length k piece).fragmentCount ≠ 1 :=
  fun h1 => hone ((h.toNat_count k piece).symm.trans (congrArg UInt8.toNat h1))

lemma toNat_id {k : Nat} (hk : k < pieces.length)
    (piece : Bytes) : (message.piece pieces.length k piece).fragmentId.toNat = k := by
  have := h.count
  rw [UdpMessage.piece, UInt8.toNat_ofNat']
  omega

lemma piece_valid {k : Nat} {piece : Bytes}
    (hk : pieces[k]? = some piece) : (message.piece pieces.length k piece).Valid where
  address := h.valid.address
  payload := by
    have hmem := mem_of_getElem? hk
    have hle : piece.length ≤ pieces.flatten.length :=
      List.Sublist.length_le (sublist_flatten_of_mem hmem)
    rw [h.flatten] at hle
    exact ⟨(h.piece piece hmem).1, Nat.le_trans hle h.valid.payload.2⟩
  count := by
    intro h0
    have hcount := h.toNat_count k piece
    rw [h0] at hcount
    exact absurd hcount.symm (Nat.pos_iff_ne_zero.mp h.count.1)
  id := by
    intro _
    rw [UInt8.lt_iff_toNat_lt, h.toNat_count, h.toNat_id (List.getElem_of_getElem? hk).1]
    exact (List.getElem_of_getElem? hk).1

lemma encode {k : Nat} {piece : Bytes} (hk : pieces[k]? = some piece) :
    ∃ bytes, encodeUdpMessage (message.piece pieces.length k piece) = .ok bytes ∧
      bytes.length ≤ maxDatagramSize ∧
      decodeUdpMessage bytes = .ok (message.piece pieces.length k piece) := by
  obtain ⟨bytes, henc, hlen, hdec⟩ := encodeUdpMessage_eq_ok (h.piece_valid hk)
  refine ⟨bytes, henc, ?_, hdec⟩
  rw [hlen]
  exact (h.piece piece (mem_of_getElem? hk)).2

end Cut

end Xray.Hysteria
