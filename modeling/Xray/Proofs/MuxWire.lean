import Mathlib.Data.Vector.Defs
import Xray.Lib.Fallible
import Xray.Lib.Framing
import Xray.Mux.Wire

/-!
# Mux.Cool frames are read as they were written

A frame's first two bytes say how long its metadata is, and its metadata whether two more bytes
give the length of a payload. Whatever `decode` decides, it decides from these bytes alone, and
asks for them while they are not there. So an answer stands however the input goes on, and it
does not matter where a stream of frames is cut.

What metadata holds is told by its status, its network byte and what is left of it: a `Keep`
frame has a target when the next byte is that of UDP, a `New` frame to UDP has an identity when
eight bytes are left after the target, and the rest must be zeros. `encode` writes no padding,
so none of these is ever read from what was meant as another.
-/

namespace Xray.Mux

open List hiding Vector
open Bytes Fallible Framing Routing

/-! ## The parts of `decode` -/

/-- A frame as its metadata gives it, without the payload. -/
def readMetadata (metadata : Bytes) : Except Invalid Frame :=
  (Status.ofByte (metadata.getD 2 0)).bind fun status =>
    if metadata.getD 3 0 &&& ~~~3 ≠ 0 ∨ (metadata.getD 3 0 &&& 2 ≠ 0 ∧ status ≠ .end) then
      .error .invalid
    else
      (decodeMetadata status (metadata.drop 4)).bind fun (target, globalId) =>
        .ok
          { sessionId := UInt16.ofNat (ofBe (metadata.take 2))
            status
            error := decide (metadata.getD 3 0 &&& 2 ≠ 0)
            target
            globalId
            payload := none }

/-- The payload an option byte announces, and its length on the wire. -/
def readPayload (option : UInt8) (rest : Bytes) : Except Invalid (Option (Option Bytes × Nat)) :=
  if option &&& 1 = 0 then .ok (some (none, 0))
  else if rest.length < 2 then .ok none
  else if ofBe (rest.take 2) > maxPayload then .error .invalid
  else if rest.length < 2 + ofBe (rest.take 2) then .ok none
  else .ok (some (some ((rest.drop 2).take (ofBe (rest.take 2))), 2 + ofBe (rest.take 2)))

lemma decode_eq (input : Bytes) : decode input =
      if input.length < 2 then .ok none
      else if ofBe (input.take 2) < 4 ∨ ofBe (input.take 2) > maxMetadata then .error .invalid
      else if input.length < 2 + ofBe (input.take 2) then .ok none
      else (readMetadata ((input.drop 2).take (ofBe (input.take 2)))).bind fun frame =>
          (readPayload (((input.drop 2).take (ofBe (input.take 2))).getD 3 0)
            (input.drop (2 + ofBe (input.take 2)))).map
            (Option.map fun (payload, n) =>
              ({ frame with payload }, 2 + ofBe (input.take 2) + n)) := by
  simp only [decode]
  split
  · rfl
  split
  · rfl
  split
  · rfl
  rw [readMetadata]
  generalize (input.drop 2).take (ofBe (input.take 2)) = metadata
  cases Status.ofByte (metadata.getD 2 0) with
  | error e => rfl
  | ok status =>
    simp only [Except.bind, bind]
    split
    · rfl
    cases decodeMetadata status (metadata.drop 4) with
    | error e => rfl
    | ok found =>
      simp only [readPayload]
      split
      · rfl
      split
      · rfl
      split
      · rfl
      split
      · rfl
      · simp only [pure, Except.pure, Except.map, Option.map_some, Nat.add_assoc]

variable {rest input bytes : Bytes} {frame : Frame}

lemma readPayload_bounds {option : UInt8} {payload : Option Bytes} {n : Nat}
    (h : readPayload option rest = .ok (some (payload, n))) :
    n ≤ rest.length ∧ n ≤ 2 + maxPayload := by
  revert h
  fun_cases readPayload option rest with
  | case1 | case5 =>
    rintro ⟨⟩
    omega
  | _ => rintro ⟨⟩

lemma readPayload_append {option : UInt8} (h : readPayload option rest ≠ .ok none) (tail : Bytes) :
    readPayload option (rest ++ tail) = readPayload option rest := by
  simp only [readPayload] at h ⊢
  split at h
  · next hoption => rw [if_pos hoption, if_pos hoption]
  next hoption =>
  rw [if_neg hoption, if_neg hoption]
  split at h
  · exact absurd rfl h
  next hshort =>
  have htake : (rest ++ tail).take 2 = rest.take 2 := take_append_of_le_length (by omega)
  rw [if_neg hshort, htake, if_neg (by rw [length_append]; omega)]
  split at h
  · next hsize => rw [if_pos hsize, if_pos hsize]
  next hsize =>
  rw [if_neg hsize, if_neg hsize]
  split at h
  · exact absurd rfl h
  next hlong =>
  rw [if_neg hlong, if_neg (by rw [length_append]; omega), drop_append_of_le_length (by omega),
    take_append_of_le_length (by rw [length_drop]; omega)]

lemma decode_bounds {n : Nat} (h : decode input = .ok (some (frame, n))) :
    0 < n ∧ n ≤ input.length ∧ n ≤ maxFrame := by
  rw [decode_eq] at h
  split at h
  · cases h
  split at h
  · cases h
  split at h
  · cases h
  next hlength hlong =>
  obtain ⟨found, -, h⟩ := bind_eq_ok.mp h
  cases hpayload : readPayload (((input.drop 2).take (ofBe (input.take 2))).getD 3 0)
      (input.drop (2 + ofBe (input.take 2))) with
  | error e =>
    rw [hpayload] at h
    cases h
  | ok answer =>
    rw [hpayload] at h
    cases answer with
    | none => cases h
    | some answer =>
      cases h
      have hbounds := readPayload_bounds hpayload
      rw [length_drop] at hbounds
      unfold maxFrame
      omega

lemma decode_append (h : decode input ≠ .ok none) (tail : Bytes) :
    decode (input ++ tail) = decode input := by
  rw [decode_eq input] at h ⊢
  rw [decode_eq]
  split at h
  · exact absurd rfl h
  next htwo =>
  have htake : (input ++ tail).take 2 = input.take 2 := take_append_of_le_length (by omega)
  rw [if_neg htwo, if_neg (by rw [length_append]; omega), htake]
  split at h
  · next hlength => rw [if_pos hlength, if_pos hlength]
  next hlength =>
  rw [if_neg hlength, if_neg hlength]
  split at h
  · exact absurd rfl h
  next hlong =>
  rw [if_neg hlong, if_neg (by rw [length_append]; omega), drop_append_of_le_length (by omega),
    take_append_of_le_length (by rw [length_drop]; omega),
    drop_append_of_le_length (by omega)]
  cases hmeta : readMetadata ((input.drop 2).take (ofBe (input.take 2))) with
  | error e => rfl
  | ok frame =>
    rw [hmeta] at h
    rw [readPayload_append]
    intro hnone
    rw [hnone] at h
    exact h rfl

def decoder : Decoder Frame Invalid where
  decode := decode
  bounds h := ⟨(decode_bounds h).1, (decode_bounds h).2.1⟩
  stable h := decode_append h

/-! ## Reading what was written -/

lemma decodeAddr_domain {name : Bytes} (rest : Bytes)
    (h : ¬(name = [] ∨ name.length > 255 ∨ plainName name = false)) :
    decodeAddr 2 (UInt8.ofNat name.length :: (name ++ rest)) = .ok (.domain name, rest) := by
  have hne : name.length ≠ 0 := fun hnil => h (.inl (eq_nil_of_length_eq_zero hnil))
  have hplain : plainName name = true := by
    by_contra hplain
    exact h (.inr (.inr (by simpa using hplain)))
  have hcount : (UInt8.ofNat name.length).toNat = name.length := by
    rw [UInt8.toNat_ofNat']
    omega
  rw [decodeAddr]
  simp [hcount, hplain, hne]

lemma decodeTarget_of {network : Network} {port : UInt16} {kind : UInt8} {addr : TargetAddr}
    {more : Bytes} (hport : port ≠ 0) (h : decodeAddr kind rest = .ok (addr, more)) :
    decodeTarget ((if network = .tcp then 1 else 2) :: (toBe 2 port.toNat ++ kind :: rest)) =
      .ok (⟨addr, port, network⟩, more) := by
  have hread : UInt16.ofNat (ofBe (toBe 2 port.toNat)) = port := by
    rw [ofBe_toBe_of_lt port.toNat_lt, UInt16.ofNat_toNat]
  rw [toBe, toBe, toBe] at hread ⊢
  simp only [cons_append, nil_append, decodeTarget, hread, if_neg hport, h]
  cases network <;> rfl

lemma decodeTarget_encodeTarget {status : Status} {target : Target}
    (h : encodeTarget status target = .ok bytes) (rest : Bytes) :
    decodeTarget (bytes ++ rest) = .ok (target, rest) := by
  obtain ⟨addr, port, network⟩ := target
  rw [encodeTarget] at h
  split at h
  · cases h
  split at h
  · cases h
  next hport =>
  cases addr with
  | ip ip =>
    cases ip with
    | v4 ip =>
      cases h
      have haddr : decodeAddr 1 (toBe 4 ip.toNat ++ rest) = .ok (.ip (.v4 ip), rest) := by
        rw [decodeAddr, if_pos ⟨rfl, by simp⟩, take_left' (length_toBe _ _),
          drop_left' (length_toBe _ _), ofBe_toBe_of_lt (n := 4) ip.isLt,
          BitVec.ofNat_toNat, BitVec.setWidth_eq]
      simpa using decodeTarget_of hport haddr
    | v6 ip =>
      cases h
      have haddr : decodeAddr 3 (toBe 16 ip.toNat ++ rest) = .ok (.ip (.v6 ip), rest) := by
        rw [decodeAddr, if_neg (by simp), if_pos ⟨rfl, by simp⟩,
          take_left' (length_toBe _ _), drop_left' (length_toBe _ _),
          ofBe_toBe_of_lt (n := 16) ip.isLt, BitVec.ofNat_toNat, BitVec.setWidth_eq]
      simpa using decodeTarget_of hport haddr
  | domain name =>
    dsimp only at h
    split at h
    · cases h
    next hname =>
    cases h
    simpa using decodeTarget_of hport (decodeAddr_domain rest hname)

lemma encodeTarget_shape {status : Status} {target : Target}
    (h : encodeTarget status target = .ok bytes) :
    (status = .new ∨ status = .keep ∧ bytes.head? = some 2) ∧ bytes.length ≤ 260 := by
  obtain ⟨addr, port, network⟩ := target
  rw [encodeTarget] at h
  split at h
  · cases h
  next hstatus =>
  split at h
  · cases h
  have hhead : ∀ tail : Bytes, status = .new ∨
      status = .keep ∧ ((if network = .tcp then 1 else 2) :: tail).head? = some 2 := by
    intro tail
    cases status <;> cases network <;> simp_all
  cases addr with
  | ip ip =>
    cases ip with
    | v4 ip | v6 ip =>
      cases h
      exact ⟨hhead _, by simp⟩
  | domain name =>
    dsimp only at h
    split at h
    · cases h
    next hname =>
    cases h
    refine ⟨hhead _, ?_⟩
    simp only [length_append, length_cons, length_nil, length_toBe]
    omega

/-! ## The parts of `encode` -/

def Frame.targetBytes (frame : Frame) : Except Invalid Bytes :=
  match frame.target with
  | some target => encodeTarget frame.status target
  | none => .ok []

def Frame.globalBytes (frame : Frame) : Bytes :=
  match frame.globalId with
  | some id => id.toList
  | none => []

def Frame.payloadBytes (frame : Frame) : Bytes :=
  match frame.payload with
  | some payload => toBe 2 payload.length ++ payload
  | none => []

def Frame.optionByte (frame : Frame) : UInt8 :=
  (if frame.payload.isSome then 1 else 0) ||| (if frame.error then 2 else 0)

def Frame.metadata (frame : Frame) (target : Bytes) : Bytes :=
  toBe 2 frame.sessionId.toNat ++ [frame.status.toByte, frame.optionByte] ++ target ++
    frame.globalBytes

lemma encode_eq (frame : Frame) : encode frame =
      if frame.encodable = false then .error .invalid
      else frame.targetBytes.bind fun target =>
        .ok (toBe 2 (frame.metadata target).length ++ frame.metadata target ++
          frame.payloadBytes) := by
  rw [encode, Frame.targetBytes]
  split
  · rfl
  cases frame.target <;> rfl

lemma optionByte_spec (frame : Frame) :
    frame.optionByte &&& ~~~3 = 0 ∧ (frame.optionByte &&& 2 ≠ 0 ↔ frame.error = true) ∧
      (frame.optionByte &&& 1 = 0 ↔ frame.payload.isSome = false) := by
  rw [Frame.optionByte]
  cases frame.payload.isSome <;> cases frame.error <;> decide

lemma Status.ofByte_toByte (status : Status) : Status.ofByte status.toByte = .ok status := by
  cases status <;> rfl

lemma decodeMetadata_written (hframe : frame.encodable) (h : frame.targetBytes = .ok bytes) :
    decodeMetadata frame.status (bytes ++ frame.globalBytes) =
      .ok (frame.target, frame.globalId) := by
  obtain ⟨sessionId, status, error, target, globalId, payload⟩ := frame
  cases target with
  | none =>
    cases h
    have hstatus : status ≠ .new := by
      rintro rfl
      simp [Frame.encodable] at hframe
    have hglobal : globalId = none := by
      cases globalId with
      | none => rfl
      | some id => simp [Frame.encodable] at hframe
    subst hglobal
    simp [decodeMetadata, Frame.globalBytes, hstatus, bind, Except.bind, pure, Except.pure]
  | some target =>
    have htarget := (encodeTarget_shape h).1
    have hread := decodeTarget_encodeTarget h
    cases globalId with
    | none =>
      simp only [Frame.globalBytes, append_nil]
      have hread := hread []
      rw [append_nil] at hread
      rw [decodeMetadata, if_pos htarget, hread]
      simp [bind, Except.bind, pure, Except.pure]
    | some id =>
      have hnew : status = .new ∧ target.network = .udp := by
        simp [Frame.encodable] at hframe
        exact hframe.2
      simp only [Frame.globalBytes]
      rw [decodeMetadata, hread]
      have hlength : id.toList.length = 8 := Vector.length_toList
      have hid : (⟨(id.toList.take 8).toArray, by simp [hlength]⟩ : Vector UInt8 8) = id := by
        rw [← Vector.toList_inj]
        exact take_of_length_le (by omega)
      have hdrop : id.toList.drop 8 = [] := drop_of_length_le (by omega)
      simp [bind, Except.bind, pure, Except.pure, hnew, hid, hdrop]

lemma readMetadata_written (hframe : frame.encodable) (h : frame.targetBytes = .ok bytes) :
    readMetadata (frame.metadata bytes) = .ok { frame with payload := none } := by
  obtain ⟨hreserved, herror, -⟩ := optionByte_spec frame
  have hstatus : (frame.metadata bytes).getD 2 0 = frame.status.toByte := rfl
  have hoption : (frame.metadata bytes).getD 3 0 = frame.optionByte := rfl
  have hsession : UInt16.ofNat (ofBe ((frame.metadata bytes).take 2)) = frame.sessionId := by
    have htake : (frame.metadata bytes).take 2 = toBe 2 frame.sessionId.toNat := rfl
    rw [htake, ofBe_toBe_of_lt frame.sessionId.toNat_lt, UInt16.ofNat_toNat]
  have hdrop : (frame.metadata bytes).drop 4 = bytes ++ frame.globalBytes := by
    simp [Frame.metadata, toBe]
  have hend : ¬(frame.optionByte &&& 2 ≠ 0 ∧ frame.status ≠ .end) := by
    rintro ⟨hbit, hstatus⟩
    simp [Frame.encodable, herror.mp hbit, hstatus] at hframe
  rw [readMetadata, hstatus, hoption, hsession, hdrop, Status.ofByte_toByte]
  simp only [Except.bind]
  rw [if_neg (not_or.mpr ⟨not_not.mpr hreserved, hend⟩), decodeMetadata_written hframe h]
  have hflag : decide (frame.optionByte &&& 2 ≠ 0) = frame.error := by
    rw [Bool.eq_iff_iff, decide_eq_true_iff]
    exact herror
  rw [hflag]

lemma length_metadata (h : frame.targetBytes = .ok bytes) :
    4 ≤ (frame.metadata bytes).length ∧ (frame.metadata bytes).length ≤ maxMetadata := by
  have hbytes : bytes.length ≤ 260 := by
    rw [Frame.targetBytes] at h
    split at h
    · exact (encodeTarget_shape h).2
    · cases h
      simp
  have hglobal : frame.globalBytes.length ≤ 8 := by
    rw [Frame.globalBytes]
    split
    · rw [Vector.length_toList]
    · simp
  simp only [Frame.metadata, length_append, length_toBe, length_cons, length_nil, maxMetadata]
  omega

lemma readPayload_written (hframe : frame.encodable) (tail : Bytes) :
    readPayload frame.optionByte (frame.payloadBytes ++ tail) =
      .ok (some (frame.payload, frame.payloadBytes.length)) := by
  obtain ⟨-, -, hpayload⟩ := optionByte_spec frame
  rw [readPayload, Frame.payloadBytes]
  cases hbytes : frame.payload with
  | none => rw [if_pos (hpayload.mpr (by rw [hbytes]; rfl)), length_nil]
  | some bytes =>
    have hmax : bytes.length ≤ maxPayload := by
      by_contra hlong
      simp [Frame.encodable, hbytes, Nat.lt_of_not_le hlong] at hframe
    have hsize : ofBe (toBe 2 bytes.length) = bytes.length :=
      ofBe_toBe_of_lt (by unfold maxPayload at hmax; omega)
    have htake : (toBe 2 bytes.length ++ bytes ++ tail).take 2 = toBe 2 bytes.length := by
      rw [append_assoc, take_left' (length_toBe _ _)]
    have hdrop : (toBe 2 bytes.length ++ bytes ++ tail).drop 2 = bytes ++ tail := by
      rw [append_assoc, drop_left' (length_toBe _ _)]
    have hlength : (toBe 2 bytes.length ++ bytes ++ tail).length =
        2 + bytes.length + tail.length := by
      rw [length_append, length_append, length_toBe]
    rw [if_neg (mt hpayload.mp (by rw [hbytes]; simp)), hlength, htake, hsize, hdrop,
      if_neg (by omega), if_neg (by omega), if_neg (by omega), take_left,
      length_append, length_toBe]

lemma decode_encode {wire : Bytes} (h : encode frame = .ok wire) (tail : Bytes) :
    decode (wire ++ tail) = .ok (some (frame, wire.length)) := by
  rw [encode_eq] at h
  split at h
  · cases h
  next hframe =>
  rw [Bool.not_eq_false] at hframe
  obtain ⟨bytes, htarget, h⟩ := bind_eq_ok.mp h
  cases h
  obtain ⟨hfour, hshort⟩ := length_metadata htarget
  have hread := readMetadata_written hframe htarget
  have hoption : (frame.metadata bytes).getD 3 0 = frame.optionByte := rfl
  generalize frame.metadata bytes = metadata at hfour hshort hread hoption ⊢
  have hsize : ofBe ((toBe 2 metadata.length ++ metadata ++ frame.payloadBytes ++ tail).take 2) =
      metadata.length := by
    rw [append_assoc, append_assoc, take_left' (length_toBe _ _)]
    exact ofBe_toBe_of_lt (by unfold maxMetadata at hshort; omega)
  have hmetadata : ((toBe 2 metadata.length ++ metadata ++ frame.payloadBytes ++ tail).drop 2).take
      metadata.length = metadata := by
    rw [append_assoc, append_assoc, drop_left' (length_toBe _ _), take_left]
  have hrest : (toBe 2 metadata.length ++ metadata ++ frame.payloadBytes ++ tail).drop
      (2 + metadata.length) = frame.payloadBytes ++ tail := by
    rw [append_assoc, drop_left' (by rw [length_append, length_toBe])]
  have hlength : (toBe 2 metadata.length ++ metadata ++ frame.payloadBytes).length =
      2 + metadata.length + frame.payloadBytes.length := by
    rw [length_append, length_append, length_toBe]
  rw [decode_eq, hsize, hmetadata, hrest, hoption, hread, length_append, hlength,
    if_neg (by omega), if_neg (by omega), if_neg (by omega)]
  simp only [Except.bind, readPayload_written hframe, Except.map, Option.map_some]

/-- The codec loses nothing and is never in doubt. A frame that is written is read back with
its length, whatever follows, and a strict part of it is not yet a frame. An answer, be it a
frame or an error, does not change when more bytes come. So frames that are written one after
another are read back however the bytes are cut. No frame takes more than `maxFrame` bytes. -/
theorem mux_codec_round_trip : (∀ {frame wire}, encode frame = .ok wire →
      (∀ tail, decode (wire ++ tail) = .ok (some (frame, wire.length))) ∧
      ∀ part, part <+: wire → part ≠ wire → decode part = .ok none) ∧
    (∀ {input}, decode input ≠ .ok none → ∀ tail, decode (input ++ tail) = decode input) ∧
    (∀ {frames wires}, List.Forall₂ (fun frame wire => encode frame = .ok wire) frames wires →
      ∀ pieces : List Bytes, pieces.flatten = wires.flatten →
        decoder.feed [] pieces = (frames, .ok [])) ∧
    ∀ {input frame n}, decode input = .ok (some (frame, n)) → n ≤ maxFrame := by
  refine ⟨fun h => ⟨decode_encode h, ?_⟩, decode_append, ?_, fun h => (decode_bounds h).2.2⟩
  · intro part hpart hne
    have hread := decode_encode h []
    rw [append_nil] at hread
    exact decode_short (d := decoder) hread hpart hne
  · intro frames wires h pieces hpieces
    have hread : List.Forall₂ (fun frame wire => ∀ tail,
        decoder.decode (wire ++ tail) = .ok (some (frame, wire.length))) frames wires :=
      h.imp fun _ _ hwire => decode_encode hwire
    rw [feed_eq_drain pieces (drain_of_none rfl), hpieces]
    exact drain_wires rfl hread

/-- A UDP packet of a known session, and an end with an error. -/
def twoFrames : List Frame :=
  [{ sessionId := 7, status := .keep, error := false, target := some ⟨.ip (.v4 3221225985), 53, .udp⟩,
     globalId := none, payload := some [1, 2] },
   { sessionId := 7, status := .end, error := true, target := none, globalId := none,
     payload := none }]

theorem mux_codec_round_trip_two_frames :
    decoder.feed [] [[0, 12, 0, 7, 2, 1, 2, 0], [53, 1, 192, 0, 2, 1, 0],
      [2, 1, 2, 0, 4, 0, 7], [3, 2]] = (twoFrames, .ok []) :=
  mux_codec_round_trip.2.2.1 (.cons rfl (.cons rfl .nil)) _ rfl

end Xray.Mux
