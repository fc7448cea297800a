import Xray.Outbound.Datagram
import Xray.Proofs.HysteriaWire
import Xray.Tun.Packet

/-!
# What ends a relayed UDP flow

A send can fail for two reasons: because nothing can be sent to this target, whatever the
datagram (`Stuck`), or because of this datagram. `Takes` says which datagrams a session
takes, in its own limits; `send_of_takes` shows that one within them is sent, or the
session is stuck, and `send_of_not_takes` that no other is. The filter of the relay
covers the upper limit of most sessions, but not the lower one of those that refuse an
empty datagram, nor the upper one of SOCKS.
-/

namespace Xray.Outbound

open Bytes Routing Session

/-! ## Codecs

Each codec refuses a target for every payload, or it looks at the length only. -/

lemma Trojan.encodeUdpPacket_cases (target : Target) :
    (∃ error, ∀ payload, encodeUdpPacket target payload = .error error) ∨
    ∀ payload, encodeUdpPacket target payload =
      if payload.length > maxUdpPayloadLength then .error .payloadLength
      else .ok (encodeAddress target ++ toBe 2 payload.length ++ [13, 10] ++ payload) := by
  by_cases hnetwork : target.network ≠ .udp
  · exact .inl ⟨_, fun payload => if_pos hnetwork⟩
  cases hvalid : validateTarget target with
  | error error =>
    refine .inl ⟨error, fun payload => ?_⟩
    rw [encodeUdpPacket, if_neg hnetwork, hvalid, Fallible.bind_error]
  | ok length =>
    refine .inr fun payload => ?_
    rw [encodeUdpPacket, if_neg hnetwork, hvalid]
    rfl

lemma Socks.encodeSocks5UdpRequest_eq {target : Target} {header : Bytes}
    (h : requestHeader target = .ok header) (payload : Bytes) :
    encodeSocks5UdpRequest target payload =
      if header.length + payload.length > maxSocksUdpDatagramLength then .error .udpPayloadTooLarge
      else .ok (header ++ payload) := by
  rw [encodeSocks5UdpRequest, h]
  rfl

lemma Socks.encodeSocks5UdpRequest_error {target : Target} {error : SocksClientError}
    (h : requestHeader target = .error error) (payload : Bytes) :
    encodeSocks5UdpRequest target payload = .error error := by
  rw [encodeSocks5UdpRequest, h, Fallible.bind_error]

end Xray.Outbound

namespace Xray.Mux

open Bytes Routing

lemma encode_datagram (frame : Frame) {target : Target} {payload : Bytes}
    (htarget : frame.target = some target) (hpayload : frame.payload = some payload) :
    (∃ error, encode frame = .error error ∧ (payload.length ≤ maxPayload →
        ∀ p, ∃ error, encode { frame with payload := some p } = .error error)) ∨
    ∃ metadata, encode frame =
      .ok (toBe 2 metadata.length ++ metadata ++ (toBe 2 payload.length ++ payload)) := by
  by_cases hencodable : frame.encodable = false
  · refine .inl ⟨.invalid, if_pos hencodable, fun hlen p => ⟨.invalid, if_pos ?_⟩⟩
    simp only [Frame.encodable, hpayload, Option.any_some, Bool.not_eq_false', Bool.or_eq_true,
      decide_eq_true_eq] at hencodable ⊢
    rcases hencodable with ((hlong | hbad) | hbad) | hbad
    · omega
    · exact .inl (.inl (.inr hbad))
    · exact .inl (.inr hbad)
    · exact .inr hbad
  · cases hencode : encodeTarget frame.status target with
    | error error =>
      refine .inl ⟨error, ?_, fun _ p => ?_⟩
      · simp only [encode, if_neg hencodable, htarget, hencode, Fallible.bind_error]
      by_cases hp : Frame.encodable { frame with payload := some p } = false
      · exact ⟨_, if_pos hp⟩
      · refine ⟨error, (if_neg hp).trans ?_⟩
        simp only [htarget, hencode, Fallible.bind_error]
    | ok bytes =>
      right
      simp only [encode, if_neg hencodable, htarget, hpayload, hencode]
      exact ⟨_, rfl⟩

end Xray.Mux

namespace Xray.Shadowsocks

open Bytes Routing

variable {C : Crypto} (S : Sealing C)

lemma length_identities (separate : Bytes) (keys : List Bytes) :
    (identities S separate keys).length = (keys.length - 1) * 16 := by
  match keys with
  | [] => rfl
  | [_] => rfl
  | key :: next :: keys =>
    rw [identities, List.length_append, S.length_identity, length_identities separate (next :: keys)]
    simp only [List.length_cons]
    omega

lemma UdpSession.length_packet (session : UdpSession C) (packetId : Nat)
    (address payload : Bytes) (timestamp : Nat) {nonce : Bytes} (hnonce : nonce.length = 24) :
    (session.packet S packetId address payload timestamp nonce).length =
      16 + session.method.extra + 11 + address.length + payload.length + tagLength := by
  rw [packet, Method.extra]
  split
  · rw [List.length_append, S.length_xchachaSeal]
    simp only [List.length_append, List.length_cons, length_toBe, List.length_nil]
    omega
  · rw [List.length_append, List.length_append, S.length_blockEncrypt, S.length_aeadSeal,
      length_identities]
    simp only [List.length_append, List.length_cons, length_toBe, List.length_nil]
    omega

def Codec.Seals (codec : Codec C) (target : Target) (payload wire : Bytes) : Prop :=
  ∃ address, encodeAddress target = .ok address ∧
    match codec with
    | .aead2017 method => ∃ salt, wire = salt ++ S.seal2017 method salt (address ++ payload)
    | .shadowsocks2022 session => ∃ packetId timestamp nonce,
        wire = session.packet S packetId address payload timestamp nonce

/-- A session that has sent is the same up to the number of its next packet. -/
def Codec.Alike (codec codec' : Codec C) : Prop :=
  match codec, codec' with
  | .aead2017 method, .aead2017 method' => method' = method
  | .shadowsocks2022 session, .shadowsocks2022 session' => session'.method = session.method
  | _, _ => False

lemma Codec.Alike.overhead_eq {codec codec' : Codec C} (h : codec.Alike codec')
    (target : Target) : codec'.overhead target = codec.overhead target := by
  cases codec with
  | aead2017 method =>
    cases codec' with
    | aead2017 method' => rw [show method' = method from h]
    | shadowsocks2022 session' => exact h.elim
  | shadowsocks2022 session =>
    cases codec' with
    | aead2017 method' => exact h.elim
    | shadowsocks2022 session' =>
      have hm : session'.method = session.method := h
      simp only [Codec.overhead, UdpSession.overhead, hm]

/-- What an encoder does with the payloads for one target: it refuses all of them, or it
adds an overhead and refuses those that are then too long. -/
def Framed {α : Type} (encode : Bytes → Except InvalidData α) (overhead : Except InvalidData Nat)
    (good : Bytes → Nat → α → Prop) : Prop :=
  (∀ payload, ∃ error, encode payload = .error error) ∨
  ∃ n, overhead = .ok n ∧ ∀ payload,
    (n + payload.length > maxUdpWireLength ∧ ∃ error, encode payload = .error error) ∨
    ∃ r, encode payload = .ok r ∧ good payload (n + payload.length) r

lemma Framed.mono {α β : Type} {encode : Bytes → Except InvalidData α}
    {encode' : Bytes → Except InvalidData β} {overhead : Except InvalidData Nat}
    {good : Bytes → Nat → α → Prop} {good' : Bytes → Nat → β → Prop}
    (h : Framed encode overhead good) (f : α → β)
    (herror : ∀ p e, encode p = .error e → encode' p = .error e)
    (hok : ∀ p r, encode p = .ok r → encode' p = .ok (f r))
    (hgood : ∀ p n r, good p n r → good' p n (f r)) : Framed encode' overhead good' := by
  rcases h with hrefuse | ⟨n, hn, h⟩
  · refine .inl fun payload => ?_
    obtain ⟨error, he⟩ := hrefuse payload
    exact ⟨error, herror _ _ he⟩
  · refine .inr ⟨n, hn, fun payload => ?_⟩
    rcases h payload with ⟨hlong, error, he⟩ | ⟨r, hr, hg⟩
    · exact .inl ⟨hlong, error, herror _ _ he⟩
    · exact .inr ⟨f r, hok _ _ hr, hgood _ _ _ hg⟩

lemma Method2017.encode_framed (method : Method2017) (target : Target) (draw : Draw) :
    Framed (fun payload => method.encode S target payload draw) (method.overhead target)
      fun payload n wire => wire.length = n ∧ ∃ address salt, encodeAddress target = .ok address ∧
        wire = salt ++ S.seal2017 method salt (address ++ payload) := by
  have hsalt : (draw.salt.toList.take method.cipher.keyLen).length = method.cipher.keyLen := by
    rw [List.length_take, Vector.length_toList, Cipher2017.keyLen]
    split <;> rfl
  cases haddress : encodeAddress target with
  | error error =>
    refine .inl fun payload => ⟨error, ?_⟩
    show method.encode S target payload draw = _
    rw [encode, encodeWithSalt, haddress, Fallible.bind_error]
  | ok address =>
    by_cases hnetwork : target.network = .udp
    · refine .inr ⟨method.cipher.keyLen + address.length + tagLength, ?_, fun payload => ?_⟩
      · rw [overhead, haddress]
        rfl
      by_cases hlong : method.cipher.keyLen + address.length + payload.length + tagLength >
          maxUdpWireLength
      · refine .inl ⟨by omega, ?_⟩
        show ∃ error, method.encode S target payload draw = .error error
        rw [encode, encodeWithSalt, haddress, Fallible.bind_ok, hsalt, if_pos (.inr hlong)]
        exact ⟨_, rfl⟩
      · refine .inr ⟨_, ?_, ?_, address, draw.salt.toList.take method.cipher.keyLen, rfl, rfl⟩
        · show method.encode S target payload draw = _
          rw [encode, encodeWithSalt, haddress, Fallible.bind_ok, hsalt,
            if_neg (not_or.mpr ⟨not_not.mpr hnetwork, hlong⟩)]
          rfl
        · rw [List.length_append, S.length_seal2017, List.length_append]
          omega
    · refine .inl fun payload => ?_
      show ∃ error, method.encode S target payload draw = .error error
      rw [encode, encodeWithSalt, haddress, Fallible.bind_ok, if_pos (.inl hnetwork)]
      exact ⟨_, rfl⟩

lemma UdpSession.encodeAt_framed (session : UdpSession C) (target : Target) (draw : Draw) :
    Framed (fun payload => session.encodeAt S target payload draw.timestamp draw.nonce.toList)
      (session.overhead target)
      fun payload n r => r.1.length = n ∧ r.2.method = session.method ∧
        ∃ address packetId timestamp nonce, encodeAddress target = .ok address ∧
          r.1 = session.packet S packetId address payload timestamp nonce := by
  cases haddress : encodeAddress target with
  | error error =>
    refine .inl fun payload => ⟨error, ?_⟩
    show session.encodeAt S target payload _ _ = _
    rw [encodeAt, haddress, Fallible.bind_error]
  | ok address =>
    by_cases hnetwork : target.network = .udp
    · cases hnext : session.next with
      | none =>
        refine .inl fun payload => ?_
        show ∃ error, session.encodeAt S target payload _ _ = .error error
        rw [encodeAt, haddress, Fallible.bind_ok]
        split
        · exact ⟨_, rfl⟩
        · rw [hnext]
          exact ⟨_, rfl⟩
      | some packetId =>
        refine .inr ⟨16 + session.method.extra + 11 + address.length + tagLength, ?_,
          fun payload => ?_⟩
        · rw [overhead, haddress]
          rfl
        by_cases hlong : 16 + session.method.extra + 11 + address.length + payload.length +
            tagLength > maxUdpWireLength
        · refine .inl ⟨by omega, ?_⟩
          show ∃ error, session.encodeAt S target payload _ _ = .error error
          rw [encodeAt, haddress, Fallible.bind_ok, if_pos (.inr hlong)]
          exact ⟨_, rfl⟩
        let session' : UdpSession C := { session with
          next := if packetId + 1 < 2 ^ 64 then some (packetId + 1) else none }
        refine .inr ⟨(session.packet S packetId address payload draw.timestamp
            draw.nonce.toList, session'), ?_, ?_, rfl, address, packetId, draw.timestamp,
            draw.nonce.toList, rfl, rfl⟩
        · show session.encodeAt S target payload _ _ = _
          rw [encodeAt, haddress, Fallible.bind_ok,
            if_neg (not_or.mpr ⟨not_not.mpr hnetwork, hlong⟩), hnext]
          rfl
        · show (session.packet _ _ _ _ _ _).length = _
          rw [session.length_packet S _ _ _ _ (by simp)]
          omega
    · refine .inl fun payload => ?_
      show ∃ error, session.encodeAt S target payload _ _ = .error error
      rw [encodeAt, haddress, Fallible.bind_ok, if_pos (.inl hnetwork)]
      exact ⟨_, rfl⟩

lemma Codec.encode_framed (codec : Codec C) (target : Target) (draw : Draw) :
    Framed (fun payload => codec.encode S target payload draw) (codec.overhead target)
      fun payload n r => r.1.length = n ∧ codec.Seals S target payload r.1 ∧ codec.Alike r.2 := by
  cases codec with
  | aead2017 method =>
    refine (method.encode_framed S target draw).mono (fun wire => (wire, .aead2017 method))
      ?_ ?_ ?_
    · intro p e he
      simp only [Codec.encode, he, Fallible.bind_error]
    · intro p wire hw
      simp only [Codec.encode, hw]
      rfl
    · rintro p n wire ⟨hlen, address, salt, haddress, hwire⟩
      exact ⟨hlen, ⟨address, haddress, salt, hwire⟩, rfl⟩
  | shadowsocks2022 session =>
    refine (session.encodeAt_framed S target draw).mono
      (fun r => (r.1, .shadowsocks2022 r.2)) ?_ ?_ ?_
    · intro p e he
      simp only [Codec.encode, he, Fallible.bind_error]
    · intro p r hr
      simp only [Codec.encode, hr]
      rfl
    · rintro p n r ⟨hlen, hmethod, address, packetId, timestamp, nonce, haddress, hwire⟩
      exact ⟨hlen, ⟨address, haddress, packetId, timestamp, nonce, hwire⟩, hmethod⟩

/-- A payload that passed the filter is sent, or none can be. -/
lemma Codec.send_of_fits (codec : Codec C) {target : Target} {payload : Bytes} (draw : Draw)
    (hfits : payload.length ≤ codec.maxPayload target) :
    (∀ p, ∃ error, codec.send S target p draw = .error error) ∨
    ∃ wire codec', codec.send S target payload draw = .ok (wire, codec') ∧
      codec.Seals S target payload wire ∧ codec.Alike codec' := by
  rcases codec.encode_framed S target draw with hrefuse | ⟨n, hn, hframed⟩
  · refine .inl fun p => ?_
    obtain ⟨error, he⟩ := hrefuse p
    have he : codec.encode S target p draw = .error error := he
    exact ⟨error, by rw [Codec.send, he, Fallible.bind_error]⟩
  have hfits : payload.length ≤ peerUdpBuffer - n := by
    rw [Codec.maxPayload, hn] at hfits
    exact hfits
  by_cases hroom : n ≤ peerUdpBuffer
  · rcases hframed payload with ⟨hlong, -⟩ | ⟨⟨wire, codec'⟩, henc, hlen, hgood⟩
    · rw [maxUdpWireLength] at hlong
      rw [peerUdpBuffer] at hfits hroom
      omega
    refine .inr ⟨wire, codec', ?_, hgood⟩
    have henc : codec.encode S target payload draw = .ok (wire, codec') := henc
    have hshort : ¬wire.length > peerUdpBuffer := by
      have : wire.length = n + payload.length := hlen
      omega
    rw [Codec.send, henc]
    exact if_neg hshort
  -- The overhead alone fills the peer's buffer.
  · refine .inl fun p => ?_
    rcases hframed p with ⟨-, error, he⟩ | ⟨⟨wire, codec'⟩, henc, hlen, -⟩
    · have he : codec.encode S target p draw = .error error := he
      exact ⟨error, by rw [Codec.send, he, Fallible.bind_error]⟩
    have henc : codec.encode S target p draw = .ok (wire, codec') := henc
    have hlong : wire.length > peerUdpBuffer := by
      have : wire.length = n + p.length := hlen
      omega
    rw [Codec.send, henc]
    exact ⟨_, if_pos hlong⟩

end Xray.Shadowsocks

namespace Xray.Outbound

open Bytes Routing

section

variable {C : Shadowsocks.Crypto} (names : Names) (S : Shadowsocks.Sealing C)

/-- A message that carries one datagram with this payload to the target. -/
def Message.Holds (target : Target) (payload : Bytes) : Message → Prop
  | .mux bytes | .record bytes => bytes = payload
  | .xudp wire => ∃ metadata,
      wire = toBe 2 metadata.length ++ metadata ++ (toBe 2 payload.length ++ payload)
  | .trojan wire =>
    wire = Trojan.encodeAddress target ++ toBe 2 payload.length ++ [13, 10] ++ payload
  | .socks wire => ∃ header, Socks.requestHeader target = .ok header ∧ wire = header ++ payload
  | .shadowsocks wire => ∃ codec : Shadowsocks.Codec C, codec.Seals S target payload wire
  | .fragments wires => ∃ message size pieces,
      Xray.Hysteria.Cut message size pieces ∧ message.payload = payload ∧
      List.Forall₂ (fun wire fragment => Xray.Hysteria.decodeUdpMessage wire = .ok fragment) wires
        (pieces.mapIdx (message.piece pieces.length))

/-- The session can send nothing to the target now, whatever the size of a datagram. -/
def Session.Stuck (session : Session C) (target : Target) (draw : Draw) : Prop :=
  ∀ payload, ∃ error, session.send names S target draw payload = .error error

/-- A message with this address and a payload of this length can be cut to the size. -/
def Hysteria.Fits (address : Xray.Hysteria.Str) (length size : Nat) : Prop :=
  let header := 8 + Xray.Hysteria.varintLength address.val.length + address.val.length
  address.val.length ≤ Xray.Hysteria.maxAddressLength ∧ header < size ∧
    Xray.Hysteria.divCeil length (size - header) ≤ 255

/-- The datagrams a session takes, apart from those the filter of the relay drops. -/
def Session.Takes (session : Session C) (target : Target) (draw : Draw) (payload : Bytes) : Prop :=
  match session with
  | .vlessMux _ | .trojanMux _ | .vmessMux _ | .shadowsocksMux _ | .vmessNative _ | .vmessXudp _ =>
    payload ≠ []
  | .trojanNative | .shadowsocksNative _ => True
  | .socks => ∀ header, Socks.requestHeader target = .ok header →
      header.length + payload.length ≤ Socks.maxSocksUdpDatagramLength
  | .hysteria quic => payload = [] ∨ payload.length ≤ quic.udpPayloadBytes ∧
      ∀ address, Hysteria.address names target .udp = .ok address →
        Hysteria.Fits address payload.length draw.maxDatagramSize

variable {names S}

lemma MuxUdpSession.send_cases (child : MuxUdpSession) (target : Target) :
    (∀ payload, child.send target payload = .error .muxDatagram) ∨
    ∀ payload, payload ≠ [] → payload.length ≤ Mux.maxPayload →
      child.send target payload = .ok (.mux payload) := by
  by_cases htarget : target = child.target
  · refine .inr fun payload hne hlen => ?_
    rw [MuxUdpSession.send, if_neg (not_or.mpr ⟨not_not.mpr htarget, hne⟩),
      if_neg (Nat.not_lt.mpr hlen)]
  · exact .inl fun payload => if_pos (.inl htarget)

variable {target : Target}

lemma Hysteria.address_ne_nil {address : Xray.Hysteria.Str}
    (h : Hysteria.address names target .udp = .ok address) : address.val ≠ [] := by
  rw [Hysteria.address] at h
  split at h
  · simp at h
  split at h
  · simp at h
  cases h
  simp only [Hysteria.toStr, ne_eq, Array.toList_eq_nil_iff, String.toUTF8_eq_toByteArray,
    String.toByteArray_append, ByteArray.data_append, Array.append_eq_empty_iff, not_and]
  intro _ hcolon
  cases hcolon

section

variable (quic : Hysteria.UdpSession)

include quic

variable {payload : Bytes} {size : Nat}

lemma Hysteria.fragmentUdpMessage_of_fits {address : Xray.Hysteria.Str}
    (haddress : address.val ≠ []) (hpayload : payload ≠ []) (hlen : payload.length ≤ 65535)
    (hfits : Hysteria.Fits address payload.length size) :
    ∃ fragments,
      Xray.Hysteria.fragmentUdpMessage (quic.message address payload) size = .ok fragments := by
  obtain ⟨hshort, hheader, hcount⟩ := hfits
  have hone : (quic.message address payload).fragmentCount = 1 := rfl
  have hvalid : (quic.message address payload).validate = .ok () :=
    Xray.Hysteria.UdpMessage.validate_eq_ok.mpr
      ⟨⟨haddress, hshort⟩, ⟨hpayload, hlen⟩, by rw [hone]; decide, fun h => absurd hone h⟩
  have hroom : ¬size ≤ (quic.message address payload).headerLength := Nat.not_le.mpr hheader
  rw [Xray.Hysteria.fragmentUdpMessage, hvalid, if_neg hroom]
  exact ⟨_, if_neg (Nat.not_lt.mpr hcount)⟩

lemma Hysteria.fits_of_fragmentUdpMessage {address : Xray.Hysteria.Str}
    {fragments : List Xray.Hysteria.UdpMessage}
    (h : Xray.Hysteria.fragmentUdpMessage (quic.message address payload) size = .ok fragments) :
    Hysteria.Fits address payload.length size := by
  obtain ⟨_, hvalid, h⟩ := Fallible.bind_eq_ok.mp h
  split at h
  · simp at h
  split at h
  · simp at h
  next hheader =>
  simp only at h
  split at h
  · simp at h
  next hcount =>
  exact ⟨(Xray.Hysteria.UdpMessage.validate_eq_ok.mp hvalid).address.2,
    Nat.not_le.mp hheader, Nat.not_lt.mp hcount⟩

lemma Hysteria.send_of_takes {target : Target}
    (h : payload = [] ∨ payload.length ≤ quic.udpPayloadBytes ∧
      ∀ address, Hysteria.address names target .udp = .ok address →
        Hysteria.Fits address payload.length size) :
    (∀ p, ∃ error, quic.send names target p size = .error error) ∨
    ∃ quic' wires, quic.send names target payload size = .ok (quic', wires) ∧
      quic'.udpPayloadBytes = quic.udpPayloadBytes ∧
      ∀ w ∈ wires, Message.Holds S target payload (.fragments w) := by
  cases haddress : Hysteria.address names target .udp with
  | error error =>
    refine .inl fun p => ⟨error, ?_⟩
    rw [Hysteria.UdpSession.send, haddress, Fallible.bind_error]
  | ok address =>
    right
    by_cases hempty : payload = []
    · refine ⟨quic, none, ?_, rfl, by simp⟩
      rw [Hysteria.UdpSession.send, haddress, Fallible.bind_ok, if_pos hempty]
      rfl
    obtain ⟨hlimit, hfits⟩ := h.resolve_left hempty
    obtain ⟨fragments, hcut⟩ := Hysteria.fragmentUdpMessage_of_fits quic
      (Hysteria.address_ne_nil haddress) hempty (Nat.le_trans hlimit quic.limited.2)
      (hfits address haddress)
    obtain ⟨pieces, hpieces, rfl⟩ := Xray.Hysteria.fragmentUdpMessage_cut hcut
    obtain ⟨wires, hwires, hdecode⟩ := Fallible.mapM_ok (f := Xray.Hysteria.encodeUdpMessage)
      (R := fun wire fragment => Xray.Hysteria.decodeUdpMessage wire = .ok fragment)
      (l := pieces.mapIdx ((quic.message address payload).piece pieces.length)) (by
        intro fragment hmem
        obtain ⟨k, hk, rfl⟩ := List.mem_mapIdx.mp hmem
        obtain ⟨wire, henc, -, hdec⟩ := hpieces.encode (List.getElem?_eq_getElem hk)
        exact ⟨wire, henc, hdec⟩)
    refine ⟨{ quic with packetId := quic.packetId + 1 }, some wires, ?_, rfl, ?_⟩
    · rw [Hysteria.UdpSession.send, haddress, Fallible.bind_ok, if_neg hempty,
        if_neg (Nat.not_lt.mpr hlimit), hcut]
      simp only [hwires]
      rfl
    · intro w hw
      rw [Option.mem_some_iff] at hw
      subst hw
      exact ⟨_, _, pieces, hpieces, rfl, hdecode⟩

end

/-- What the limits of a session depend on is the same. -/
structure Session.Alike (names : Names) (target : Target) (session session' : Session C) :
    Prop where
  maxPayload : session'.maxPayload target = session.maxPayload target
  takes (draw : Draw) (payload : Bytes) :
    session'.Takes names target draw payload ↔ session.Takes names target draw payload

lemma Session.Alike.refl (target : Target) (session : Session C) :
    session.Alike names target session := ⟨rfl, fun _ _ => Iff.rfl⟩

/-- What a send does with a datagram that may be sent. -/
def Session.Passes (names : Names) (S : Shadowsocks.Sealing C) (session : Session C)
    (target : Target) (draw : Draw) (payload : Bytes) : Prop :=
  session.Stuck names S target draw ∨
  ∃ session' message, session.send names S target draw payload = .ok (session', message) ∧
    session.Alike names target session' ∧ ∀ m ∈ message, Message.Holds S target payload m

variable {session : Session C} {draw : Draw} {payload : Bytes}

lemma Session.passes_of_sent (session' : Session C) (message : Message)
    (hsend : session.send names S target draw payload = .ok (session', some message))
    (halike : session.Alike names target session') (hholds : message.Holds S target payload) :
    session.Passes names S target draw payload := by
  refine .inr ⟨session', some message, hsend, halike, fun m hm => ?_⟩
  rw [Option.mem_some_iff] at hm
  rw [← hm]
  exact hholds

lemma Session.passes_of_mux (child : MuxUdpSession)
    (hsend : ∀ p, session.send names S target draw p =
      child.send target p >>= fun message => .ok (session, some message))
    (hne : payload ≠ []) (hlen : payload.length ≤ Mux.maxPayload) :
    session.Passes names S target draw payload := by
  rcases child.send_cases target with hrefuse | hsends
  · refine .inl fun p => ⟨.muxDatagram, ?_⟩
    rw [hsend, hrefuse, Fallible.bind_error]
  · refine passes_of_sent session (.mux payload) ?_ (.refl target session) rfl
    rw [hsend, hsends payload hne hlen, Fallible.bind_ok]

lemma Session.passes_trojan (hlen : payload.length ≤ Trojan.maxUdpPayloadLength) :
    (trojanNative : Session C).Passes names S target draw payload := by
  rcases Trojan.encodeUdpPacket_cases target with ⟨error, hrefuse⟩ | hencode
  · refine .inl fun p => ⟨.trojan error, ?_⟩
    simp only [send, hrefuse]
  have hencode := hencode payload
  rw [if_neg (Nat.not_lt.mpr hlen)] at hencode
  exact passes_of_sent _ (.trojan _) (by simp only [Session.send, hencode]) (.refl target _) rfl

lemma Session.passes_socks (h : ∀ header, Socks.requestHeader target = .ok header →
      header.length + payload.length ≤ Socks.maxSocksUdpDatagramLength) :
    (socks : Session C).Passes names S target draw payload := by
  cases hheader : Socks.requestHeader target with
  | error error =>
    refine .inl fun p => ⟨.socks error, ?_⟩
    simp only [send, Socks.encodeSocks5UdpRequest_error hheader]
  | ok header =>
    have hencode := Socks.encodeSocks5UdpRequest_eq hheader payload
    rw [if_neg (Nat.not_lt.mpr (h header hheader))] at hencode
    exact passes_of_sent _ (.socks _) (by simp only [send, hencode]) (.refl target _)
      ⟨header, hheader, rfl⟩

lemma Session.passes_vmess {native : VmessUdpSession} (hne : payload ≠ [])
    (hlen : payload.length ≤ vmessMaxDatagramPayload) :
    (vmessNative native : Session C).Passes names S target draw payload := by
  have hrecord : ¬payload.length > native.recordLimit := by
    rw [vmessMaxDatagramPayload] at hlen
    rw [VmessUdpSession.recordLimit]
    split <;> omega
  by_cases htarget : target = native.target
  · have hsend : native.send target payload = .ok (.record payload) := by
      rw [VmessUdpSession.send, if_neg (not_or.mpr ⟨not_not.mpr htarget, hne⟩), if_neg hrecord]
    refine passes_of_sent (.vmessNative native) (.record payload) ?_ (.refl target _) rfl
    simp only [send, hsend]
    rfl
  · refine .inl fun p => ⟨.vmessDatagram, ?_⟩
    have hrefuse : native.send target p = .error .vmessDatagram := if_pos (.inl htarget)
    simp only [Session.send, hrefuse, Fallible.bind_error]

lemma Session.passes_xudp {xudp : XudpSession} (hne : payload ≠ [])
    (hlen : payload.length ≤ Mux.maxPayload) :
    (vmessXudp xudp : Session C).Passes names S target draw payload := by
  by_cases htarget : target = xudp.target
  · have hgood : ¬(target ≠ xudp.target ∨ payload = [] ∨ payload.length > Mux.maxPayload) :=
      not_or.mpr ⟨not_not.mpr htarget, not_or.mpr ⟨hne, Nat.not_lt.mpr hlen⟩⟩
    rcases Mux.encode_datagram (xudp.frame target payload) rfl rfl with
      ⟨error, -, hrefuse⟩ | ⟨metadata, hencode⟩
    · refine .inl fun p => ?_
      obtain ⟨error, he⟩ := hrefuse hlen p
      have he : Mux.encode (xudp.frame target p) = .error error := he
      simp only [send, XudpSession.send]
      split
      · exact ⟨_, Fallible.bind_error⟩
      · rw [he]
        exact ⟨_, Fallible.bind_error⟩
    · have hsend : xudp.send target payload = .ok ({ xudp with started := true },
          .xudp (toBe 2 metadata.length ++ metadata ++ (toBe 2 payload.length ++ payload))) := by
        rw [XudpSession.send, if_neg hgood, hencode]
      refine passes_of_sent (.vmessXudp { xudp with started := true }) (.xudp _) ?_
        ⟨rfl, fun _ _ => Iff.rfl⟩ ⟨metadata, rfl⟩
      simp only [send, hsend]
      rfl
  · refine .inl fun p => ⟨.xudpDatagram, ?_⟩
    have hrefuse : xudp.send target p = .error .xudpDatagram := if_pos (.inl htarget)
    simp only [Session.send, hrefuse, Fallible.bind_error]

lemma Session.passes_shadowsocks {codec : Shadowsocks.Codec C}
    (hlen : payload.length ≤ codec.maxPayload target) :
    (shadowsocksNative codec).Passes names S target draw payload := by
  rcases codec.send_of_fits S draw.toDraw hlen with hrefuse | ⟨wire, codec', hsend, hseals, halike⟩
  · refine .inl fun p => ?_
    obtain ⟨error, he⟩ := hrefuse p
    exact ⟨.shadowsocks error, by simp only [send, he]⟩
  · refine passes_of_sent (.shadowsocksNative codec') (.shadowsocks wire)
      (by simp only [send, hsend]) ⟨?_, fun _ _ => Iff.rfl⟩ ⟨codec, hseals⟩
    simp only [maxPayload, Shadowsocks.Codec.maxPayload, halike.overhead_eq target]

lemma Session.passes_hysteria {quic : Hysteria.UdpSession}
    (h : (Session.hysteria quic : Session C).Takes names target draw payload) :
    (hysteria quic : Session C).Passes names S target draw payload := by
  rcases Hysteria.send_of_takes (S := S) quic h with hrefuse | ⟨quic', wires, hsend, hlimit, hholds⟩
  · refine .inl fun p => ?_
    obtain ⟨error, he⟩ := hrefuse p
    exact ⟨.hysteria error, by simp only [send, he]⟩
  refine .inr ⟨.hysteria quic', wires.map .fragments, ?_, ⟨rfl, fun draw payload => ?_⟩, ?_⟩
  · simp only [send, hsend]
  · simp only [Session.Takes, hlimit]
  intro m hm
  obtain ⟨w, hw, rfl⟩ := Option.mem_map.mp hm
  exact hholds w hw

/-- A datagram that the session takes and the filter of the relay lets through is sent,
unless the session can send nothing. -/
lemma Session.send_of_takes (htakes : session.Takes names target draw payload)
    (hfilter : payload.length ≤ session.maxPayload target) :
    session.Passes names S target draw payload := by
  cases session with
  | vlessMux child | trojanMux child | vmessMux child | shadowsocksMux child =>
    exact passes_of_mux child (fun _ => rfl) htakes hfilter
  | trojanNative => exact passes_trojan hfilter
  | socks => exact passes_socks htakes
  | vmessNative native => exact passes_vmess htakes hfilter
  | vmessXudp xudp => exact passes_xudp htakes hfilter
  | shadowsocksNative codec => exact passes_shadowsocks hfilter
  | hysteria quic => exact passes_hysteria htakes

lemma Session.send_of_not_takes (htakes : ¬session.Takes names target draw payload) :
    ∃ error, session.send names S target draw payload = .error error := by
  have hmux : ∀ child : MuxUdpSession, payload = [] →
      child.send target payload = .error .muxDatagram := fun child hp => if_pos (.inr hp)
  cases session with
  | vlessMux child | trojanMux child | vmessMux child | shadowsocksMux child =>
    exact ⟨_, by rw [Session.send, hmux child (not_not.mp htakes)]; rfl⟩
  | trojanNative | shadowsocksNative codec => exact absurd trivial htakes
  | socks =>
    simp only [Session.Takes, not_forall, Nat.not_le] at htakes
    obtain ⟨header, hheader, hlong⟩ := htakes
    simp only [send, Socks.encodeSocks5UdpRequest_eq hheader, if_pos hlong]
    exact ⟨_, rfl⟩
  | vmessNative native =>
    have hsend : native.send target payload = .error .vmessDatagram :=
      if_pos (.inr (not_not.mp htakes))
    simp only [send, hsend]
    exact ⟨_, rfl⟩
  | vmessXudp xudp =>
    have hsend : xudp.send target payload = .error .xudpDatagram :=
      if_pos (.inr (.inl (not_not.mp htakes)))
    simp only [send, hsend]
    exact ⟨_, rfl⟩
  | hysteria quic =>
    cases hsend : quic.send names target payload draw.maxDatagramSize with
    | error error => exact ⟨.hysteria error, by simp only [send, hsend]⟩
    | ok r =>
      refine absurd ?_ htakes
      obtain ⟨address, haddress, hsend⟩ := Fallible.bind_eq_ok.mp hsend
      by_cases hempty : payload = []
      · exact .inl hempty
      rw [if_neg hempty] at hsend
      split at hsend
      · simp at hsend
      next hlimit =>
      split at hsend
      · simp at hsend
      next fragments hcut =>
      refine .inr ⟨Nat.not_lt.mp hlimit, fun address' haddress' => ?_⟩
      cases haddress.symm.trans haddress'
      exact Hysteria.fits_of_fragmentUdpMessage quic hcut

/-- A fate that leaves the flow as it was: dropped alone, or handed on as one message. -/
def Fate.Alone (S : Shadowsocks.Sealing C) (target : Target) (payload : Bytes) : Fate → Prop
  | .oversize _ => True
  | .sent message => ∀ m ∈ message, Message.Holds S target payload m

def Wake.datagrams (wakes : List Wake) : List (Draw × Payload) :=
  wakes.filterMap fun
    | .input datagram => datagram
    | _ => none

/-- What the relay has done with the datagrams it was given: each was dropped alone or
handed on, none is left while it waits, and it does not return over one of them unless
the session could not have sent any other in its place. -/
structure Outcome.Relayed (names : Names) (S : Shadowsocks.Sealing C) (target : Target)
    (datagrams : List Payload) (outcome : Outcome C) : Prop where
  inOrder : outcome.fates.map Prod.fst <+: datagrams
  complete (session : Session C) :
    outcome.ending = .waiting session → outcome.fates.map Prod.fst = datagrams
  alone : ∀ f ∈ outcome.fates, f.2.Alone S target f.1
  stuck (session : Session C) (draw : Draw) (payload : Payload) (error : SendError) :
    outcome.ending = .sendFailed session draw payload error → session.Stuck names S target draw

lemma offer_of_takes {payload : Payload} {maxPayload : Nat}
    (hmax : session.maxPayload target = maxPayload)
    (htakes : session.Takes names target draw payload) :
    (∃ error, offer names S target maxPayload session draw payload = .error error ∧
      session.Stuck names S target draw) ∨
    ∃ session' fate, offer names S target maxPayload session draw payload = .ok (session', fate) ∧
      session.Alike names target session' ∧ fate.Alone S target payload := by
  by_cases hlong : payload.val.length > maxPayload
  · exact .inr ⟨session, _, if_pos hlong, .refl target session, trivial⟩
  have hfilter : payload.val.length ≤ session.maxPayload target := by omega
  rcases Session.send_of_takes htakes hfilter with hstuck | ⟨session', message, hsend, halike, hm⟩
  · obtain ⟨error, he⟩ := hstuck payload
    exact .inl ⟨error, by rw [offer, if_neg hlong, he, Fallible.bind_error], hstuck⟩
  refine .inr ⟨session', .sent message, ?_, halike, hm⟩
  rw [offer, if_neg hlong, hsend]
  rfl

/-- One induction over the rounds: the session changes only in what no limit depends on,
so that what it takes at the start it takes all along. -/
lemma relayLoop_relayed {maxPayload : Nat} {wakes : List Wake} :
    ∀ {session : Session C} {fates : List (Payload × Fate)},
      session.maxPayload target = maxPayload → (∀ f ∈ fates, f.2.Alone S target f.1) →
      (∀ d ∈ Wake.datagrams wakes, session.Takes names target d.1 d.2) →
      (relayLoop names S target maxPayload session fates wakes).Relayed names S target
        (fates.map Prod.fst ++ (Wake.datagrams wakes).map Prod.snd) := by
  induction wakes with
  | nil =>
    intro session fates _ halone _
    refine ⟨by simp [relayLoop], fun _ _ => by simp [relayLoop, Wake.datagrams], halone, ?_⟩
    intro _ _ _ _ h
    exact absurd h (by simp [relayLoop])
  | cons wake wakes ih =>
    intro session fates hmax halone htakes
    -- A round that ends the relay without a send.
    have hend : ∀ ending : Ending C, (∀ s, ending ≠ .waiting s) →
        (∀ s d p e, ending ≠ .sendFailed s d p e) → ∀ rest : List Payload,
        (⟨fates, ending⟩ : Outcome C).Relayed names S target (fates.map Prod.fst ++ rest) :=
      fun ending hwait hsend rest => ⟨List.prefix_append _ _, fun s hs => absurd hs (hwait s),
        halone, fun s d p e h => absurd h (hsend s d p e)⟩
    match wake with
    | .idle | .recvFailed | .reply false | .input none => exact hend _ (by simp) (by simp) _
    | .reply true => exact ih hmax halone htakes
    | .input (some (draw, payload)) =>
      have hhead := htakes (draw, payload) List.mem_cons_self
      rcases offer_of_takes hmax hhead with
        ⟨error, hoffer, hstuck⟩ | ⟨session', fate, hoffer, halike, hfate⟩
      · rw [relayLoop, hoffer]
        refine ⟨List.prefix_append _ _, by simp, halone, ?_⟩
        intro s d p e h
        cases h
        exact hstuck
      rw [relayLoop, hoffer]
      have halone' : ∀ f ∈ fates ++ [(payload, fate)], f.2.Alone S target f.1 := by
        intro f hf
        rcases List.mem_append.mp hf with hf | hf
        · exact halone f hf
        · rw [List.mem_singleton.mp hf]
          exact hfate
      have htakes' : ∀ d ∈ Wake.datagrams wakes, session'.Takes names target d.1 d.2 :=
        fun d hd => (halike.takes d.1 d.2).mpr (htakes d (List.mem_cons_of_mem _ hd))
      have hih := ih (halike.maxPayload.trans hmax) halone' htakes'
      rw [List.map_append, List.append_assoc] at hih
      exact hih

/-- A datagram that the session does not take, and the filter does not drop, ends the
relay before the datagrams after it. -/
lemma relayUdp_ends {payload : Payload} (wakes : List Wake)
    (hfilter : payload.val.length ≤ session.maxPayload target)
    (htakes : ¬session.Takes names target draw payload) :
    ∃ error, relayUdp names S target session (draw, payload) wakes =
      ⟨[], .sendFailed session draw payload error⟩ := by
  obtain ⟨error, hsend⟩ := Session.send_of_not_takes (S := S) htakes
  refine ⟨error, ?_⟩
  have hoffer : offer names S target (session.maxPayload target) session draw payload =
      .error error := by
    rw [offer, if_neg (Nat.not_lt.mpr hfilter), hsend, Fallible.bind_error]
  rw [relayUdp, relayLoop, hoffer]

end

/-- **No datagram that its session takes ends a flow**: whatever else wakes the relay,
each is handed on as one message or dropped alone, and all later ones are relayed. -/
theorem relay_survives_taken_datagrams {C : Shadowsocks.Crypto} (names : Names)
    (S : Shadowsocks.Sealing C) (session : Session C) (target : Target) (first : Draw × Payload)
    (wakes : List Wake)
    (htakes : ∀ d ∈ first :: Wake.datagrams wakes, session.Takes names target d.1 d.2) :
    (relayUdp names S target session first wakes).Relayed names S target
      ((first :: Wake.datagrams wakes).map Prod.snd) := by
  have h := @relayLoop_relayed C names S target _ (.input (some first) :: wakes) session [] rfl
    (by simp) htakes
  exact h

def sampleCrypto : Shadowsocks.Crypto where
  Aead := Unit
  session := fun _ _ => ()
  aeadOpen := fun _ _ _ => none
  xchachaOpen := fun _ _ _ => none
  blockDecrypt := fun _ block => block

def sampleSealing : Shadowsocks.Sealing sampleCrypto where
  seal2017 := fun _ _ plain => plain ++ List.replicate 16 0
  aeadSeal := fun _ _ plain => plain ++ List.replicate 16 0
  xchachaSeal := fun _ _ plain => plain ++ List.replicate 16 0
  blockEncrypt := fun _ block => block
  identity := fun _ _ _ => List.replicate 16 0
  length_seal2017 := by intros; rw [List.length_append, List.length_replicate]; rfl
  length_aeadSeal := by intros; rw [List.length_append, List.length_replicate]; rfl
  length_xchachaSeal := by intros; rw [List.length_append, List.length_replicate]; rfl
  length_blockEncrypt := by intros; rfl
  length_identity := by intros; rfl

def sampleNames : Names where
  domainToAsciiStrict := fun _ => none
  ipText := fun _ => "192.0.2.8"

def sampleTarget : Target := ⟨.ip (.v4 0xc0000208#32), 5000, .udp⟩

def sampleDraw : Draw := ⟨⟨.replicate 32 0, .replicate 24 0, 0⟩, 1200⟩

/-- An IPv4 packet of 28 bytes whose datagram to that target is empty. -/
def emptyDatagramPacket : Bytes :=
  [0x45, 0, 0, 28, 0, 0, 0, 0, 64, 17, 0, 0, 10, 0, 0, 1, 192, 0, 2, 8,
    0x30, 0x39, 0x13, 0x88, 0, 8, 0, 0]

theorem relay_survives_two_datagrams :
    (∀ d ∈ [(sampleDraw, (⟨[1], by decide⟩ : Payload)), (sampleDraw, ⟨[2], by decide⟩)],
      (Session.vlessMux ⟨sampleTarget⟩ : Session sampleCrypto).Takes sampleNames sampleTarget
        d.1 d.2) ∧
    (relayUdp sampleNames sampleSealing sampleTarget (.vlessMux ⟨sampleTarget⟩)
      (sampleDraw, ⟨[1], by decide⟩) [.input (some (sampleDraw, ⟨[2], by decide⟩))]).Relayed
      sampleNames sampleSealing sampleTarget [⟨[1], by decide⟩, ⟨[2], by decide⟩] := by
  have h : ∀ d ∈ [(sampleDraw, (⟨[1], by decide⟩ : Payload)), (sampleDraw, ⟨[2], by decide⟩)],
      (Session.vlessMux ⟨sampleTarget⟩ : Session sampleCrypto).Takes sampleNames sampleTarget
        d.1 d.2 := by
    intro d hd
    rcases List.mem_cons.mp hd with rfl | hd
    · exact List.cons_ne_nil _ _
    · rw [List.mem_singleton.mp hd]
      exact List.cons_ne_nil _ _
  exact ⟨h, relay_survives_taken_datagrams sampleNames sampleSealing
    (.vlessMux ⟨sampleTarget⟩) sampleTarget (sampleDraw, ⟨[1], by decide⟩)
    [.input (some (sampleDraw, ⟨[2], by decide⟩))] h⟩

/-- An empty datagram, which the TUN parser admits, ends a flow over Mux, and one of 8183
bytes a flow over SOCKS. Neither session is stuck: it would have sent the next datagram. -/
theorem relay_ends_at_refused_datagram :
    (∃ packet, Tun.parseUdpPacket emptyDatagramPacket = some packet ∧ packet.payload = [] ∧
      ∀ h wakes, ¬(relayUdp sampleNames sampleSealing sampleTarget (.vlessMux ⟨sampleTarget⟩)
        (sampleDraw, ⟨packet.payload, h⟩) (.input (some (sampleDraw, ⟨[2], by decide⟩)) :: wakes)).Relayed
        sampleNames sampleSealing sampleTarget
        (⟨packet.payload, h⟩ :: ⟨[2], by decide⟩ :: (Wake.datagrams wakes).map Prod.snd)) ∧
    ∀ h wakes, ¬(relayUdp sampleNames sampleSealing sampleTarget .socks
      (sampleDraw, ⟨List.replicate 8183 0, h⟩)
      (.input (some (sampleDraw, ⟨[2], by decide⟩)) :: wakes)).Relayed
      sampleNames sampleSealing sampleTarget
      (⟨List.replicate 8183 0, h⟩ :: ⟨[2], by decide⟩ :: (Wake.datagrams wakes).map Prod.snd) := by
  refine ⟨⟨⟨⟨.v4 0x0a000001#32, 12345⟩, ⟨.v4 0xc0000208#32, 5000⟩, []⟩, by decide +kernel, rfl,
    fun h wakes hrelayed => ?_⟩, fun h wakes hrelayed => ?_⟩
  · obtain ⟨error, hends⟩ := @relayUdp_ends _ sampleNames sampleSealing sampleTarget
      (.vlessMux ⟨sampleTarget⟩) sampleDraw ⟨[], h⟩
      (.input (some (sampleDraw, ⟨[2], by decide⟩)) :: wakes) (Nat.zero_le _) (not_not.mpr rfl)
    obtain ⟨error, hsend⟩ := hrelayed.stuck _ _ _ _ (congrArg Outcome.ending hends) [2]
    exact absurd hsend (by simp [Session.send, MuxUdpSession.send, Mux.maxPayload])
  · obtain ⟨error, hends⟩ := @relayUdp_ends _ sampleNames sampleSealing sampleTarget
      .socks sampleDraw ⟨List.replicate 8183 0, h⟩
      (.input (some (sampleDraw, ⟨[2], by decide⟩)) :: wakes)
      (by rw [List.length_replicate]; decide)
      (fun htakes => absurd (htakes _ rfl) (by rw [List.length_replicate]; decide))
    obtain ⟨error, hsend⟩ := hrelayed.stuck _ _ _ _ (congrArg Outcome.ending hends) [2]
    cases hsend

end Xray.Outbound
