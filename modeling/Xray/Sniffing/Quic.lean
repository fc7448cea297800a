import Xray.Lib.Fallible
import Xray.Routing.IpRangeSet
import Xray.Sniffing.ClientHello

/-!
# The QUIC sniffer (`xray-core-rs/src/sniffing.rs`)

A client's Initial packets have its ClientHello in CRYPTO frames, each with its place in the stream.
`QuicCryptoAssembler` puts them together across packets and datagrams.

The key derivation and the ciphers are parameters. A `usize` has 64 bits, and no sum here reaches
them: a varint is below `2 ^ 62`, and every other term is at most the length of a slice. What a
function has done to the assembler stays when it ends with nothing, so that both are returned.
-/

namespace Xray.Sniffing

open WireName
open Fallible (bind_eq_ok pure_eq_ok)
open Xray.Routing (partitionPoint)

def quicV1 : UInt32 := 1

def quicV2 : UInt32 := 0x6b3343cf

def quicDraft29 : UInt32 := 0xff00001d

def quicTagLen : Nat := 16

def quicHpSampleLen : Nat := 16

def quicMaxCryptoStreamSize : Nat := 32767

def quicMaxCryptoRanges : Nat := 64

/-- A byte string of a fixed length. -/
abbrev Array8 (n : Nat) := { bytes : Bytes // bytes.length = n }

/-- HKDF with SHA-256, AES-128 and AES-128-GCM. -/
structure QuicCrypto where
  hkdfExtract (salt ikm : Bytes) : Array8 32
  hkdfExpand (prk info : Bytes) (n : Nat) : Option (Array8 n)
  encryptBlock (key : Array8 16) (block : Bytes) : Array8 16
  decrypt (key : Array8 16) (nonce msg aad : Bytes) : Option Bytes

def readQuicVarint (bytes : Bytes) (offset : Nat) : Try (Nat × Nat) := do
  let first ← ask bytes[offset]?
  let len := 1 <<< (first >>> 6).toNat
  let raw ← ask (slice? bytes offset (offset + len))
  return ((raw.drop 1).foldl (fun value byte => value <<< 8 ||| byte.toNat) (first &&& 0x3f).toNat,
    len)

structure QuicLongHeader where
  version : UInt32
  initial : Bool
  dcid : Bytes
  packetNumberOffset : Nat
  payloadEnd : Nat
  length : Nat
deriving DecidableEq

/-- A connection id behind its length, and where it ends. -/
def readConnectionId (packet : Bytes) (offset : Nat) : Try (Bytes × Nat) := do
  let len ← ask packet[offset]?
  let stop := offset + 1 + len.toNat
  let id ← ask (slice? packet (offset + 1) stop)
  return (id, stop)

def skipToken (packet : Bytes) (initial : Bool) (offset : Nat) : Try Nat :=
  if initial then do
    let (tokenLen, tokenLenSize) ← readQuicVarint packet offset
    let offset := offset + tokenLenSize + tokenLen
    let _ ← ask (slice? packet 0 offset)
    return offset
  else return offset

def packetTypes (version : UInt32) : Option (UInt8 × UInt8) :=
  if version = quicV1 ∨ version = quicDraft29 then some (0x00, 0x30)
  else if version = quicV2 then some (0x10, 0x00)
  else none

def parseQuicLongHeader (packet : Bytes) : Try QuicLongHeader := do
  let first ← ask packet[0]?
  if first &&& 0xc0 ≠ 0xc0 then .error .nothing
  else do
    let version ← ask (u32? packet 1)
    let (initialType, retryType) ← ask (packetTypes version)
    let packetType := first &&& 0x30
    if packetType = retryType then .error .nothing
    else do
      let initial := packetType == initialType
      let (dcid, offset) ← readConnectionId packet 5
      let (_, offset) ← readConnectionId packet offset
      let offset ← skipToken packet initial offset
      let (length, lengthSize) ← readQuicVarint packet offset
      let offset := offset + lengthSize
      if initial = true ∧ length ≤ quicTagLen then .error .nothing
      else do
        let payloadEnd := offset + length
        let _ ← ask (slice? packet 0 payloadEnd)
        return ⟨version, initial, dcid, offset, payloadEnd, length⟩

structure QuicInitialKeys where
  key : Array8 16
  iv : Array8 12
  hp : Array8 16

def initialSalt (version : UInt32) : Option Bytes :=
  if version = quicV1 then
    some [0x38, 0x76, 0x2c, 0xf7, 0xf5, 0x59, 0x34, 0xb3, 0x4d, 0x17, 0x9a, 0xe6, 0xa4, 0xc8, 0x0c,
      0xad, 0xcc, 0xbb, 0x7f, 0x0a]
  else if version = quicV2 then
    some [0x0d, 0xed, 0xe3, 0xde, 0xf7, 0x00, 0xa6, 0xdb, 0x81, 0x93, 0x81, 0xbe, 0x6e, 0x26, 0x9d,
      0xcb, 0xf9, 0xbd, 0x2e, 0xd9]
  else if version = quicDraft29 then
    some [0xaf, 0xbf, 0xec, 0x28, 0x99, 0x93, 0xd2, 0x4c, 0x9e, 0x97, 0x86, 0xf1, 0x9c, 0x61, 0x11,
      0xe0, 0x43, 0x90, 0xa8, 0x99]
  else none

def tls13HkdfLabel (length : Nat) (label : Bytes) : Bytes :=
  Bytes.toBe 2 length ++ [UInt8.ofNat (6 + label.length)] ++ "tls13 ".toUTF8.toList ++ label ++ [0]

def quicInitialKeys (crypto : QuicCrypto) (version : UInt32) (dcid : Bytes) :
    Try QuicInitialKeys := do
  let salt ← ask (initialSalt version)
  let name := if version = quicV2 then "quicv2 " else "quic "
  let label (text : String) : Bytes := (name ++ text).toUTF8.toList
  let prk := crypto.hkdfExtract salt dcid
  let secret ← ask (crypto.hkdfExpand prk.1 (tls13HkdfLabel 32 "client in".toUTF8.toList) 32)
  let key ← ask (crypto.hkdfExpand secret.1 (tls13HkdfLabel 16 (label "key")) 16)
  let iv ← ask (crypto.hkdfExpand secret.1 (tls13HkdfLabel 12 (label "iv")) 12)
  let hp ← ask (crypto.hkdfExpand secret.1 (tls13HkdfLabel 16 (label "hp")) 16)
  return ⟨key, iv, hp⟩

structure QuicUnprotectedHeader where
  header : Bytes
  packetNumber : Nat
  ciphertextOffset : Nat
  payloadEnd : Nat
deriving DecidableEq

def packetNumberBytes (packet mask : Bytes) (offset : Nat) : Nat → Nat → Try Bytes
  | 0, _ => return []
  | left + 1, i => do
    let byte ← index packet[offset + i]?
    let masked ← index mask[i + 1]?
    let rest ← packetNumberBytes packet mask offset left (i + 1)
    return (byte ^^^ masked) :: rest

def unprotectQuicInitialHeader (crypto : QuicCrypto) (packet : Bytes) (header : QuicLongHeader)
    (hpKey : Array8 16) : Try QuicUnprotectedHeader := do
  let sampleOffset := header.packetNumberOffset + 4
  let whole ← ask (slice? packet 0 header.payloadEnd)
  let sample ← ask (slice? whole sampleOffset (sampleOffset + quicHpSampleLen))
  let mask := (crypto.encryptBlock hpKey sample).1
  let first := (← index packet[0]?) ^^^ ((← index mask[0]?) &&& 0x0f)
  let packetNumberLen := ((first &&& 0x03) + 1).toNat
  if header.length ≤ packetNumberLen + quicTagLen then .error .nothing
  else do
    let packetNumberEnd := header.packetNumberOffset + packetNumberLen
    if packetNumberEnd > header.payloadEnd then .error .nothing
    else do
      let unprotected ← index (slice? packet 0 header.packetNumberOffset)
      let _ ← index unprotected[0]?
      let number ← packetNumberBytes packet mask header.packetNumberOffset packetNumberLen 0
      return ⟨unprotected.set 0 first ++ number,
        number.foldl (fun value byte => value <<< 8 ||| byte.toNat) 0, packetNumberEnd,
        header.payloadEnd⟩

def decryptQuicInitialPacket (crypto : QuicCrypto) (packet : Bytes) (header : QuicUnprotectedHeader)
    (keys : QuicInitialKeys) : Try Bytes := do
  let ciphertext ← ask (slice? packet header.ciphertextOffset header.payloadEnd)
  let nonce := keys.iv.1.take 4 ++
    List.zipWith (· ^^^ ·) (keys.iv.1.drop 4) (Bytes.toBe 8 header.packetNumber)
  ask (crypto.decrypt keys.key nonce ciphertext header.header)

inductive ClientHelloState where
  | complete (domain : Option Text)
  | incomplete
deriving DecidableEq

inductive QuicSniff where
  | domain (domain : Text)
  | needMore
  | noDomain
deriving DecidableEq

structure QuicCryptoAssembler where
  stream : Bytes
  received : List (Nat × Nat)
deriving DecidableEq

namespace QuicCryptoAssembler

def new : QuicCryptoAssembler := ⟨[], []⟩

/-- `stream.resize(stop, 0)` if it is shorter. -/
def resize (stream : Bytes) (stop : Nat) : Bytes :=
  stream ++ List.replicate (stop - stream.length) 0

def insert (self : QuicCryptoAssembler) (start : Nat) (data : Bytes) :
    QuicCryptoAssembler × Try Unit :=
  let stop := start + data.length
  if stop > quicMaxCryptoStreamSize then (self, .error .nothing)
  else if data = [] then (self, .ok ())
  else
    let stream := resize self.stream stop
    let stream := stream.take start ++ data ++ stream.drop stop
    let first := partitionPoint (fun range => range.2 < start) self.received
    let last := partitionPoint (fun range => range.1 ≤ stop) self.received
    -- `received[first..last]`
    if ¬(first ≤ last ∧ last ≤ self.received.length) then (self, .error .panic)
    else
      let merged := ((self.received.take last).drop first).foldl
        (fun acc range => (min acc.1 range.1, max acc.2 range.2)) (start, stop)
      let received := self.received.take first ++ merged :: self.received.drop last
      (⟨stream, received⟩,
        if received.length ≤ quicMaxCryptoRanges then .ok () else .error .nothing)

def clientHello (std : Std) (self : QuicCryptoAssembler) : Try ClientHelloState :=
  match self.received.head? with
  | some (0, stop) => do
    let front ← index (slice? self.stream 0 stop)
    if front.length < 4 then return .incomplete
    else do
      let kind ← index front[0]?
      if kind ≠ 1 then return .complete none
      else
        match u24? front 1 with
        | none => return .incomplete
        | some len =>
          let total := 4 + len
          if total > quicMaxCryptoStreamSize then return .complete none
          else if front.length < total then return .incomplete
          else do
            let handshake ← index (slice? front 0 total)
            let domain ← found (sniffTlsClientHelloHandshakeSni std handshake)
            return .complete domain
  | _ => return .incomplete

end QuicCryptoAssembler

def skipVarints (plaintext : Bytes) : Nat → Nat → Try Nat
  | 0, offset => return offset
  | count + 1, offset => do
    let (_, used) ← readQuicVarint plaintext offset
    skipVarints plaintext count (offset + used)

def skipQuicAckFrame (plaintext : Bytes) (offset : Nat) (hasEcn : Bool) : Try Nat := do
  let offset ← skipVarints plaintext 2 offset
  let (rangeCount, used) ← readQuicVarint plaintext offset
  let offset ← skipVarints plaintext 1 (offset + used)
  let offset ← skipVarints plaintext (2 * rangeCount) offset
  if hasEcn then skipVarints plaintext 3 offset else return offset

/-- A frame that carries nothing for the assembler. -/
def skipFrame (plaintext : Bytes) (frameType : UInt8) (offset : Nat) : Try Nat :=
  if frameType = 0x00 ∨ frameType = 0x01 then return offset
  else if frameType = 0x02 ∨ frameType = 0x03 then
    skipQuicAckFrame plaintext offset (frameType == 0x03)
  else if frameType = 0x1c then do
    let offset ← skipVarints plaintext 2 offset
    let (reasonLen, used) ← readQuicVarint plaintext offset
    let offset := offset + used + reasonLen
    let _ ← ask (slice? plaintext 0 offset)
    return offset
  else .error .nothing

/-- The place and the data of a CRYPTO frame, and where it ends. -/
def cryptoFrame (plaintext : Bytes) (offset : Nat) : Try (Nat × Bytes × Nat) := do
  let (cryptoOffset, used) ← readQuicVarint plaintext offset
  let offset := offset + used
  let (cryptoLen, used) ← readQuicVarint plaintext offset
  let offset := offset + used
  let dataEnd := offset + cryptoLen
  let data ← ask (slice? plaintext offset dataEnd)
  return (cryptoOffset, data, dataEnd)

variable {plaintext : Bytes} {offset next : Nat}

lemma le_of_skipVarints {count : Nat} (h : skipVarints plaintext count offset = .ok next) :
    offset ≤ next := by
  induction count generalizing offset with
  | zero =>
    rw [skipVarints] at h
    exact Nat.le_of_eq (Except.ok.inj h)
  | succ count ih =>
    rw [skipVarints] at h
    obtain ⟨⟨value, used⟩, -, h⟩ := bind_eq_ok.mp h
    have hle := ih h
    omega

lemma le_of_skipFrame {frameType : UInt8} (h : skipFrame plaintext frameType offset = .ok next) :
    offset ≤ next := by
  rw [skipFrame] at h
  split at h
  · exact Nat.le_of_eq (Except.ok.inj h)
  split at h
  · rw [skipQuicAckFrame] at h
    obtain ⟨first, hfirst, h⟩ := bind_eq_ok.mp h
    obtain ⟨⟨rangeCount, used⟩, -, h⟩ := bind_eq_ok.mp h
    obtain ⟨second, hsecond, h⟩ := bind_eq_ok.mp h
    obtain ⟨third, hthird, h⟩ := bind_eq_ok.mp h
    have hfirst := le_of_skipVarints hfirst
    have hsecond := le_of_skipVarints hsecond
    have hthird := le_of_skipVarints hthird
    split at h
    · have hlast := le_of_skipVarints h
      omega
    · cases h
      omega
  · split at h
    · obtain ⟨first, hfirst, h⟩ := bind_eq_ok.mp h
      obtain ⟨⟨reasonLen, used⟩, -, h⟩ := bind_eq_ok.mp h
      obtain ⟨_, -, h⟩ := bind_eq_ok.mp h
      cases h
      have hfirst := le_of_skipVarints hfirst
      omega
    · cases h

lemma le_of_cryptoFrame {data : Bytes} {cryptoOffset : Nat}
    (h : cryptoFrame plaintext offset = .ok (cryptoOffset, data, next)) : offset ≤ next := by
  rw [cryptoFrame] at h
  obtain ⟨⟨_, used⟩, -, h⟩ := bind_eq_ok.mp h
  obtain ⟨⟨cryptoLen, used'⟩, -, h⟩ := bind_eq_ok.mp h
  obtain ⟨_, -, h⟩ := bind_eq_ok.mp h
  cases h
  omega

/-- The frames from `offset` on. -/
def QuicCryptoAssembler.addFramesFrom (self : QuicCryptoAssembler) (plaintext : Bytes)
    (offset : Nat) : QuicCryptoAssembler × Try Unit :=
  match hbyte : plaintext[offset]? with
  | none => (self, .ok ())
  | some frameType =>
    if frameType = 0x06 then
      match hframe : cryptoFrame plaintext (offset + 1) with
      | .error stop => (self, .error stop)
      | .ok (cryptoOffset, data, next) =>
        match self.insert cryptoOffset data with
        | (self, .error stop) => (self, .error stop)
        | (self, .ok ()) => self.addFramesFrom plaintext next
    else
      match hframe : skipFrame plaintext frameType (offset + 1) with
      | .error stop => (self, .error stop)
      | .ok next => self.addFramesFrom plaintext next
termination_by plaintext.length - offset
decreasing_by
  · have hlt := (List.getElem?_eq_some_iff.mp hbyte).1
    have hle := le_of_cryptoFrame hframe
    omega
  · have hlt := (List.getElem?_eq_some_iff.mp hbyte).1
    have hle := le_of_skipFrame hframe
    omega

def QuicCryptoAssembler.addFrames (self : QuicCryptoAssembler) (plaintext : Bytes) :
    QuicCryptoAssembler × Try Unit :=
  self.addFramesFrom plaintext 0

def initialPlaintext (crypto : QuicCrypto) (packet : Bytes) (header : QuicLongHeader) : Try Bytes :=
  do
    let keys ← quicInitialKeys crypto header.version header.dcid
    let unprotected ← unprotectQuicInitialHeader crypto packet header keys.hp
    decryptQuicInitialPacket crypto packet unprotected keys

/-- An Initial packet is read, and with it a ClientHello that it makes complete. -/
def QuicCryptoAssembler.feedInitial (crypto : QuicCrypto) (std : Std) (self : QuicCryptoAssembler)
    (packet : Bytes) (header : QuicLongHeader) : QuicCryptoAssembler × Try (Option QuicSniff) :=
  match initialPlaintext crypto packet header with
  | .error stop => (self, .error stop)
  | .ok plaintext =>
    match self.addFrames plaintext with
    | (self, .error stop) => (self, .error stop)
    | (self, .ok ()) =>
      match self.clientHello std with
      | .error stop => (self, .error stop)
      | .ok (.complete domain) => (self, .ok (some (domain.elim .noDomain .domain)))
      | .ok .incomplete => (self, .ok none)

/-- The packet number is in the packet, and not at its start. -/
structure QuicLongHeader.Within (header : QuicLongHeader) (packet : Bytes) : Prop where
  pos : 0 < header.packetNumberOffset
  payloadEnd : header.payloadEnd = header.packetNumberOffset + header.length
  within : header.payloadEnd ≤ packet.length

variable {packet : Bytes}

lemma lt_of_readConnectionId {id : Bytes} {stop : Nat}
    (h : readConnectionId packet offset = .ok (id, stop)) : offset < stop := by
  rw [readConnectionId] at h
  obtain ⟨len, -, h⟩ := bind_eq_ok.mp h
  obtain ⟨_, -, h⟩ := bind_eq_ok.mp h
  cases h
  omega

lemma le_of_skipToken {initial : Bool} (h : skipToken packet initial offset = .ok next) :
    offset ≤ next := by
  rw [skipToken] at h
  split at h
  · obtain ⟨⟨tokenLen, size⟩, -, h⟩ := bind_eq_ok.mp h
    obtain ⟨_, -, h⟩ := bind_eq_ok.mp h
    cases h
    omega
  · exact Nat.le_of_eq (Except.ok.inj h)

lemma ask_eq_ok {α : Type} {value : Option α} {a : α} : ask value = .ok a ↔ value = some a := by
  cases value <;> simp [ask]

lemma parseQuicLongHeader_within {header : QuicLongHeader}
    (h : parseQuicLongHeader packet = .ok header) : header.Within packet := by
  rw [parseQuicLongHeader] at h
  obtain ⟨first, -, h⟩ := bind_eq_ok.mp h
  split at h
  · cases h
  obtain ⟨version, -, h⟩ := bind_eq_ok.mp h
  obtain ⟨⟨initialType, retryType⟩, -, h⟩ := bind_eq_ok.mp h
  dsimp only at h
  split at h
  · cases h
  obtain ⟨⟨dcid, offset⟩, hdcid, h⟩ := bind_eq_ok.mp h
  obtain ⟨⟨scid, offset'⟩, hscid, h⟩ := bind_eq_ok.mp h
  obtain ⟨offset'', htoken, h⟩ := bind_eq_ok.mp h
  obtain ⟨⟨length, size⟩, -, h⟩ := bind_eq_ok.mp h
  dsimp only at h hscid htoken
  split at h
  · cases h
  obtain ⟨_, hslice, h⟩ := bind_eq_ok.mp h
  cases h
  have hdcid := lt_of_readConnectionId hdcid
  have hscid := lt_of_readConnectionId hscid
  have htoken := le_of_skipToken htoken
  have hwithin := (slice?_eq_some (ask_eq_ok.mp hslice)).2.1
  exact ⟨by dsimp only; omega, rfl, hwithin⟩

lemma length_lt_of_within {header : QuicLongHeader} (h : header.Within packet) :
    ((packet.drop header.payloadEnd).dropWhile (· == 0)).length < packet.length := by
  have hpos := h.pos
  have heq := h.payloadEnd
  have hwithin := h.within
  have hle := (List.dropWhile_suffix (l := packet.drop header.payloadEnd) (· == 0)).length_le
  rw [List.length_drop] at hle
  omega

/-- The packets of a datagram, with zeros after each. -/
def QuicCryptoAssembler.feedPackets (crypto : QuicCrypto) (std : Std) (self : QuicCryptoAssembler)
    (rest : Bytes) : QuicCryptoAssembler × Try QuicSniff :=
  if rest = [] then
    (self, if self.received = [] then .error .nothing else .ok .needMore)
  else
    match hheader : parseQuicLongHeader rest with
    | .error stop => (self, .error stop)
    | .ok header =>
      -- a packet that is not an Initial one is skipped
      match if header.initial then self.feedInitial crypto std rest header else (self, .ok none) with
      | (self, .error stop) => (self, .error stop)
      | (self, .ok (some sniff)) => (self, .ok sniff)
      | (self, .ok none) =>
        match index (slice? rest header.payloadEnd rest.length) with
        | .error stop => (self, .error stop)
        | .ok _ =>
          self.feedPackets crypto std ((rest.drop header.payloadEnd).dropWhile (· == 0))
termination_by rest.length
decreasing_by exact length_lt_of_within (parseQuicLongHeader_within hheader)

def QuicCryptoAssembler.feed (crypto : QuicCrypto) (std : Std) (self : QuicCryptoAssembler)
    (datagram : Bytes) : QuicCryptoAssembler × Try QuicSniff :=
  match self.feedPackets crypto std datagram with
  | (self, .error .nothing) => (self, .ok .noDomain)
  | (self, result) => (self, result)

end Xray.Sniffing
