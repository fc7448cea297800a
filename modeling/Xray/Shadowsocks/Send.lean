import Xray.Shadowsocks.Udp2022

/-!
# Shadowsocks UDP requests (`xray-proxy/src/shadowsocks`, `outbound/shadowsocks.rs`)

What a client datagram becomes on the wire under either family of methods, and the
session that sends it. The sealing primitives are other crates. All that is assumed of
them is how long their output is: sealing adds a tag of 16 bytes, and an identity header
is one block. They fail only on inputs far beyond the sizes that are checked here, so
they are total.
-/

namespace Xray.Shadowsocks

open Bytes Routing

inductive Cipher2017 where
  | aes128Gcm
  | aes256Gcm
  | chacha20Poly1305
  | xchacha20Poly1305
deriving DecidableEq

def Cipher2017.keyLen (cipher : Cipher2017) : Nat := if cipher = .aes128Gcm then 16 else 32

structure Method2017 where
  cipher : Cipher2017
  key : Bytes

structure Sealing (C : Crypto) where
  /-- `Records::new` and `seal_from`, for the salt the key is derived with. -/
  seal2017 : Method2017 → Bytes → Bytes → Bytes
  /-- `Aead::seal`: nonce, then plaintext. -/
  aeadSeal : C.Aead → Bytes → Bytes → Bytes
  /-- `XChaChaKey::seal`: key, nonce, plaintext. -/
  xchachaSeal : Bytes → Bytes → Bytes → Bytes
  /-- `crypto::block` in its encrypting direction. -/
  blockEncrypt : Bytes → Bytes → Bytes
  /-- The identity header for two consecutive keys and a separate header. -/
  identity : Bytes → Bytes → Bytes → Bytes
  length_seal2017 (m : Method2017) (salt plain : Bytes) :
    (seal2017 m salt plain).length = plain.length + tagLength
  length_aeadSeal (aead : C.Aead) (nonce plain : Bytes) :
    (aeadSeal aead nonce plain).length = plain.length + tagLength
  length_xchachaSeal (key nonce plain : Bytes) :
    (xchachaSeal key nonce plain).length = plain.length + tagLength
  length_blockEncrypt (key block : Bytes) : (blockEncrypt key block).length = block.length
  length_identity (key next separate : Bytes) : (identity key next separate).length = 16

/-- What is drawn for one datagram: 32 random bytes for the salt of a classic method,
24 for a nonce, and the clock. -/
structure Draw where
  salt : Vector UInt8 32
  nonce : Vector UInt8 24
  timestamp : Nat

variable {C : Crypto}

/-! ## Classic methods (`aead2017/udp.rs`) -/

namespace Method2017

def encodeWithSalt (S : Sealing C) (method : Method2017) (target : Target) (payload salt : Bytes) :
    Except InvalidData Bytes := do
  let address ← encodeAddress target
  if target.network ≠ .udp ∨
      salt.length + address.length + payload.length + tagLength > maxUdpWireLength then
    invalid "invalid Shadowsocks AEAD datagram size or network"
  else return salt ++ S.seal2017 method salt (address ++ payload)

def encode (S : Sealing C) (method : Method2017) (target : Target) (payload : Bytes) (draw : Draw) :
    Except InvalidData Bytes :=
  method.encodeWithSalt S target payload (draw.salt.toList.take method.cipher.keyLen)

def overhead (method : Method2017) (target : Target) : Except InvalidData Nat := do
  let address ← encodeAddress target
  return method.cipher.keyLen + address.length + tagLength

end Method2017

/-! ## 2022 methods (`shadowsocks2022/udp.rs`) -/

/-- The bytes of the separate header beyond its first block. -/
def Method.extra (method : Method) : Nat :=
  if method.cipher = .chacha20Poly1305 then 24 else (method.keys.length - 1) * 16

/-- The identity headers: one for each two consecutive keys. -/
def identities (S : Sealing C) (separate : Bytes) : List Bytes → Bytes
  | key :: next :: keys => S.identity key next separate ++ identities S separate (next :: keys)
  | _ => []

namespace UdpSession

def overhead (session : UdpSession C) (target : Target) : Except InvalidData Nat := do
  let address ← encodeAddress target
  return 16 + session.method.extra + 11 + address.length + tagLength

/-- The packet with a given identifier. -/
def packet (S : Sealing C) (session : UdpSession C) (packetId : Nat) (address payload : Bytes)
    (timestamp : Nat) (nonce : Bytes) : Bytes :=
  let separate := toBe 8 session.id ++ toBe 8 packetId
  let body := 0 :: toBe 8 timestamp ++ [0, 0] ++ address ++ payload
  if session.method.cipher = .chacha20Poly1305 then
    nonce ++ S.xchachaSeal session.method.psk nonce (separate ++ body)
  else
    S.blockEncrypt (session.method.keys.head session.method.nonempty) separate ++
      identities S separate session.method.keys ++
      S.aeadSeal session.localAead (separate.drop 4) body

def encodeAt (S : Sealing C) (session : UdpSession C) (target : Target) (payload : Bytes)
    (timestamp : Nat) (nonce : Bytes) : Except InvalidData (Bytes × UdpSession C) := do
  let address ← encodeAddress target
  if target.network ≠ .udp ∨
      16 + session.method.extra + 11 + address.length + payload.length + tagLength >
        maxUdpWireLength then
    invalid "invalid Shadowsocks 2022 datagram size or network"
  else
    match session.next with
    | none => invalid "Shadowsocks 2022 packet counter exhausted"
    | some packetId =>
      return (session.packet S packetId address payload timestamp nonce,
        { session with next := if packetId + 1 < 2 ^ 64 then some (packetId + 1) else none })

end UdpSession

/-- `wire::UdpSession`: a codec of either family. -/
inductive Codec (C : Crypto) where
  | aead2017 (method : Method2017)
  | shadowsocks2022 (session : UdpSession C)

def Codec.overhead (codec : Codec C) (target : Target) : Except InvalidData Nat :=
  match codec with
  | .aead2017 method => method.overhead target
  | .shadowsocks2022 session => session.overhead target

def Codec.encode (S : Sealing C) (codec : Codec C) (target : Target) (payload : Bytes)
    (draw : Draw) : Except InvalidData (Bytes × Codec C) :=
  match codec with
  | .aead2017 method => do
    let bytes ← method.encode S target payload draw
    return (bytes, .aead2017 method)
  | .shadowsocks2022 session => do
    let (bytes, session) ← session.encodeAt S target payload draw.timestamp draw.nonce.toList
    return (bytes, .shadowsocks2022 session)

def peerUdpBuffer : Nat := 8192

def usizeMax : Nat := 2 ^ 64 - 1

def Codec.maxPayload (codec : Codec C) (target : Target) : Nat :=
  match codec.overhead target with
  | .error _ => usizeMax
  | .ok overhead => peerUdpBuffer - overhead

/-- `NativeUdpSession::send` up to the socket: the packet it is given. -/
def Codec.send (S : Sealing C) (codec : Codec C) (target : Target) (payload : Bytes) (draw : Draw) :
    Except InvalidData (Bytes × Codec C) := do
  let (bytes, codec) ← codec.encode S target payload draw
  if bytes.length > peerUdpBuffer then invalid "Shadowsocks packet exceeds pinned peer UDP limit"
  else return (bytes, codec)

end Xray.Shadowsocks
