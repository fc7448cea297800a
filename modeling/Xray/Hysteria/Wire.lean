import Xray.Lib.Bytes

/-!
# Hysteria datagrams (`xray-proxy/src/hysteria/wire.rs`)

A UDP message has a session, a packet, a place among the fragments of the packet, an
address and a payload. Lengths are QUIC varints: the two high bits of the first byte say
how many bytes there are.
-/

namespace Xray.Hysteria

open Bytes

def maxAddressLength : Nat := 2048

def maxUdpPayload : Nat := 65535

inductive WireError where
  | incomplete
  | address
  | payloadLength
  | fragment
  | datagramLimit
deriving DecidableEq

abbrev Str := { bytes : Bytes // isUtf8 bytes = true }

structure UdpMessage where
  sessionId : UInt32
  packetId : UInt16
  fragmentId : UInt8
  fragmentCount : UInt8
  address : Str
  payload : Bytes
deriving DecidableEq

def varintLength (value : Nat) : Nat := if value < 64 then 1 else if value < 16384 then 2 else 4

/-- `put_varint`: the value with its length in the two high bits. -/
def putVarint (value : Nat) : Bytes :=
  if value < 64 then toBe 1 value
  else if value < 16384 then toBe 2 (value ||| 0x4000)
  else toBe 4 (value ||| 0x80000000)

/-- `Reader::take`: the first bytes and what follows them. -/
def take (length : Nat) (input : Bytes) : Except WireError (Bytes × Bytes) :=
  if input.length < length then .error .incomplete
  else .ok (input.take length, input.drop length)

def varint (input : Bytes) : Except WireError (Nat × Bytes) := do
  let (first, input) ← take 1 input
  let first := ofBe first
  let width := 2 ^ (first / 64)
  let (rest, input) ← take (width - 1) input
  return (first % 64 * 256 ^ (width - 1) + ofBe rest, input)

/-- `Reader::bounded_bytes`: as many bytes as a varint says, no more than `limit`. -/
def boundedBytes (limit : Nat) (error : WireError) (input : Bytes) :
    Except WireError (Bytes × Bytes) := do
  let (length, input) ← varint input
  if length > limit then .error error
  else take length input

def validateAddress (address : Bytes) : Except WireError Unit :=
  if address = [] ∨ address.length > maxAddressLength then .error .address else .ok ()

def readAddress (input : Bytes) : Except WireError (Str × Bytes) := do
  let (bytes, input) ← boundedBytes maxAddressLength .address input
  if h : isUtf8 bytes = true then do
    validateAddress bytes
    return (⟨bytes, h⟩, input)
  else .error .address

namespace UdpMessage

def headerLength (message : UdpMessage) : Nat :=
  8 + varintLength message.address.val.length + message.address.val.length

def validate (message : UdpMessage) : Except WireError Unit := do
  validateAddress message.address
  if message.payload = [] ∨ message.payload.length > maxUdpPayload then .error .payloadLength
  else if message.fragmentCount = 0 ∨
      (message.fragmentCount > 1 ∧ message.fragmentId ≥ message.fragmentCount) then
    .error .fragment
  else .ok ()

end UdpMessage

def decodeUdpMessage (input : Bytes) : Except WireError UdpMessage := do
  let (header, rest) ← take 8 input
  let (address, payload) ← readAddress rest
  let message : UdpMessage :=
    { sessionId := UInt32.ofNat (ofBe (header.take 4))
      packetId := UInt16.ofNat (ofBe ((header.drop 4).take 2))
      fragmentId := header.getD 6 0
      fragmentCount := header.getD 7 0
      address
      payload }
  message.validate
  return message

def encodeUdpMessage (message : UdpMessage) : Except WireError Bytes := do
  message.validate
  return toBe 4 message.sessionId.toNat ++ toBe 2 message.packetId.toNat ++
    [message.fragmentId, message.fragmentCount] ++ putVarint message.address.val.length ++
    message.address.val ++ message.payload

/-- `chunks`: pieces of `capacity` bytes, the last with what is left. -/
def chunks (capacity : Nat) (payload : Bytes) : List Bytes :=
  if capacity = 0 ∨ payload = [] then []
  else payload.take capacity :: chunks capacity (payload.drop capacity)
termination_by payload.length
decreasing_by
  have := List.length_pos_iff.mpr (by tauto : payload ≠ [])
  rw [List.length_drop]
  omega

def divCeil (n m : Nat) : Nat := (n + m - 1) / m

def fragmentUdpMessage (message : UdpMessage) (maxDatagramSize : Nat) :
    Except WireError (List UdpMessage) := do
  message.validate
  if message.fragmentCount ≠ 1 then .error .fragment
  else if maxDatagramSize ≤ message.headerLength then .error .datagramLimit
  else
    let capacity := maxDatagramSize - message.headerLength
    let count := divCeil message.payload.length capacity
    if count > 255 then .error .datagramLimit
    else
      return (chunks capacity message.payload).mapIdx fun index payload =>
        { message with
          fragmentId := UInt8.ofNat index
          fragmentCount := UInt8.ofNat count
          payload }

end Xray.Hysteria
