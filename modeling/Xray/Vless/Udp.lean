import Xray.Lib.Future
import Xray.Routing.Target

/-!
# VLESS UDP framing (`xray-proxy/src/vless/udp.rs`)

A datagram on a VLESS stream is a length and a payload, or an XUDP frame: metadata
with a command, an option and perhaps an address, and a payload if the option says
so. The readers are futures; `read_xudp_packet` is a loop that passes over frames
without a payload to deliver.
-/

namespace Xray.Vless

open Bytes Routing

def addrIpv4 : UInt8 := 1

def addrDomain : UInt8 := 2

def addrIpv6 : UInt8 := 3

def xudpCmdNew : UInt8 := 1

def xudpCmdKeep : UInt8 := 2

def xudpCmdDiscard : UInt8 := 4

def xudpOptData : UInt8 := 1

def xudpNetworkUdp : UInt8 := 2

inductive WireError where
  | packetTooLong (len : Nat)
  | domainTooLong (len : Nat)
deriving DecidableEq

inductive IoError where
  | unexpectedEof
  | invalidData (text : String)
deriving DecidableEq

structure XudpPacket where
  source : Option Target
  payload : Bytes
deriving DecidableEq

def encodeLen (len : Nat) : Except WireError Bytes :=
  if len < 65536 then .ok (toBe 2 len) else .error (.packetTooLong len)

def encodeUdpPacket (payload : Bytes) : Except WireError Bytes := do
  let len ← encodeLen payload.length
  return len ++ payload

def encodeAddrPort (target : Target) : Except WireError Bytes :=
  let port := toBe 2 target.port.toNat
  match target.addr with
  | .ip (.v4 ip) => .ok (port ++ [addrIpv4] ++ toBe 4 ip.toNat)
  | .ip (.v6 ip) => .ok (port ++ [addrIpv6] ++ toBe 16 ip.toNat)
  | .domain domain =>
    if domain.length < 256 then
      .ok (port ++ [addrDomain, UInt8.ofNat domain.length] ++ domain)
    else .error (.domainTooLong domain.length)

def encodeXudpFrame (metadata payload : Bytes) : Except WireError Bytes := do
  let metadataLen ← encodeLen metadata.length
  let payloadLen ← encodeLen payload.length
  return metadataLen ++ metadata ++ payloadLen ++ payload

def encodeXudpNewPacket (target : Target) (payload : Bytes) (globalId : Vector UInt8 8) :
    Except WireError Bytes := do
  let address ← encodeAddrPort target
  encodeXudpFrame ([0, 0, xudpCmdNew, xudpOptData, xudpNetworkUdp] ++ address ++ globalId.toList)
    payload

def encodeXudpKeepPacket (source : Option Target) (payload : Bytes) : Except WireError Bytes := do
  let address ← match source with
    | some source => do
      let address ← encodeAddrPort source
      pure (xudpNetworkUdp :: address)
    | none => pure []
  encodeXudpFrame ([0, 0, xudpCmdKeep, xudpOptData] ++ address) payload

def decodeAddrPort (input : Bytes) : Except IoError Target :=
  match input with
  | p₁ :: p₂ :: kind :: rest =>
    let port := UInt16.ofNat (ofBe [p₁, p₂])
    if kind = addrIpv4 then
      if rest.length < 4 then .error (.invalidData "xudp ipv4 metadata is too short")
      else .ok ⟨.ip (.v4 (BitVec.ofNat 32 (ofBe (rest.take 4)))), port, .udp⟩
    else if kind = addrIpv6 then
      if rest.length < 16 then .error (.invalidData "xudp ipv6 metadata is too short")
      else .ok ⟨.ip (.v6 (BitVec.ofNat 128 (ofBe (rest.take 16)))), port, .udp⟩
    else if kind = addrDomain then
      match rest with
      | [] => .error (.invalidData "xudp domain metadata is too short")
      | len :: rest =>
        if rest.length < len.toNat then
          .error (.invalidData "xudp domain metadata is too short")
        else if isUtf8 (rest.take len.toNat) then
          .ok ⟨.domain (rest.take len.toNat), port, .udp⟩
        else .error (.invalidData "invalid utf-8 sequence")
    else .error (.invalidData s!"unsupported xudp address type {kind}")
  | _ => .error (.invalidData "xudp address metadata is too short")

def readU16 : Future IoError UInt16 := do
  let bytes ← Future.readExact 2
  return UInt16.ofNat (ofBe bytes)

def readUdpPacket : Future IoError Bytes := do
  let len ← readU16
  Future.readExact len.toNat

def xudpSource (metadata : Bytes) : Except IoError (Option Target) :=
  if metadata.length > 4 ∧ metadata.getD 4 0 = xudpNetworkUdp then
    (decodeAddrPort (metadata.drop 5)).map some
  else .ok none

/-- A turn of the loop of `read_xudp_packet`, after the length of the metadata;
`none` is its `continue`. -/
def readXudpFrame (metadataLen : UInt16) : Future IoError (Option XudpPacket) :=
  if metadataLen < 4 then .fail (.invalidData "xudp metadata is shorter than mux header")
  else do
    let metadata ← Future.readExact metadataLen.toNat
    let command := metadata.getD 2 0
    if command ≠ xudpCmdNew ∧ command ≠ xudpCmdKeep ∧ command ≠ xudpCmdDiscard then
      .fail (.invalidData s!"unsupported xudp command {command}")
    else
      match xudpSource metadata with
      | .error error => .fail error
      | .ok source =>
        if metadata.getD 3 0 ≠ xudpOptData then pure none
        else do
          let payload ← readUdpPacket
          if payload = [] ∨ command = xudpCmdDiscard then pure none
          else pure (some { source, payload })

def readXudpPacket : Turns IoError XudpPacket where
  first := 1
  next bytes := readXudpFrame (UInt16.ofNat (ofBe bytes))

/-- `read_udp_packet` as a loop of one turn. -/
def readUdpPackets : Turns IoError Bytes where
  first := 1
  next bytes := do
    let payload ← Future.readExact (UInt16.ofNat (ofBe bytes)).toNat
    return some payload

lemma turn_readUdpPackets :
    readUdpPackets.turn = readUdpPacket >>= fun payload => pure (some payload) := rfl

end Xray.Vless
