import Xray.Vless.UdpFlow

/-!
# UDP packets of the TUN device (`xray-core-rs/src/tun.rs`)

`parse_udp_packet`: the client, the target and the payload of an IP packet that holds a
whole UDP datagram. Every index the source reads is in bounds by the checks before it,
so reads are total here.
-/

namespace Xray.Tun

open Bytes Routing
open Xray.Vless (IpEndpoint)

structure UdpTunPacket where
  client : IpEndpoint
  target : IpEndpoint
  payload : Bytes
deriving DecidableEq

def udpProtocol : UInt8 := 17

/-- `chunks_exact(2)`: the sum of the pairs, and the byte that is left. -/
def sumPairs : Bytes → Nat × Option UInt8
  | high :: low :: rest => (ofBe [high, low] + (sumPairs rest).1, (sumPairs rest).2)
  | [byte] => (0, some byte)
  | [] => (0, none)

/-- One part: a byte left by the parts before it pairs with its first. -/
def addPart : Nat × Option UInt8 → Bytes → Nat × Option UInt8
  | (sum, some high), [] => (sum, some high)
  | (sum, some high), low :: rest => (sum + ofBe [high, low] + (sumPairs rest).1, (sumPairs rest).2)
  | (sum, none), part => (sum + (sumPairs part).1, (sumPairs part).2)

def foldCarries (sum : Nat) : Nat :=
  if sum / 65536 = 0 then sum else foldCarries (sum % 65536 + sum / 65536)
termination_by sum
decreasing_by
  have : sum = 65536 * (sum / 65536) + sum % 65536 := (Nat.div_add_mod sum 65536).symm
  omega

def internetChecksumSlices (parts : List Bytes) : UInt16 :=
  let (sum, odd) := parts.foldl addPart (0, none)
  let sum := match odd with
    | some byte => sum + byte.toNat * 256
    | none => sum
  ~~~ UInt16.ofNat (foldCarries sum)

def ipv4UdpChecksum (source destination udp : Bytes) : UInt16 :=
  internetChecksumSlices [source, destination, [0, udpProtocol], toBe 2 udp.length, udp]

def ipv6TransportChecksum (source destination : Bytes) (nextHeader : UInt8) (payload : Bytes) :
    UInt16 :=
  internetChecksumSlices [source, destination, toBe 4 payload.length, [0, 0, 0, nextHeader], payload]

def range (bytes : Bytes) (start stop : Nat) : Bytes := (bytes.take stop).drop start

def u16At (bytes : Bytes) (index : Nat) : Nat := ofBe (range bytes index (index + 2))

def endpoint (addr : IpAddr) (port : Nat) : IpEndpoint := ⟨addr, UInt16.ofNat port⟩

def parseIpv4UdpPacket (bytes : Bytes) : Option UdpTunPacket :=
  if bytes.length < 28 then none
  else
    let headerLen := (bytes.getD 0 0 &&& 0x0f).toNat * 4
    if headerLen < 20 ∨ bytes.length < headerLen + 8 ∨ bytes.getD 9 0 ≠ udpProtocol then none
    else if u16At bytes 6 &&& 0x3fff ≠ 0 then none
    else
      let totalLen := u16At bytes 2
      if totalLen < headerLen + 8 ∨ bytes.length < totalLen then none
      else
        let udp := range bytes headerLen totalLen
        let udpLen := u16At udp 4
        if udpLen < 8 ∨ udp.length < udpLen then none
        else
          let source := range bytes 12 16
          let destination := range bytes 16 20
          if u16At udp 6 ≠ 0 ∧ ipv4UdpChecksum source destination (udp.take udpLen) ≠ 0 then none
          else
            some
              { client := endpoint (.v4 (BitVec.ofNat 32 (ofBe source))) (u16At udp 0)
                target := endpoint (.v4 (BitVec.ofNat 32 (ofBe destination))) (u16At udp 2)
                payload := range bytes (headerLen + 8) (headerLen + udpLen) }

def parseIpv6UdpPacket (bytes : Bytes) : Option UdpTunPacket :=
  if bytes.length < 48 ∨ bytes.getD 6 0 ≠ udpProtocol then none
  else
    let payloadLen := u16At bytes 4
    if payloadLen < 8 ∨ bytes.length < 40 + payloadLen then none
    else
      let source := range bytes 8 24
      let destination := range bytes 24 40
      let udp := range bytes 40 (40 + payloadLen)
      let udpLen := u16At udp 4
      if udpLen < 8 ∨ udp.length < udpLen then none
      else if ipv6TransportChecksum source destination udpProtocol (udp.take udpLen) ≠ 0 then none
      else
        some
          { client := endpoint (.v6 (BitVec.ofNat 128 (ofBe source))) (u16At udp 0)
            target := endpoint (.v6 (BitVec.ofNat 128 (ofBe destination))) (u16At udp 2)
            payload := range bytes 48 (40 + udpLen) }

def parseUdpPacket (packet : Bytes) : Option UdpTunPacket :=
  match packet with
  | [] => none
  | first :: _ =>
    if first >>> 4 = 4 then parseIpv4UdpPacket packet
    else if first >>> 4 = 6 then parseIpv6UdpPacket packet
    else none

end Xray.Tun
