import Xray.Hysteria.Wire
import Xray.Mux.Wire
import Xray.Shadowsocks.Send

/-!
# Datagram sessions (`xray-core-rs/src/outbound/datagram.rs`)

`relay_udp` passes the datagrams of one UDP flow to a session of its outbound. Each kind
of session has limits of its own, in `max_payload`, in `send` and in the codec `send`
calls. A `send` here goes as far as what it hands to the carrier, because the carrier
keeps working: a write, a flush and a socket's send succeed. Wireguard is left out.

Domain names to ASCII and addresses to text are other crates' work and enter as `Names`.
-/

namespace Xray.Outbound

open Bytes Routing

namespace Trojan

def maxUdpPayloadLength : Nat := 8192

/-- The errors of `encode_udp_packet`. -/
inductive WireError where
  | domain
  | port
  | network
  | payloadLength
deriving DecidableEq

def validateDomain (domain : Bytes) : Except WireError Unit :=
  if domain = [] ∨ domain.length > 255 ∨ Mux.plainName domain = false then .error .domain
  else .ok ()

def validateTarget (target : Target) : Except WireError Nat :=
  if target.port = 0 then .error .port
  else
    match target.addr with
    | .ip (.v4 _) => .ok 7
    | .ip (.v6 _) => .ok 19
    | .domain domain => do
      validateDomain domain
      return 1 + 1 + domain.length + 2

def encodeAddress (target : Target) : Bytes :=
  (match target.addr with
    | .ip (.v4 ip) => 1 :: toBe 4 ip.toNat
    | .ip (.v6 ip) => 4 :: toBe 16 ip.toNat
    | .domain domain => [3, UInt8.ofNat domain.length] ++ domain) ++
  toBe 2 target.port.toNat

def encodeUdpPacket (target : Target) (payload : Bytes) : Except WireError Bytes :=
  if target.network ≠ .udp then .error .network
  else do
    let _ ← validateTarget target
    if payload.length > maxUdpPayloadLength then .error .payloadLength
    else return encodeAddress target ++ toBe 2 payload.length ++ [13, 10] ++ payload

end Trojan

namespace Socks

def maxSocksUdpDatagramLength : Nat := 8192

/-- The errors of `encode_socks5_udp_request`. -/
inductive SocksClientError where
  | invalidTargetPort
  | invalidTargetDomain
  | udpPayloadTooLarge
deriving DecidableEq

def validDomain (domain : Bytes) : Bool :=
  1 ≤ domain.length && domain.length ≤ 255 && Mux.plainName domain

def canonicalTargetAddr (target : Target) : Except SocksClientError TargetAddr :=
  if target.port = 0 then .error .invalidTargetPort
  else
    match target.addr with
    | .ip ip => .ok (.ip (canonicalizeIp ip))
    | .domain domain =>
      if validDomain domain then .ok (.domain domain) else .error .invalidTargetDomain

/-- `encode_target_addr`; `none` for a name whose length does not fit a byte. -/
def encodeTargetAddr (addr : TargetAddr) : Option Bytes :=
  match addr with
  | .ip (.v4 ip) => some (1 :: toBe 4 ip.toNat)
  | .ip (.v6 ip) => some (4 :: toBe 16 ip.toNat)
  | .domain domain =>
    if domain.length > 255 ∨ domain = [] then none
    else some ([3, UInt8.ofNat domain.length] ++ domain)

def requestHeader (target : Target) : Except SocksClientError Bytes := do
  let addr ← canonicalTargetAddr target
  match encodeTargetAddr addr with
  | none => .error .invalidTargetDomain
  | some addr => return [0, 0, 0] ++ addr ++ toBe 2 target.port.toNat

def encodeSocks5UdpRequest (target : Target) (payload : Bytes) :
    Except SocksClientError Bytes := do
  let header ← requestHeader target
  if header.length + payload.length > maxSocksUdpDatagramLength then .error .udpPayloadTooLarge
  else return header ++ payload

end Socks

structure Names where
  /-- `idna::domain_to_ascii_strict`. -/
  domainToAsciiStrict : Bytes → Option String
  /-- The text of an address. -/
  ipText : IpAddr → String

namespace Hysteria

inductive HysteriaError where
  | target
  | datagramSize
deriving DecidableEq

/-- A name as DNS can have it, one dot at its end apart. -/
def dnsName (ascii : String) : Bool :=
  let chars := ascii.toList
  let normalized := if chars.getLast? = some '.' then chars.dropLast else chars
  !(normalized.isEmpty || normalized.length > 253 ||
    (normalized.splitOn '.').any fun label => label.isEmpty || label.length > 63)

def toStr (text : String) : Xray.Hysteria.Str :=
  ⟨text.toUTF8.data.toList, by
    simp [isUtf8, String.fromUTF8?, text.isValidUTF8]⟩

def host (names : Names) : TargetAddr → Option String
  | .ip (.v6 ip) => some ("[" ++ names.ipText (.v6 ip) ++ "]")
  | .ip ip => some (names.ipText ip)
  | .domain domain =>
    match names.domainToAsciiStrict domain with
    | none => none
    | some ascii => if dnsName ascii then some ascii else none

def address (names : Names) (target : Target) (network : Network) :
    Except HysteriaError Xray.Hysteria.Str :=
  if target.network ≠ network ∨ target.port = 0 then .error .target
  else
    match host names target.addr with
    | none => .error .target
    | some host => .ok (toStr (host ++ (":" ++ toString target.port.toNat)))

/-- `HysteriaUdpSession`, with the limit of its client. -/
structure UdpSession where
  id : UInt32
  packetId : UInt16
  udpPayloadBytes : Nat
  limited : 1 ≤ udpPayloadBytes ∧ udpPayloadBytes ≤ 65535

/-- The message of a datagram, before it is cut. -/
def UdpSession.message (session : UdpSession) (address : Xray.Hysteria.Str) (payload : Bytes) :
    Xray.Hysteria.UdpMessage :=
  { sessionId := session.id
    packetId := session.packetId + 1
    fragmentId := 0
    fragmentCount := 1
    address
    payload }

/-- `send`: the QUIC datagrams, for the size the connection allows now. -/
def UdpSession.send (names : Names) (session : UdpSession) (target : Target) (payload : Bytes)
    (maxDatagramSize : Nat) : Except HysteriaError (UdpSession × Option (List Bytes)) := do
  let address ← address names target .udp
  if payload = [] then return (session, none)
  else if payload.length > session.udpPayloadBytes then .error .datagramSize
  else
    match Xray.Hysteria.fragmentUdpMessage (session.message address payload) maxDatagramSize with
    | .error _ => .error .datagramSize
    | .ok fragments =>
      match fragments.mapM Xray.Hysteria.encodeUdpMessage with
      | .error _ => .error .datagramSize
      | .ok wires => return ({ session with packetId := session.packetId + 1 }, some wires)

end Hysteria

def vmessMaxDatagramPayload : Nat := 8192 - 16 - 18 - 64

structure MuxUdpSession where
  target : Target

structure XudpSession where
  target : Target
  started : Bool
  globalId : Vector UInt8 8

/-- `vmess::NativeUdpSession`. The length field of a record has 18 bytes if it is
authenticated and 2 if it is not. -/
structure VmessUdpSession where
  target : Target
  authenticatedLength : Bool

/-- `Records::max_payload`. -/
def VmessUdpSession.recordLimit (session : VmessUdpSession) : Nat :=
  8192 - 16 - (if session.authenticatedLength then 18 else 2) - 64

inductive Session (C : Shadowsocks.Crypto) where
  | vlessMux (session : MuxUdpSession)
  | trojanNative
  | trojanMux (session : MuxUdpSession)
  | socks
  | vmessNative (session : VmessUdpSession)
  | vmessMux (session : MuxUdpSession)
  | vmessXudp (session : XudpSession)
  | shadowsocksNative (codec : Shadowsocks.Codec C)
  | shadowsocksMux (session : MuxUdpSession)
  | hysteria (session : Hysteria.UdpSession)

/-- What a datagram is handed to the carrier as. -/
inductive Message where
  /-- A write to a child of a Mux connection, then a flush. -/
  | mux (payload : Bytes)
  /-- A write to a VMess stream, which makes one record of it, then a flush. -/
  | record (payload : Bytes)
  /-- A frame on a VMess stream. -/
  | xudp (wire : Bytes)
  /-- A frame on a Trojan stream. -/
  | trojan (wire : Bytes)
  /-- A datagram to the relay of a SOCKS server. -/
  | socks (wire : Bytes)
  /-- A datagram to a Shadowsocks server. -/
  | shadowsocks (wire : Bytes)
  /-- Datagrams of a QUIC connection. -/
  | fragments (wires : List Bytes)

inductive SendError where
  /-- "invalid Mux datagram" -/
  | muxDatagram
  /-- "Mux datagram too large" -/
  | muxTooLarge
  /-- "invalid VMess datagram target or empty payload" -/
  | vmessDatagram
  /-- "VMess datagram exceeds record limit" -/
  | vmessRecord
  /-- "invalid XUDP datagram" -/
  | xudpDatagram
  | muxFrame (error : Mux.Invalid)
  | trojan (error : Trojan.WireError)
  | socks (error : Socks.SocksClientError)
  | shadowsocks (error : Shadowsocks.InvalidData)
  | hysteria (error : Hysteria.HysteriaError)
deriving DecidableEq

/-- What the world gives to one send: what is drawn for it, and the size of a datagram
the QUIC connection allows. -/
structure Draw extends Shadowsocks.Draw where
  maxDatagramSize : Nat

def MuxUdpSession.send (session : MuxUdpSession) (target : Target) (payload : Bytes) :
    Except SendError Message :=
  if target ≠ session.target ∨ payload = [] then .error .muxDatagram
  -- `Child::poll_write`
  else if payload.length > Mux.maxPayload then .error .muxTooLarge
  else .ok (.mux payload)

def VmessUdpSession.send (session : VmessUdpSession) (target : Target) (payload : Bytes) :
    Except SendError Message :=
  if target ≠ session.target ∨ payload = [] then .error .vmessDatagram
  else if payload.length > session.recordLimit then .error .vmessRecord
  else .ok (.record payload)

/-- The frame of a datagram of an XUDP association. -/
def XudpSession.frame (session : XudpSession) (target : Target) (payload : Bytes) : Mux.Frame :=
  { sessionId := 0
    status := if session.started then .keep else .new
    error := false
    target := some target
    globalId := if session.started then none else some session.globalId
    payload := some payload }

def XudpSession.send (session : XudpSession) (target : Target) (payload : Bytes) :
    Except SendError (XudpSession × Message) :=
  if target ≠ session.target ∨ payload = [] ∨ payload.length > Mux.maxPayload then
    .error .xudpDatagram
  else
    match Mux.encode (session.frame target payload) with
    | .error error => .error (.muxFrame error)
    | .ok wire => .ok ({ session with started := true }, .xudp wire)

namespace Session

variable {C : Shadowsocks.Crypto}

/-- The largest datagram the session's path carries to a target. -/
def maxPayload (session : Session C) (target : Target) : Nat :=
  match session with
  | .vlessMux _ => Mux.maxPayload
  | .trojanNative | .trojanMux _ => Trojan.maxUdpPayloadLength
  | .vmessNative _ => vmessMaxDatagramPayload
  | .vmessMux _ | .vmessXudp _ => Mux.maxPayload
  | .shadowsocksNative codec => codec.maxPayload target
  | .shadowsocksMux _ => Mux.maxPayload
  | .socks | .hysteria _ => Shadowsocks.usizeMax

variable (names : Names) (S : Shadowsocks.Sealing C)

/-- `send`: what it hands to the carrier, if anything. -/
def send (session : Session C) (target : Target) (draw : Draw) (payload : Bytes) :
    Except SendError (Session C × Option Message) :=
  match session with
  | .vlessMux child | .trojanMux child | .vmessMux child | .shadowsocksMux child => do
    let message ← child.send target payload
    return (session, some message)
  | .trojanNative =>
    match Trojan.encodeUdpPacket target payload with
    | .error error => .error (.trojan error)
    | .ok wire => .ok (session, some (.trojan wire))
  | .socks =>
    match Socks.encodeSocks5UdpRequest target payload with
    | .error error => .error (.socks error)
    | .ok wire => .ok (session, some (.socks wire))
  | .vmessNative native => do
    let message ← native.send target payload
    return (session, some message)
  | .vmessXudp xudp => do
    let (xudp, message) ← xudp.send target payload
    return (.vmessXudp xudp, some message)
  | .shadowsocksNative codec =>
    match codec.send S target payload draw.toDraw with
    | .error error => .error (.shadowsocks error)
    | .ok (wire, codec) => .ok (.shadowsocksNative codec, some (.shadowsocks wire))
  | .hysteria quic =>
    match quic.send names target payload draw.maxDatagramSize with
    | .error error => .error (.hysteria error)
    | .ok (quic, wires) => .ok (.hysteria quic, wires.map .fragments)

end Session

/-- A client's datagram: no UDP datagram over IPv4 is longer. -/
abbrev Payload := { bytes : Bytes // bytes.length ≤ 65507 }

inductive Fate where
  /-- Given to the `oversize` handler. -/
  | oversize (maxPayload : Nat)
  | sent (message : Option Message)

inductive Wake where
  | idle
  | input (datagram : Option (Draw × Payload))
  /-- A datagram of the session, and whether the client took it. -/
  | reply (delivered : Bool)
  | recvFailed

/-- Where the relay is after some rounds, or how it returned. -/
inductive Ending (C : Shadowsocks.Crypto) where
  | waiting (session : Session C)
  | idle
  | inputClosed
  | undelivered
  | recvFailed
  /-- The session could not send a datagram. -/
  | sendFailed (session : Session C) (draw : Draw) (payload : Payload) (error : SendError)

structure Outcome (C : Shadowsocks.Crypto) where
  fates : List (Payload × Fate)
  ending : Ending C

variable {C : Shadowsocks.Crypto} (names : Names) (S : Shadowsocks.Sealing C) (target : Target)

/-- The closure `send` of `relay_udp`. -/
def offer (maxPayload : Nat) (session : Session C) (draw : Draw) (payload : Payload) :
    Except SendError (Session C × Fate) :=
  if payload.val.length > maxPayload then .ok (session, .oversize maxPayload)
  else do
    let (session, message) ← session.send names S target draw payload.val
    return (session, .sent message)

/-- The loop of `relay_udp`, with what became of the datagrams before it. -/
def relayLoop (maxPayload : Nat) (session : Session C) (fates : List (Payload × Fate)) :
    List Wake → Outcome C
  | [] => ⟨fates, .waiting session⟩
  | .idle :: _ => ⟨fates, .idle⟩
  | .input none :: _ => ⟨fates, .inputClosed⟩
  | .input (some (draw, payload)) :: wakes =>
    match offer names S target maxPayload session draw payload with
    | .error error => ⟨fates, .sendFailed session draw payload error⟩
    | .ok (session, fate) => relayLoop maxPayload session (fates ++ [(payload, fate)]) wakes
  | .reply true :: wakes => relayLoop maxPayload session fates wakes
  | .reply false :: _ => ⟨fates, .undelivered⟩
  | .recvFailed :: _ => ⟨fates, .recvFailed⟩

/-- `relay_udp`: the first datagram, then the loop. -/
def relayUdp (session : Session C) (first : Draw × Payload) (wakes : List Wake) : Outcome C :=
  relayLoop names S target (session.maxPayload target) session [] (.input (some first) :: wakes)

end Xray.Outbound
