import Xray.Vless.Udp

/-!
# UDP flows over a VLESS stream (`xray-core-rs/src/tun.rs`, `socks.rs`)

`bridge_udp_vless_flow_loop` and `bridge_socks_udp_vless_flow`: each round makes a
future that reads one response and races it in a biased `select!` against the other
things that can happen. A wake says which branch a poll of the task finds ready, and
what came of the calls in its arm; in `response` it is none of the others, so that
the future is polled. A future that is still pending when another branch wins is
dropped.

The uplink is what the flow wrote to the stream; what it counts, logs and answers a
datagram that is too long with is left out.
-/

namespace Xray.Vless

open Bytes Routing

def vlessUdpMaxPayload : Nat := 8192

inductive VlessUdpFraming where
  | lengthPrefixed
  | xudp
deriving DecidableEq

inductive FlowEnd where
  | connectionClosed
  | shutdown
  | idle
  | ingressClosed
  | unencodable (error : WireError)
  | writeFailed
  | readFailed (error : IoError)
  | undelivered
deriving DecidableEq

/-- The frame of a client's datagram, and whether a `New` frame has been made. -/
def encodeUplink (framing : VlessUdpFraming) (target : Target) (globalId : Vector UInt8 8)
    (sentXudpNew : Bool) (payload : Bytes) : Except WireError Bytes × Bool :=
  match framing with
  | .lengthPrefixed => (encodeUdpPacket payload, sentXudpNew)
  | .xudp =>
    if sentXudpNew then (encodeXudpKeepPacket (some target) payload, true)
    else (encodeXudpNewPacket target payload globalId, true)

structure IpEndpoint where
  addr : IpAddr
  port : UInt16
deriving DecidableEq

def targetToEndpoint (target : Target) : Option IpEndpoint :=
  match target.addr with
  | .ip ip => some ⟨ip, target.port⟩
  | .domain _ => none

def readVlessUdpResponse (framing : VlessUdpFraming) (fallbackSource : IpEndpoint) :
    Turns IoError (IpEndpoint × Bytes) :=
  match framing with
  | .lengthPrefixed => readUdpPackets.map fun payload => (fallbackSource, payload)
  | .xudp => readXudpPacket.map fun packet =>
    ((packet.source.bind targetToEndpoint).getD fallbackSource, packet.payload)

structure TunSettings where
  framing : VlessUdpFraming
  target : Target
  globalId : Vector UInt8 8
  /-- The endpoint the client sends to. -/
  fallbackSource : IpEndpoint

namespace TunSettings

def response (settings : TunSettings) : Turns IoError (IpEndpoint × Bytes) :=
  readVlessUdpResponse settings.framing settings.fallbackSource

end TunSettings

inductive TunWake where
  | connectionClose
  /-- `shutdown.changed()`: the new value, or that there is no sender any more. -/
  | shutdown (changed : Option Bool)
  | idle
  /-- A datagram of the client or the end of them, and whether it could be written
  and flushed. -/
  | payload (received : Option Bytes) (written flushed : Bool)
  /-- Nothing else; and whether the stack takes a datagram. -/
  | response (sent : Bool)

structure TunFlow where
  downlink : Raced IoError (IpEndpoint × Bytes)
  sentXudpNew : Bool := false
  uplink : Bytes := []
  ended : Option FlowEnd := none

namespace TunFlow

def finish (flow : TunFlow) (reason : FlowEnd) : TunFlow := { flow with ended := some reason }

/-- Writes and flushes a datagram that is not too long. -/
def writePayload (settings : TunSettings) (flow : TunFlow) (payload : Bytes)
    (written flushed : Bool) : TunFlow :=
  if payload.length > vlessUdpMaxPayload then flow
  else
    match encodeUplink settings.framing settings.target settings.globalId flow.sentXudpNew
      payload with
    | (.error error, sentXudpNew) => { flow with sentXudpNew }.finish (.unencodable error)
    | (.ok frame, sentXudpNew) =>
      if written ∧ flushed then { flow with sentXudpNew, uplink := flow.uplink ++ frame }
      else { flow with sentXudpNew }.finish .writeFailed

def new (settings : TunSettings) (carrier : Carrier) (firstPayload : Bytes)
    (written flushed : Bool) : TunFlow :=
  writePayload settings { downlink := .new settings.response carrier } firstPayload written flushed

/-- Another branch won and did not end the flow: the next round begins. -/
def nextRound (settings : TunSettings) (flow : TunFlow) : TunFlow :=
  { flow with downlink := flow.downlink.restart settings.response }

def step (settings : TunSettings) (flow : TunFlow) (wake : TunWake) : TunFlow :=
  if flow.ended.isSome then flow
  else
    match wake with
    | .connectionClose => flow.finish .connectionClosed
    | .shutdown changed =>
      if changed = some false then flow.nextRound settings else flow.finish .shutdown
    | .idle => flow.finish .idle
    | .payload none _ _ => flow.finish .ingressClosed
    | .payload (some payload) written flushed =>
      (flow.writePayload settings payload written flushed).nextRound settings
    | .response sent =>
      match flow.downlink.poll .unexpectedEof settings.response with
      | (downlink, none) => { flow with downlink }
      | (downlink, some (.error error)) => { flow with downlink }.finish (.readFailed error)
      | (downlink, some (.ok packet)) =>
        if sent then { flow with downlink := downlink.pass packet }
        else { flow with downlink }.finish .undelivered

def run (settings : TunSettings) (flow : TunFlow) (wakes : List TunWake) : TunFlow :=
  wakes.foldl (step settings) flow

def delivered (flow : TunFlow) : List (IpEndpoint × Bytes) := flow.downlink.passed

end TunFlow

def readSocksVlessUdpResponse (framing : VlessUdpFraming) (fallbackSource : Target) :
    Turns IoError (Target × Bytes) :=
  match framing with
  | .lengthPrefixed => readUdpPackets.map fun payload => (fallbackSource, payload)
  | .xudp => readXudpPacket.map fun packet =>
    (packet.source.getD fallbackSource, packet.payload)

def socksVlessUdpFlushBatch : Nat := 16

structure SocksSettings where
  framing : VlessUdpFraming
  target : Target
  /-- The name the client sent to, where it is not the target dialled. -/
  clientVisibleTarget : Option Target
  globalId : Vector UInt8 8

namespace SocksSettings

def response (settings : SocksSettings) : Turns IoError (Target × Bytes) :=
  readSocksVlessUdpResponse settings.framing settings.target

end SocksSettings

inductive SocksWake where
  | connectionClose
  | shutdown (changed : Option Bool)
  | idle
  /-- The flush timer, which runs while frames are pending; and whether the stream
  could be flushed. -/
  | flushDeadline (flushed : Bool)
  | payload (received : Option Bytes) (written flushed : Bool)
  /-- Nothing else; and whether the client could be sent a datagram. -/
  | response (sent : Bool)

structure SocksFlow where
  downlink : Raced IoError (Target × Bytes)
  sentXudpNew : Bool := false
  uplink : Bytes := []
  pendingFrames : Nat := 0
  ended : Option FlowEnd := none

namespace SocksFlow

def finish (flow : SocksFlow) (reason : FlowEnd) : SocksFlow := { flow with ended := some reason }

/-- `write_socks_vless_udp_payload`, and the end of the flow where it fails. A
datagram that is too long is passed over, but what is pending is flushed. -/
def writePayload (settings : SocksSettings) (flow : SocksFlow) (payload : Bytes)
    (flush written flushed : Bool) : SocksFlow :=
  if payload.length > vlessUdpMaxPayload then
    if flush ∧ ¬ flushed then flow.finish .writeFailed else flow
  else
    match encodeUplink settings.framing settings.target settings.globalId flow.sentXudpNew
      payload with
    | (.error error, sentXudpNew) => { flow with sentXudpNew }.finish (.unencodable error)
    | (.ok frame, sentXudpNew) =>
      if written ∧ (flush → flushed) then { flow with sentXudpNew, uplink := flow.uplink ++ frame }
      else { flow with sentXudpNew }.finish .writeFailed

/-- The flow before its loop: the first datagram is written and flushed. -/
def new (settings : SocksSettings) (carrier : Carrier) (firstPayload : Bytes)
    (written flushed : Bool) : SocksFlow :=
  writePayload settings { downlink := .new settings.response carrier } firstPayload true written
    flushed

def nextRound (settings : SocksSettings) (flow : SocksFlow) : SocksFlow :=
  { flow with downlink := flow.downlink.restart settings.response }

def step (settings : SocksSettings) (flow : SocksFlow) (wake : SocksWake) : SocksFlow :=
  if flow.ended.isSome then flow
  else
    match wake with
    | .connectionClose => flow.finish .connectionClosed
    | .shutdown changed =>
      if changed = some false then flow.nextRound settings else flow.finish .shutdown
    | .idle => flow.finish .idle
    | .flushDeadline flushed =>
      -- The branch is off while nothing is pending.
      if flow.pendingFrames = 0 then flow
      else if flushed then { flow with pendingFrames := 0 }.nextRound settings
      else flow.finish .writeFailed
    | .payload none _ _ => flow.finish .ingressClosed
    | .payload (some payload) written flushed =>
      let flushNow := decide (flow.pendingFrames + 1 ≥ socksVlessUdpFlushBatch)
      let flow := flow.writePayload settings payload flushNow written flushed
      { flow with pendingFrames := if flushNow then 0 else flow.pendingFrames + 1 }.nextRound
        settings
    | .response sent =>
      match flow.downlink.poll .unexpectedEof settings.response with
      | (downlink, none) => { flow with downlink }
      | (downlink, some (.error error)) => { flow with downlink }.finish (.readFailed error)
      | (downlink, some (.ok packet)) =>
        if sent then { flow with downlink := downlink.pass packet }
        else { flow with downlink }.finish .undelivered

def run (settings : SocksSettings) (flow : SocksFlow) (wakes : List SocksWake) : SocksFlow :=
  wakes.foldl (step settings) flow

/-- What the client was sent: each response under the name the client sent to, where
there is one. -/
def delivered (settings : SocksSettings) (flow : SocksFlow) : List (Target × Bytes) :=
  flow.downlink.passed.map fun (source, payload) =>
    (settings.clientVisibleTarget.getD source, payload)

end SocksFlow

end Xray.Vless
