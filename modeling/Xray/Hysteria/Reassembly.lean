import Xray.Hysteria.Wire

/-!
# Hysteria reassembly (`xray-proxy/src/hysteria/reassembly.rs`)

A reassembler is bound to one session and keeps at most one incomplete packet. A call
that would panic has no answer (`none`): an index out of range, a subtraction below
zero, or a fragment that is missing from a complete packet.

Instants and durations are numbers of nanoseconds.
-/

namespace Xray.Hysteria

open Bytes

structure ReassembledDatagram where
  sessionId : UInt32
  address : Str
  payload : Bytes
deriving DecidableEq

inductive ReassemblyError where
  | wire (error : WireError)
  | session
  | conflict
  | budget
  | limits
deriving DecidableEq

structure PartialPacket where
  packetId : UInt16
  address : Str
  firstSeen : Nat
  fragments : List (Option Bytes)
  received : Nat
  size : Nat
deriving DecidableEq

def PartialPacket.store (packet : PartialPacket) (message : UdpMessage) : PartialPacket :=
  { packet with
    fragments := packet.fragments.set message.fragmentId.toNat (some message.payload)
    size := packet.size + message.payload.length
    received := packet.received + 1 }

structure Reassembler where
  sessionId : UInt32
  maxPayload : Nat
  timeout : Nat
  current : Option PartialPacket := none
deriving DecidableEq

namespace Reassembler

def new (sessionId : UInt32) (maxPayload timeout : Nat) : Except ReassemblyError Reassembler :=
  if maxPayload = 0 ∨ maxPayload > maxUdpPayload ∨ timeout = 0 then .error .limits
  else .ok { sessionId, maxPayload, timeout }

def bufferedPayloadBytes (r : Reassembler) : Nat := r.current.elim 0 PartialPacket.size

/-- `saturating_duration_since` is the difference of natural numbers. -/
def expire (r : Reassembler) (now : Nat) : Reassembler :=
  match r.current with
  | some packet => if now - packet.firstSeen ≥ r.timeout then { r with current := none } else r
  | none => r

def clear (r : Reassembler) : Reassembler := { r with current := none }

/-- The packet a fragment belongs to: the one at hand, or a new one in its place. -/
def packetFor (r : Reassembler) (message : UdpMessage) (now : Nat) : PartialPacket :=
  let fresh : PartialPacket :=
    { packetId := message.packetId
      address := message.address
      firstSeen := now
      fragments := List.replicate message.fragmentCount.toNat none
      received := 0
      size := 0 }
  match r.current with
  | none => fresh
  | some packet =>
    if packet.packetId ≠ message.packetId ∨
        packet.fragments.length ≠ message.fragmentCount.toNat then fresh
    else packet

/-- The answer of a call, with the reassembler after it; `none` is a panic. -/
abbrev Fed := Option (Reassembler × Except ReassemblyError (Option ReassembledDatagram))

/-- The part of `feed` that files a fragment in its packet. -/
def file (r : Reassembler) (packet : PartialPacket) (message : UdpMessage) : Fed :=
  if packet.address ≠ message.address then some (r.clear, .error .conflict)
  else
    match packet.fragments[message.fragmentId.toNat]? with
    | none => none
    | some (some existing) =>
      if existing = message.payload then some ({ r with current := some packet }, .ok none)
      else some (r.clear, .error .conflict)
    | some none =>
      if r.maxPayload < packet.size then none
      else if message.payload.length > r.maxPayload - packet.size then
        some (r.clear, .error .budget)
      else
        let packet := packet.store message
        if packet.received ≠ packet.fragments.length then
          some ({ r with current := some packet }, .ok none)
        else do
          let fragments ← packet.fragments.mapM id
          return (r.clear, .ok (some
            { sessionId := r.sessionId, address := packet.address, payload := fragments.flatten }))

def feed (r : Reassembler) (message : UdpMessage) (now : Nat) : Fed :=
  let r := r.expire now
  match message.validate with
  | .error error => some (r, .error (.wire error))
  | .ok () =>
    if message.sessionId ≠ r.sessionId then some (r, .error .session)
    else if message.fragmentCount = 1 then
      -- Passed through, and the packet at hand is left as it is.
      if message.payload.length > r.maxPayload then some (r, .error .budget)
      else
        some (r, .ok (some
          { sessionId := r.sessionId, address := message.address, payload := message.payload }))
    else if message.payload.length > r.maxPayload then some (r.clear, .error .budget)
    else r.file (r.packetFor message now) message

inductive Call where
  | feed (message : UdpMessage) (now : Nat)
  | expire (now : Nat)
  | clear

/-- When a call is made; `clear` does not look at the time. -/
def Call.time : Call → Option Nat
  | .feed _ now => some now
  | .expire now => some now
  | .clear => none

def step (r : Reassembler) : Call → Fed
  | .feed message now => r.feed message now
  | .expire now => some (r.expire now, .ok none)
  | .clear => some (r.clear, .ok none)

end Reassembler

end Xray.Hysteria
