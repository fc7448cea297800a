import Xray.Lib.Bytes

/-!
# The loop that writes to the TUN descriptor (`xray-core-rs/src/tun_fd.rs`)

An input of the loop is an answer of the descriptor to `write_packet_batch`, a result of the
outbound queue, or the shutdown, which drops the write it interrupts. `pending` is
`batch[next_packet..]`, and the log has what is done with packets. The pauses before a retry are
left out.
-/

namespace Xray.TunFd

open Bytes List

inductive ErrorKind where
  | interrupted | invalidData | unexpectedEof | writeZero | wouldBlock | other
deriving DecidableEq

inductive Errno where
  | ebadf | enxio | enotconn | other (code : Int)

structure IoError where
  kind : ErrorKind
  rawOsError : Option Errno := none

/-- No code of the system is read as `InvalidData`. -/
abbrev OsError := { error : IoError // error.kind ≠ .invalidData }

inductive IoDisposition where
  | retryImmediately | dropPacket | retry | fatal
deriving DecidableEq

def ioDisposition (error : IoError) : IoDisposition :=
  match error.kind, error.rawOsError with
  | .interrupted, _ => .retryImmediately
  | .invalidData, _ => .dropPacket
  | .unexpectedEof, _ => .fatal
  | _, some .ebadf | _, some .enxio | _, some .enotconn => .fatal
  | _, _ => .retry

inductive PacketFormat where
  | rawIp | darwinUtun

/-- The bytes of the packet as they are written. -/
def EncodedPacket.new (format : PacketFormat) (packet : Bytes) : Except IoError Bytes :=
  match format, packet.head?.map (UInt8.toNat · / 16) with
  | .rawIp, _ => .ok packet
  | .darwinUtun, some 4 => .ok ([0, 0, 0, 2] ++ packet)
  | .darwinUtun, some 6 => .ok ([0, 0, 0, 30] ++ packet)
  | .darwinUtun, _ => .error { kind := .invalidData }

inductive Event where
  | took (batch : List Bytes)
  | handed (packet : Bytes) (written : Bool)
  | skipped
  | left (error : IoError)

inductive Answer where
  | unready (error : OsError)
  | tried (result : Except OsError Nat)

inductive Progress where
  | waits (packetIndex : Nat)
  | wrote
  | failed (writtenPackets : Nat) (error : IoError)

/-- `write_packet_batch` from one answer to the next. -/
def writePacketBatch (format : PacketFormat) (packets : List Bytes) (packetIndex : Nat) :
    Answer → List Event × Progress
  | .unready error => ([], .failed packetIndex error)
  | .tried result =>
    match packets.drop packetIndex with
    | [] => ([], .wrote)
    | packet :: rest =>
      match EncodedPacket.new format packet, result with
      | .error error, _ => ([], .failed packetIndex error)
      | .ok _, .error error =>
        ([.handed packet false],
          if error.1.kind = .wouldBlock then .waits packetIndex else .failed packetIndex error)
      | .ok encoded, .ok written =>
        if written = encoded.length then
          ([.handed packet true], if rest = [] then .wrote else .waits (packetIndex + 1))
        else ([.handed packet false], .failed packetIndex { kind := .writeZero })

inductive Stop where
  | shutdown | queueClosed | fatal

structure WriteLoop where
  pending : List Bytes := []
  packetIndex : Nat := 0
  writtenPacketsInBatch : Nat := 0
  consecutiveErrors : Nat := 0
  transientIoErrors : Nat := 0
  outboundDrops : Nat := 0
  writeBatches : List Nat := []
  stopped : Option Stop := none
  log : List Event := []

namespace WriteLoop

def finishTunFdWriteBatch (this : WriteLoop) : WriteLoop :=
  if this.writtenPacketsInBatch > 0 then
    { this with
      writeBatches := this.writeBatches ++ [this.writtenPacketsInBatch]
      writtenPacketsInBatch := 0 }
  else this

/-- With `observe_io_failure` and `advance_failure_state` in their place. -/
def writePendingPacketBatch (this : WriteLoop) : Progress → WriteLoop
  | .waits packetIndex => { this with packetIndex }
  | .wrote =>
    finishTunFdWriteBatch { this with
      writtenPacketsInBatch := this.writtenPacketsInBatch + this.pending.length
      pending := []
      packetIndex := 0
      consecutiveErrors := 0 }
  | .failed writtenPackets error =>
    let written := min writtenPackets this.pending.length
    let this := { this with
      writtenPacketsInBatch := this.writtenPacketsInBatch + written
      pending := this.pending.drop written
      packetIndex := 0
      consecutiveErrors := if written > 0 then 0 else this.consecutiveErrors }
    -- The progress is kept before the error is looked at.
    if this.pending = [] then this.finishTunFdWriteBatch
    else match ioDisposition error with
      | .retryImmediately => this
      | .retry =>
        { this with
          transientIoErrors := this.transientIoErrors + 1
          consecutiveErrors := min (this.consecutiveErrors + 1) (2 ^ 32 - 1) }
      | .dropPacket =>
        let this := { this with
          outboundDrops := this.outboundDrops + 1
          pending := this.pending.tail
          log := this.log ++ [.skipped] }
        if this.pending = [] then this.finishTunFdWriteBatch else this
      | .fatal =>
        finishTunFdWriteBatch { this with
          outboundDrops := this.outboundDrops + this.pending.length
          pending := []
          stopped := some .fatal
          log := this.log ++ [.left error] }

inductive TunError where
  | queueClosed | queueFull | packetTooLarge

inductive Input where
  | shutdown
  | answer (answer : Answer)
  | polled (result : Except TunError (List Bytes))

/-- An input the loop does not wait for changes nothing. -/
def step (format : PacketFormat) (this : WriteLoop) (input : Input) : WriteLoop :=
  if this.stopped.isSome then this
  else match input with
    | .shutdown => { this with stopped := some .shutdown }
    | .answer answer =>
      if this.pending = [] then this
      else
        let (log, progress) := writePacketBatch format this.pending this.packetIndex answer
        { this with log := this.log ++ log }.writePendingPacketBatch progress
    | .polled result =>
      if this.pending ≠ [] then this
      else match result with
        | .ok pending =>
          { this with pending, writtenPacketsInBatch := 0, log := this.log ++ [.took pending] }
        | .error .queueClosed => { this with stopped := some .queueClosed }
        | .error _ => this

end WriteLoop

end Xray.TunFd
