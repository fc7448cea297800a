import Xray.Lib.Bytes
import Xray.Lib.Machine

/-!
# XHTTP packet-up uploads (`xray-transport/src/stream/xhttp/transport.rs`)

The bytes written to a logical stream go through a pipe to a worker, which puts what it reads
into requests with ascending sequence numbers. On HTTP/1.1 it sends a request and consumes the
response before it reads on. On HTTP/2 and HTTP/3 a task of its own sends each request; the
worker reads on when the body is handed over, and the responses are joined later.

The worker is a machine. What it waits for (bytes, timers, connections, responses) comes as
inputs, which are possible at the point where the code waits for them. Where the code can fail
there is an input for the failure; which error it reports is left out, and so is how a client
of the pool counts and expires, whose verdict is an input.
-/

namespace Xray.Xhttp

inductive HttpVersion where
  | http1
  | http2
  | http3
deriving DecidableEq

def packetResponseCapFallback : Nat := 1

def maxPacketResponseTasks : Nat := 256

def h1PacketReadChunkBytes : Nat := 8 * 1024

def maxUploadDataBytes : Nat := 16 * 1024

structure NormalizedRange where
  «from» : Nat
  «to» : Nat
deriving DecidableEq

/-- `draw_range`, with the sample that was not rejected. -/
def drawRange (range : NormalizedRange) (sample : Nat) : Option Nat :=
  if range.to < range.from then none
  else if range.from = range.to then some range.from
  else some (range.from + sample % (range.to - range.from))

lemma drawRange_pos {range : NormalizedRange} {sample n : Nat} (hrange : 0 < range.from)
    (h : drawRange range sample = some n) : 0 < n := by
  rw [drawRange] at h
  split at h
  · cases h
  split at h
  · cases h
    exact hrange
  · cases h
    omega

structure Config where
  version : HttpVersion
  maxEachPostBytes : NormalizedRange
  positive : 0 < maxEachPostBytes.from
  minPostsIntervalMs : NormalizedRange
  maxBufferedPosts : Nat
  /-- The payload goes in the body, and not in header fields. -/
  inBody : Bool

/-- What is fixed when a logical stream opens. -/
structure Session where
  version : HttpVersion
  maxPacket : Nat
  positive : 0 < maxPacket
  responseCap : Nat
  capPositive : 0 < responseCap
  minPostsIntervalMs : NormalizedRange
  inBody : Bool

/-- `open_packet_up`, with the sample for the size of a packet. -/
def openPacketUp (config : Config) (sample : Nat) : Option Session :=
  match h : drawRange config.maxEachPostBytes sample with
  | none => none
  | some maxPacket => some
      { version := config.version
        maxPacket
        positive := drawRange_pos config.positive h
        responseCap :=
          max packetResponseCapFallback (min config.maxBufferedPosts maxPacketResponseTasks)
        capPositive := Nat.lt_of_lt_of_le Nat.one_pos (Nat.le_max_left _ _)
        minPostsIntervalMs := config.minPostsIntervalMs
        inBody := config.inBody }

inductive FirstUplink where
  | data
  | closed
deriving DecidableEq

/-- What became of sending a request once. -/
inductive Attempt where
  | sent
  /-- The write of an HTTP/1.1 request failed behind some of its bytes. -/
  | writeFailed (bytesWritten : Nat)
  /-- The connection was going away before the request was committed. -/
  | refused
  | failed
deriving DecidableEq

structure Upload where
  sequence : Int
  payload : Bytes
  /-- What stands before the body on HTTP/1.1. -/
  head : Bytes := []
  attempts : List Attempt := []
  /-- What the HTTP engine was given of the request, in all attempts. -/
  given : Bytes := []
  /-- The response was consumed, on HTTP/1.1. -/
  consumed : Bool := false
deriving DecidableEq

inductive Phase where
  /-- Waiting for the first byte, on HTTP/1.1. -/
  | gate
  /-- Waiting for room among the responses. -/
  | room
  /-- Taking the responses that are there. -/
  | reap
  | reading (buffer : Bytes)
  | pacing (payload : Bytes)
  | rotating (payload : Bytes)
  | composing (payload : Bytes)
  /-- `send_h1_packet`: about to take a connection. -/
  | take (request : Bytes) (retry : Bool)
  | writing (request : Bytes) (retry pooled : Bool) (bytesWritten : Nat)
  | opening
  | draining
  /-- `send_h2_packet` or `send_h3_packet`: about to take a connection. -/
  | checkout (body : Bytes) (fresh : Bool)
  | starting (body : Bytes) (fresh pooled : Bool)
  | uploading (body : Bytes) (response : Bool)
  /-- Joining the last responses. -/
  | finishing
  | done
  | failed
deriving DecidableEq

structure State where
  /-- Everything that the logical stream accepted. -/
  written : Bytes := []
  pipe : Bytes := []
  closed : Bool := false
  firstUplink : Option FirstUplink := none
  phase : Phase
  sequence : Int := 0
  lastRequest : Option Nat := none
  client : Nat := 0
  /-- The newest first. -/
  uploads : List Upload := []
  /-- The tasks that wait for a response, with their results. -/
  responses : List (Option Bool) := []
deriving DecidableEq

/-- How the opening of an HTTP/2 or HTTP/3 request ended. -/
inductive Started where
  | ok
  | goAway
  | error
deriving DecidableEq

inductive Input where
  | write (input : Bytes)
  | shutdown
  /-- The worker goes on without waiting. -/
  | proceed
  /-- A response task ends. -/
  | settle (index : Nat) (ok : Bool)
  /-- The worker joins a response task that has ended. -/
  | join (index : Nat)
  | read (n : Nat)
  | pending
  | eof
  | interval (delay : Option Nat) (now : Nat)
  | rotate (remaining : Int) (expired : Bool) (replacement : Option Nat)
  /-- The head, unless the request cannot be composed. -/
  | compose (head : Option Bytes)
  /-- A connection of the pool, or a new one if it can be dialled. -/
  | connect (pooled dialled : Bool)
  | wrote (n : Nat)
  | writeError
  | flushed
  | opened (ok : Bool)
  | drained (ok : Bool)
  | checkout (pooled : Option Bool)
  | started (result : Started)
  | upload (n : Nat)
  | uploaded (ok : Bool)
  | response (ok : Bool)
deriving DecidableEq

namespace State

def start (session : Session) : State :=
  { phase := match session.version with
      | .http1 => .gate
      | _ => .room }

/-- The worker has returned, and its end of the pipe is gone. -/
def isOver (s : State) : Bool := s.phase == .done || s.phase == .failed

def fail (s : State) : State := { s with phase := .failed, pipe := [] }

/-- The pipe takes what it has room for; `input` is what it took. -/
def write (s : State) (session : Session) (input : Bytes) : Option State :=
  if s.isOver ∨ s.closed ∨ max session.maxPacket 1 < (s.pipe ++ input).length then none
  else
    some
      { s with
        written := s.written ++ input
        pipe := s.pipe ++ input
        firstUplink := if input = [] then s.firstUplink else s.firstUplink.or (some .data) }

def shutdown (s : State) : State :=
  { s with closed := true, firstUplink := s.firstUplink.or (some .closed) }

/-- Where the worker reads on. -/
def next (s : State) (session : Session) : State :=
  match session.version with
  | .http1 => { s with phase := .reading [] }
  | _ => { s with phase := .room }

/-- What follows a read: a request, or the end. -/
def afterRead (s : State) (session : Session) (payload : Bytes) : State :=
  if payload = [] then
    match session.version with
    | .http1 => { s with phase := .done }
    | _ => { s with phase := .finishing }
  else { s with phase := .pacing payload }

/-- Changes the request that is being sent. -/
def update (s : State) (f : Upload → Upload) : State :=
  match s.uploads with
  | [] => s
  | upload :: uploads => { s with uploads := f upload :: uploads }

def attempt (s : State) (result : Attempt) : State :=
  s.update fun upload => { upload with attempts := upload.attempts ++ [result] }

def amend (s : State) (result : Attempt) : State :=
  s.update fun upload => { upload with attempts := upload.attempts.dropLast ++ [result] }

def give (s : State) (bytes : Bytes) : State :=
  s.update fun upload => { upload with given := upload.given ++ bytes }

def join (s : State) (index : Nat) : Option State :=
  match s.responses[index]? with
  | some (some true) => some { s with responses := s.responses.eraseIdx index }
  | some (some false) => some s.fail
  | _ => none

def settle (s : State) (index : Nat) (ok : Bool) : Option State :=
  match s.responses[index]? with
  | some none => some { s with responses := s.responses.set index (some ok) }
  | _ => none

/-- `read_h1_packet_input`: what is there is read in chunks, up to the size of a packet. -/
def readH1 (s : State) (session : Session) (buffer : Bytes) : Input → Option State
  | .read n =>
    if n = 0 ∨ s.pipe.length < n ∨
        min (buffer.length + h1PacketReadChunkBytes) session.maxPacket - buffer.length < n then none
    else
      let filled := buffer ++ s.pipe.take n
      let s := { s with pipe := s.pipe.drop n }
      if filled.length = session.maxPacket then some (s.afterRead session filled)
      else some { s with phase := .reading filled }
  | .pending => if buffer = [] then some s else some (s.afterRead session buffer)
  | .eof => if s.pipe = [] ∧ s.closed then some (s.afterRead session buffer) else none
  | _ => none

/-- `read_packet_input`: one read, or a response that comes first. -/
def readMultiplexed (s : State) (session : Session) : Input → Option State
  | .read n =>
    if n = 0 ∨ s.pipe.length < n ∨ session.maxPacket < n then none
    else some ({ s with pipe := s.pipe.drop n }.afterRead session (s.pipe.take n))
  | .pending => some s
  | .eof => if s.pipe = [] ∧ s.closed then some (s.afterRead session []) else none
  | .join index => s.join index
  | _ => none

/-- `wait_packet_interval`. Without a delay the draw has failed. -/
def waitPacketInterval (s : State) (session : Session) (payload : Bytes) (delay : Option Nat)
    (now : Nat) : Option State :=
  let paced := { s with phase := .rotating payload, lastRequest := some now }
  if 0 < session.minPostsIntervalMs.from then
    match delay with
    | none => some s.fail
    | some delay =>
      if (s.lastRequest.any fun last => decide (now < last + delay)) then none else some paced
  else some paced

def rotatePacketClientIfNeeded (s : State) (payload : Bytes) (remaining : Int) (expired : Bool)
    (replacement : Option Nat) : State :=
  if remaining ≤ 0 ∨ expired then
    match replacement with
    | none => s.fail
    | some client => { s with phase := .composing payload, client }
  else { s with phase := .composing payload }

def nextSequence (sequence : Int) : Int := (sequence + 1).bmod (2 ^ 64)

/-- The request is composed, and the number taken. -/
def composePacket (s : State) (session : Session) (payload head : Bytes) : State :=
  let body := if session.inBody then payload else []
  { s with
    uploads := { sequence := s.sequence, payload, head } :: s.uploads
    sequence := nextSequence s.sequence
    phase := match session.version with
      | .http1 => .take (head ++ body) true
      | _ => .checkout body false }

/-- `send_h1_packet`. A stale connection of the pool gets one retry. -/
def sendH1Packet (s : State) (session : Session) : Phase → Input → Option State
  | .take request retry, .connect pooled dialled =>
    if pooled ∨ dialled then
      some { s.attempt .sent with phase := .writing request retry pooled 0 }
    else some s.fail
  | .writing request retry pooled bytesWritten, .wrote n =>
    if n = 0 ∨ request.length < bytesWritten + n then none
    else
      some
        { s.give ((request.drop bytesWritten).take n) with
          phase := .writing request retry pooled (bytesWritten + n) }
  | .writing request retry pooled bytesWritten, .writeError =>
    let s := s.amend (.writeFailed bytesWritten)
    if pooled ∧ retry ∧ bytesWritten = 0 then some { s with phase := .take request false }
    else some s.fail
  | .writing request _ _ bytesWritten, .flushed =>
    if bytesWritten = request.length then some { s with phase := .opening } else none
  | .opening, .opened ok => some (if ok then { s with phase := .draining } else s.fail)
  | .draining, .drained ok =>
    some (if ok then (s.update fun upload => { upload with consumed := true }).next session
      else s.fail)
  | _, _ => none

/-- `send_h2_packet` and `send_h3_packet`, up to the end of the upload. Only HTTP/2 tries
again, on a fresh connection. -/
def sendMultiplexedPacket (s : State) (session : Session) : Phase → Input → Option State
  | .checkout body fresh, .checkout pooled =>
    match pooled with
    | none => some s.fail
    | some pooled => some { s with phase := .starting body fresh pooled }
  | .starting body fresh pooled, .started result =>
    match result with
    | .ok => some { s.attempt .sent with phase := .uploading body false }
    | .goAway =>
      if session.version = .http2 ∧ !fresh ∧ pooled then
        some { s.attempt .refused with phase := .checkout body true }
      else some (s.attempt .refused).fail
    | .error => some (s.attempt .failed).fail
  | .uploading body response, .upload n =>
    if n = 0 ∨ body.length < n ∨ session.version = .http2 ∧ maxUploadDataBytes < n then none
    else some { s.give (body.take n) with phase := .uploading (body.drop n) response }
  | .uploading body _, .uploaded ok =>
    if ok then
      if body = [] then some ({ s with responses := s.responses ++ [none] }.next session) else none
    else some s.fail
  | .uploading body false, .response ok =>
    some (if ok then { s with phase := .uploading body true } else s.fail)
  | _, _ => none

def work (s : State) (session : Session) (input : Input) : Option State :=
  match s.phase, input with
  | .gate, .proceed =>
    match s.firstUplink with
    | none => none
    | some .data => some { s with phase := .reading [] }
    | some .closed => some { s with phase := .done }
  | .room, .join index => if session.responseCap ≤ s.responses.length then s.join index else none
  | .room, .proceed =>
    if session.responseCap ≤ s.responses.length then none else some { s with phase := .reap }
  | .reap, .join index => s.join index
  | .reap, .proceed =>
    if s.responses.any Option.isSome then none else some { s with phase := .reading [] }
  | .reading buffer, input =>
    match session.version with
    | .http1 => s.readH1 session buffer input
    | _ => s.readMultiplexed session input
  | .pacing payload, .interval delay now => s.waitPacketInterval session payload delay now
  | .rotating payload, .rotate remaining expired replacement =>
    some (s.rotatePacketClientIfNeeded payload remaining expired replacement)
  | .composing payload, .compose head =>
    match head with
    | none => some s.fail
    | some head => some (s.composePacket session payload head)
  | .finishing, .join index => s.join index
  | .finishing, .proceed => if s.responses = [] then some { s with phase := .done } else none
  | phase, input =>
    match session.version with
    | .http1 => s.sendH1Packet session phase input
    | _ => s.sendMultiplexedPacket session phase input

def step (session : Session) (s : State) : Input → Option State
  | .write input => s.write session input
  | .shutdown => some s.shutdown
  | .settle index ok => s.settle index ok
  | input => s.work session input

def run (session : Session) (inputs : List Input) : Option State :=
  Machine.run (step session) (start session) inputs

/-- The payloads of the requests, in the order they were started. -/
def sent (s : State) : Bytes := (s.uploads.reverse.map Upload.payload).flatten

end State

end Xray.Xhttp
