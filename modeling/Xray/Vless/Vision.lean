import Xray.Lib.Ascii
import Xray.Lib.Carrier
import Xray.Lib.Fallible

/-!
# Vision (`xray-proxy/src/vless/{vision,vision_stream}.rs`)

Vision hides the lengths of the first packets of a connection: each is sent in a
frame with a header of five bytes and some padding, and the first frame has the
user's ID in front. A frame that says `end` or `direct` is the last, and what
follows it is read as it comes.

The writer is `VisionPadding`, with the length it draws at random as an argument.
The reader is `VisionStream.pollRead` over a `Carrier`. What the stream keeps for
its own writes is left out, except what `filterTlsPacket` records of the packets
it has seen in either direction.
-/

namespace Xray.Vless

open Ascii Bytes Fallible

def headerLen : Nat := 5

def userIdLen : Nat := 16

def maxContentLen : Nat := 65535

def readChunkLen : Nat := 8 * 1024

abbrev UserId := { id : Bytes // id.length = userIdLen }

inductive VisionCommand where
  | «continue»
  | «end»
  | direct
deriving DecidableEq

inductive VisionError where
  | shortBlock
  | userMismatch
  | unknownCommand (command : UInt8)
  | lengthMismatch
  | payloadTooLarge (len : Nat)
deriving DecidableEq

namespace VisionCommand

def toByte : VisionCommand → UInt8
  | .«continue» => 0
  | .«end» => 1
  | .direct => 2

def tryFrom (value : UInt8) : Except VisionError VisionCommand :=
  if value = 0 then .ok .«continue»
  else if value = 1 then .ok .«end»
  else if value = 2 then .ok .direct
  else .error (.unknownCommand value)

end VisionCommand

structure VisionPadding where
  userId : UserId
  seed : Vector UInt32 4
  userIdEmitted : Bool := false

/-- A number below the bound, or zero where there is none; `draw` is what the
generator gives. -/
def randomPaddingLen (upperBound : UInt32) (draw : Nat) : Nat :=
  if upperBound = 0 then 0 else draw % upperBound.toNat

namespace VisionPadding

def paddingLen (padding : VisionPadding) (contentLen : Nat) (longPadding : Bool)
    (deterministicExtraPadding : UInt16) (draw : Nat) : Nat :=
  if deterministicExtraPadding ≠ 0 then deterministicExtraPadding.toNat
  else if longPadding && decide (contentLen < padding.seed[0].toNat) then
    min (padding.seed[2].toNat - contentLen + randomPaddingLen padding.seed[1] draw) maxContentLen
  else min (randomPaddingLen padding.seed[3] draw) maxContentLen

/-- `pad_into_with_long_padding`: one frame added to `output`. -/
def padInto (padding : VisionPadding) (payload : Bytes) (command : VisionCommand)
    (longPadding : Bool) (deterministicExtraPadding : UInt16) (draw : Nat) (output : Bytes) :
    Except VisionError (VisionPadding × Bytes) :=
  if payload.length > maxContentLen then .error (.payloadTooLarge payload.length)
  else
    let paddingLen := padding.paddingLen payload.length longPadding deterministicExtraPadding draw
    let output := if padding.userIdEmitted then output else output ++ padding.userId
    .ok ({ padding with userIdEmitted := true },
      output ++ [command.toByte] ++ toBe 2 payload.length ++ toBe 2 paddingLen ++ payload ++
        List.replicate paddingLen 0)

end VisionPadding

/-! ## Reading one frame -/

structure UnpaddedVisionBlock where
  command : VisionCommand
  payload : Bytes
deriving DecidableEq

structure VisionHeader where
  command : VisionCommand
  contentLen : Nat
  totalLen : Nat

def parseHeader (padded : Bytes) (offset : Nat) : Except VisionError VisionHeader := do
  if padded.length < offset + headerLen then .error .shortBlock
  else
    let command ← VisionCommand.tryFrom (padded.getD offset 0)
    let contentLen := ofBe ((padded.drop (offset + 1)).take 2)
    let paddingLen := ofBe ((padded.drop (offset + 3)).take 2)
    return ⟨command, contentLen, headerLen + contentLen + paddingLen⟩

/-- Where the header of a block is: behind the user's ID if the block begins with
it, else in front, if that makes sense of the whole block. -/
def blockOffset (padded : Bytes) (expectedUserId : UserId) : Except VisionError Nat :=
  if padded.take userIdLen = expectedUserId then .ok userIdLen
  else
    match parseHeader padded 0 with
    | .ok header =>
      if header.totalLen = padded.length then .ok 0
      else if padded.length ≥ userIdLen + headerLen then .error .userMismatch
      else .error .lengthMismatch
    | .error (.unknownCommand command) => .error (.unknownCommand command)
    | .error e => if padded.length ≥ userIdLen + headerLen then .error .userMismatch else .error e

def unpadVisionBlock (padded : Bytes) (expectedUserId : UserId) :
    Except VisionError UnpaddedVisionBlock := do
  if padded.length < headerLen then .error .shortBlock
  else
    let offset ← blockOffset padded expectedUserId
    let header ← parseHeader padded offset
    if header.totalLen = padded.length - offset then
      return ⟨header.command, (padded.drop (offset + headerLen)).take header.contentLen⟩
    else .error .lengthMismatch

/-! ## What the stream notes of TLS packets -/

structure TlsFilter where
  packetsToFilter : Nat := 8
  enableXtls : Bool := false
  isTls12OrAbove : Bool := false
  isTls : Bool := false
  cipher : UInt16 := 0
  remainingServerHello : Int := -1
deriving DecidableEq

namespace TlsFilter

def u16At (packet : Bytes) (i : Nat) : Nat := ofBe ((packet.drop i).take 2)

/-- A packet that starts a server or client hello. -/
def noteHello (filter : TlsFilter) (packet : Bytes) : TlsFilter :=
  if packet.length < 6 then filter
  else if packet.take 3 = [0x16, 0x03, 0x03] ∧ packet.getD 5 0 = 0x02 then
    let remaining := u16At packet 3 + headerLen
    let cipherOffset := 43 + (packet.getD 43 0).toNat + 1
    { filter with
      remainingServerHello := remaining
      isTls12OrAbove := true
      isTls := true
      cipher :=
        if packet.length ≥ 79 ∧ remaining ≥ 79 ∧ packet.length ≥ cipherOffset + 2 then
          UInt16.ofNat (u16At packet cipherOffset)
        else filter.cipher }
  else if packet.take 2 = [0x16, 0x03] ∧ packet.getD 5 0 = 0x01 then
    { filter with isTls := true }
  else filter

/-- The part of a server hello in this packet, searched for the versions it
supports. -/
def noteVersions (filter : TlsFilter) (packet : Bytes) : TlsFilter :=
  if filter.remainingServerHello > 0 then
    let part := packet.take (min filter.remainingServerHello.toNat packet.length)
    let remaining := filter.remainingServerHello - packet.length
    if (windows 6 part).any (· == [0x00, 0x2b, 0x00, 0x02, 0x03, 0x04]) then
      { filter with
        remainingServerHello := remaining
        enableXtls := filter.enableXtls ||
          (filter.cipher != 0 && filter.cipher != 0x1305)
        packetsToFilter := 0 }
    else
      { filter with
        remainingServerHello := remaining
        packetsToFilter := if remaining ≤ 0 then 0 else filter.packetsToFilter }
  else filter

def filterTlsPacket (filter : TlsFilter) (packet : Bytes) : TlsFilter :=
  if filter.packetsToFilter = 0 ∨ packet = [] then filter
  else
    let filter := { filter with packetsToFilter := filter.packetsToFilter - 1 }
    (filter.noteHello packet).noteVersions packet

end TlsFilter

/-! ## The reading stream -/

structure VisionStream where
  userId : UserId
  rawRead : Bytes := []
  decodedRead : Bytes := []
  inboundUserIdSeen : Bool := false
  paddingReadMode : Bool := true
  directReadMode : Bool := false
  innerEof : Bool := false
  filter : TlsFilter := {}

inductive ReadError where
  | invalidData (error : VisionError)
  | unexpectedEof (message : String)
deriving DecidableEq

namespace VisionStream

def new (userId : UserId) : VisionStream := { userId }

def nextFrameOffset (stream : VisionStream) : Option Nat :=
  if stream.rawRead = [] then none
  else if stream.inboundUserIdSeen then some 0
  else if stream.rawRead.length < userIdLen then
    if stream.rawRead.isPrefixOf stream.userId then none else some 0
  else if stream.rawRead.take userIdLen = stream.userId then some userIdLen
  else some 0

/-- The length of the next frame, once all of it is there. -/
def nextFrameLen (stream : VisionStream) : Except VisionError (Option Nat) :=
  match stream.nextFrameOffset with
  | none => .ok none
  | some offset =>
    if stream.rawRead.length < offset + headerLen then .ok none
    else do
      let _ ← VisionCommand.tryFrom (stream.rawRead.getD offset 0)
      let contentLen := ofBe ((stream.rawRead.drop (offset + 1)).take 2)
      let paddingLen := ofBe ((stream.rawRead.drop (offset + 3)).take 2)
      let frameLen := offset + headerLen + contentLen + paddingLen
      if stream.rawRead.length < frameLen then .ok none else .ok (some frameLen)

/-- Takes what a frame held. After the last frame all that was read beyond it has
been decoded, too. -/
def takeBlock (stream : VisionStream) (block : UnpaddedVisionBlock) (rest : Bytes) :
    VisionStream :=
  let stream := { stream with
    inboundUserIdSeen := true
    filter := stream.filter.filterTlsPacket block.payload }
  if block.command = .«continue» then
    { stream with rawRead := rest, decodedRead := stream.decodedRead ++ block.payload }
  else
    { stream with
      rawRead := []
      decodedRead := stream.decodedRead ++ block.payload ++ rest
      paddingReadMode := false
      directReadMode := decide (block.command = .direct) }

/-- The stream after its next frame; `none` when not all of one is there. -/
def decodeNextFrame (stream : VisionStream) : Except VisionError (Option VisionStream) := do
  match ← stream.nextFrameLen with
  | none => return none
  | some frameLen =>
    let block ← unpadVisionBlock (stream.rawRead.take frameLen) stream.userId
    return some (stream.takeBlock block (stream.rawRead.drop frameLen))

lemma le_of_nextFrameLen {stream : VisionStream} {n : Nat}
    (h : stream.nextFrameLen = .ok (some n)) : 0 < n ∧ n ≤ stream.rawRead.length := by
  rw [nextFrameLen] at h
  split at h
  · simp at h
  split at h
  · simp at h
  obtain ⟨command, -, h⟩ := bind_eq_ok.mp h
  dsimp only at h
  split at h
  · simp at h
  · simp only [Except.ok.injEq, Option.some.injEq] at h
    subst h
    exact ⟨by rw [headerLen]; omega, by omega⟩

lemma rawRead_lt_of_decodeNextFrame {stream stream' : VisionStream}
    (h : stream.decodeNextFrame = .ok (some stream')) :
    stream'.rawRead.length < stream.rawRead.length := by
  obtain ⟨_ | n, hlen, h⟩ := bind_eq_ok.mp h
  · exact absurd h (by simp [pure_eq_ok])
  obtain ⟨hpos, hle⟩ := le_of_nextFrameLen hlen
  obtain ⟨block, -, h⟩ := bind_eq_ok.mp h
  obtain rfl : stream.takeBlock block (stream.rawRead.drop n) = stream' := by
    simpa [pure_eq_ok] using h
  rw [takeBlock]
  dsimp only
  split
  · rw [List.length_drop]
    omega
  · show 0 < _
    omega

/-- What `poll_read` answers: the bytes it put into the output, the stream and what
is left to read. -/
abbrev Answer := Poll Bytes × VisionStream × Carrier

def fillOutput (stream : VisionStream) (size : Nat) (inner : Carrier) : Answer :=
  (.ready (stream.decodedRead.take size),
    { stream with decodedRead := stream.decodedRead.drop size }, inner)

/-- Reads past the stream. `poll_read_direct` differs from `poll_read` in which
layer of the transport it reads, and goes on where that left off. -/
def pollInner (stream : VisionStream) (size : Nat) (inner : Carrier) : Answer :=
  let (poll, inner) := inner.pollRead size
  (poll, stream, inner)

def readFrames (size : Nat) (stream : VisionStream) (inner : Carrier) :
    Except ReadError Answer :=
  match _hdecode : stream.decodeNextFrame with
  | .error e => .error (.invalidData e)
  | .ok (some stream') =>
    if stream'.decodedRead ≠ [] ∨ size = 0 then .ok (stream'.fillOutput size inner)
    else if stream'.directReadMode then .ok (stream'.pollInner size inner)
    else if !stream'.paddingReadMode then .ok (stream'.pollInner size inner)
    else readFrames size stream' inner
  | .ok none =>
    if stream.innerEof then .ok (.ready [], stream, inner)
    else
      match hread : inner.pollRead readChunkLen with
      | (.ready [], inner) =>
        let stream := { stream with innerEof := true }
        if stream.rawRead = [] then .ok (.ready [], stream, inner)
        else .error (.unexpectedEof "incomplete vision frame")
      | (.ready (b :: filled), inner) =>
        readFrames size { stream with rawRead := stream.rawRead ++ b :: filled } inner
      | (.pending, inner) => .ok (.pending, stream, inner)
termination_by 2 * inner.bytes.length + stream.rawRead.length
decreasing_by
  · have := rawRead_lt_of_decodeNextFrame _hdecode
    omega
  · have := congrArg List.length (Carrier.pollRead_ready (by decide) hread).1
    simp only [List.length_append, List.length_cons] at this ⊢
    omega

def pollRead (stream : VisionStream) (size : Nat) (inner : Carrier) : Except ReadError Answer :=
  if stream.decodedRead ≠ [] ∨ size = 0 then .ok (stream.fillOutput size inner)
  else if stream.directReadMode then .ok (stream.pollInner size inner)
  else if !stream.paddingReadMode then .ok (stream.pollInner size inner)
  else readFrames size stream inner

/-- Polls with output buffers of these sizes, and all that they were given. -/
def readAll : List Nat → VisionStream → Carrier → Except ReadError (Bytes × VisionStream × Carrier)
  | [], stream, inner => .ok ([], stream, inner)
  | size :: sizes, stream, inner => do
    let (poll, stream, inner) ← stream.pollRead size inner
    let (rest, stream, inner) ← readAll sizes stream inner
    match poll with
    | .ready got => return (got ++ rest, stream, inner)
    | .pending => return (rest, stream, inner)

end VisionStream

end Xray.Vless
