import Xray.Lib.Bytes
import Xray.Routing.Target

/-!
# Mux.Cool frames (`xray-proxy/src/mux.rs`)

A frame has metadata (the session, what the frame does, and for some frames a target)
and perhaps a payload. Every error of the codec is the same one, "invalid Mux frame".
-/

namespace Xray.Mux

open Bytes Routing

def maxMetadata : Nat := 512

def maxPayload : Nat := 8192

def maxFrame : Nat := 2 + maxMetadata + 2 + maxPayload

inductive Status where
  | new
  | keep
  | «end»
  | keepAlive
deriving DecidableEq

def Status.toByte : Status → UInt8
  | .new => 1
  | .keep => 2
  | .end => 3
  | .keepAlive => 4

structure Frame where
  sessionId : UInt16
  status : Status
  error : Bool
  target : Option Target
  globalId : Option (Vector UInt8 8)
  payload : Option Bytes
deriving DecidableEq

/-- The one error of the codec. -/
inductive Invalid where
  | invalid
deriving DecidableEq

def isControl (c : Char) : Bool := c.toNat < 0x20 || (0x7f ≤ c.toNat && c.toNat < 0xa0)

def isWhitespace (c : Char) : Bool :=
  (0x9 ≤ c.toNat && c.toNat ≤ 0xd) || c.toNat == 0x20 || c.toNat == 0x85 || c.toNat == 0xa0 ||
    c.toNat == 0x1680 || (0x2000 ≤ c.toNat && c.toNat ≤ 0x200a) || c.toNat == 0x2028 ||
    c.toNat == 0x2029 || c.toNat == 0x202f || c.toNat == 0x205f || c.toNat == 0x3000

/-- The bytes are a text without control characters and blanks. -/
def plainName (name : Bytes) : Bool :=
  match String.fromUTF8? ⟨name.toArray⟩ with
  | some text => !text.toList.any fun c => isControl c || isWhitespace c
  | none => false

def encodeTarget (status : Status) (target : Target) : Except Invalid Bytes :=
  if ¬(status = .new ∨ status = .keep) ∨ (status = .keep ∧ target.network ≠ .udp) then
    .error .invalid
  else if target.port = 0 then .error .invalid
  else
    let network : UInt8 := if target.network = .tcp then 1 else 2
    let port := toBe 2 target.port.toNat
    match target.addr with
    | .ip (.v4 ip) => .ok (network :: port ++ [1] ++ toBe 4 ip.toNat)
    | .ip (.v6 ip) => .ok (network :: port ++ [3] ++ toBe 16 ip.toNat)
    | .domain name =>
      if name = [] ∨ name.length > 255 ∨ plainName name = false then .error .invalid
      else .ok (network :: port ++ [2, UInt8.ofNat name.length] ++ name)

def Frame.encodable (frame : Frame) : Bool :=
  !((frame.payload.any fun p => p.length > maxPayload) ||
    (frame.error && frame.status != .end) ||
    (frame.status == .new && frame.target.isNone) ||
    (frame.globalId.isSome &&
      (frame.status != .new || !frame.target.any fun t => t.network == .udp)))

def encode (frame : Frame) : Except Invalid Bytes :=
  if frame.encodable = false then .error .invalid
  else do
    let option : UInt8 := (if frame.payload.isSome then 1 else 0) ||| (if frame.error then 2 else 0)
    let target ← match frame.target with
      | some target => encodeTarget frame.status target
      | none => pure []
    let global := match frame.globalId with
      | some id => id.toList
      | none => []
    let metadata := toBe 2 frame.sessionId.toNat ++ [frame.status.toByte, option] ++ target ++ global
    let payload := match frame.payload with
      | some payload => toBe 2 payload.length ++ payload
      | none => []
    return toBe 2 metadata.length ++ metadata ++ payload

def Status.ofByte (byte : UInt8) : Except Invalid Status :=
  if byte = 1 then .ok .new
  else if byte = 2 then .ok .keep
  else if byte = 3 then .ok .end
  else if byte = 4 then .ok .keepAlive
  else .error .invalid

/-- An address of a given kind, and what follows it. -/
def decodeAddr (kind : UInt8) (rest : Bytes) : Except Invalid (TargetAddr × Bytes) :=
  if kind = 1 ∧ rest.length ≥ 4 then
    .ok (.ip (.v4 (BitVec.ofNat 32 (ofBe (rest.take 4)))), rest.drop 4)
  else if kind = 3 ∧ rest.length ≥ 16 then
    .ok (.ip (.v6 (BitVec.ofNat 128 (ofBe (rest.take 16)))), rest.drop 16)
  else if kind = 2 ∧ rest.length ≥ 1 then
    let n := (rest.getD 0 0).toNat
    let rest := rest.drop 1
    if n = 0 ∨ rest.length < n then .error .invalid
    else if plainName (rest.take n) = false then .error .invalid
    else .ok (.domain (rest.take n), rest.drop n)
  else .error .invalid

/-- The target of a frame, and what follows it in the metadata. -/
def decodeTarget (rest : Bytes) : Except Invalid (Target × Bytes) :=
  match rest with
  | kind :: p₁ :: p₂ :: addr :: rest => do
    let network ← if kind = 1 then .ok .tcp else if kind = 2 then .ok .udp else .error .invalid
    let port := UInt16.ofNat (ofBe [p₁, p₂])
    if port = 0 then .error .invalid
    else do
      let (addr, rest) ← decodeAddr addr rest
      return (⟨addr, port, network⟩, rest)
  | _ => .error .invalid

/-- The metadata of a frame, without its option byte. -/
def decodeMetadata (status : Status) (rest : Bytes) :
    Except Invalid (Option Target × Option (Vector UInt8 8)) := do
  let (target, rest) ←
    if status = .new ∨ (status = .keep ∧ rest.head? = some 2) then do
      let (target, rest) ← decodeTarget rest
      pure (some target, rest)
    else pure (none, rest)
  let (globalId, rest) :=
    if h : (status = .new ∧ (target.any fun t => t.network == .udp) = true) ∧ rest.length ≥ 8 then
      (some (⟨(rest.take 8).toArray, by simp [h.2]⟩ : Vector UInt8 8), rest.drop 8)
    else (none, rest)
  -- Zeros are padding.
  if rest.any (· ≠ 0) then .error .invalid else return (target, globalId)

/-- The next frame of the input and its length; `none` when there is not enough of it. -/
def decode (input : Bytes) : Except Invalid (Option (Frame × Nat)) :=
  if input.length < 2 then .ok none
  else
    let length := ofBe (input.take 2)
    if length < 4 ∨ length > maxMetadata then .error .invalid
    else if input.length < 2 + length then .ok none
    else do
      let metadata := (input.drop 2).take length
      let status ← Status.ofByte (metadata.getD 2 0)
      let option := metadata.getD 3 0
      if option &&& ~~~3 ≠ 0 ∨ (option &&& 2 ≠ 0 ∧ status ≠ .end) then .error .invalid
      else do
        let (target, globalId) ← decodeMetadata status (metadata.drop 4)
        let frame (payload : Option Bytes) : Frame :=
          { sessionId := UInt16.ofNat (ofBe (metadata.take 2))
            status
            error := decide (option &&& 2 ≠ 0)
            target
            globalId
            payload }
        if option &&& 1 = 0 then return some (frame none, 2 + length)
        else
          let rest := input.drop (2 + length)
          if rest.length < 2 then return none
          else
            let size := ofBe (rest.take 2)
            if size > maxPayload then .error .invalid
            else if rest.length < 2 + size then return none
            else return some (frame (some ((rest.drop 2).take size)), 2 + length + 2 + size)

end Xray.Mux
