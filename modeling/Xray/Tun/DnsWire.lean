import Xray.Dns.Message

/-!
# DNS messages of TUN clients (`xray-core-rs/src/tun_dns.rs`)

What the device takes for a DNS query of a client over TCP, and the error responses it makes for
one. The readers here are the module's own; they share nothing with those of the resolver.
-/

namespace Xray.Tun

open Bytes WireName

def dnsTypeOpt : UInt16 := 41

def dnsTypeIxfr : UInt16 := 251

def dnsTypeAxfr : UInt16 := 252

def dnsLegacyUdpPayloadSize : Nat := 512

def maxDnsTcpWireMessageSize : Nat := 65535

inductive RawDnsTcpClientFrameKind where
  | query
  | transparent
deriving DecidableEq

/-- The loop of `validate_dns_wire_name`, with the turns that are left. It gives the offset behind
the name. -/
def validateDnsWireNameLoop (message : Bytes) : Nat → Nat → Option Nat → Nat → Option Nat
  | 0, _, _, _ => none
  | turns + 1, cursor, encodedEnd, expandedLen =>
    match message[cursor]? with
    | none => none
    | some labelLen =>
      if labelLen &&& 0xc0 = 0 then
        if labelLen = 0 then
          if 255 < expandedLen + 1 then none else some (encodedEnd.getD (cursor + 1))
        else if 63 < labelLen.toNat then none
        else
          let labelEnd := cursor + 1 + labelLen.toNat
          match slice? message (cursor + 1) labelEnd with
          | none => none
          | some _ =>
            let expandedLen := expandedLen + (labelLen.toNat + 1)
            if 255 < expandedLen then none
            else validateDnsWireNameLoop message turns labelEnd encodedEnd expandedLen
      else if labelLen &&& 0xc0 = 0xc0 then
        match message[cursor + 1]? with
        | none => none
        | some pointerLow =>
          let pointer := pointerTo labelLen pointerLow
          if pointer < 12 ∨ cursor ≤ pointer then none
          else
            validateDnsWireNameLoop message turns pointer
              (encodedEnd.or (some (cursor + 2))) expandedLen
      else none

def validateDnsWireName (message : Bytes) (offset : Nat) : Option Nat :=
  validateDnsWireNameLoop message 128 offset none 0

/-- The loop of `skip_dns_wire_name`. A turn passes a byte of the message, so `turns` is not used
up if it begins above their number. -/
def skipDnsWireNameLoop (message : Bytes) (nameStart : Nat) : Nat → Nat → Option Nat
  | 0, _ => none
  | turns + 1, offset =>
    match message[offset]? with
    | none => none
    | some labelLen =>
      if labelLen &&& 0xc0 = 0 then
        if labelLen = 0 then
          if offset + 1 - nameStart ≤ 255 then some (offset + 1) else none
        else
          let next := offset + 1 + labelLen.toNat
          if message[next - 1]?.isNone ∨ 255 < next - nameStart then none
          else skipDnsWireNameLoop message nameStart turns next
      else if labelLen &&& 0xc0 = 0xc0 then
        match message[offset + 1]? with
        | none => none
        | some pointerLow =>
          let pointer := pointerTo labelLen pointerLow
          if pointer < 12 ∨ offset ≤ pointer then none else some (offset + 2)
      else none

def skipDnsWireName (message : Bytes) (offset : Nat) : Option Nat :=
  skipDnsWireNameLoop message offset (message.length + 1) offset

/-- `count` questions, from `offset`. -/
def validateQuestions (message : Bytes) : Nat → Nat → Option Nat
  | 0, offset => some offset
  | count + 1, offset => do
    let offset ← validateDnsWireName message offset
    let _ ← slice? message offset (offset + 4)
    validateQuestions message count (offset + 4)

/-- `count` records, from `offset`. -/
def validateRecords (message : Bytes) : Nat → Nat → Option Nat
  | 0, offset => some offset
  | count + 1, offset => do
    let offset ← validateDnsWireName message offset
    let _ ← slice? message offset (offset + 10)
    let dataLen ← u16? message (offset + 8)
    let recordEnd := offset + 10 + dataLen.toNat
    let _ ← slice? message (offset + 10) recordEnd
    validateRecords message count recordEnd

/-- The offset behind the last record, if all counts can be read and all they count is there. -/
def envelopeEnd (message : Bytes) : Option Nat := do
  let questionCount ← u16? message 4
  let answerCount ← u16? message 6
  let authorityCount ← u16? message 8
  let additionalCount ← u16? message 10
  let offset ← validateQuestions message questionCount.toNat 12
  let offset ← validateRecords message answerCount.toNat offset
  let offset ← validateRecords message authorityCount.toNat offset
  validateRecords message additionalCount.toNat offset

def dnsWireEnvelopeIsWellFormed (message : Bytes) : Bool :=
  envelopeEnd message = some message.length

/-- `count` questions, from `offset`, without a look at names that pointers lead to. -/
def skipQuestions (message : Bytes) : Nat → Nat → Option Nat
  | 0, offset => some offset
  | count + 1, offset => do
    let offset ← skipDnsWireName message offset
    let _ ← message[offset + 4 - 1]?
    skipQuestions message count (offset + 4)

def dnsQuestionSectionEnd (message : Bytes) : Option Nat := do
  let questionCount ← u16? message 4
  skipQuestions message questionCount.toNat 12

def rawDnsTcpClientFrameKind (message : Bytes) : RawDnsTcpClientFrameKind :=
  if !dnsWireEnvelopeIsWellFormed message then .transparent
  else
    match u16? message 2 with
    | none => .transparent
    | some flags =>
      if flags &&& 0x8000 ≠ 0 ∨ flags &&& 0x7800 ≠ 0 ∨ u16? message 4 ≠ some 1 then .transparent
      else
        match dnsQuestionSectionEnd message with
        | none => .transparent
        | some questionEnd =>
          if questionEnd < 4 then .transparent
          else
            match u16? message (questionEnd - 4) with
            | none => .transparent
            | some questionType =>
              if questionType = dnsTypeAxfr ∨ questionType = dnsTypeIxfr then .transparent
              else .query

structure EdnsRequest where
  udpPayloadSize : Nat
  dnssecOk : Bool
  extendedRcode : UInt8
  version : UInt8
  optionsEmpty : Bool
deriving DecidableEq

/-- The loop of `edns_options_are_well_formed`. A turn passes four bytes, so `turns` is not used up
if it begins above the number of those left. -/
def ednsOptionsLoop (message : Bytes) (dataEnd : Nat) : Nat → Nat → Bool
  | 0, _ => true
  | turns + 1, offset =>
    if dataEnd ≤ offset then true
    else if dataEnd < offset + 4 then false
    else
      match u16? message (offset + 2) with
      | none => false
      | some optionLen =>
        let optionEnd := offset + 4 + optionLen.toNat
        if dataEnd < optionEnd then false else ednsOptionsLoop message dataEnd turns optionEnd

def ednsOptionsAreWellFormed (message : Bytes) (offset dataEnd : Nat) : Bool :=
  ednsOptionsLoop message dataEnd (dataEnd - offset + 1) offset

/-- One record of a section, and what has been advertised so far. -/
def scanEdnsRecord (message : Bytes) (isAdditional : Bool) (offset : Nat)
    (advertised : Option EdnsRequest) : Option (Nat × Option EdnsRequest) := do
  let ownerStart := offset
  let offset ← skipDnsWireName message offset
  let ownerEnd := offset
  let recordType ← u16? message offset
  let recordClass ← u16? message (offset + 2)
  let recordTtl ← u32? message (offset + 4)
  let dataLen ← u16? message (offset + 8)
  let offset := offset + 10
  let dataEnd := offset + dataLen.toNat
  let _ ← slice? message offset dataEnd
  if recordType = dnsTypeOpt ∧ !isAdditional then none
  else if isAdditional ∧ recordType = dnsTypeOpt then
    let rootOwner := ownerStart + 1 = ownerEnd ∧ message[ownerStart]? = some 0
    if ¬rootOwner ∨ advertised.isSome ∨ !ednsOptionsAreWellFormed message offset dataEnd then none
    else
      some (dataEnd, some
        { udpPayloadSize := recordClass.toNat
          dnssecOk := recordTtl &&& 0x8000 ≠ 0
          extendedRcode := (recordTtl >>> 24).toUInt8
          version := (recordTtl >>> 16).toUInt8
          optionsEmpty := dataLen = 0 })
  else some (dataEnd, advertised)

def scanEdnsRecords (message : Bytes) (isAdditional : Bool) :
    Nat → Nat → Option EdnsRequest → Option (Nat × Option EdnsRequest)
  | 0, offset, advertised => some (offset, advertised)
  | count + 1, offset, advertised => do
    let (offset, advertised) ← scanEdnsRecord message isAdditional offset advertised
    scanEdnsRecords message isAdditional count offset advertised

def validatedEdnsRequest (message : Bytes) : Option EdnsRequest := do
  let questionCount ← u16? message 4
  let answerCount ← u16? message 6
  let authorityCount ← u16? message 8
  let additionalCount ← u16? message 10
  let offset ← skipQuestions message questionCount.toNat 12
  let (offset, advertised) ← scanEdnsRecords message false answerCount.toNat offset none
  let (offset, advertised) ←
    scanEdnsRecords message false authorityCount.toNat offset advertised
  let (offset, advertised) ←
    scanEdnsRecords message true additionalCount.toNat offset advertised
  if offset = message.length then advertised else none

/-- `bytes[start..start + new.len()].copy_from_slice(new)`. -/
def overwrite (bytes : Bytes) (start : Nat) (new : Bytes) : Bytes :=
  bytes.take start ++ new ++ bytes.drop (start + new.length)

/-- The OPT record of a response. -/
def ednsResponse (edns : EdnsRequest) (responsePayloadSize : Nat) : Bytes :=
  [0] ++ toBe 2 dnsTypeOpt.toNat ++
    toBe 2 (min (max responsePayloadSize dnsLegacyUdpPayloadSize) 65535) ++
    toBe 4 (if edns.dnssecOk then 0x8000 else 0) ++ toBe 2 0

def dnsErrorResponseWithPayloadSize (query : Bytes) (rcode : UInt16) (truncated : Bool)
    (responsePayloadSize : Nat) : Option Bytes :=
  if query.length < 12 then none
  else
    let questionEnd := (dnsQuestionSectionEnd query).getD 12
    let requestFlags := UInt16.ofNat (ofBe ((query.take 4).drop 2))
    let responseFlags := 0x8000 ||| (requestFlags &&& 0x7910) ||| 0x0080 ||| (rcode &&& 0x000f)
    let responseFlags := if truncated then responseFlags ||| 0x0200 else responseFlags
    let response := overwrite (query.take questionEnd) 2 (toBe 2 responseFlags.toNat)
    let response := if questionEnd = 12 then overwrite response 4 (toBe 2 0) else response
    let response := overwrite response 6 (List.replicate 6 0)
    match validatedEdnsRequest query with
    | none => some response
    | some edns =>
      some (overwrite response 10 (toBe 2 1) ++ ednsResponse edns responsePayloadSize)

def dnsErrorResponse (query : Bytes) (rcode : UInt16) (truncated : Bool) : Option Bytes :=
  let responsePayloadSize :=
    ((validatedEdnsRequest query).map EdnsRequest.udpPayloadSize).getD dnsLegacyUdpPayloadSize
  dnsErrorResponseWithPayloadSize query rcode truncated responsePayloadSize

def framedDnsPayload (response : Bytes) : Option Bytes :=
  if response = [] ∨ maxDnsTcpWireMessageSize < response.length then none
  else some (toBe 2 response.length ++ response)

def framedDnsErrorResponse (query : Bytes) (rcode : UInt16) : Option Bytes := do
  let response ← dnsErrorResponse query rcode false
  if !Dns.dnsResponseMatchesQuery query response then none else framedDnsPayload response

end Xray.Tun
