import Xray.Lib.Ascii
import Xray.Lib.WireName
import Xray.Routing.IpRangeSet

/-!
# DNS messages of the resolver (`xray-transport/src/dns.rs`)

Queries the resolver sends, and how it reads the responses to them. A `String` is the list of its
UTF-8 bytes. Every index the source reads with brackets is in bounds by the checks before it, and
offsets stay far below the ends of `usize`, so the additions are those of `Nat`.
-/

namespace Xray.Dns

open Ascii Bytes WireName
open Xray.Routing (IpAddr)

inductive IoError where
  | invalidData (message : String)
  | invalidInput (message : String)
deriving DecidableEq

def invalidDnsResponse (message : String) : IoError := .invalidData message

abbrev IoResult := Except IoError

def orError {α : Type} (value : Option α) (message : String) : IoResult α :=
  match value with
  | some value => .ok value
  | none => .error (invalidDnsResponse message)

def readU16 (packet : Bytes) (offset : Nat) : IoResult UInt16 :=
  orError (u16? packet offset) "truncated u16"

def readU32 (packet : Bytes) (offset : Nat) : IoResult UInt32 :=
  orError (u32? packet offset) "truncated u32"

def joinLabels (labels : List Str) : Str := [dot].intercalate labels

/-- The loop of `read_dns_name_limited`, with the turns that are left. `jumped` has the offset that
was set at the first pointer. -/
def readDnsNameLoop (packet : Bytes) (limit : Nat) :
    Nat → List Str → Nat → Option Nat → IoResult (Str × Nat)
  | 0, _, _, _ => .error (invalidDnsResponse "dns name pointer loop")
  | turns + 1, labels, cursor, jumped =>
    if jumped = none ∧ limit ≤ cursor then .error (invalidDnsResponse "truncated dns name")
    else
      match packet[cursor]? with
      | none => .error (invalidDnsResponse "truncated dns name")
      | some length =>
        if length &&& 0xc0 = 0xc0 then
          if jumped = none ∧ limit < cursor + 2 then
            .error (invalidDnsResponse "truncated dns name pointer")
          else
            match packet[cursor + 1]? with
            | none => .error (invalidDnsResponse "truncated dns name pointer")
            | some next =>
              readDnsNameLoop packet limit turns labels (pointerTo length next)
                (jumped.or (some (cursor + 2)))
        else if length = 0 then .ok (joinLabels labels, jumped.getD (cursor + 1))
        else if length &&& 0xc0 ≠ 0 then
          .error (invalidDnsResponse "unsupported dns label encoding")
        else
          let labelEnd := cursor + 1 + length.toNat
          if jumped = none ∧ limit < labelEnd then
            .error (invalidDnsResponse "truncated dns label")
          else
            match slice? packet (cursor + 1) labelEnd with
            | none => .error (invalidDnsResponse "truncated dns label")
            | some label =>
              if isUtf8 label then
                readDnsNameLoop packet limit turns (labels ++ [lower label]) labelEnd jumped
              else .error (invalidDnsResponse "dns label is not utf-8")

def readDnsNameLimited (packet : Bytes) (offset limit : Nat) : IoResult (Str × Nat) :=
  if packet.length < limit ∨ limit < offset then
    .error (invalidDnsResponse "invalid dns name limit")
  else readDnsNameLoop packet limit 32 [] offset none

def readDnsName (packet : Bytes) (offset : Nat) : IoResult (Str × Nat) :=
  readDnsNameLimited packet offset packet.length

structure Question where
  name : Str
  recordType : UInt16
  recordClass : UInt16
deriving DecidableEq

def readDnsQuestion (packet : Bytes) (offset : Nat) : IoResult (Question × Nat) := do
  let (name, offset) ← readDnsName packet offset
  let recordType ← readU16 packet offset
  let recordClass ← readU16 packet (offset + 2)
  if packet.length < offset + 4 then .error (invalidDnsResponse "truncated dns question")
  else return (⟨name, recordType, recordClass⟩, offset + 4)

def parseDnsQuestion (packet : Bytes) : IoResult Question := do
  let questionCount ← readU16 packet 4
  if questionCount ≠ 1 then .error (invalidDnsResponse "dns query must have one question")
  else return (← readDnsQuestion packet 12).1

def dnsResponseMatchesQuery (query response : Bytes) : Bool :=
  if query.length < 12 ∨ response.length < 12 ∨ query.take 2 ≠ response.take 2 then false
  else
    match u16? query 2, u16? response 2 with
    | some queryFlags, some responseFlags =>
      if queryFlags &&& 0x8000 ≠ 0 ∨ responseFlags &&& 0x8000 = 0 ∨
          queryFlags &&& 0x7800 ≠ responseFlags &&& 0x7800 then
        false
      else
        match parseDnsQuestion query with
        | .error _ => false
        | .ok expectedQuestion =>
          if u16? response 4 ≠ some 1 then false
          else
            match readDnsQuestion response 12 with
            | .ok (question, _) => question = expectedQuestion
            | .error _ => false
    | _, _ => false

end Xray.Dns
