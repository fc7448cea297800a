import Xray.Lib.WireName

/-!
# Names in the queries of the DNS outbound (`xray-core-rs/src/dns_outbound.rs`)

`read_dns_name` reads the message with `get` only. What it writes to its offset and to its
domain stays when it fails, so its state is returned with every result.
-/

namespace Xray.Outbound

open Bytes WireName

inductive DnsQueryParseError where
  | truncatedName
  | invalidNamePointer
  | nameTooLong
  | invalidNameLabelType
  | invalidDomainLabel
  | invalidDomainEncoding
deriving DecidableEq

/-- The variables of `read_dns_name`, and how many labels it has read. -/
structure NameReader where
  cursor : Nat
  offset : Nat
  domain : Option Bytes
  jumped : Bool := false
  expandedLen : Nat := 1
  pointerCount : Nat := 0
  domainError : Option DnsQueryParseError := none
  labelCount : Nat := 0

namespace NameReader

variable (fromUtf8Lossy : Bytes → Bytes) (message : Bytes) (this : NameReader)

/-- The domain, if there is one, and its error, with one more label. -/
def pushLabel (label : Bytes) : Option Bytes × Option DnsQueryParseError :=
  match this.domain with
  | none => (none, this.domainError)
  | some output =>
    let error :=
      if label.contains 46 then this.domainError.or (some .invalidDomainLabel)
      else this.domainError
    let output := if output.isEmpty then output else output ++ [46]
    if isUtf8 label then (some (output ++ label), error)
    else (some (output ++ fromUtf8Lossy label), error.or (some .invalidDomainEncoding))

def passLabel (label : Bytes) (labelLen : Nat) : NameReader :=
  { this with
    cursor := this.cursor + 1 + labelLen
    offset := if this.jumped then this.offset else this.cursor + 1 + labelLen
    domain := (this.pushLabel fromUtf8Lossy label).1
    domainError := (this.pushLabel fromUtf8Lossy label).2
    expandedLen := this.expandedLen + (labelLen + 1)
    labelCount := this.labelCount + 1 }

def jump (pointer : Nat) : NameReader :=
  { this with
    cursor := pointer
    offset := if this.jumped then this.offset else this.cursor + 2
    jumped := true
    pointerCount := this.pointerCount + 1 }

/-- The loop of `read_dns_name`. The pointer that is one too many is not followed. -/
def loop (this : NameReader) : NameReader × Except DnsQueryParseError Unit :=
  match message[this.cursor]? with
  | none => (this, .error .truncatedName)
  | some labelLen =>
    if labelLen &&& 0xc0 = 0xc0 then
      match message[this.cursor + 1]? with
      | none => (this, .error .truncatedName)
      | some next =>
        let pointer := pointerTo labelLen next
        if pointer < 12 ∨ this.cursor ≤ pointer then (this, .error .invalidNamePointer)
        else if 128 < this.pointerCount + 1 then (this, .error .invalidNamePointer)
        else loop (this.jump pointer)
    else if labelLen = 0 then
      ({ this with offset := if this.jumped then this.offset else this.cursor + 1 }, .ok ())
    else if labelLen &&& 0xc0 ≠ 0 then (this, .error .invalidNameLabelType)
    else
      match slice? message (this.cursor + 1) (this.cursor + 1 + labelLen.toNat) with
      | none => (this, .error .truncatedName)
      | some label =>
        if 255 < this.expandedLen + (labelLen.toNat + 1) then (this, .error .nameTooLong)
        else loop (this.passLabel fromUtf8Lossy label labelLen.toNat)
termination_by (128 - this.pointerCount) + (255 - this.expandedLen)
decreasing_by
  · simp only [jump]
    omega
  · simp only [passLabel]
    omega

end NameReader

def readDnsName (fromUtf8Lossy : Bytes → Bytes) (message : Bytes) (offset : Nat)
    (domain : Option Bytes) : NameReader × Except DnsQueryParseError Unit :=
  NameReader.loop fromUtf8Lossy message { cursor := offset, offset, domain }

end Xray.Outbound
