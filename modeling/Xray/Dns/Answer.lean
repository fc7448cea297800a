import Xray.Dns.Message

/-!
# Queries and answers of the managed resolver (`xray-transport/src/dns.rs`)

`build_dns_query_with_id`, `parse_dns_response` and `resolve_parsed_dns_answers`. Times to live are
in seconds. Where the source indexes a packet with brackets, a byte that is missing is a panic here
and not an error.
-/

namespace Xray.Dns

open Ascii Bytes WireName
open Xray.Routing (IpAddr toIpv4Mapped)

inductive DnsRecordType where
  | a
  | aaaa
deriving DecidableEq

def DnsRecordType.code : DnsRecordType → UInt16
  | .a => 1
  | .aaaa => 28

def dnsDefaultTtl : Nat := 300

def maxDnsAliasDepth : Nat := 8

def pushLabels : List Str → IoResult Bytes
  | [] => .ok []
  | label :: labels =>
    if label = [] ∨ 63 < label.length then
      .error (.invalidInput "dns query domain has invalid label")
    else do
      let rest ← pushLabels labels
      return UInt8.ofNat label.length :: label ++ rest

def buildDnsQueryWithId (domain : Str) (recordType : DnsRecordType) (id : UInt16)
    (edns : Option Bytes) : IoResult Bytes :=
  let normalizedDomain := trimEnd dot domain
  if normalizedDomain = [] then .error (.invalidInput "dns query domain cannot be empty")
  else do
    let name ← pushLabels (splitAll dot normalizedDomain)
    return toBe 2 id.toNat ++ toBe 2 0x0100 ++ toBe 2 1 ++ toBe 2 0 ++ toBe 2 0 ++
      toBe 2 (if edns.isSome then 1 else 0) ++ name ++ [0] ++ toBe 2 recordType.code.toNat ++
      toBe 2 1 ++ edns.getD []

inductive Failure where
  | io (error : IoError)
  | panic
deriving DecidableEq

/-- What may fail and may panic. -/
abbrev Run := Except Failure

def liftIo {α : Type} : IoResult α → Run α
  | .ok value => .ok value
  | .error e => .error (.io e)

def fails {α : Type} (message : String) : Run α := .error (.io (invalidDnsResponse message))

structure ConfiguredDnsAddresses where
  addresses : List IpAddr
  ttl : Nat
deriving DecidableEq

inductive ConfiguredDnsAnswer where
  | addresses (answer : ConfiguredDnsAddresses)
  | cname (aliasName : Str) (ttl : Nat)
deriving DecidableEq

inductive ParsedDnsResponse where
  | answer (answer : ConfiguredDnsAnswer)
  | noData
  | nameError
  | serverFailure (code : UInt16)
  | truncated
deriving DecidableEq

structure ParsedDnsAddress where
  owner : Str
  address : IpAddr
deriving DecidableEq

structure ParsedDnsCname where
  owner : Str
  aliasName : Str
deriving DecidableEq

/-- What stands before the data of a record, and where the data are. -/
structure Record where
  owner : Str
  recordType : UInt16
  recordClass : UInt16
  ttl : UInt32
  dataStart : Nat
  dataEnd : Nat
deriving DecidableEq

def readRecord (packet : Bytes) (offset : Nat) : IoResult Record := do
  let (owner, offset) ← readDnsName packet offset
  let recordType ← readU16 packet offset
  let recordClass ← readU16 packet (offset + 2)
  let ttl ← readU32 packet (offset + 4)
  let dataLen ← readU16 packet (offset + 8)
  let dataEnd := offset + 10 + dataLen.toNat
  if packet.length < dataEnd then .error (invalidDnsResponse "truncated dns rdata")
  else return { owner, recordType, recordClass, ttl, dataStart := offset + 10, dataEnd }

/-- `Duration::from_secs(u64::from(ttl.max(1)))`. -/
def Record.seconds (record : Record) : Nat := max record.ttl.toNat 1

structure Parsed where
  responseTtl : Option Nat
  addresses : List ParsedDnsAddress
  cnames : List ParsedDnsCname
deriving DecidableEq

def Parsed.new : Parsed := ⟨none, [], []⟩

def takeAddress (packet : Bytes) (requestedType : DnsRecordType) (record : Record)
    (parsed : Parsed) : Run Parsed :=
  let dataLen := record.dataEnd - record.dataStart
  let push (address : IpAddr) : Parsed :=
    { parsed with addresses := parsed.addresses ++ [⟨record.owner, address⟩] }
  match requestedType with
  | .a =>
    if dataLen = 4 then
      match slice? packet record.dataStart (record.dataStart + 4) with
      | none => .error .panic
      | some octets => .ok (push (.v4 (BitVec.ofNat 32 (ofBe octets))))
    else fails "DNS address record has an invalid RDATA length"
  | .aaaa =>
    if dataLen = 16 then
      match slice? packet record.dataStart (record.dataStart + 16) with
      | none => fails "truncated u16"
      | some octets =>
        let address := BitVec.ofNat 128 (ofBe octets)
        if toIpv4Mapped address = none then .ok (push (.v6 address)) else .ok parsed
    else fails "DNS address record has an invalid RDATA length"

def takeCname (packet : Bytes) (record : Record) (parsed : Parsed) : Run Parsed := do
  let (aliasName, cnameOffset) ← liftIo (readDnsNameLimited packet record.dataStart record.dataEnd)
  if cnameOffset ≠ record.dataEnd then fails "dns cname rdata length mismatch"
  else return { parsed with cnames := parsed.cnames ++ [⟨record.owner, aliasName⟩] }

def parseRecord (packet : Bytes) (requestedType : DnsRecordType) (record : Record)
    (parsed : Parsed) : Run Parsed :=
  let ttl := record.seconds
  let parsed := { parsed with
    responseTtl := some (match parsed.responseTtl with
      | none => ttl
      | some current => min current ttl) }
  if record.recordClass = 1 ∧ record.recordType = requestedType.code then
    takeAddress packet requestedType record parsed
  else if record.recordClass = 1 ∧ record.recordType = 5 then takeCname packet record parsed
  else .ok parsed

def parseRecords (packet : Bytes) (requestedType : DnsRecordType) :
    Nat → Nat → Parsed → Run Parsed
  | 0, _, parsed => .ok parsed
  | count + 1, offset, parsed => do
    let record ← liftIo (readRecord packet offset)
    let parsed ← parseRecord packet requestedType record parsed
    parseRecords packet requestedType count record.dataEnd parsed

/-- What a turn of the walk along the aliases finds at a name. -/
inductive Turn where
  | done (result : IoResult ParsedDnsResponse)
  | follow (aliasName : Str)

def resolveTurn (addresses : List ParsedDnsAddress) (cnames : List ParsedDnsCname) (ttl : Nat)
    (currentName : Str) (followedCname : Bool) : Turn :=
  let matchedAddresses :=
    (addresses.filter fun record => eqIgnoreCase record.owner currentName).map
      ParsedDnsAddress.address
  if matchedAddresses ≠ [] then .done (.ok (.answer (.addresses ⟨matchedAddresses, ttl⟩)))
  else
    match cnames.filter fun record => eqIgnoreCase record.owner currentName with
    | [] =>
      if followedCname then .done (.ok (.answer (.cname currentName ttl)))
      else if addresses = [] ∧ cnames = [] then .done (.ok .noData)
      else
        .done (.error (invalidDnsResponse
          "DNS response contains no answer for the requested name"))
    | firstAlias :: others =>
      if others.any fun record => !eqIgnoreCase record.aliasName firstAlias.aliasName then
        .done (.error (invalidDnsResponse "DNS response contains conflicting CNAME targets"))
      else .follow firstAlias.aliasName

/-- The loop of the walk, with the depth that is left. -/
def resolveFrom (addresses : List ParsedDnsAddress) (cnames : List ParsedDnsCname) (ttl : Nat) :
    Nat → Str → List Str → Bool → IoResult ParsedDnsResponse
  | 0, currentName, _, followedCname =>
    match resolveTurn addresses cnames ttl currentName followedCname with
    | .done result => result
    | .follow _ => .error (invalidDnsResponse "DNS CNAME chain exceeds the depth limit")
  | left + 1, currentName, visited, followedCname =>
    match resolveTurn addresses cnames ttl currentName followedCname with
    | .done result => result
    | .follow aliasName =>
      if visited.any fun name => eqIgnoreCase name aliasName then
        .error (invalidDnsResponse "DNS CNAME chain contains a cycle")
      else resolveFrom addresses cnames ttl left aliasName (visited ++ [aliasName]) true

def resolveParsedDnsAnswers (expectedName : Str) (addresses : List ParsedDnsAddress)
    (cnames : List ParsedDnsCname) (ttl : Nat) : IoResult ParsedDnsResponse :=
  resolveFrom addresses cnames ttl maxDnsAliasDepth expectedName [expectedName] false

/-- What is read before the records: the question, the offset behind it, the number of answers and
the flags. -/
structure Header where
  question : Question
  offset : Nat
  answerCount : UInt16
  flags : UInt16
deriving DecidableEq

def readHeader (query packet : Bytes) (requestedType : DnsRecordType) : IoResult Header :=
  if packet.length < 12 ∨ query.length < 2 ∨ packet.take 2 ≠ query.take 2 then
    .error (invalidDnsResponse "DNS response header or transaction ID does not match")
  else do
    let flags ← readU16 packet 2
    if flags &&& 0x8000 = 0 then .error (invalidDnsResponse "DNS packet is not a response")
    else
      let expected ← parseDnsQuestion query
      if expected.recordType ≠ requestedType.code ∨ expected.recordClass ≠ 1 then
        .error (invalidDnsResponse "DNS query type or class is invalid")
      else
        let questionCount ← readU16 packet 4
        if questionCount ≠ 1 then
          .error (invalidDnsResponse "DNS response must repeat exactly one question")
        else
          let answerCount ← readU16 packet 6
          let (question, offset) ← readDnsQuestion packet 12
          if question ≠ expected then
            .error (invalidDnsResponse "DNS response question does not match")
          else return { question, offset, answerCount, flags }

def parseDnsResponse (query packet : Bytes) (requestedType : DnsRecordType) :
    Run ParsedDnsResponse := do
  let header ← liftIo (readHeader query packet requestedType)
  if header.flags &&& 0x000f = 3 then return .nameError
  else if header.flags &&& 0x000f ≠ 0 then return .serverFailure (header.flags &&& 0x000f)
  else if header.flags &&& 0x0200 ≠ 0 then return .truncated
  else
    let parsed ← parseRecords packet requestedType header.answerCount.toNat header.offset Parsed.new
    liftIo (resolveParsedDnsAnswers header.question.name parsed.addresses parsed.cnames
      (parsed.responseTtl.getD dnsDefaultTtl))

end Xray.Dns
