import Xray.Routing.Rules
import Xray.Sniffing.ClientHello

/-!
# The TCP sniffers (`xray-core-rs/src/sniffing.rs`)

The first bytes of a flow are looked at by three sniffers, for HTTP, TLS and BitTorrent. One may name
the flow, or each may rule it out, or more bytes are needed.

A text that the source reads byte by byte is read character by character here: what it looks for is
ASCII, and no other character has such bytes.
-/

namespace Xray.Sniffing

open Ascii (Str text eqIgnoreCase windows splitAll)
open WireName
open Xray.Routing (Engines DomainMatcherSet IpMatcherSet IpAddr Target TargetAddr)

/-! ## Configuration and result -/

inductive SniffingDestination where
  | http
  | tls
  | quic
deriving DecidableEq

structure InboundSniffingConfig (E : Engines) where
  destOverride : List SniffingDestination
  metadataOnly : Bool
  routeOnly : Bool
  domainsExcluded : DomainMatcherSet E
  ipsExcluded : IpMatcherSet

def InboundSniffingConfig.excludes {E : Engines} (config : InboundSniffingConfig E)
    (destinationIp : Option IpAddr) (domain : Str) : Bool :=
  config.domainsExcluded.matches domain || destinationIp.any config.ipsExcluded.matches

inductive SniffedProtocol where
  | http1
  | tls
  | quic
  | bittorrent
  | fakeDns
deriving DecidableEq

structure SniffedTarget where
  routeTarget : Target
  dialTarget : Target
  protocol : SniffingDestination
deriving DecidableEq

structure Sniffed where
  protocol : SniffedProtocol
  target : Option SniffedTarget
deriving DecidableEq

/-- Texts by name, as the attributes of a request are kept. -/
abbrev Attributes := List (Text × Text)

structure TcpSniffed where
  sniffed : Option Sniffed
  attributes : Option Attributes
deriving DecidableEq

inductive TcpSniff where
  | done (sniffed : TcpSniffed)
  | needMore
deriving DecidableEq

def sniffedTarget {E : Engines} (config : InboundSniffingConfig E) (original : Target)
    (domain : Text) (protocol : SniffingDestination) : Option SniffedTarget :=
  let originalIp := match original.addr with
    | .ip ip => some ip
    | .domain _ => none
  if config.excludes originalIp domain.toUtf8 then none
  else
    let routeTarget : Target := ⟨.domain domain.toUtf8, original.port, original.network⟩
    let dialTarget := if config.routeOnly then original else routeTarget
    some ⟨routeTarget, dialTarget, protocol⟩

def overrideTarget {E : Engines} (config : InboundSniffingConfig E) (original : Target)
    (domain : Text) (kind : SniffingDestination) : Option SniffedTarget :=
  if kind ∈ config.destOverride then sniffedTarget config original domain kind else none

/-! ## Texts as Go reads them -/

/-- The character at the front of the bytes, and how many bytes it has. -/
def frontChar (bytes : Bytes) : Option (Char × Nat) :=
  [1, 2, 3, 4].findSome? fun n =>
    match Text.ofUtf8 (bytes.take n) with
    | some [c] => some (c, n)
    | _ => none

/-- The characters of the bytes, with U+FFFD for each byte that none begins with. There are at most
as many as bytes. -/
def lossyChars : Nat → Bytes → Text
  | 0, _ => []
  | _, [] => []
  | left + 1, byte :: bytes =>
    match frontChar (byte :: bytes) with
    | some (c, n) => c :: lossyChars left ((byte :: bytes).drop n)
    | none => '�' :: lossyChars left bytes

def goString (bytes : Bytes) : Text :=
  match Text.ofUtf8 bytes with
  | some chars => chars
  | none => lossyChars bytes.length bytes

def goLowercase (std : Std) (chars : Text) : Text :=
  if chars.all (·.toNat < 128) then Text.toAsciiLowercase chars
  else
    chars.flatMap fun character =>
      let lower := std.toLowercase character
      lower.headD character :: if character ≠ 'İ' then lower.tail else []

/-- The first entry of the name gets the value, or a new one does. -/
def setEntry (name value : Text) : Attributes → Attributes
  | [] => [(name, value)]
  | (known, old) :: rest =>
    if known = name then (known, value) :: rest else (known, old) :: setEntry name value rest

def setAttribute (std : Std) (attributes : Attributes) (name value : Text) : Attributes :=
  setEntry (goLowercase std name) value attributes

/-! ## The HTTP sniffer -/

/-- Digits behind at most one sign that fit an `i64`. -/
def parsesI64 (port : Text) : Bool :=
  let (negative, digits) := match port with
    | '-' :: digits => (true, digits)
    | '+' :: digits => (false, digits)
    | digits => (false, digits)
  let value := digits.foldl (fun value c => value * 10 + (c.toNat - '0'.toNat)) 0
  !digits.isEmpty && digits.all Text.isAsciiDigit &&
    decide (value ≤ if negative then 2 ^ 63 else 2 ^ 63 - 1)

inductive SplitHostPort where
  | missingPort
  | invalid
deriving DecidableEq

/-- What stands before and after the last colon, and where an opening bracket may not follow and a
closing one. -/
def goSplitHostPort (hostport : Text) : Except SplitHostPort (Text × Text) :=
  match Text.rsplitOnce ':' hostport with
  | none => .error .missingPort
  | some (before, port) =>
    if hostport.head? = some '[' then
      match hostport.findIdx? (· == ']') with
      | none => .error .invalid
      | some stop =>
        if stop + 1 = hostport.length then .error .missingPort
        else if stop + 1 ≠ before.length then
          .error (if hostport[stop + 1]? = some ':' then .invalid else .missingPort)
        else if '[' ∈ hostport.drop 1 ∨ ']' ∈ hostport.drop (stop + 1) then .error .invalid
        else .ok ((hostport.take stop).drop 1, port)
    else if ':' ∈ before then .error .invalid
    else if '[' ∈ hostport ∨ ']' ∈ hostport then .error .invalid
    else .ok (before, port)

def xrayAddressIsEmpty (host : Text) : Bool :=
  let address :=
    if host.head? = some '[' ∧ host.drop 1 ≠ [] ∧ host.getLast? = some ']' then
      (host.drop 1).dropLast
    else host
  let alphanumeric (c : Option Char) := c.any Text.isAsciiAlphanumeric
  let address :=
    if alphanumeric address.head? && alphanumeric address.getLast? then address
    else Text.trim address
  address.isEmpty

/-- Nothing if it does not parse, and otherwise the host if it names one. -/
def xrayParseHost (raw : Text) : Option (Option Text) :=
  let named (host : Text) := some (if xrayAddressIsEmpty host then none else some host)
  match goSplitHostPort raw with
  | .ok (host, port) => if port ≠ [] ∧ ¬parsesI64 port then none else named host
  | .error .missingPort => named raw
  | .error .invalid => none

structure HttpRequest where
  host : Option Text
  attributes : Option Attributes
deriving DecidableEq

/-- How the headers were read: to their end, or to a `Host` that does not parse. -/
inductive Headers where
  | all (host : Option Text) (attributes : Option Attributes)
  | badHost (attributes : Option Attributes)
deriving DecidableEq

def readHeaders (std : Std) : List Bytes → Option Text → Option Attributes → Headers
  | [], host, attributes => .all host attributes
  | line :: lines, host, attributes =>
    if line = [] then .all host attributes
    else
      match line.findIdx? (· == 58) with
      | none => readHeaders std lines host attributes
      | some colon =>
        let name := goLowercase std (goString (line.take colon))
        let value := Text.trim (goString (line.drop (colon + 1)))
        let attributes := attributes.map fun attributes => setAttribute std attributes name value
        if name = "host".toList then
          match xrayParseHost value with
          | some named => readHeaders std lines named attributes
          | none => .badHost attributes
        else readHeaders std lines host attributes

/-- The request line gives its method and path if it has three parts. -/
def readRequestLine (std : Std) (requestLine : Bytes) (attributes : Attributes) : Attributes :=
  match splitAll 32 requestLine with
  | [method, path, _] =>
    setAttribute std (setAttribute std attributes ":method".toList (goString method))
      ":path".toList (goString path)
  | _ => attributes

def sniffHttpRequest (std : Std) (payload : Bytes) (recordAttributes : Bool) : HttpRequest :=
  let attributes : Option Attributes := if recordAttributes then some [] else none
  let lines := splitAll 10 payload
  let requestLine := lines.headD []
  match readHeaders std lines.tail none attributes with
  | .badHost attributes => ⟨none, attributes⟩
  | .all host attributes => ⟨host, attributes.map (readRequestLine std requestLine)⟩

def findSubslice (haystack needle : Bytes) : Option Nat :=
  (windows needle.length haystack).findIdx? (· == needle)

def hasHttpHeaderEnd (payload : Bytes) : Bool :=
  (findSubslice payload [13, 10, 13, 10]).isSome || (findSubslice payload [10, 10]).isSome

/-- The methods are tried in their order, and the first one that is longer than the payload leaves it
open. -/
def beginsWithMethod (payload : Bytes) : List Bytes → Option Bool
  | [] => some false
  | method :: methods =>
    if payload.length ≥ method.length ∧ eqIgnoreCase (payload.take method.length) method then
      some true
    else if payload.length < method.length then none
    else beginsWithMethod payload methods

def beginsWithHttpMethod (payload : Bytes) : Option Bool :=
  beginsWithMethod payload
    [text "get", text "post", text "head", text "put", text "delete", text "options",
     text "connect"]

/-! ## The other sniffers -/

inductive TlsRecord where
  | complete
  | incomplete
  | notTls
deriving DecidableEq

def tlsRecord (payload : Bytes) : TlsRecord :=
  if payload.length < 5 then .incomplete
  else if payload[0]? ≠ some 0x16 ∨ payload[1]? ≠ some 3 then .notTls
  else
    let length := Bytes.ofBe ((payload.take 5).drop 3)
    if payload.length < 5 + length then .incomplete else .complete

def isBittorrentHandshake (payload : Bytes) : Bool :=
  payload.length ≥ 20 && payload[0]? == some 19 &&
    (payload.take 20).drop 1 == text "BitTorrent protocol"

/-! ## All of them -/

/-- What the TLS and the BitTorrent sniffer say when the HTTP one has not named the flow. -/
def sniffOthers {E : Engines} (std : Std) (config : InboundSniffingConfig E) (original : Target)
    (payload : Bytes) (complete undecided : Bool) (attributes : Option Attributes) : TcpSniff :=
  let record := tlsRecord payload
  match if record = .complete then (sniffTlsClientHelloSni std payload).toOption else none with
  | some domain =>
    .done ⟨some ⟨.tls, overrideTarget config original domain .tls⟩, attributes⟩
  | none =>
    let undecided := undecided || record = .incomplete
    if payload.length ≥ 20 ∧ isBittorrentHandshake payload then
      .done ⟨some ⟨.bittorrent, none⟩, attributes⟩
    else
      let undecided := undecided || payload.length < 20
      if undecided && !complete then .needMore else .done ⟨none, attributes⟩

def sniffTcpInitialPayload {E : Engines} (std : Std) (config : InboundSniffingConfig E)
    (original : Target) (payload : Bytes) (complete recordAttributes : Bool) : TcpSniff :=
  if config.metadataOnly then .done ⟨none, none⟩
  else
    let undecided := payload.isEmpty
    match beginsWithHttpMethod payload with
    | some true =>
      if !complete && !hasHttpHeaderEnd payload then .needMore
      else
        let request := sniffHttpRequest std payload recordAttributes
        match request.host with
        | some host =>
          let target := (normalizeHost std host).bind fun domain =>
            overrideTarget config original domain .http
          .done ⟨some ⟨.http1, target⟩, request.attributes⟩
        | none =>
          sniffOthers std config original payload complete undecided request.attributes
    | none => sniffOthers std config original payload complete true none
    | some false => sniffOthers std config original payload complete undecided none

end Xray.Sniffing
