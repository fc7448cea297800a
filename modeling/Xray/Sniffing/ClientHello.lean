import Xray.Lib.Text
import Xray.Lib.WireName

/-!
# Server names of ClientHellos (`xray-core-rs/src/sniffing.rs`)

What both the TLS and the QUIC sniffer read of a ClientHello. A `?` on a missing value ends a
function with nothing, and brackets around a place that a slice does not have are a panic. Whether a
text is an IP address is the standard library's to say, and so is the lower case of a character.
-/

namespace Xray.Sniffing

open WireName

inductive Stop where
  | nothing
  | panic
deriving DecidableEq

abbrev Try (α : Type) := Except Stop α

def ask {α : Type} : Option α → Try α
  | some a => .ok a
  | none => .error .nothing

/-- A value that brackets give. -/
def index {α : Type} : Option α → Try α
  | some a => .ok a
  | none => .error .panic

/-- What the standard library decides: which texts are an `IpAddr`, and `char::to_lowercase`. -/
structure Std where
  isIpAddr : Text → Bool
  toLowercase : Char → Text

def u24? (bytes : Bytes) (offset : Nat) : Option Nat :=
  (slice? bytes offset (offset + 3)).map Bytes.ofBe

def stripPort (host : Text) : Text :=
  match Text.rsplitOnce ':' host with
  | none => host
  | some (domain, port) =>
    if ':' ∈ domain ∨ port = [] ∨ ¬port.all Text.isAsciiDigit then host else domain

def normalizeHost (std : Std) (host : Text) : Option Text :=
  let host := (Text.trim host).rdropWhile (· == '.')
  if host = [] ∨ host.any Text.isWhitespace then none
  else if host.head? = some '[' then none
  else
    let hostWithoutPort := stripPort host
    if hostWithoutPort = [] then none
    else if std.isIpAddr hostWithoutPort then none
    else some (Text.toAsciiLowercase hostWithoutPort)

/-! ## The name in the extension -/

/-- The names of the list from `offset` to `listEnd`. -/
def sniNames (std : Std) (extension : Bytes) (listEnd offset : Nat) : Try Text :=
  if offset + 3 ≤ listEnd then do
    let nameType ← ask extension[offset]?
    let nameLen ← ask (u16? extension (offset + 1))
    let nameEnd := offset + 3 + nameLen.toNat
    if nameEnd > listEnd then .error .nothing
    else if nameType = 0 then do
      let bytes ← index (slice? extension (offset + 3) nameEnd)
      let host ← ask (Text.ofUtf8 bytes)
      ask (normalizeHost std host)
    else sniNames std extension listEnd nameEnd
  else .error .nothing
termination_by listEnd - offset
decreasing_by omega

def parseTlsSniExtension (std : Std) (extension : Bytes) : Try Text := do
  let listLen ← ask (u16? extension 0)
  if listLen.toNat + 2 > extension.length then .error .nothing
  else sniNames std extension (2 + listLen.toNat) 2

/-- The extensions from `offset` to `extensionsEnd`. -/
def sniExtensions (std : Std) (body : Bytes) (extensionsEnd offset : Nat) : Try Text :=
  if offset + 4 ≤ extensionsEnd then do
    let extensionType ← ask (u16? body offset)
    let extensionLen ← ask (u16? body (offset + 2))
    let extensionEnd := offset + 4 + extensionLen.toNat
    if extensionEnd > extensionsEnd then .error .nothing
    else if extensionType = 0 then do
      let extension ← index (slice? body (offset + 4) extensionEnd)
      parseTlsSniExtension std extension
    else sniExtensions std body extensionsEnd extensionEnd
  else .error .nothing
termination_by extensionsEnd - offset
decreasing_by omega

def sniffTlsClientHelloBodySni (std : Std) (body : Bytes) : Try Text := do
  let offset := 2 + 32
  let sessionIdLen ← ask body[offset]?
  let offset := offset + (1 + sessionIdLen.toNat)
  let cipherSuitesLen ← ask (u16? body offset)
  let offset := offset + (2 + cipherSuitesLen.toNat)
  let compressionMethodsLen ← ask body[offset]?
  let offset := offset + (1 + compressionMethodsLen.toNat)
  let extensionsLen ← ask (u16? body offset)
  let offset := offset + 2
  let extensionsEnd := offset + extensionsLen.toNat
  if extensionsEnd > body.length then .error .nothing
  else sniExtensions std body extensionsEnd offset

def sniffTlsClientHelloHandshakeSni (std : Std) (handshake : Bytes) : Try Text :=
  if handshake.length < 4 then .error .nothing
  else do
    let kind ← index handshake[0]?
    if kind ≠ 1 then .error .nothing
    else do
      let handshakeLen ← ask (u24? handshake 1)
      let bodyEnd := 4 + handshakeLen
      if bodyEnd > handshake.length then .error .nothing
      else do
        let body ← index (slice? handshake 4 bodyEnd)
        sniffTlsClientHelloBodySni std body

def sniffTlsClientHelloSni (std : Std) (payload : Bytes) : Try Text :=
  if payload.length < 9 then .error .nothing
  else do
    let kind ← index payload[0]?
    if kind ≠ 22 then .error .nothing
    else do
      let recordLen ← ask (u16? payload 3)
      if payload.length < 5 + recordLen.toNat then .error .nothing
      else do
        let handshake ← index (slice? payload 5 (5 + recordLen.toNat))
        sniffTlsClientHelloHandshakeSni std handshake

/-- An `Option` that a function returns: `None` for nothing. -/
def found {α : Type} : Try α → Try (Option α)
  | .ok a => .ok (some a)
  | .error .nothing => .ok none
  | .error .panic => .error .panic

end Xray.Sniffing
