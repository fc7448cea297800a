import Xray.Http.Headers
import Xray.Lib.Fallible
import Xray.Lib.Numeral

/-!
# HTTP/1 messages (`xray-proxy/src/inbound/http_message.rs`)

Heads as Go reads them: lines that end in `\n` or `\r\n`, a block of header fields, and how
the body is delimited. A reader is the bytes that are still to come; each of these functions
reads a byte or a line at a time, so how they arrive makes no difference.

That a name is UTF-8 is not checked here: it holds ASCII bytes only.
-/

namespace Xray.Http

open Ascii Bytes Numeral

def maxLineLen : Nat := 8192

def maxInformationalHead : Nat := 1024

inductive HttpParseError where
  | notConnect
  | lineTooLong
  | malformed
  | invalidAuthority
  | invalidPort
  | io
deriving DecidableEq

def dropCr (line : Bytes) : Bytes := if line.getLast? = some 13 then line.dropLast else line

/-- The loop of `read_line`, with the part of the line that was read. -/
def readLineLoop (line : Bytes) : Bytes → Except HttpParseError (Bytes × Bytes)
  | [] => if maxLineLen ≤ line.length then .error .lineTooLong else .error .io
  | b :: input =>
    if maxLineLen ≤ line.length then .error .lineTooLong
    else if b = 10 then .ok (dropCr line, input)
    else readLineLoop (line ++ [b]) input

/-- `read_line`: a line without its end, and what is behind it. -/
def readLine (input : Bytes) : Except HttpParseError (Bytes × Bytes) := readLineLoop [] input

lemma length_lt_of_readLineLoop {input rest out : Bytes} :
    ∀ {line : Bytes}, readLineLoop line input = .ok (out, rest) → rest.length < input.length := by
  induction input with
  | nil =>
    intro line h
    rw [readLineLoop] at h
    split at h <;> cases h
  | cons b input ih =>
    intro line h
    rw [readLineLoop] at h
    split at h
    · cases h
    · split at h
      · cases h
        exact Nat.lt_succ_self _
      · exact Nat.lt_succ_of_lt (ih h)

structure HeaderBlock where
  headers : HttpHeaders := {}
  proxyAuthorization : Option Bytes := none

/-- What a continuation line extends. -/
inductive Last where
  | nothing
  | field (name : Str)
  | proxyAuthorization
  | ignored

namespace HeaderBlock

def continueLast (block : HeaderBlock) (last : Last) (line : Bytes) :
    Except HttpParseError HeaderBlock :=
  let more := 32 :: trimBlank line
  match last with
  | .nothing => .error .malformed
  | .field name => .ok { block with headers := block.headers.extendLast name more }
  | .proxyAuthorization =>
    .ok { block with proxyAuthorization := block.proxyAuthorization.map (· ++ more) }
  | .ignored => .ok block

def takeField (block : HeaderBlock) (keepAuthorization : Bool) (line : Bytes) :
    Except HttpParseError (HeaderBlock × Last) :=
  match splitOnce 58 (trimBlank line) with
  | none => .error .malformed
  | some (name, value) =>
    if name = [] ∨ !name.all (fun b => isTokenByte b || b == 32) then .error .malformed
    else if keepAuthorization ∧ canonicalHeaderKey name = text "Proxy-Authorization" then
      if block.proxyAuthorization.isNone then
        .ok ({ block with proxyAuthorization := some (trimBlank value) }, .proxyAuthorization)
      else .ok (block, .ignored)
    else
      .ok ({ block with headers := block.headers.add (canonicalHeaderKey name) (trimBlank value) },
        .field (canonicalHeaderKey name))

def takeLine (block : HeaderBlock) (keepAuthorization : Bool) (last : Last) (line : Bytes) :
    Except HttpParseError (HeaderBlock × Last) :=
  if (line.head?.any isBlank) then do
    return (← block.continueLast last line, last)
  else block.takeField keepAuthorization line

end HeaderBlock

def readHeaderLines (keepAuthorization : Bool) (block : HeaderBlock) (last : Last)
    (input : Bytes) : Except HttpParseError (HeaderBlock × Bytes) :=
  match _h : readLine input with
  | .error e => .error e
  | .ok (line, rest) =>
    if line = [] then .ok (block, rest)
    else do
      let (block, last) ← block.takeLine keepAuthorization last line
      readHeaderLines keepAuthorization block last rest
termination_by input.length
decreasing_by exact length_lt_of_readLineLoop _h

def readHeaderBlock (keepAuthorization : Bool) (input : Bytes) :
    Except HttpParseError (HeaderBlock × Bytes) :=
  readHeaderLines keepAuthorization {} .nothing input

/-! ## Versions, codings and lengths -/

/-- `http_version`: `HTTP/`, a digit, a dot and a digit. -/
def httpVersion : Str → Option (Nat × Nat)
  | [72, 84, 84, 80, 47, major, 46, minor] =>
    if isDecimal major && isDecimal minor then some (major.toNat - 48, minor.toNat - 48)
    else none
  | _ => none

inductive HttpBody where
  | none
  | length (length : Nat)
  | chunked
  | untilClose
deriving DecidableEq

def fixPragmaCacheControl (headers : HttpHeaders) : HttpHeaders :=
  if headers.get (text "Pragma") = some (text "no-cache") ∧
      !headers.contains (text "Cache-Control") then
    headers.set (text "Cache-Control") (text "no-cache")
  else headers

def isChunkedCoding : List Bytes → Bool
  | [value] => eqIgnoreCase value (text "chunked")
  | _ => false

/-- `transfer_is_chunked`, with the headers it leaves. -/
def transferIsChunked (headers : HttpHeaders) (version : Nat × Nat) :
    Except Unit (Bool × HttpHeaders) :=
  let values := headers.values (text "Transfer-Encoding")
  if values = [] then .ok (false, headers)
  else
    let headers := headers.remove (text "Transfer-Encoding")
    if version.1 < 1 ∨ version.1 = 1 ∧ version.2 < 1 then .ok (false, headers)
    else if isChunkedCoding values then .ok (true, headers)
    else .error ()

/-- Decimal digits for a number of 63 bits. -/
def parseContentLength (value : Bytes) : Except Unit Nat :=
  if value = [] ∨ !value.all isDecimal then .error ()
  else if number 10 value < 2 ^ 63 then .ok (number 10 value)
  else .error ()

/-- `agreed_content_length`, with the headers it leaves. -/
def agreedContentLength (headers : HttpHeaders) : Except Unit (Option Bytes × HttpHeaders) :=
  match headers.values (text "Content-Length") with
  | [] => .ok (none, headers)
  | first :: others =>
    let first := trimAsciiSpace first
    if others.any fun value => trimAsciiSpace value != first then .error ()
    else
      .ok (some first,
        if others = [] then headers else headers.set (text "Content-Length") first)

def bodyAllowed (status : Nat) : Bool :=
  !(100 ≤ status && status ≤ 199 || status == 204 || status == 304)

/-- `fix_length`, with the headers it leaves. -/
def fixLength (headers : HttpHeaders) (response : Bool) (status : Nat) (requestMethod : Str)
    (chunked : Bool) : Except Unit (Int × HttpHeaders) := do
  let (declared, headers) ← agreedContentLength headers
  let declared ← declared.mapM parseContentLength
  if response && requestMethod == text "HEAD" || !bodyAllowed status then return (0, headers)
  else if chunked then return (-1, headers.remove (text "Content-Length"))
  else
    match declared with
    | some length => return (length, headers)
    | none =>
      return (if response then -1 else 0, headers.remove (text "Content-Length"))

structure HttpRequestHead where
  method : Str
  target : Str
  version : Nat × Nat
  /-- Every field but `Proxy-Authorization` and `Host`. -/
  headers : HttpHeaders
  proxyAuthorization : Option Bytes
  body : HttpBody

structure RequestLine where
  method : Str
  target : Str
  version : Nat × Nat

def parseRequestLine (line : Bytes) : Except HttpParseError RequestLine :=
  if !isUtf8 line then .error .malformed
  else
    match splitOnce 32 line with
    | none => .error .malformed
    | some (method, rest) =>
      match splitOnce 32 rest with
      | none => .error .malformed
      | some (target, version) =>
        match httpVersion version with
        | none => .error .malformed
        | some version =>
          if method = [] ∨ !method.all isTokenByte ∨
              target.any (fun b => decide (b < 32) || b == 127) then .error .malformed
          else .ok ⟨method, target, version⟩

/-- A failure to delimit the body, as an error of the parser. -/
def orMalformed {α : Type} : Except Unit α → Except HttpParseError α
  | .ok a => .ok a
  | .error () => .error .malformed

def readHttpRequestHead (input : Bytes) : Except HttpParseError (HttpRequestHead × Bytes) := do
  let (line, input) ← readLine input
  let ⟨method, target, version⟩ ← parseRequestLine line
  let (block, input) ← readHeaderBlock true input
  if (block.headers.values (text "Host")).length > 1 then .error .malformed
  else
    let headers := fixPragmaCacheControl block.headers
    let (chunked, headers) ← orMalformed (transferIsChunked headers version)
    -- A request's body is read as that of a response to a GET with status 200.
    let (length, headers) ← orMalformed (fixLength headers false 200 method chunked)
    let body := if chunked then .chunked
      else if length = 0 then .none
      else .length length.natAbs
    return (⟨method, target, version, headers.remove (text "Host"), block.proxyAuthorization, body⟩,
      input)

def hopByHop : List Str :=
  [text "Proxy-Connection", text "Proxy-Authenticate", text "Proxy-Authorization", text "TE",
    text "Trailers", text "Transfer-Encoding", text "Upgrade"]

/-- `remove_hop_by_hop_headers`, with the fields that `Connection` names. -/
def removeHopByHopHeaders (headers : HttpHeaders) : HttpHeaders :=
  let headers := hopByHop.foldl HttpHeaders.remove headers
  let connection := headers.get (text "Connection")
  let headers := headers.remove (text "Connection")
  let named := (connection.map (splitAll 44)).getD []
  named.foldl (fun headers name =>
    if isUtf8 (trimAsciiSpace name) then headers.remove (trimAsciiSpace name) else headers) headers

end Xray.Http
