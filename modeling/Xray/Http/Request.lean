import Xray.Http.Message

/-!
# Requests that are forwarded (`xray-proxy/src/inbound/{http,http_message}.rs`)

A request with an absolute target is sent on with the path and query of the target, its host
as `Host`, its fields without the hop-by-hop ones, and `Connection: close`. The conversion of
a host to Punycode is a parameter. Whether the host of a destination is an address or a name
is left out.
-/

namespace Xray.Http

open Ascii Numeral HttpHeaders

structure Destination where
  host : Str
  port : Nat
deriving DecidableEq

def parsePort (port : Str) : Except HttpParseError Nat :=
  if !port.all isDecimal then .error .invalidPort
  else if number 10 port < 2 ^ 63 then .ok (number 10 port % 65536)
  else .error .invalidPort

def parseHost (host : Str) (bracketed : Bool) : Except HttpParseError Str :=
  if host = [] ∨ !host.all (fun b => decide (128 ≤ b) || isAlphanumeric b ||
      (text "-._~!$&'()*+,;=<>\"").contains b || bracketed && b == 58) then
    .error .invalidAuthority
  else .ok host

/-- The host of an authority and the text of its port. -/
def splitAuthority (authority : Str) : Except HttpParseError (Str × Option Str) :=
  match authority with
  | 91 :: rest =>
    match splitOnce 93 rest with
    | none => .error .invalidAuthority
    | some (host, []) => .ok (host, none)
    | some (host, 58 :: port) => .ok (host, some port)
    | some (_, _) => .error .invalidAuthority
  | _ =>
    match rsplitOnce 58 authority with
    | some (host, port) => .ok (host, some port)
    | none => .ok (authority, none)

def parseAuthorityTarget (authority : Str) (defaultPort : Nat) :
    Except HttpParseError Destination := do
  let (host, port) ← splitAuthority authority
  let port ← match port with
    | none => .ok defaultPort
    | some port => if port = [] then .ok defaultPort else parsePort port
  let host ← parseHost host (authority.head? == some 91)
  return ⟨host, port⟩

inductive PlainHttpError where
  | noHost
  | malformed
deriving DecidableEq

structure RequestUrl where
  scheme : Str
  host : Option Str
  path : Bytes
  requestUri : Str
deriving DecidableEq

def urlSchemeLoop (target : Str) (index : Nat) : Str → Except PlainHttpError (Str × Str)
  | [] => .ok ([], target)
  | b :: rest =>
    if isUpper b || isLower b then urlSchemeLoop target (index + 1) rest
    else if (isDecimal b || (text "+-.").contains b) && decide (0 < index) then
      urlSchemeLoop target (index + 1) rest
    else if b = 58 then
      if index = 0 then .error .malformed else .ok (target.take index, rest)
    else .ok ([], target)

def urlScheme (target : Str) : Except PlainHttpError (Str × Str) := urlSchemeLoop target 0 target

def percentDecode : Str → Option Bytes
  | [] => some []
  | b :: rest =>
    if b = 37 then
      match rest with
      | high :: low :: rest => do
        let high ← digitValue high
        let low ← digitValue low
        return UInt8.ofNat (high * 16 + low) :: (← percentDecode rest)
      | _ => none
    else (percentDecode rest).map (b :: ·)

def upperHex (d : Nat) : UInt8 := if d < 10 then UInt8.ofNat (48 + d) else UInt8.ofNat (55 + d)

def escapePath (path : Bytes) : Str :=
  path.flatMap fun b =>
    if isAlphanumeric b || (text "-_.~$&+,/:;=@").contains b then [b]
    else [37, upperHex (b.toNat / 16), upperHex (b.toNat % 16)]

def validEncodedPathByte (b : UInt8) : Bool :=
  isAlphanumeric b || (text "-_.~$&+,/:;=@!'()*[]%").contains b

def escapedPath (raw : Str) (decoded : Bytes) : Str :=
  if escapePath decoded = raw ∨ !raw.all validEncodedPathByte then escapePath decoded else raw

namespace RequestUrl

def splitQuery (rest : Str) : Str × Option Str :=
  if rest.getLast? = some 63 ∧ rest.count 63 = 1 then (rest.dropLast, some [])
  else
    match splitOnce 63 rest with
    | some (rest, query) => (rest, some query)
    | none => (rest, none)

/-- The host and the path behind a scheme; user information is not part of the host. -/
def splitHost (scheme rest : Str) : Option Str × Str :=
  if scheme ≠ [] ∧ rest.take 2 = [47, 47] then
    let authority := (rest.drop 2).takeWhile (· != 47)
    let host := ((rsplitOnce 64 authority).map Prod.snd).getD authority
    (if host = [] then none else some host, (rest.drop 2).dropWhile (· != 47))
  else (none, rest)

def uriOf (path : Str) (query : Option Str) : Str :=
  (if path = [] then [47] else path) ++ ((query.map (63 :: ·)).getD [])

def parse (target : Str) : Except PlainHttpError RequestUrl :=
  if target = [] then .error .malformed
  else if target = [42] then .error .noHost
  else do
    let (scheme, rest) ← urlScheme target
    let (rest, query) := splitQuery rest
    if rest.head? ≠ some 47 then
      if scheme = [] then .error .malformed else .error .noHost
    else
      let (host, path) := splitHost scheme rest
      match percentDecode path with
      | none => .error .malformed
      | some decoded =>
        return ⟨lower scheme, host, decoded, uriOf (escapedPath path decoded) query⟩

end RequestUrl

def validHostByte (b : UInt8) : Bool :=
  isAlphanumeric b || (text "!$&'()*+,-.:;=[]_~%").contains b

/-- The host in ASCII; `idna` is `idna::domain_to_ascii`. -/
def asciiHost (idna : Str → Option Str) (host : Str) : Str :=
  if host.all (· < 128) then host
  else
    match rsplitOnce 58 host with
    | some (name, port) =>
      if port.all isDecimal then ((idna name).map (· ++ 58 :: port)).getD []
      else (idna host).getD []
    | none => (idna host).getD []

def hostHeader (idna : Str → Option Str) (host : Str) : Str :=
  let host := asciiHost idna host
  if host.all validHostByte then host else []

structure PlainHttpRequest where
  method : Str
  destination : Destination
  path : Bytes
  requestUri : Str
  host : Str
  headers : HttpHeaders
  body : HttpBody
  keepAlive : Bool

/-- What the client sent as `User-Agent`, or an empty one, which is not sent on. -/
def keepUserAgent (headers : HttpHeaders) : HttpHeaders :=
  if ((headers.get (text "User-Agent")).getD []) = [] then headers.set (text "User-Agent") []
  else headers

def isLengthMethod (method : Str) : Bool :=
  method == text "POST" || method == text "PUT" || method == text "PATCH"

namespace PlainHttpRequest

def new (head : HttpRequestHead) : Except PlainHttpError PlainHttpRequest := do
  let url ← RequestUrl.parse head.target
  match url.host with
  | none => .error .noHost
  | some host =>
    let defaultPort := if eqIgnoreCase url.scheme (text "https") then 443 else 80
    match parseAuthorityTarget host defaultPort with
    | .error _ => .error .malformed
    | .ok destination =>
      return {
        method := head.method
        destination
        path := url.path
        requestUri := url.requestUri
        host
        headers := keepUserAgent (removeHopByHopHeaders head.headers)
        body := head.body
        keepAlive := (head.headers.get (text "Proxy-Connection")).any fun value =>
          eqIgnoreCase (trimAsciiSpace value) (text "keep-alive") }

/-- The line with the length or the coding of the body, if any. -/
def framingLine (request : PlainHttpRequest) : Bytes :=
  let length (n : Nat) := fieldLine (text "Content-Length") (numeral 10 n)
  match request.body with
  | .length n => if 0 < n || isLengthMethod request.method then length n else []
  | .none => if isLengthMethod request.method then length 0 else []
  | .chunked => fieldLine (text "Transfer-Encoding") (text "chunked")
  | .untilClose => []

def userAgentLine (request : PlainHttpRequest) : Bytes :=
  match request.headers.get (text "User-Agent") with
  | none => []
  | some agent =>
    if written agent = [] then []
    else fieldLine (text "User-Agent") (written agent)

/-- The fields that have a line of their own, or none. -/
def notInSubset : List Str :=
  [text "Host", text "User-Agent", text "Content-Length", text "Transfer-Encoding",
    text "Trailer"]

def forwardedHead (idna : Str → Option Str) (request : PlainHttpRequest) : Bytes :=
  request.method ++ [32] ++ request.requestUri ++ text " HTTP/1.1" ++ crlf ++
    fieldLine (text "Host") (hostHeader idna request.host) ++
    request.userAgentLine ++ request.framingLine ++
    (request.headers.set (text "Connection") (text "close")).writeSubset notInSubset ++ crlf

end PlainHttpRequest

end Xray.Http
