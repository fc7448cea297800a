import Xray.Http.Request

/-!
# Responses, bodies and the exchange (`http_message.rs`, `xray-core-rs/src/http_forward.rs`)

A response is read for the method of its request, and its head written anew. Bodies are copied
by their length, chunk by chunk, or to the end of the stream. A copy that fails has written
what it had read, so what is written is given with every outcome.

The upload and the download of an exchange do not wait for each other. The exchange is cut
short, and reports that the client connection cannot be kept, when nothing moves for a while;
that is left out.
-/

namespace Xray.Http

open Ascii Bytes Numeral

/-- What a copy has written, and what is left to read unless it failed. -/
structure Copied where
  output : Bytes
  rest : Option Bytes

def copyBodyLength (input : Bytes) (length : Nat) : Copied :=
  ⟨input.take length, if input.length < length then none else some (input.drop length)⟩

def chunkSize (line : Bytes) : Option Nat :=
  let size := trimBlank ((splitAll 59 line).headD [])
  if size = [] ∨ 16 < size.length ∨ !size.all (isDigit 16) then none
  else some (number 16 size)

def skipTrailer (input : Bytes) : Option Bytes :=
  match _h : readLine input with
  | .error _ => none
  | .ok (line, rest) => if line = [] then some rest else skipTrailer rest
termination_by input.length
decreasing_by exact length_lt_of_readLineLoop _h

def lastChunk : Bytes := text "0" ++ crlf ++ crlf

def readChunkEnd (input : Bytes) : Option Bytes :=
  match readLine input with
  | .error _ => none
  | .ok (line, rest) => if line = [] then some rest else none

lemma length_le_of_copyBodyLength {input rest : Bytes} {length : Nat}
    (h : (copyBodyLength input length).rest = some rest) : rest.length ≤ input.length := by
  rw [copyBodyLength] at h
  dsimp only at h
  split at h
  · cases h
  · cases h
    rw [List.length_drop]
    omega

lemma length_lt_of_readChunkEnd {input rest : Bytes} (h : readChunkEnd input = some rest) :
    rest.length < input.length := by
  rw [readChunkEnd] at h
  split at h
  · cases h
  next line found hline =>
  split at h
  · cases h
    exact length_lt_of_readLineLoop hline
  · cases h

/-- `copy_body_chunked`: each chunk is written as one of its own, and the trailer dropped. -/
def copyBodyChunked (input : Bytes) : Copied :=
  match _h : readLine input with
  | .error _ => ⟨[], none⟩
  | .ok (line, rest) =>
    match chunkSize line with
    | none => ⟨[], none⟩
    | some 0 =>
      match skipTrailer rest with
      | none => ⟨[], none⟩
      | some rest => ⟨lastChunk, some rest⟩
    | some (n + 1) =>
      let front := numeral 16 (n + 1) ++ crlf ++ (copyBodyLength rest (n + 1)).output
      match _hdata : (copyBodyLength rest (n + 1)).rest with
      | none => ⟨front, none⟩
      | some rest =>
        match _hend : readChunkEnd rest with
        | none => ⟨front ++ crlf, none⟩
        | some rest =>
          let more := copyBodyChunked rest
          ⟨front ++ crlf ++ more.output, more.rest⟩
termination_by input.length
decreasing_by
  have := length_lt_of_readLineLoop _h
  have := length_le_of_copyBodyLength _hdata
  have := length_lt_of_readChunkEnd _hend
  omega

structure HttpResponseHead where
  version : Nat × Nat
  statusCode : Nat
  status : Str
  headers : HttpHeaders
  body : HttpBody
  contentLength : Int

/-- `code.parse::<i64>()` as a status code, for the three characters that are let through. -/
def parseStatusCode : Str → Option Nat
  | [a, b, c] =>
    if isDecimal b && isDecimal c then
      if isDecimal a then some (number 10 [a, b, c])
      else if a = 43 then some (number 10 [b, c])
      else if a = 45 ∧ number 10 [b, c] = 0 then some 0
      else none
    else none
  | _ => none

def parseStatusLine (line : Bytes) : Except HttpParseError ((Nat × Nat) × Str × Nat) :=
  if !isUtf8 line then .error .malformed
  else
    match splitOnce 32 line with
    | none => .error .malformed
    | some (version, status) =>
      let status := status.dropWhile (· == 32)
      match parseStatusCode ((splitAll 32 status).headD []), httpVersion version with
      | some code, some version => .ok (version, status, code)
      | _, _ => .error .malformed

/-- The length of a response: for `HEAD`, the one it declares. -/
def responseLength (headers : HttpHeaders) (requestMethod : Str) (length : Int) :
    Except Unit Int :=
  if requestMethod = text "HEAD" then
    match headers.get (text "Content-Length") with
    | some value => do
      let length ← parseContentLength (trimAsciiSpace value)
      return length
    | none => .ok (-1)
  else .ok length

def dropLineEnd (line : Bytes) : Bytes :=
  dropCr (if line.getLast? = some 10 then line.dropLast else line)

def readHttpResponseHead (input first : Bytes) (requestMethod : Str) :
    Except HttpParseError (HttpResponseHead × Bytes) := do
  let (version, status, statusCode) ← parseStatusLine (dropLineEnd first)
  let (block, input) ← readHeaderBlock false input
  let headers := fixPragmaCacheControl block.headers
  let (chunked, headers) ← orMalformed (transferIsChunked headers version)
  let (length, headers) ←
    orMalformed (fixLength headers true statusCode requestMethod chunked)
  let contentLength ← orMalformed (responseLength headers requestMethod length)
  let body :=
    if chunked && requestMethod != text "HEAD" && bodyAllowed statusCode then .chunked
    else if length = 0 then .none
    else if length = -1 then .untilClose
    else .length length.natAbs
  return (⟨version, statusCode, status, headers, body, contentLength⟩, input)

def hasCloseToken (values : List Bytes) : Bool :=
  values.any fun value => (splitAll 44 value).any fun token =>
    eqIgnoreCase (trimBlank token) (text "close")

def threeDigits (n : Nat) : Str :=
  List.replicate (3 - (numeral 10 n).length) 48 ++ numeral 10 n

namespace HttpResponseHead

def keepsAlive (head : HttpResponseHead) : Bool := 0 ≤ head.contentLength

/-- The fields for the client: those of the connection are set anew, or gone. -/
def clientFields (head : HttpResponseHead) : HttpHeaders :=
  let headers := removeHopByHopHeaders head.headers
  if head.keepsAlive then
    ((headers.set (text "Proxy-Connection") (text "keep-alive")).set (text "Connection")
      (text "keep-alive")).set (text "Keep-Alive") (text "timeout=60")
  else headers

def statusText (head : HttpResponseHead) : Str :=
  let code := numeral 10 head.statusCode ++ [32]
  if code.isPrefixOf head.status then head.status.drop code.length else head.status

def statusLine (head : HttpResponseHead) : Bytes :=
  text "HTTP/" ++ numeral 10 head.version.1 ++ [46] ++ numeral 10 head.version.2 ++ [32] ++
    threeDigits head.statusCode ++ [32] ++ head.statusText ++ crlf

def sendsLength (head : HttpResponseHead) (requestMethod : Str) : Bool :=
  head.body != .chunked &&
    (decide (0 < head.contentLength) || head.contentLength == 0 && isLengthMethod requestMethod)

/-- The line with the length or the coding, in front of the fields. -/
def framingLine (head : HttpResponseHead) (requestMethod : Str) : Bytes :=
  if head.sendsLength requestMethod then
    HttpHeaders.fieldLine (text "Content-Length") (numeral 10 head.contentLength.natAbs)
  else if head.body == .chunked then
    HttpHeaders.fieldLine (text "Transfer-Encoding") (text "chunked")
  else []

def zeroLengthLine (head : HttpResponseHead) (requestMethod : Str) : Bytes :=
  if head.contentLength == 0 && head.body != .chunked && !head.sendsLength requestMethod &&
      bodyAllowed head.statusCode then
    HttpHeaders.fieldLine (text "Content-Length") (text "0")
  else []

def closeLine (head : HttpResponseHead) : Bytes :=
  if !head.keepsAlive && !hasCloseToken (head.clientFields.values (text "Connection")) then
    HttpHeaders.fieldLine (text "Connection") (text "close")
  else []

def notInSubset : List Str := [text "Content-Length", text "Transfer-Encoding", text "Trailer"]

def clientHead (head : HttpResponseHead) (requestMethod : Str) : Bytes :=
  head.statusLine ++ head.closeLine ++ head.framingLine requestMethod ++
    head.clientFields.writeSubset notInSubset ++ head.zeroLengthLine requestMethod ++ crlf

end HttpResponseHead

structure HttpResponse where
  informational : Option Bytes
  head : HttpResponseHead

def readRawLine (input : Bytes) : Except HttpParseError (Bytes × Bytes) :=
  if input = [] then .error .io
  else
    match splitOnce 10 (input.take maxLineLen) with
    | none => .error .lineTooLong
    | some (line, _) => .ok (line ++ [10], input.drop (line.length + 1))

lemma length_lt_of_readRawLine {input line rest : Bytes}
    (h : readRawLine input = .ok (line, rest)) : rest.length < input.length := by
  rw [readRawLine] at h
  split at h
  · cases h
  next hsome =>
  have := List.length_pos_iff.mpr hsome
  split at h
  · cases h
  · cases h
    rw [List.length_drop]
    omega

/-- An informational head up to its blank line, with the part that was read. -/
def readInformational (raw input : Bytes) : Except HttpParseError (Bytes × Bytes) :=
  if (crlf ++ crlf).isSuffixOf raw then .ok (raw, input)
  else if maxInformationalHead < raw.length then .error .lineTooLong
  else
    match _h : readRawLine input with
    | .error e => .error e
    | .ok (line, rest) => readInformational (raw ++ line) rest
termination_by input.length
decreasing_by exact length_lt_of_readRawLine _h

/-- The status behind the first space starts with `1`. -/
def isInformational (first : Bytes) : Bool :=
  ((splitOnce 32 first).bind fun (_, status) => status.head?) == some 49

def readHttpResponse (input : Bytes) (requestMethod : Str) :
    Except HttpParseError (HttpResponse × Bytes) := do
  let (first, input) ← readRawLine input
  if isInformational first then
    let (raw, input) ← readInformational first input
    let (first, input) ← readRawLine input
    let (head, input) ← readHttpResponseHead input first requestMethod
    return (⟨some raw, head⟩, input)
  else
    let (head, input) ← readHttpResponseHead input first requestMethod
    return (⟨none, head⟩, input)

def serviceUnavailable : Bytes :=
  text "HTTP/1.1 503 Service Unavailable" ++ crlf ++ text "Connection: close" ++ crlf ++
    text "Proxy-Connection: close" ++ crlf ++ text "Content-Length: 0" ++ crlf ++ crlf

def copyBody (body : HttpBody) (input : Bytes) : Copied :=
  match body with
  | .length n => copyBodyLength input n
  | .chunked => copyBodyChunked input
  | .untilClose => ⟨input, some []⟩
  | .none => ⟨[], some input⟩

/-- The upload: what goes to the upstream, and what is left of the client's bytes. -/
def upload (request : PlainHttpRequest) (forwarded client : Bytes) : Copied :=
  let body : Copied := match request.body with
    | .untilClose => ⟨[], some client⟩
    | body => copyBody body client
  ⟨forwarded ++ body.output, body.rest⟩

/-- The download: what goes to the client, what is left of the upstream's bytes, and whether
the client connection can be kept. -/
def download (requestMethod : Str) (upstream : Bytes) : Copied × Bool :=
  match readHttpResponse upstream requestMethod with
  | .error _ => (⟨serviceUnavailable, none⟩, false)
  | .ok (response, upstream) =>
    let body := copyBody response.head.body upstream
    (⟨response.informational.getD [] ++ response.head.clientHead requestMethod ++ body.output,
      body.rest⟩, body.rest.isSome && response.head.keepsAlive)

/-- What goes each way, what is left to read of each side, and whether the client connection
can take another request. -/
structure Exchanged where
  toUpstream : Copied
  toClient : Copied
  keeps : Bool

def exchange (request : PlainHttpRequest) (forwarded client upstream : Bytes) : Exchanged :=
  let uploaded := upload request forwarded client
  let (downloaded, keeps) := download request.method upstream
  ⟨uploaded, downloaded, uploaded.rest.isSome && keeps⟩

end Xray.Http
