import Xray.Lib.Carrier

/-!
# TLS that Vision can read past (`xray-transport/src/penetrating_tls.rs`)

Vision leaves TLS in the middle of a connection: after the record that tells so, the peer
sends raw bytes on the same carrier. `CapturedStream` stands between the TLS session and
the carrier and stops each read at the end of a record, so that the session never holds a
byte that was meant to be read raw. `PenetratingTlsStream` makes the switch.

The TLS session is not of this repository. It is a `Cipher`, which opens records in order,
and the machine around it: input is kept until a record is complete, plaintext until it is
read, and input is asked for only while there is no plaintext. When the session asks, for how
much, and how much of a write it takes are the cipher's choice.
-/

namespace Xray.Transport

open Bytes

/-- A carrier with what it has in store for a reader, how much each write takes, and what it
has sent. A write that has to wait is `none`; behind the last all is taken. -/
structure Duplex where
  incoming : Carrier
  room : List (Option Nat) := []
  sent : Bytes := []

namespace Duplex

def pollRead (io : Duplex) (size : Nat) : Poll Bytes × Duplex :=
  ((io.incoming.pollRead size).1, { io with incoming := (io.incoming.pollRead size).2 })

def pollWrite (io : Duplex) (input : Bytes) : Poll Nat × Duplex :=
  match io.room with
  | [] => (.ready input.length, { io with sent := io.sent ++ input })
  | none :: room => (.pending, { io with room })
  | some n :: room =>
    (.ready (min n input.length), { io with room, sent := io.sent ++ input.take n })

end Duplex

/-- A record, which is a type, a version, a length and that much payload. -/
structure TlsRecord where
  contentType : UInt8
  versionMajor : UInt8
  versionMinor : UInt8
  payload : Bytes
  fits : payload.length < 65536

def TlsRecord.header (record : TlsRecord) : Bytes :=
  record.contentType :: record.versionMajor :: record.versionMinor ::
    toBe 2 record.payload.length

def TlsRecord.bytes (record : TlsRecord) : Bytes := record.header ++ record.payload

lemma ofBe_pair_lt (high low : UInt8) : ofBe [high, low] < 65536 := by
  have h := ofBe_lt [high, low]
  rwa [List.length_cons, List.length_singleton] at h

/-- The first record of the input and what is behind it, once all of it is there. -/
def deframe : Bytes → Option (TlsRecord × Bytes)
  | contentType :: versionMajor :: versionMinor :: high :: low :: rest =>
    if ofBe [high, low] ≤ rest.length then
      some (⟨contentType, versionMajor, versionMinor, rest.take (ofBe [high, low]),
        Nat.lt_of_le_of_lt (List.length_take_le _ _) (ofBe_pair_lt high low)⟩,
        rest.drop (ofBe [high, low]))
    else none
  | _ => none

lemma length_lt_of_deframe {input rest : Bytes} {record : TlsRecord}
    (h : deframe input = some (record, rest)) : rest.length < input.length := by
  rw [deframe.eq_def] at h
  split at h
  · split at h
    · cases h
      simp only [List.length_drop, List.length_cons]
      omega
    · cases h
  · cases h

structure Cipher where
  Error : Type
  Reading : Type
  Writing : Type
  /-- The plaintext of the next record. -/
  decrypt : Reading → TlsRecord → Except Error (Reading × Bytes)
  /-- Whether a session without plaintext asks for input, given what it keeps. -/
  asks : Reading → Bytes → Bool
  /-- For how much it asks. -/
  room : Reading → Bytes → { n : Nat // 0 < n }
  /-- The peer has closed the session. -/
  closed : Reading → Bool
  encrypt : Writing → Bytes → Writing × List TlsRecord
  /-- How much of a write is taken while so many bytes wait to be sent. -/
  takes : Writing → Nat → Nat

/-- The records of what a write took; nothing makes none. -/
def Cipher.seal (c : Cipher) (writing : c.Writing) (taken : Bytes) : c.Writing × List TlsRecord :=
  if taken = [] then (writing, []) else c.encrypt writing taken

structure Session (c : Cipher) where
  reading : c.Reading
  deframer : Bytes := []
  plaintext : Bytes := []
  seenEof : Bool := false
  writing : c.Writing
  sendable : Bytes := []

inductive ReaderError where
  | wouldBlock
  | unexpectedEof
deriving DecidableEq

/-- Opens the records that are complete: the plaintext, and what is kept. -/
def openRecords (c : Cipher) (reading : c.Reading) (input : Bytes) :
    Except c.Error (c.Reading × Bytes × Bytes) :=
  match _h : deframe input with
  | none => .ok (reading, input, [])
  | some (record, rest) => do
    let (reading, plain) ← c.decrypt reading record
    let (reading, rest, plains) ← openRecords c reading rest
    return (reading, rest, plain ++ plains)
termination_by input.length
decreasing_by exact length_lt_of_deframe _h

namespace Session

variable {c : Cipher}

def wantsRead (session : Session c) : Bool :=
  session.plaintext.isEmpty && c.asks session.reading session.deframer

/-- `read_tls` and `process_new_packets`. -/
def readTls (session : Session c) (input : Bytes) : Except c.Error (Session c) := do
  let (reading, deframer, plain) ← openRecords c session.reading (session.deframer ++ input)
  return { session with reading, deframer, plaintext := session.plaintext ++ plain }

/-- `reader().read`. -/
def read (session : Session c) (size : Nat) : Except ReaderError Bytes × Session c :=
  if session.plaintext ≠ [] then
    (.ok (session.plaintext.take size), { session with plaintext := session.plaintext.drop size })
  else if c.closed session.reading then (.ok [], session)
  else if session.seenEof then (.error .unexpectedEof, session)
  else (.error .wouldBlock, session)

/-- `writer().write`: how much is taken. -/
def write (session : Session c) (input : Bytes) : Nat × Session c :=
  let n := min (c.takes session.writing session.sendable.length) input.length
  let (writing, records) := c.seal session.writing (input.take n)
  (n, { session with
    writing, sendable := session.sendable ++ records.flatMap TlsRecord.bytes })

end Session

/-! ## The captured stream -/

def tlsReadChunkLimit : Nat := 8 * 1024

def headerSize : Nat := 5

/-- Where in a record the reads are; `header` is the part of the header that was seen. -/
structure TlsRecordReadLimiter where
  header : Bytes := []
  payloadRemaining : Nat := 0
deriving DecidableEq

namespace TlsRecordReadLimiter

def nextLimit (limiter : TlsRecordReadLimiter) (requested : Nat) : Nat :=
  if limiter.header.length < headerSize then min requested (headerSize - limiter.header.length)
  else min requested limiter.payloadRemaining

def observe (limiter : TlsRecordReadLimiter) (bytes : Bytes) : TlsRecordReadLimiter :=
  if bytes = [] then limiter
  else if limiter.header.length < headerSize then
    let header := limiter.header ++ bytes.take (headerSize - limiter.header.length)
    if header.length = headerSize then
      let payloadRemaining := ofBe (header.drop 3)
      if payloadRemaining = 0 then { header := [], payloadRemaining }
      else { header, payloadRemaining }
    else { limiter with header }
  else
    let payloadRemaining := limiter.payloadRemaining - bytes.length
    if payloadRemaining = 0 then { header := [], payloadRemaining }
    else { limiter with payloadRemaining }

end TlsRecordReadLimiter

/-- What the verifier has yet to take of the first bytes of the peer; `none` when it has. -/
abbrev ServerReadLog := Option Bytes

structure CapturedStream where
  stream : Duplex
  serverReadLog : Option ServerReadLog := none
  tlsReadLimiter : TlsRecordReadLimiter := {}
  limiterReleased : Bool := false

namespace CapturedStream

def releaseRecordAlignment (captured : CapturedStream) : CapturedStream :=
  { captured with limiterReleased := true, serverReadLog := none }

/-- The log after a read; one the verifier has drained is dropped. -/
def logged (log : Option ServerReadLog) (filled : Bytes) : Option ServerReadLog :=
  if filled = [] then log else log.bind fun log => log.map fun log => some (log ++ filled)

def pollRead (captured : CapturedStream) (size : Nat) : Poll Bytes × CapturedStream :=
  if size = 0 then (.ready [], captured)
  else if captured.limiterReleased then
    let (poll, stream) := captured.stream.pollRead size
    (poll, { captured with stream })
  else
    match captured.stream.pollRead
        (min (captured.tlsReadLimiter.nextLimit size) tlsReadChunkLimit) with
    | (.ready filled, stream) =>
      (.ready filled, { captured with
        stream
        serverReadLog := logged captured.serverReadLog filled
        tlsReadLimiter := captured.tlsReadLimiter.observe filled })
    | (.pending, stream) => (.pending, { captured with stream })

def pollWrite (captured : CapturedStream) (input : Bytes) : Poll Nat × CapturedStream :=
  let (poll, stream) := captured.stream.pollWrite input
  (poll, { captured with stream })

/-- The bytes the carrier has yet to bring. -/
def toRead (captured : CapturedStream) : Bytes := captured.stream.incoming.bytes

lemma toRead_lt_of_pollRead {captured captured' : CapturedStream} {size : Nat} {b : UInt8}
    {bs : Bytes} (h : captured.pollRead size = (.ready (b :: bs), captured')) :
    captured'.toRead.length < captured.toRead.length := by
  have hread : ∃ n, captured.stream.incoming.pollRead n =
      (.ready (b :: bs), captured'.stream.incoming) := by
    rw [pollRead, Duplex.pollRead, Duplex.pollRead] at h
    split at h
    · cases h
    split at h
    · simp only [Prod.mk.injEq] at h
      exact ⟨size, Prod.ext h.1 (by rw [← h.2])⟩
    split at h
    · next filled stream hpoll =>
      simp only [Prod.mk.injEq, Poll.ready.injEq] at hpoll h
      refine ⟨_, Prod.ext (hpoll.1.trans (congrArg _ h.1)) ?_⟩
      rw [← h.2, ← hpoll.2]
    · cases h
  obtain ⟨n, hread⟩ := hread
  have hn : 0 < n := by
    have := Carrier.length_pollRead_le hread
    simp only [List.length_cons] at this
    omega
  have hbytes := congrArg List.length (Carrier.pollRead_ready hn hread).1
  simp only [List.length_append, List.length_cons] at hbytes
  rw [toRead, toRead]
  omega

end CapturedStream

/-! ## The TLS stream -/

inductive IoError (c : Cipher) where
  | tls (error : c.Error)
  | unexpectedEof
  | other (message : String)

/-- A session over its carrier. `handed` is the input the session was given, piece by piece:
a history, which nothing reads. -/
structure TlsStream (c : Cipher) where
  session : Session c
  io : CapturedStream
  handed : List Bytes := []

namespace TlsStream

variable {c : Cipher}

/-- Gives the session input for as long as it asks and there is some. -/
def readInput (stream : TlsStream c) : Except c.Error Unit × TlsStream c :=
  if stream.session.wantsRead then
    match _h : stream.io.pollRead (c.room stream.session.reading stream.session.deframer) with
    | (.pending, io) => (.ok (), { stream with io })
    | (.ready [], io) =>
      (.ok (), { stream with io, session := { stream.session with seenEof := true } })
    | (.ready (b :: bs), io) =>
      let handed := stream.handed ++ [b :: bs]
      match stream.session.readTls (b :: bs) with
      | .error e => (.error e, { stream with io, handed })
      | .ok session => readInput { session, io, handed }
  else (.ok (), stream)
termination_by stream.io.toRead.length
decreasing_by exact CapturedStream.toRead_lt_of_pollRead _h

def pollRead (stream : TlsStream c) (size : Nat) :
    Poll (Except (IoError c) Bytes) × TlsStream c :=
  match stream.readInput with
  | (.error e, stream) => (.ready (.error (.tls e)), stream)
  | (.ok (), stream) =>
    match stream.session.read size with
    | (.ok bytes, session) => (.ready (.ok bytes), { stream with session })
    | (.error .unexpectedEof, session) => (.ready (.error .unexpectedEof), { stream with session })
    | (.error .wouldBlock, session) => (.pending, { stream with session })

/-- Sends what the session has to send; whether the carrier has to be waited for. -/
def flush (stream : TlsStream c) : Bool × TlsStream c :=
  if _hsome : stream.session.sendable = [] then (false, stream)
  else
    match stream.io.pollWrite stream.session.sendable with
    | (.pending, io) => (true, { stream with io })
    | (.ready 0, io) => (true, { stream with io })
    | (.ready (n + 1), io) =>
      flush { stream with
        io
        session := { stream.session with sendable := stream.session.sendable.drop (n + 1) } }
termination_by stream.session.sendable.length
decreasing_by
  have := List.length_pos_iff.mpr _hsome
  simp only [List.length_drop]
  omega

def pollWrite (stream : TlsStream c) (input : Bytes) : Poll Nat × TlsStream c :=
  let (n, session) := stream.session.write input
  let (blocked, stream) := flush { stream with session }
  if n = 0 ∧ blocked then (.pending, stream) else (.ready n, stream)

end TlsStream

/-! ## The stream that can leave TLS -/

inductive PenetratingTlsStream (c : Cipher) where
  | tls (stream : Option (TlsStream c))
  | readDirect (stream : TlsStream c) (pendingPlaintext : Bytes)

def scratchSize : Nat := 8192

/-- The loop of `ensure_read_direct`, which takes the plaintext out of the session. -/
def drainPlaintext {c : Cipher} (session : Session c) (pendingPlaintext : Bytes) :
    Except ReaderError (Bytes × Session c) :=
  match _h : session.read scratchSize with
  | (.ok [], session) => .ok (pendingPlaintext, session)
  | (.ok (b :: bs), session) => drainPlaintext session (pendingPlaintext ++ b :: bs)
  | (.error .wouldBlock, session) => .ok (pendingPlaintext, session)
  | (.error .unexpectedEof, _) => .error .unexpectedEof
termination_by session.plaintext.length
decreasing_by
  rw [Session.read] at _h
  split at _h
  · next hsome =>
    have := List.length_pos_iff.mpr hsome
    simp only [Prod.mk.injEq] at _h
    rw [← _h.2]
    simp only [List.length_drop, scratchSize]
    omega
  · split at _h
    · cases _h
    · split at _h <;> cases _h

namespace PenetratingTlsStream

variable {c : Cipher}

def new (stream : TlsStream c) : PenetratingTlsStream c := .tls (some stream)

def alreadyTaken : IoError c := .other "TLS stream was already taken"

/-- `ensure_read_direct`: the parts of the new state. After an error the session is gone,
and the state is `.tls none`. -/
def ensureReadDirect : PenetratingTlsStream c → Except (IoError c) (TlsStream c × Bytes)
  | .readDirect stream pendingPlaintext => .ok (stream, pendingPlaintext)
  | .tls none => .error alreadyTaken
  | .tls (some stream) =>
    match drainPlaintext stream.session [] with
    | .error _ => .error .unexpectedEof
    | .ok (pendingPlaintext, session) =>
      .ok ({ stream with session, io := stream.io.releaseRecordAlignment }, pendingPlaintext)

/-- `poll_read_direct`, which is `poll_read_direct_mode`. -/
def pollReadDirect (stream : PenetratingTlsStream c) (size : Nat) :
    Poll (Except (IoError c) Bytes) × PenetratingTlsStream c :=
  match stream.ensureReadDirect with
  | .error e => (.ready (.error e), .tls none)
  | .ok (stream, pendingPlaintext) =>
    if pendingPlaintext ≠ [] then
      (.ready (.ok (pendingPlaintext.take size)), .readDirect stream (pendingPlaintext.drop size))
    else
      match stream.io.pollRead size with
      | (.ready bytes, io) => (.ready (.ok bytes), .readDirect { stream with io } [])
      | (.pending, io) => (.pending, .readDirect { stream with io } [])

def pollRead (stream : PenetratingTlsStream c) (size : Nat) :
    Poll (Except (IoError c) Bytes) × PenetratingTlsStream c :=
  match stream with
  | .tls (some stream) =>
    let (poll, stream) := stream.pollRead size
    (poll, .tls (some stream))
  | .tls none => (.ready (.error alreadyTaken), .tls none)
  | .readDirect stream pendingPlaintext =>
    (PenetratingTlsStream.readDirect stream pendingPlaintext).pollReadDirect size

/-- `poll_write`, which goes through the session in either state. -/
def pollWrite (stream : PenetratingTlsStream c) (input : Bytes) :
    Poll (Except (IoError c) Nat) × PenetratingTlsStream c :=
  match stream with
  | .tls (some stream) =>
    match stream.pollWrite input with
    | (.ready n, stream) => (.ready (.ok n), .tls (some stream))
    | (.pending, stream) => (.pending, .tls (some stream))
  | .tls none => (.ready (.error alreadyTaken), .tls none)
  | .readDirect stream pendingPlaintext =>
    match stream.pollWrite input with
    | (.ready n, stream) => (.ready (.ok n), .readDirect stream pendingPlaintext)
    | (.pending, stream) => (.pending, .readDirect stream pendingPlaintext)

end PenetratingTlsStream

/-- A call of whoever uses the stream. -/
inductive Call where
  | read (size : Nat)
  | write (input : Bytes)

/-- A stream, and what its caller has got of it: the bytes the reads returned, what the
writes took, and the errors. -/
structure Use (c : Cipher) where
  stream : PenetratingTlsStream c
  returned : Bytes := []
  taken : List Bytes := []
  errors : List (IoError c) := []

namespace Use

variable {c : Cipher}

def call (pollRead : PenetratingTlsStream c → Nat →
      Poll (Except (IoError c) Bytes) × PenetratingTlsStream c)
    (use : Use c) : Call → Use c
  | .read size =>
    match pollRead use.stream size with
    | (.ready (.ok bytes), stream) => { use with stream, returned := use.returned ++ bytes }
    | (.ready (.error e), stream) => { use with stream, errors := use.errors ++ [e] }
    | (.pending, stream) => { use with stream }
  | .write input =>
    match use.stream.pollWrite input with
    | (.ready (.ok n), stream) => { use with stream, taken := use.taken ++ [input.take n] }
    | (.ready (.error e), stream) => { use with stream, errors := use.errors ++ [e] }
    | (.pending, stream) => { use with stream }

def inTls (calls : List Call) (use : Use c) : Use c :=
  calls.foldl (call PenetratingTlsStream.pollRead) use

def direct (calls : List Call) (use : Use c) : Use c :=
  calls.foldl (call PenetratingTlsStream.pollReadDirect) use

end Use

end Xray.Transport
