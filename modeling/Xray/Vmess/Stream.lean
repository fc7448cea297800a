import Xray.Lib.Fallible
import Xray.Proxy.RecordReader
import Xray.Vmess.Records

/-!
# Reading a VMess stream (`xray-proxy/src/vmess/stream.rs`)

The response begins with a header: its length and then itself, each sealed. Records follow. The
stream ends at a record with an empty payload, or where a record could begin.

A read takes up to four records, but no more bytes than four records of the writer's size. An
error after the first of them is kept for the next read. With a UDP target a record is a
datagram, and a read is one datagram.
-/

namespace Xray.Vmess

open Bytes Fallible RecordCodec
open Xray.Proxy

variable {C : Crypto}

def maxReadRecords : Nat := 4

def bulkReadThreshold : Nat := 64 * 1024

def bulkReadAhead : Nat := 16 * 1024

structure SessionKeys where
  responseKey : Bytes
  responseIv : Bytes
  responseMarker : UInt8

structure Options where
  authenticatedLength : Bool

def Options.wire (options : Options) : UInt8 :=
  0x0d ||| if options.authenticatedLength then 0x10 else 0

/-- The phases of a stream. The keys are there until the header has been read. -/
inductive Phase where
  | headerLength (keys : SessionKeys)
  | header (keys : SessionKeys)
  | length
  | payload
  | plain

structure State (C : Crypto) where
  phase : Phase
  reader : Records C
  options : Options
  packet : Bool
  padding : Nat
  bulkReadRemaining : Nat

/-- `header_aead`: the cipher of a header and its nonce. -/
def headerAead (C : Crypto) (keys : SessionKeys) (keyPath ivPath : String) : C.Aead × Bytes :=
  (C.aead .aes128Gcm ((C.kdf keys.responseKey [keyPath]).take 16),
    (C.kdf keys.responseIv [ivPath]).take 12)

def lengthAead (C : Crypto) (keys : SessionKeys) : C.Aead × Bytes :=
  headerAead C keys "AEAD Resp Header Len Key" "AEAD Resp Header Len IV"

def bodyAead (C : Crypto) (keys : SessionKeys) : C.Aead × Bytes :=
  headerAead C keys "AEAD Resp Header Key" "AEAD Resp Header IV"

namespace State

/-- The header is bound to the request, and asks for nothing. Its options are zero, or those of
the request given back. -/
def headerOk (this : State C) (keys : SessionKeys) (header : Bytes) : Bool :=
  header.length == 4 && header.getD 0 0 == keys.responseMarker &&
    (header.getD 1 0 == 0 || header.getD 1 0 == this.options.wire) && header.drop 2 == [0, 0]

def processHeaderLength (this : State C) (keys : SessionKeys) (frame : Bytes) :
    Except IoError (Reading (State C)) := do
  let plain ← openSlice (lengthAead C keys).1 (lengthAead C keys).2 frame
  let size := ofBe (plain.take 2)
  if size < 4 ∨ size > 259 then invalid "invalid VMess response header length"
  else return .expect (size + 16) { this with phase := .header keys }

def processHeader (this : State C) (keys : SessionKeys) (frame : Bytes) :
    Except IoError (Reading (State C)) := do
  let header ← openSlice (bodyAead C keys).1 (bodyAead C keys).2 frame
  if this.headerOk keys header then
    return .expect this.reader.sizeBytes { this with phase := .length }
  else invalid "VMess response binding or options rejected"

def processLength (this : State C) (frame : Bytes) : Except IoError (Reading (State C)) := do
  let (size, padding, reader) ← this.reader.decodeLength frame
  return .expect size { this with phase := .payload, reader, padding }

/-- How much of the first bytes of a stream is still to be read before it reads further ahead. -/
def bulkAfter (this : State C) (plain : Bytes) : Nat :=
  if this.packet = false ∧ this.bulkReadRemaining ≠ 0 then this.bulkReadRemaining - plain.length
  else this.bulkReadRemaining

/-- An empty payload ends the stream, once it has been authenticated. -/
def processPayload (this : State C) (frame : Bytes) : Except IoError (Reading (State C)) := do
  let (plain, reader) ← this.reader.openSlice frame this.padding
  if plain = [] then return .ended
  else
    let bulk := this.bulkAfter plain
    let readAhead :=
      if this.packet = false ∧ this.bulkReadRemaining ≠ 0 ∧ bulk = 0 then some bulkReadAhead
      else none
    return .opened plain { this with phase := .plain, reader, bulkReadRemaining := bulk } readAhead

def process (this : State C) (frame : Bytes) : Except IoError (Reading (State C)) :=
  match this.phase with
  | .headerLength keys => this.processHeaderLength keys frame
  | .header keys => this.processHeader keys frame
  | .length => this.processLength frame
  | .payload => this.processPayload frame
  | .plain => .error (.other 0)

end State

lemma Records.sizeBytes_ok (records : Records C) :
    0 < records.sizeBytes ∧ records.sizeBytes ≤ maxFrame := by
  unfold Records.sizeBytes maxFrame
  split <;> omega

lemma Records.decodeLength_bounds {records next : Records C} {bytes : Bytes} {size padding : Nat}
    (h : records.decodeLength bytes = .ok (size, padding, next)) :
    16 + padding ≤ size ∧ size ≤ 65535 := by
  rw [decodeLength] at h
  obtain ⟨⟨size', next'⟩, -, h⟩ := bind_eq_ok.mp h
  dsimp only at h
  split at h
  · cases h
  · cases h
    omega

lemma Records.length_openSlice {records next : Records C} {bytes plain : Bytes} {padding : Nat}
    (h : records.openSlice bytes padding = .ok (plain, next)) : plain.length ≤ bytes.length := by
  rw [openSlice] at h
  split at h
  · cases h
  obtain ⟨⟨plain', body⟩, hopen, h⟩ := bind_eq_ok.mp h
  cases h
  rw [Counter.open] at hopen
  obtain ⟨⟨nonce, counter⟩, -, hopen⟩ := bind_eq_ok.mp hopen
  obtain ⟨plain', hplain, hopen⟩ := bind_eq_ok.mp hopen
  cases hopen
  rw [Vmess.openSlice] at hplain
  split at hplain
  · next hsealed =>
    cases hplain
    have := C.length_open hsealed
    rw [List.length_take] at this
    omega
  · cases hplain

namespace State

inductive Processed (this : State C) (frame : Bytes) : Reading (State C) → Prop where
  | headerLength {keys : SessionKeys} {size : Nat} (phase : this.phase = .headerLength keys)
      (least : 4 ≤ size) (most : size ≤ 259) :
      Processed this frame (.expect (size + 16) { this with phase := .header keys })
  | header {keys : SessionKeys} (phase : this.phase = .header keys) :
      Processed this frame (.expect this.reader.sizeBytes { this with phase := .length })
  | length {size padding : Nat} {reader : Records C} (phase : this.phase = .length)
      (read : this.reader.decodeLength frame = .ok (size, padding, reader)) :
      Processed this frame (.expect size { this with phase := .payload, reader, padding })
  | payload {plain : Bytes} {reader : Records C} {bulkReadRemaining : Nat} {readAhead : Option Nat}
      (phase : this.phase = .payload)
      (read : this.reader.openSlice frame this.padding = .ok (plain, reader)) (some : plain ≠ []) :
      Processed this frame
        (.opened plain { this with phase := .plain, reader, bulkReadRemaining } readAhead)
  | ended {reader : Records C} (phase : this.phase = .payload)
      (read : this.reader.openSlice frame this.padding = .ok ([], reader)) :
      Processed this frame .ended

lemma process_spec {this : State C} {frame : Bytes} {reading : Reading (State C)}
    (h : this.process frame = .ok reading) : Processed this frame reading := by
  rw [process] at h
  split at h
  · next keys hphase =>
    rw [processHeaderLength] at h
    obtain ⟨plain, -, h⟩ := bind_eq_ok.mp h
    dsimp only at h
    split at h
    · cases h
    · cases h
      exact .headerLength hphase (by omega) (by omega)
  · next keys hphase =>
    rw [processHeader] at h
    obtain ⟨header, -, h⟩ := bind_eq_ok.mp h
    split at h
    · cases h
      exact .header hphase
    · cases h
  · next hphase =>
    rw [processLength] at h
    obtain ⟨⟨size, padding, reader⟩, hread, h⟩ := bind_eq_ok.mp h
    cases h
    exact .length hphase hread
  · next hphase =>
    rw [processPayload] at h
    obtain ⟨⟨plain, reader⟩, hread, h⟩ := bind_eq_ok.mp h
    dsimp only at h
    split at h
    · next hnil =>
      cases h
      subst hnil
      exact .ended hphase hread
    · next hne =>
      cases h
      exact .payload hphase hread hne
  · cases h

end State

def Phase.isPlain : Phase → Bool
  | .plain => true
  | _ => false

def Phase.isLength : Phase → Bool
  | .length => true
  | _ => false

def codec (C : Crypto) : Codec (State C) IoError maxFrame where
  isPlain this := this.phase.isPlain
  boundary this := this.phase.isLength
  process := State.process
  resume this := (this.reader.sizeBytes, { this with phase := .length })
  expect_ok h := by
    cases State.process_spec h with
    | headerLength _ _ most =>
      refine ⟨rfl, by omega, ?_⟩
      unfold maxFrame
      omega
    | header _ => exact ⟨rfl, Records.sizeBytes_ok _⟩
    | length _ read =>
      have := Records.decodeLength_bounds read
      refine ⟨rfl, by omega, ?_⟩
      unfold maxFrame
      omega
  opened_ok h := by
    cases State.process_spec h with
    | payload _ read _ => exact ⟨rfl, Records.length_openSlice read⟩
  resume_ok this := ⟨rfl, this.reader.sizeBytes_ok⟩

structure ReadState (C : Crypto) where
  reader : Reader (State C)
  readError : Option IoError

/-- A call of `poll_read`: the room it has, whether the writer has failed, and what the attempt
to write before each of its records brings. -/
structure ReadCall where
  room : Nat
  writeFailed : Bool
  prepare : Nat → Option IoError

/-- `poll_read_one`. The loop of the source has no bound; five turns lead from any phase to an
answer. -/
def pollReadOne (this : Reader (State C)) (inner : Inner) (room budget : Nat) :
    ReadAnswer × Reader (State C) × Inner :=
  if this.failed = true then
    (.ready (.error (.invalidData "VMess stream failed")), this, inner)
  else if room = 0 ∨ this.eof = true then (.ready (.ok []), this, inner)
  else
    let (answer, this, inner) := Reader.loop (codec C) this.state.packet room budget 5 this inner
    (answer.getD .pending, this, inner)

namespace ReadState

/-- One record of a read: first an attempt to write, then `poll_read_one`. -/
def pollRecord (this : ReadState C) (inner : Inner) (prepare : Option IoError)
    (room budget : Nat) : ReadAnswer × ReadState C × Inner :=
  if this.reader.failed = true ∨ room = 0 ∨ this.reader.eof = true then
    let (answer, reader, inner) := pollReadOne this.reader inner room budget
    (answer, { this with reader }, inner)
  else
    match prepare with
    | some e => (.ready (.error e), { this with reader := { this.reader with failed := true } }, inner)
    | none =>
      let (answer, reader, inner) := pollReadOne this.reader inner room budget
      (answer, { this with reader }, inner)

/-- The records of a read: `n` more of them, after the `i` that gave `got`. -/
def pollRecords (call : ReadCall) (budget : Nat) :
    Nat → Nat → Bytes → ReadState C → Inner → ReadAnswer × ReadState C × Inner
  | 0, _, got, this, inner => (.ready (.ok got), this, inner)
  | n + 1, i, got, this, inner =>
    match this.pollRecord inner (call.prepare i) (call.room - got.length)
        (budget - got.length) with
    | (.pending, this, inner) => (if got = [] then .pending else .ready (.ok got), this, inner)
    | (.ready (.error e), this, inner) =>
      if got = [] then (.ready (.error e), this, inner)
      else (.ready (.ok got), { this with readError := some e }, inner)
    | (.ready (.ok bytes), this, inner) =>
      let all := got ++ bytes
      if this.reader.state.packet = true ∨ call.room - all.length = 0 ∨ bytes = [] ∨
          all.length = budget then
        (.ready (.ok all), this, inner)
      else pollRecords call budget n (i + 1) all this inner

def unbounded : Nat := 2 ^ 64 - 1

def byteBudget (this : ReadState C) : Nat :=
  if this.reader.state.packet then unbounded
  else maxReadRecords * this.reader.state.reader.maxPayload

def pollRead (this : ReadState C) (inner : Inner) (call : ReadCall) :
    ReadAnswer × ReadState C × Inner :=
  match this.readError with
  | some e => (.ready (.error e), { this with readError := none }, inner)
  | none => pollRecords call this.byteBudget maxReadRecords 0 [] this inner

/-- `ClientStream::poll_read`: a failed writer fails the reader. -/
def clientPollRead (this : ReadState C) (inner : Inner) (call : ReadCall) :
    ReadAnswer × ReadState C × Inner :=
  let this : ReadState C :=
    if call.writeFailed then { this with reader := { this.reader with failed := true } } else this
  this.pollRead inner call

/-- The answers to a sequence of reads, and the stream after it. -/
def reads (this : ReadState C) (inner : Inner) :
    List ReadCall → List ReadAnswer × ReadState C × Inner
  | [] => ([], this, inner)
  | call :: calls =>
    let (answer, this, inner) := this.clientPollRead inner call
    let (answers, this, inner) := reads this inner calls
    (answer :: answers, this, inner)

/-- The reading side of a new client stream. -/
def new (keys : SessionKeys) (records : Records C) (options : Options) (packet : Bool) :
    ReadState C where
  reader :=
    { state :=
        { phase := .headerLength keys
          reader := records
          options
          packet
          padding := 0
          bulkReadRemaining := bulkReadThreshold }
      body := RecordBuffer.new 18 records.sizeBytes (by decide)
      plainLen := 0
      plainPos := 0
      failed := false
      eof := false }
  readError := none

end ReadState

end Xray.Vmess
