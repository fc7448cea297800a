import Xray.Lib.Carrier
import Xray.Lib.Storage

/-!
# The read-ahead buffer of record streams (`xray-proxy/src/record_buffer.rs`)

One allocation holds the frame that is being read, and behind it whatever came with it. A frame
is decrypted where it stands. The buffer never exposes more than the current frame.
-/

namespace Xray.Proxy

open Storage

/-- An `io::Error`; those of the stream below are told apart by a number. -/
inductive IoError where
  | invalidData (message : String)
  | invalidInput (message : String)
  | unexpectedEof
  | other (code : Nat)
deriving DecidableEq

/-- The stream below: what it still brings, and the error it ends with if it does not end
cleanly. -/
structure Inner where
  carrier : Carrier
  broken : Option IoError

namespace Inner

def pollRead (n : Nat) (inner : Inner) : Poll (Except IoError Bytes) × Inner :=
  match inner.carrier, inner.broken with
  | [], some e => (.ready (.error e), inner)
  | carrier, _ =>
    match carrier.pollRead n with
    | (.pending, carrier) => (.pending, { inner with carrier })
    | (.ready got, carrier) => (.ready (.ok got), { inner with carrier })

lemma length_pollRead_le {n : Nat} {inner inner' : Inner} {got : Bytes}
    (h : inner.pollRead n = (.ready (.ok got), inner')) : got.length ≤ n := by
  rw [pollRead] at h
  split at h
  · cases h
  split at h
  · cases h
  next hread =>
  cases h
  exact Carrier.length_pollRead_le hread

end Inner

def maxFrame : Nat := 65535 + 16

/-- `MAX_BUFFER`: a frame and the length record before it. -/
def maxBuffer : Nat := maxFrame + 18

structure RecordBuffer where
  bytes : Bytes
  start : Nat
  filled : Nat
  needed : Nat
  prefixLen : Nat
  readAhead : Nat
  start_le : start ≤ filled
  filled_le : filled ≤ bytes.length
  needed_le : needed ≤ maxFrame

namespace RecordBuffer

def new (needed prefixLen : Nat) (h : needed ≤ maxFrame) : RecordBuffer where
  bytes := []
  start := 0
  filled := 0
  needed
  prefixLen
  readAhead := 0
  start_le := Nat.le_refl 0
  filled_le := Nat.le_refl 0
  needed_le := h

def setReadAhead (buffer : RecordBuffer) (bytes : Nat) : RecordBuffer :=
  { buffer with readAhead := bytes }

/-- What has been read and not been consumed. -/
def held (buffer : RecordBuffer) : Bytes := (buffer.bytes.take buffer.filled).drop buffer.start

def frame (buffer : RecordBuffer) : Bytes := (buffer.bytes.drop buffer.start).take buffer.needed

/-- A write into the current frame, from an offset on. -/
def write (buffer : RecordBuffer) (offset : Nat) (content : Bytes) : RecordBuffer :=
  { buffer with
    bytes := overwrite buffer.bytes (buffer.start + offset) content
    filled_le := by
      rw [length_overwrite]
      exact buffer.filled_le }

def zeroize (buffer : RecordBuffer) : RecordBuffer :=
  buffer.write 0 (List.replicate buffer.needed 0)

/-- The current frame is done with, and one of another size comes. The source asserts that the
frame is there and that the size is no more than `maxFrame`; the bounds below stand for that. -/
def advance (buffer : RecordBuffer) (needed : Nat) : RecordBuffer :=
  let start := min (buffer.start + buffer.needed) buffer.filled
  if start = buffer.filled then
    { buffer with
      start := 0
      filled := 0
      needed := min needed maxFrame
      start_le := Nat.le_refl 0
      filled_le := Nat.zero_le _
      needed_le := Nat.min_le_right _ _ }
  else
    { buffer with
      start
      needed := min needed maxFrame
      start_le := Nat.min_le_right _ _
      needed_le := Nat.min_le_right _ _ }

/-! ## Reading a frame -/

def nextMultiple (n : Nat) : Nat := (n + 63) / 64 * 64

/-- How much storage the current frame asks for. -/
def size (buffer : RecordBuffer) : Nat :=
  min (max (nextMultiple (buffer.needed + buffer.prefixLen)) buffer.readAhead) maxBuffer

def grow (buffer : RecordBuffer) : RecordBuffer :=
  if buffer.bytes.length < buffer.size then
    { buffer with
      bytes := buffer.bytes ++ List.replicate (buffer.size - buffer.bytes.length) 0
      filled_le := by
        rw [List.length_append]
        exact Nat.le_add_right_of_le buffer.filled_le }
  else buffer

/-- The held bytes are moved to the front when the frame would not fit behind them. -/
def compact (buffer : RecordBuffer) : RecordBuffer :=
  if buffer.start + buffer.needed > buffer.bytes.length then
    { buffer with
      bytes := overwrite buffer.bytes 0 buffer.held
      start := 0
      filled := buffer.filled - buffer.start
      start_le := Nat.zero_le _
      filled_le := by
        rw [length_overwrite]
        exact Nat.le_trans (Nat.sub_le _ _) buffer.filled_le }
  else buffer

def put (buffer : RecordBuffer) (got : Bytes)
    (h : got.length ≤ buffer.bytes.length - buffer.filled) : RecordBuffer :=
  { buffer with
    bytes := overwrite buffer.bytes buffer.filled got
    filled := buffer.filled + got.length
    start_le := Nat.le_add_right_of_le buffer.start_le
    filled_le := by
      have := buffer.filled_le
      rw [length_overwrite]
      omega }

def fill (buffer : RecordBuffer) (inner : Inner) :
    Poll (Except IoError Bool) × RecordBuffer × Inner :=
  if buffer.filled - buffer.start < buffer.needed then
    match h : inner.pollRead (buffer.bytes.length - buffer.filled) with
    | (.pending, inner) => (.pending, buffer, inner)
    | (.ready (.error e), inner) => (.ready (.error e), buffer, inner)
    | (.ready (.ok got), inner) =>
      if got = [] then
        (.ready (if buffer.filled = buffer.start then .ok false else .error .unexpectedEof),
          buffer, inner)
      else fill (buffer.put got (Inner.length_pollRead_le h)) inner
  else (.ready (.ok true), buffer, inner)
termination_by buffer.needed - (buffer.filled - buffer.start)
decreasing_by
  have hgot : 0 < got.length := List.length_pos_iff.mpr ‹_›
  have := buffer.start_le
  show buffer.needed - (buffer.filled + got.length - buffer.start) <
    buffer.needed - (buffer.filled - buffer.start)
  omega

/-- `poll_frame`: a `false` is an end of the stream between two frames. -/
def pollFrame (buffer : RecordBuffer) (inner : Inner) :
    Poll (Except IoError Bool) × RecordBuffer × Inner :=
  if buffer.filled - buffer.start ≥ buffer.needed then (.ready (.ok true), buffer, inner)
  else buffer.grow.compact.fill inner

end RecordBuffer

end Xray.Proxy
