import Xray.Lib.Carrier

/-!
# Request headers that wait for a payload (`xray-core-rs/src/outbound/first_payload.rs`)

`HeldHeader` keeps a request header back and hands it to its carrier together with the first
payload. `FirstPayloadDeadline` bounds the wait: it is driven by reads, and when the time is
up it flushes the header alone.

The carrier is the list of what it was given. What it answers to the writes of a call is the
call's list of answers, and pending when there are no more; a write takes at most what it is
offered. Of the direct forms of the methods only the write does anything else.
-/

namespace Xray.Outbound

inductive StreamError where
  | writeZero
  | other (code : Nat)
deriving DecidableEq

abbrev WriteAnswer := Poll (Except StreamError Nat)

inductive Sent where
  | bytes (taken : Bytes)
  | flush
  | shutdown
deriving DecidableEq

structure HeldHeader where
  /-- `pending` from `pending_pos` on. -/
  pending : Bytes
  merged : Bool
  inner : List Sent

namespace HeldHeader

variable (this : HeldHeader)

def new (header : Bytes) : HeldHeader := ⟨header, false, []⟩

/-- `poll_drain`, with the answers that are not used up. -/
def pollDrain (this : HeldHeader) :
    List WriteAnswer → HeldHeader × List WriteAnswer × Poll (Except StreamError Unit)
  | [] => (this, [], if this.pending.isEmpty then .ready (.ok ()) else .pending)
  | answer :: answers =>
    if this.pending.isEmpty then (this, answer :: answers, .ready (.ok ()))
    else
      match answer with
      | .pending => (this, answers, .pending)
      | .ready (.error error) => (this, answers, .ready (.error error))
      | .ready (.ok 0) => (this, answers, .ready (.error .writeZero))
      | .ready (.ok n) =>
        pollDrain { this with
          pending := this.pending.drop n
          inner := this.inner ++ [.bytes (this.pending.take n)] } answers

/-- Drains what is held before a method of the carrier is called. -/
def afterDrain {α : Type} (answers : List WriteAnswer)
    (next : HeldHeader → List WriteAnswer → HeldHeader × Poll (Except StreamError α)) :
    HeldHeader × Poll (Except StreamError α) :=
  match this.pollDrain answers with
  | (this, answers, .ready (.ok ())) => next this answers
  | (this, _, .ready (.error error)) => (this, .ready (.error error))
  | (this, _, .pending) => (this, .pending)

def writeInner (input : Bytes) (this : HeldHeader) (answers : List WriteAnswer) :
    HeldHeader × WriteAnswer :=
  match answers.headD .pending with
  | .ready (.ok n) =>
    ({ this with inner := this.inner ++ [.bytes (input.take n)] },
      .ready (.ok (input.take n).length))
  | answer => (this, answer)

def pollWrite (input : Bytes) (answers : List WriteAnswer) : HeldHeader × WriteAnswer :=
  if !this.merged && !input.isEmpty then
    match pollDrain { this with merged := true, pending := this.pending ++ input } answers with
    | (this, _, .ready (.error error)) => (this, .ready (.error error))
    | (this, _, _) => (this, .ready (.ok input.length))
  else this.afterDrain answers (writeInner input)

def pollWriteDirect (input : Bytes) (answers : List WriteAnswer) : HeldHeader × WriteAnswer :=
  this.afterDrain answers (writeInner input)

/-- `poll_flush` and `poll_shutdown`: `sent` is what reaches the carrier. -/
def pollEnd (sent : Sent) (answers : List WriteAnswer) (answer : Poll (Except StreamError Unit)) :
    HeldHeader × Poll (Except StreamError Unit) :=
  this.afterDrain answers fun this _ => ({ this with inner := this.inner ++ [sent] }, answer)

end HeldHeader

def flushHeaderAlone (this : HeldHeader) : Except StreamError HeldHeader := .ok this

structure FirstPayloadDeadline where
  inner : HeldHeader
  deadline : Bool
  flushing : Bool
  /-- How often the timeout action has run. -/
  timeouts : Nat

namespace FirstPayloadDeadline

variable (this : FirstPayloadDeadline)

def disarm : FirstPayloadDeadline := { this with deadline := false, flushing := false }

/-- `poll_expired`, when the sleep is over or not. -/
def pollExpired (expired : Bool) (answers : List WriteAnswer)
    (answer : Poll (Except StreamError Unit)) :
    FirstPayloadDeadline × Poll (Except StreamError Unit) :=
  if this.deadline && expired then
    let this := { this with deadline := false, timeouts := this.timeouts + 1 }
    match flushHeaderAlone this.inner with
    | .error error => (this, .ready (.error error))
    | .ok inner => flush { this with inner }
  else if this.flushing then flush this
  else (this, .ready (.ok ()))
where
  flush (this : FirstPayloadDeadline) : FirstPayloadDeadline × Poll (Except StreamError Unit) :=
    let (inner, polled) := this.inner.pollEnd .flush answers answer
    ({ this with inner, flushing := polled != .ready (.ok ()) }, polled)

end FirstPayloadDeadline

inductive Method where
  | read (expired : Bool)
  | write (direct : Bool) (input : Bytes)
  | flush
  | shutdown
deriving DecidableEq

/-- A method with what the carrier answers: to writes, and to a flush or a shutdown. -/
structure PollCall where
  method : Method
  answers : List WriteAnswer
  answer : Poll (Except StreamError Unit)

/-- The stream, and the bytes its writes have reported as accepted. -/
structure HeldStream where
  stream : FirstPayloadDeadline
  accepted : Bytes

namespace HeldStream

def new (header : Bytes) : HeldStream := ⟨⟨.new header, true, false, 0⟩, []⟩

/-- A flush or a shutdown. -/
def ends (this : HeldStream) (sent : Sent) (call : PollCall) : HeldStream :=
  { this with stream := { this.stream.disarm with
    inner := (this.stream.inner.pollEnd sent call.answers call.answer).1 } }

/-- One call. A read begins with `poll_expired`, and writes nothing after it. -/
def step (this : HeldStream) (call : PollCall) : HeldStream :=
  match call.method with
  | .read expired =>
    { this with stream := (this.stream.pollExpired expired call.answers call.answer).1 }
  | .write direct input =>
    let (inner, polled) :=
      if direct then this.stream.inner.pollWriteDirect input call.answers
      else this.stream.inner.pollWrite input call.answers
    ⟨{ (if input.isEmpty then this.stream else this.stream.disarm) with inner },
      match polled with
      | .ready (.ok n) => this.accepted ++ input.take n
      | _ => this.accepted⟩
  | .flush => this.ends .flush call
  | .shutdown => this.ends .shutdown call

def run (header : Bytes) (calls : List PollCall) : HeldStream := calls.foldl step (new header)

end HeldStream

end Xray.Outbound
