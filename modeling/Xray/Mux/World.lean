import Xray.Lib.Log
import Xray.Mux.Parent

/-!
# Runs of a Mux.Cool parent

The children's owners, the task of the parent (`read_loop`, `write_loop` and `idle_loop`)
and the peer act in any order. An act is what one of them does between two points at
which another can come in. The task ends when one of its loops does, and closes the
state as it ends.
-/

namespace Xray.Mux

open Bytes Routing

structure World where
  state : State := {}
  /-- The children whose token has not been dropped. -/
  held : List Nat := []
  /-- The task of the parent has not ended. -/
  running : Bool := true
  /-- The frame that `write_loop` is writing. -/
  flight : Option Flight := none
  /-- What `read_loop` has read and not consumed. -/
  bytes : Bytes := []

inductive Act where
  | «open» (target : Target) (concurrency : Nat) (globalId : Vector UInt8 8)
  | read (id remaining : Nat)
  | write (id : Nat) (input : Bytes)
  | flush (id : Nat)
  | shutdown (id : Nat)
  | drop (id : Nat)
  /-- `write_loop` takes the next frame and starts to write it. -/
  | send
  /-- The frame has been written and flushed. -/
  | land
  /-- `read_loop` reads from the connection, which ends with an empty chunk. -/
  | arrive (chunk : Bytes)
  /-- `read_loop` decodes a frame and delivers it. -/
  | deliver
  /-- `idle_loop` finds no children. -/
  | idle
  /-- `Parent::close`, before the task notices. -/
  | close
  /-- An error of the connection, or the task is aborted. -/
  | stop

inductive Answer where
  | opened (id : Option Nat)
  | read (result : Poll (Except SessionError (Bytes × Option Target)))
  | wrote (result : Poll (Except SessionError Nat))
  | flushed (result : Poll (Except SessionError Unit))
  | shut (result : Poll (Except SessionError Unit))
  | sending (frame : Frame)
  | sent (frame : Frame)
  /-- At most `n` bytes of the chunk were read; the others are still to come. -/
  | arrived (n : Nat)
  /-- Consumed; `live` says whether its child was there, neither ended nor failed. -/
  | received (frame : Frame) (live : Bool)
  | nothing
deriving DecidableEq

namespace World

def live (w : World) (id : Nat) : Bool :=
  decide (id ∈ w.held) && (w.state.child id).any fun e => !e.ended && !e.failed

def stop (w : World) : World :=
  { w with state := w.state.close, running := false, flight := none }

/-- A round of `write_loop` up to the write. -/
def send (w : World) : World × Answer :=
  if w.state.closed then (w.stop, .nothing)
  else
    match w.state.nextFlight with
    | none => (w, .nothing)
    | some (state, flight) =>
      match encode flight.frame with
      | .error _ => ({ w with state }.stop, .nothing)
      | .ok _ => ({ w with state, flight := some flight }, .sending flight.frame)

/-- A round of `read_loop` with a frame in its buffer. -/
def deliver (w : World) : World × Answer :=
  match decode w.bytes with
  | .error _ => (w.stop, .nothing)
  | .ok none => (w, .nothing)
  | .ok (some (frame, n)) =>
    match w.state.deliver frame with
    | .error _ => (w.stop, .nothing)
    | .ok (_, false) => (w, .nothing)
    | .ok (state, true) =>
      ({ w with state, bytes := w.bytes.drop n },
        .received frame (w.live frame.sessionId.toNat))

/-- A round of `read_loop` that reads. -/
def arrive (w : World) (chunk : Bytes) : World × Answer :=
  match decode w.bytes with
  | .ok none =>
    if maxFrame - w.bytes.length = 0 ∨ chunk = [] then (w.stop, .nothing)
    else
      let n := min (maxFrame - w.bytes.length) 4096
      ({ w with bytes := w.bytes ++ chunk.take n }, .arrived n)
  | _ => (w, .nothing)

/-- An act, if it can be made: a child's owner calls nothing on a child it does not have,
and the task does nothing after its end. Only children with a stream are shut down. -/
def step (w : World) : Act → World × Answer
  | .open target concurrency globalId =>
    let (state, id) := w.state.allocate target concurrency globalId
    ({ w with state, held := id.toList ++ w.held }, .opened id)
  | .read id remaining =>
    if id ∈ w.held then
      let (state, result) := w.state.pollRead id remaining
      ({ w with state }, .read result)
    else (w, .nothing)
  | .write id input =>
    if id ∈ w.held then
      let (state, result) := w.state.pollWrite id input
      ({ w with state }, .wrote result)
    else (w, .nothing)
  | .flush id => if id ∈ w.held then (w, .flushed (w.state.pollFlush id)) else (w, .nothing)
  | .shutdown id =>
    if id ∈ w.held ∧ (w.state.child id).any fun e => e.target.network = .tcp then
      let (state, result) := w.state.pollShutdown id
      ({ w with state }, .shut result)
    else (w, .nothing)
  | .drop id =>
    if id ∈ w.held then
      ({ w with state := w.state.dropToken id, held := w.held.filter (· ≠ id) }, .nothing)
    else (w, .nothing)
  | .send => if w.running ∧ w.flight.isNone then w.send else (w, .nothing)
  | .land =>
    match w.flight with
    | none => (w, .nothing)
    | some flight =>
      ({ w with state := w.state.landed flight, flight := none }, .sent flight.frame)
  | .arrive chunk => if w.running then w.arrive chunk else (w, .nothing)
  | .deliver => if w.running then w.deliver else (w, .nothing)
  | .idle => (if w.running ∧ w.state.children = [] then w.stop else w, .nothing)
  | .close => ({ w with state := w.state.close }, .nothing)
  | .stop => (if w.running then w.stop else w, .nothing)

def run (w : World) (acts : List Act) : Option (World × List (Act × Answer)) :=
  Log.run (fun w act => some (w.step act)) w acts

end World

end Xray.Mux
