import Xray.Lib.Assoc
import Xray.Lib.Carrier
import Xray.Mux.Wire

/-!
# Mux.Cool parents and children (`xray-core-rs/src/outbound/mux.rs`)

A parent is one connection that carries the sessions of its children. Children, the
writer and the reader of the parent meet in one locked state, and each definition below
is what one of them does under the lock. Wakers and notifications are left out: a party
that waits looks again at any time.

The children are in the order of their ids, because ids only grow.
-/

namespace Xray.Mux

open Bytes Routing

def maxChildrenEver : Nat := 128

def childQueue : Nat := 8

inductive SessionError where
  /-- "Mux session closed" -/
  | closed
  /-- "Mux datagram receive buffer too small" -/
  | receiveBuffer
  /-- "Mux datagram too large" -/
  | datagramTooLarge
deriving DecidableEq

structure Packet where
  source : Option Target
  bytes : Bytes

structure Entry where
  target : Target
  globalId : Vector UInt8 8
  rx : List Packet := []
  tx : List (Nat × Bytes) := []
  started : Bool := false
  inflight : Bool := false
  closing : Bool := false
  ended : Bool := false
  dropped : Bool := false
  failed : Bool := false
  readEof : Bool := false
  accepted : Nat := 0
  sent : Nat := 0

/-- What `write_loop` keeps while a frame is being written. -/
structure Flight where
  id : Nat
  frame : Frame
  /-- The number of the chunk that is its payload. -/
  seq : Option Nat

namespace Entry

def ready (e : Entry) : Bool :=
  !e.ended && (e.closing || !e.tx.isEmpty || (!e.started && e.target.network == .tcp))

/-- The frame a child is to send next. -/
def flight (e : Entry) (id : Nat) : Flight :=
  let done := e.closing && e.tx.isEmpty
  let status : Status := if done then .end else if e.started then .keep else .new
  let data := if done then none else e.tx.head?
  let target :=
    if !done && (status == .new || e.target.network == .udp) then some e.target else none
  let globalId :=
    if status == .new && e.target.network == .udp then some e.globalId else none
  { id
    frame :=
      { sessionId := UInt16.ofNat id
        status
        error := e.failed && status == .end
        target
        globalId
        payload := data.map Prod.snd }
    seq := data.map Prod.fst }

/-- The entry of a child of a closed parent. -/
def fail (e : Entry) : Entry := { e with failed := true, rx := [], tx := [] }

/-- The entry of a child whose token is dropped while the peer knows of it. -/
def abandon (e : Entry) : Entry :=
  { e with dropped := true, closing := true, rx := [], tx := [] }

/-- The entry while that frame is being written. -/
def sending (e : Entry) : Entry := { e with tx := e.tx.tail, started := true, inflight := true }

/-- The entry after the frame has been written and flushed. -/
def landed (e : Entry) (flight : Flight) : Entry :=
  let e := { e with inflight := false, sent := flight.seq.getD e.sent }
  if flight.frame.status = .end then { e with ended := true, readEof := true } else e

/-- The entry after a frame of the peer; `none` when its queue has no room for it. -/
def receive (e : Entry) (frame : Frame) : Option Entry :=
  match frame.status with
  | .keep =>
    if !e.dropped ∧ !e.failed ∧ !e.readEof then
      match frame.payload.filter (· ≠ []) with
      | some payload =>
        if e.rx.length ≥ childQueue then none
        else some { e with rx := e.rx ++ [{ source := frame.target, bytes := payload }] }
      | none => some e
    else some e
  | .end =>
    some { e with
      readEof := true
      ended := true
      tx := []
      failed := e.failed || (frame.error || e.sent != e.accepted) }
  | _ => some e

end Entry

structure State where
  children : List (Nat × Entry) := []
  next : Nat := 0
  cursor : Nat := 0
  closed : Bool := false

namespace State

def exhausted (s : State) : Bool := s.next ≥ maxChildrenEver

def child (s : State) (id : Nat) : Option Entry := Assoc.get id s.children

def update (s : State) (id : Nat) (f : Entry → Entry) : State :=
  { s with children := Assoc.modify id f s.children }

def remove (s : State) (id : Nat) : State := { s with children := Assoc.remove id s.children }

def allocate (s : State) (target : Target) (concurrency : Nat) (globalId : Vector UInt8 8) :
    State × Option Nat :=
  if s.closed ∨ s.children.length ≥ concurrency ∨ s.exhausted then (s, none)
  else
    let id := s.next + 1
    ({ s with next := id, children := s.children ++ [(id, { target, globalId })] }, some id)

def close (s : State) : State :=
  { s with
    closed := true
    children := s.children.map fun (id, e) => (id, e.fail) }

def dropToken (s : State) (id : Nat) : State :=
  match s.child id with
  | none => s
  | some e =>
    if e.ended ∨ (!e.started ∧ !e.inflight) then s.remove id
    else s.update id Entry.abandon

/-! ## A child's calls -/

/-- `poll_read` into a buffer with room for `remaining` bytes. -/
def pollRead (s : State) (id remaining : Nat) :
    State × Poll (Except SessionError (Bytes × Option Target)) :=
  if remaining = 0 then (s, .ready (.ok ([], none)))
  else
    match s.child id with
    | none => (s, .ready (.error .closed))
    | some e =>
      if e.failed then (s, .ready (.error .closed))
      else
        match e.rx with
        | packet :: rest =>
          if e.target.network = .udp ∧ remaining < packet.bytes.length then
            (s, .ready (.error .receiveBuffer))
          else
            let n := min remaining packet.bytes.length
            let left := packet.bytes.drop n
            let rx := if left = [] then rest else { packet with bytes := left } :: rest
            (s.update id fun e => { e with rx }, .ready (.ok (packet.bytes.take n, packet.source)))
        | [] => if e.readEof then (s, .ready (.ok ([], none))) else (s, .pending)

def pollWrite (s : State) (id : Nat) (input : Bytes) : State × Poll (Except SessionError Nat) :=
  match s.child id with
  | none => (s, .ready (.error .closed))
  | some e =>
    if e.failed ∨ e.closing ∨ e.ended then (s, .ready (.error .closed))
    else if e.target.network = .udp ∧ input.length > maxPayload then
      (s, .ready (.error .datagramTooLarge))
    else if input = [] then (s, .ready (.ok 0))
    else if e.tx.length ≥ childQueue then (s, .pending)
    else if e.accepted + 1 ≥ 2 ^ 64 then (s, .ready (.error .closed))
    else
      let n := min input.length maxPayload
      (s.update id fun e =>
        { e with accepted := e.accepted + 1, tx := e.tx ++ [(e.accepted + 1, input.take n)] },
        .ready (.ok n))

def pollFlush (s : State) (id : Nat) : Poll (Except SessionError Unit) :=
  match s.child id with
  | none => .ready (.error .closed)
  | some e =>
    if e.failed ∨ (e.ended ∧ e.sent ≠ e.accepted) then .ready (.error .closed)
    else if !e.inflight ∧ e.sent = e.accepted ∧ (e.started ∨ e.target.network = .udp) then
      .ready (.ok ())
    else .pending

def pollShutdown (s : State) (id : Nat) : State × Poll (Except SessionError Unit) :=
  match s.pollFlush id with
  | .pending => (s, .pending)
  | .ready (.error error) => (s, .ready (.error error))
  | .ready (.ok ()) =>
    match s.child id with
    | none => (s, .ready (.error .closed))
    | some e =>
      if e.ended then (s, .ready (.ok ()))
      else (s.update id fun e => { e with closing := true }, .pending)

/-- The entry of a child, or none if nobody needs it any more. -/
def settle (s : State) (id : Nat) (e : Entry) : State :=
  if e.dropped ∧ e.ended then s.remove id else s.update id fun _ => e

def first (s : State) (ids : List Nat) (p : Entry → Bool) : Option Nat :=
  ids.find? fun id => (s.child id).any p

/-- The child whose turn it is: one that was dropped, or the next one after the cursor. -/
def pick (s : State) : Option Nat :=
  let ids := s.children.map Prod.fst
  (s.first ids fun e => e.dropped && !e.ended).or
    (s.first (ids.filter (· > s.cursor) ++ ids.filter (· ≤ s.cursor)) Entry.ready)

/-- A round of `write_loop` up to the write; `none` when there is nothing to do. -/
def nextFlight (s : State) : Option (State × Flight) := do
  let id ← s.pick
  let e ← s.child id
  return ({ s with cursor := id }.update id Entry.sending, e.flight id)

/-- `write_loop` after the write and the flush. -/
def landed (s : State) (flight : Flight) : State :=
  match s.child flight.id with
  | none => s
  | some e => s.settle flight.id (e.landed flight)

def deliver (s : State) (frame : Frame) : Except SessionError (State × Bool) :=
  let id := frame.sessionId.toNat
  if id > s.next ∧ frame.status ≠ .keepAlive then .error .closed
  else
    match s.child id with
    | none => .ok (s, true)
    | some e =>
      match e.receive frame with
      | none => .ok (s, false)
      | some e => .ok (s.settle id e, true)

end State

end Xray.Mux
