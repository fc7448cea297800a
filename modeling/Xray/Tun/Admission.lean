import Xray.Lib.Assoc
import Xray.Lib.Log
import Xray.Tun.Packet

/-!
# Admission of UDP flows of the TUN device (`xray-core-rs/src/tun/admission.rs`)

A host may decide which flows of the device are let through. The first packet of a UDP flow starts
a decision, a task of a `JoinSet`, and packets wait in the flow's entry until it is made. The
packets of an allowed flow go to `ready`, from where `tun.rs` takes them before it polls the device.

Instants are nanoseconds on one clock, and `duration_since` is zero for a later instant. The flow
table is read for generations only, so a table is a function that gives them. What the source
subtracts from `buffered_bytes` is subtracted if it can be: where it cannot, a call has no result.
-/

namespace Xray.Tun

open Bytes Routing
open Xray.Vless (IpEndpoint)

structure EndpointKey where
  addr : IpAddr
  port : UInt16
deriving DecidableEq

def EndpointKey.fromEndpoint (endpoint : IpEndpoint) : EndpointKey :=
  ⟨endpoint.addr, endpoint.port⟩

structure UdpFlowKey where
  client : EndpointKey
  target : EndpointKey
deriving DecidableEq

def UdpFlowKey.new (client target : IpEndpoint) : UdpFlowKey :=
  ⟨EndpointKey.fromEndpoint client, EndpointKey.fromEndpoint target⟩

/-- What `flows.get(&key).map(|flow| flow.generation)` gives for each key. -/
abbrev Generations := UdpFlowKey → Option UInt64

abbrev Instant := Nat

def seconds (n : Nat) : Nat := n * 1000000000

def maxPending : Nat := 64

def maxBufferedBytes : Nat := 1024 * 1024

def maxPacketsPerFlow : Nat := 4

def udpIdleTimeout : Nat := seconds 60

inductive Decision where
  | pending (packets : List Bytes)
  | allowed (generation : Option UInt64)
  | denied
deriving DecidableEq

structure Entry where
  id : UInt64
  lastSeen : Instant
  decision : Decision
deriving DecidableEq

structure UdpAdmission where
  entries : List (UdpFlowKey × Entry)
  limit : Nat
  bufferedBytes : Nat
  lastPrune : Instant
  /-- the decisions that have not been joined -/
  tasks : List (UdpFlowKey × UInt64)
  ready : List Bytes
deriving DecidableEq

/-- Why a task of a `JoinSet` has no result. -/
inductive JoinError where
  | cancelled
  | panic
deriving DecidableEq

def bytesOf (packets : List Bytes) : Nat := (packets.map List.length).sum

def Decision.packets : Decision → List Bytes
  | .pending packets => packets
  | _ => []

def Entry.keeps (now : Instant) (entry : Entry) : Bool :=
  match entry.decision with
  | .pending _ => true
  | _ => now - entry.lastSeen < udpIdleTimeout

/-- The entry is of an idle flow, or was bound to a flow that has gone. -/
def Entry.stale (now : Instant) (flow : Option UInt64) (entry : Entry) : Bool :=
  udpIdleTimeout ≤ now - entry.lastSeen ||
    match entry.decision with
    | .allowed (some generation) => flow ≠ some generation
    | _ => false

namespace UdpAdmission

def new (limit : Nat) (now : Instant) : UdpAdmission :=
  { entries := [], limit, bufferedBytes := 0, lastPrune := now, tasks := [], ready := [] }

def get (this : UdpAdmission) (key : UdpFlowKey) : Option Entry := Assoc.get key this.entries

def unbuffer (this : UdpAdmission) (bytes : Nat) : Option UdpAdmission :=
  if bytes ≤ this.bufferedBytes then some { this with bufferedBytes := this.bufferedBytes - bytes }
  else none

def popReady (this : UdpAdmission) : Option (UdpAdmission × Option Bytes) :=
  match this.ready with
  | [] => some (this, none)
  | packet :: rest =>
    (unbuffer { this with ready := rest } packet.length).map fun this => (this, some packet)

/-- The decision of an entry is replaced, and its packets are let through or let go. -/
def settle (this : UdpAdmission) (key : UdpFlowKey) (entry : Entry) (allowed : Bool) :
    Option UdpAdmission :=
  let next := if allowed then Decision.allowed none else .denied
  let settled := { this with
    entries := Assoc.modify key (fun entry => { entry with decision := next }) this.entries }
  if allowed then some { settled with ready := this.ready ++ entry.decision.packets }
  else settled.unbuffer (bytesOf entry.decision.packets)

def complete (this : UdpAdmission) :
    Except JoinError (UdpFlowKey × UInt64 × Bool) → Option UdpAdmission
  | .error _ => some this
  | .ok (key, id, allowed) =>
    match (this.get key).filter fun entry => entry.id = id with
    | none => some this
    | some entry => this.settle key entry allowed

def bind (this : UdpAdmission) (key : UdpFlowKey) (flows : Generations) : UdpAdmission :=
  match (this.get key).map Entry.decision with
  | some (.allowed _) =>
    { this with
      entries := Assoc.modify key
        (fun entry => { entry with decision := .allowed (flows key) }) this.entries }
  | _ => this

def prune (this : UdpAdmission) (now : Instant) : UdpAdmission :=
  if seconds 1 ≤ now - this.lastPrune then
    { this with
      entries := this.entries.filter fun (_, entry) => Entry.keeps now entry
      lastPrune := now }
  else this

def removeStale (this : UdpAdmission) (now : Instant) (key : UdpFlowKey) (flows : Generations) :
    Option UdpAdmission :=
  match (this.get key).filter (Entry.stale now (flows key)) with
  | none => some this
  | some entry =>
    unbuffer { this with entries := Assoc.remove key this.entries }
      (bytesOf entry.decision.packets)

def seen (this : UdpAdmission) (now : Instant) (key : UdpFlowKey) (entry : Entry)
    (packet : Bytes) : UdpAdmission × Bool :=
  let touch (decision : Decision) := { this with
    entries := Assoc.modify key
      (fun entry => { entry with lastSeen := now, decision }) this.entries }
  match entry.decision with
  | .allowed generation => (touch (.allowed generation), true)
  | .denied => (touch .denied, false)
  | .pending packets =>
    if packets.length < maxPacketsPerFlow ∧
        this.bufferedBytes + packet.length ≤ maxBufferedBytes then
      ({ touch (.pending (packets ++ [packet])) with
         bufferedBytes := this.bufferedBytes + packet.length }, false)
    else (touch (.pending packets), false)

/-- A packet of a flow that has none: its decision is started, if there is room. -/
def start (this : UdpAdmission) (now : Instant) (key : UdpFlowKey) (packet : Bytes)
    (nextId : UInt64) : UdpAdmission × UInt64 :=
  if this.limit ≤ this.entries.length ∨ maxPending ≤ this.tasks.length ∨
      maxBufferedBytes < this.bufferedBytes + packet.length then
    (this, nextId)
  else
    ({ this with
       tasks := this.tasks ++ [(key, nextId)]
       bufferedBytes := this.bufferedBytes + packet.length
       entries := this.entries ++
         [(key, { id := nextId, lastSeen := now, decision := .pending [packet] })] },
     nextId + 1)

/-- The admission, the next id and the answer: whether the packet may go on. -/
def allow (this : UdpAdmission) (now : Instant) (udp : UdpTunPacket) (packet : Bytes)
    (flows : Generations) (nextId : UInt64) : Option (UdpAdmission × UInt64 × Bool) :=
  let key := UdpFlowKey.new udp.client udp.target
  ((this.prune now).removeStale now key flows).map fun this =>
    match this.get key with
    | some entry =>
      let (this, answer) := this.seen now key entry packet
      (this, nextId, answer)
    | none =>
      let (this, nextId) := this.start now key packet nextId
      (this, nextId, false)

end UdpAdmission

/-! ## Calls in any order

The ids come from a counter that the TCP flows use too. `join_next` gives the result of any of the
tasks, and `None` when there are none; it is the only source of completions. -/

namespace Admission

structure System where
  admission : UdpAdmission
  nextId : UInt64
deriving DecidableEq

inductive Call where
  | allow (now : Instant) (udp : UdpTunPacket) (packet : Bytes) (flows : Generations)
  /-- the task at `index` of those outstanding ends, and what it gave is completed -/
  | complete (index : Nat) (result : Except JoinError Bool)
  | bind (key : UdpFlowKey) (flows : Generations)
  | popReady
  /-- `fetch_add` for a flow of another kind -/
  | fetchId

inductive Answer where
  | allowed (answer : Bool)
  | popped (packet : Option Bytes)
  | done
deriving DecidableEq

def completion (task : UdpFlowKey × UInt64) (result : Except JoinError Bool) :
    Except JoinError (UdpFlowKey × UInt64 × Bool) :=
  result.map fun allowed => (task.1, task.2, allowed)

def step (s : System) : Call → Option (System × Answer)
  | .allow now udp packet flows =>
    (s.admission.allow now udp packet flows s.nextId).map fun (admission, nextId, answer) =>
      (⟨admission, nextId⟩, .allowed answer)
  | .complete index result =>
    match s.admission.tasks[index]? with
    | none => some (s, .done)
    | some task =>
      let joined := { s.admission with tasks := s.admission.tasks.eraseIdx index }
      (joined.complete (completion task result)).map fun admission =>
        ({ s with admission }, .done)
  | .bind key flows => some ({ s with admission := s.admission.bind key flows }, .done)
  | .popReady =>
    s.admission.popReady.map fun (admission, packet) => ({ s with admission }, .popped packet)
  | .fetchId => some ({ s with nextId := s.nextId + 1 }, .done)

def System.new (limit : Nat) (now : Instant) : System := ⟨UdpAdmission.new limit now, 0⟩

/-- What was when a call was made, what it answered, and what was then. -/
structure Moment where
  before : System
  answer : Answer
  after : System

def observe (s : System) (call : Call) : Option (System × Moment) :=
  (step s call).map fun (after, answer) => (after, { before := s, answer, after })

def run (s : System) (calls : List Call) : Option (System × List (Call × Moment)) :=
  Log.run observe s calls

end Admission

end Xray.Tun
