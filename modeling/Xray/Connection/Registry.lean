import Xray.Lib.BinarySearch
import Xray.Lib.Machine
import Xray.Routing.Target

/-!
# The connection registry (`xray-core-rs/src/connection.rs`)

A connection is registered, becomes active, and completes when its lease is finished or dropped.
The relay counts bytes in counters that it shares with the registry's entry; when the connection
completes, they are added to the totals of its outbound.

Every function that holds the lock is one step here, and so is every operation on an atomic
counter. Taking an identifier is not under the lock, so other calls may come between it and the
rest of `register`. What is shared by reference (the counters, the channel that asks a connection
to close) stands in lists, and a reference is a place in them. The registry is dropped last.
-/

namespace Xray.Connection

open Std Routing

def saturatingAdd (a b : Nat) : Nat := min (a + b) (2 ^ 64 - 1)

/-- `AtomicU64::fetch_add` wraps around. -/
def fetchAdd (a b : Nat) : Nat := (a + b) % 2 ^ 64

inductive ConnectionState where
  | opening
  | active
deriving DecidableEq

structure ConnectionInfo where
  id : Nat
  state : ConnectionState
  inboundTag : Option String
  outboundTag : Option String
  network : Network
  target : Target
  startedUnixMs : Nat

structure ConnectionSnapshot where
  revision : Nat
  connections : List ConnectionInfo

structure OutboundAccounting where
  outboundTag : Option String
  openedConnections : Nat
  completedConnections : Nat
  hostClosedConnections : Nat
  uplinkBytes : Nat
  downlinkBytes : Nat
  activeUplinkBytes : Nat
  activeDownlinkBytes : Nat

structure OutboundAccountingSnapshot where
  revision : Nat
  outbounds : List OutboundAccounting

inductive ConnectionCloseError where
  | notFound (id : Nat)
deriving DecidableEq

structure ConnectionTraffic where
  uplinkBytes : Nat
  downlinkBytes : Nat

namespace ConnectionTraffic

def recordUplink (bytes : Nat) (traffic : ConnectionTraffic) : ConnectionTraffic :=
  { traffic with uplinkBytes := fetchAdd traffic.uplinkBytes bytes }

def recordDownlink (bytes : Nat) (traffic : ConnectionTraffic) : ConnectionTraffic :=
  { traffic with downlinkBytes := fetchAdd traffic.downlinkBytes bytes }

end ConnectionTraffic

/-- `close` and `traffic` are references. -/
structure ConnectionEntry where
  info : ConnectionInfo
  close : Nat
  hostCloseRequested : Bool
  traffic : Nat

structure ConnectionRegistry where
  nextId : Nat
  revision : Nat
  active : ExtTreeMap Nat ConnectionEntry
  accounting : ExtTreeMap (Option String) OutboundAccounting

def valuesOf {κ ν : Type} [Ord κ] [TransOrd κ] (entries : ExtTreeMap κ ν) : List ν :=
  entries.toList.map Prod.snd

namespace ConnectionRegistry

def new : ConnectionRegistry := ⟨1, 0, ∅, ∅⟩

def snapshot (registry : ConnectionRegistry) : ConnectionSnapshot :=
  ⟨registry.revision, (valuesOf registry.active).map ConnectionEntry.info⟩

/-- The counters behind a reference. -/
def load (traffic : List ConnectionTraffic) (reference : Nat) : ConnectionTraffic :=
  traffic.getD reference ⟨0, 0⟩

def addActive (traffic : List ConnectionTraffic) (entry : ConnectionEntry)
    (row : OutboundAccounting) : OutboundAccounting :=
  { row with
    activeUplinkBytes :=
      saturatingAdd row.activeUplinkBytes (load traffic entry.traffic).uplinkBytes
    activeDownlinkBytes :=
      saturatingAdd row.activeDownlinkBytes (load traffic entry.traffic).downlinkBytes }

/-- One turn of the loop over the active connections: the row is looked up by binary search. -/
def countActive (traffic : List ConnectionTraffic) (outbounds : List OutboundAccounting)
    (entry : ConnectionEntry) : List OutboundAccounting :=
  match BinarySearch.binarySearchBy
      (fun row : OutboundAccounting => compare row.outboundTag entry.info.outboundTag) outbounds with
  | none => outbounds
  | some index => outbounds.modify index (addActive traffic entry)

def accountingSnapshot (registry : ConnectionRegistry) (traffic : List ConnectionTraffic) :
    OutboundAccountingSnapshot :=
  ⟨registry.revision,
    (valuesOf registry.active).foldl (countActive traffic) (valuesOf registry.accounting)⟩

def close (registry : ConnectionRegistry) (id : Nat) :
    Except ConnectionCloseError (ConnectionEntry × Nat) × ConnectionRegistry :=
  match registry.active[id]? with
  | none => (.error (.notFound id), registry)
  | some entry =>
    let revision := saturatingAdd registry.revision 1
    (.ok (entry, revision),
      { registry with
        active := registry.active.insert id { entry with hostCloseRequested := true }
        revision })

/-- One turn of the loop that takes an identifier. Zero is none. -/
def takeId (registry : ConnectionRegistry) : Option Nat × ConnectionRegistry :=
  (if registry.nextId = 0 then none else some registry.nextId,
    { registry with nextId := fetchAdd registry.nextId 1 })

/-- The row of an outbound before its first connection. -/
def emptyRow (outboundTag : Option String) : OutboundAccounting :=
  ⟨outboundTag, 0, 0, 0, 0, 0, 0, 0⟩

def newEntry (id : Nat) (inboundTag outboundTag : Option String) (target : Target)
    (startedUnixMs close traffic : Nat) : ConnectionEntry where
  info := ⟨id, .opening, inboundTag, outboundTag, target.network, target, startedUnixMs⟩
  close
  hostCloseRequested := false
  traffic

def addOpened (row : OutboundAccounting) : OutboundAccounting :=
  { row with openedConnections := saturatingAdd row.openedConnections 1 }

/-- `register`, from the lock on. -/
def register (registry : ConnectionRegistry) (id : Nat) (inboundTag outboundTag : Option String)
    (target : Target) (startedUnixMs close traffic : Nat) : ConnectionRegistry :=
  { registry with
    active := registry.active.insert id
      (newEntry id inboundTag outboundTag target startedUnixMs close traffic)
    accounting := registry.accounting.insert outboundTag
      (addOpened (registry.accounting[outboundTag]?.getD (emptyRow outboundTag)))
    revision := saturatingAdd registry.revision 1 }

def markActive (registry : ConnectionRegistry) (id : Nat) : ConnectionRegistry :=
  match registry.active[id]? with
  | none => registry
  | some entry =>
    if entry.info.state ≠ .active then
      { registry with
        active := registry.active.insert id { entry with info := { entry.info with state := .active } }
        revision := saturatingAdd registry.revision 1 }
    else registry

/-- A completed connection's bytes are added to the totals of its outbound. -/
def addCompleted (entry : ConnectionEntry) (traffic : ConnectionTraffic)
    (row : OutboundAccounting) : OutboundAccounting :=
  { row with
    completedConnections := saturatingAdd row.completedConnections 1
    hostClosedConnections :=
      saturatingAdd row.hostClosedConnections (if entry.hostCloseRequested then 1 else 0)
    uplinkBytes := saturatingAdd row.uplinkBytes traffic.uplinkBytes
    downlinkBytes := saturatingAdd row.downlinkBytes traffic.downlinkBytes }

def finish (registry : ConnectionRegistry) (traffic : List ConnectionTraffic) (id : Nat) :
    ConnectionRegistry :=
  match registry.active[id]? with
  | none => registry
  | some entry =>
    { registry with
      active := registry.active.erase id
      accounting := registry.accounting.modify entry.info.outboundTag
        (addCompleted entry (load traffic entry.traffic))
      revision := saturatingAdd registry.revision 1 }

end ConnectionRegistry

/-! ## The registry and those who use it -/

structure ConnectionLease where
  id : Nat
  finished : Bool

/-- The registry, the identifiers that calls of `register` have taken and not used yet, and for
each connection in the order of registration its lease, its counters and the channel that asks it
to close. -/
structure System where
  registry : ConnectionRegistry
  taken : List Nat
  leases : List ConnectionLease
  traffic : List ConnectionTraffic
  closeSent : List Bool

/-- What can happen. Leases and counters are named by their place. -/
inductive Step where
  | takeId
  | register (id : Nat) (inboundTag outboundTag : Option String) (target : Target)
      (startedUnixMs : Nat)
  | recordUplink (lease bytes : Nat)
  | recordDownlink (lease bytes : Nat)
  | markActive (lease : Nat)
  | close (id : Nat)
  | finish (lease : Nat)
  | drop (lease : Nat)

namespace System

def new : System := ⟨.new, [], [], [], []⟩

/-- `finish` of a lease also marks it, so that the `drop` that follows does nothing. -/
def step (s : System) : Step → Option System
  | .takeId =>
    let (id, registry) := s.registry.takeId
    some { s with registry, taken := id.elim s.taken (· :: s.taken) }
  | .register id inboundTag outboundTag target startedUnixMs =>
    if id ∈ s.taken then
      some {
        registry := s.registry.register id inboundTag outboundTag target startedUnixMs
          s.closeSent.length s.traffic.length
        taken := s.taken.erase id
        leases := s.leases ++ [⟨id, false⟩]
        traffic := s.traffic ++ [⟨0, 0⟩]
        closeSent := s.closeSent ++ [false] }
    else none
  | .recordUplink lease bytes =>
    if lease < s.traffic.length then
      some { s with traffic := s.traffic.modify lease (.recordUplink bytes) }
    else none
  | .recordDownlink lease bytes =>
    if lease < s.traffic.length then
      some { s with traffic := s.traffic.modify lease (.recordDownlink bytes) }
    else none
  | .markActive lease =>
    s.leases[lease]?.map fun l => { s with registry := s.registry.markActive l.id }
  | .close id =>
    match s.registry.close id with
    | (.error _, registry) => some { s with registry }
    | (.ok (entry, _), registry) =>
      some { s with registry, closeSent := s.closeSent.modify entry.close fun _ => true }
  | .finish lease =>
    s.leases[lease]?.map fun l =>
      { s with
        registry := s.registry.finish s.traffic l.id
        leases := s.leases.modify lease fun l => { l with finished := true } }
  | .drop lease =>
    s.leases[lease]?.map fun l =>
      if l.finished then s else { s with registry := s.registry.finish s.traffic l.id }

def run (s : System) (steps : List Step) : Option System := Machine.run step s steps

end System

end Xray.Connection
