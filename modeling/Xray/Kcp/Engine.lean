import Mathlib.Data.List.AList
import Xray.Kcp.Mask
import Xray.Kcp.Segment

/-!
# The mKCP connection (`xray-transport/src/kcp/engine.rs`)

One side of a connection, without I/O or clocks: it is handed the segments it
receives and the milliseconds since it was opened, and leaves the datagrams to
send in `out`. Times and sequence numbers are `UInt32`, and wrap where the source
wraps.

The three parallel vectors of the ack list are one list of entries, and what it
keeps of the candidates only between a flush and the next is an argument of the
loop.
-/

namespace Xray.Kcp

open Bytes

/-- What `kcpSettings` says of the engine. -/
structure KcpConfig where
  mtu : UInt32
  tti : UInt32
  uplinkCapacity : UInt32
  downlinkCapacity : UInt32
  cwndMultiplier : UInt32
  maxSendingWindow : UInt32

/-- `kcpSettings`, already checked. -/
structure Config extends KcpConfig where
  mtu_mem : 21 ≤ mtu ∧ mtu ≤ 8192
  tti_mem : 10 ≤ tti ∧ tti ≤ 1000
  cwndMultiplier_ne : cwndMultiplier ≠ 0
  mtu_le : mtu ≤ maxSendingWindow

def KcpConfig.engineConfig (config : KcpConfig) : Except InvalidInput Config :=
  if hmtu : 21 ≤ config.mtu ∧ config.mtu ≤ 8192 then
    if htti : 10 ≤ config.tti ∧ config.tti ≤ 1000 then
      if hcwnd : config.cwndMultiplier = 0 then
        .error ⟨"mKCP cwndMultiplier must be at least 1"⟩
      else if hwindow : config.maxSendingWindow < config.mtu then
        .error ⟨"mKCP maxSendingWindow must be at least mtu"⟩
      else .ok ⟨config, hmtu, htti, hcwnd, UInt32.not_lt.mp hwindow⟩
    else .error ⟨"mKCP tti must be between 10 and 1000"⟩
  else .error ⟨"mKCP mtu must be between 21 and 8192"⟩

namespace Config

/-- Segments per flush that `capacity` megabytes a second allow, at least 8. -/
def inFlightSize (config : Config) (capacity : UInt32) : UInt32 :=
  max (capacity * (1024 * 1024) / config.mtu / (1000 / config.tti)) 8

def sendingInFlightSize (config : Config) : UInt32 := config.inFlightSize config.uplinkCapacity

def receivingInFlightSize (config : Config) : UInt32 := config.inFlightSize config.downlinkCapacity

def sendingBufferSize (config : Config) : UInt32 := config.maxSendingWindow / config.mtu

end Config

structure RoundTrip where
  variation : UInt32 := 0
  srtt : UInt32 := 0
  rto : UInt32 := 100
  minRtt : UInt32
  updatedTimestamp : UInt32 := 0

namespace RoundTrip

def updatePeerRto (roundTrip : RoundTrip) (rto current : UInt32) : RoundTrip :=
  if current - roundTrip.updatedTimestamp < 3000 then roundTrip
  else { roundTrip with updatedTimestamp := current, rto }

def absDiff (a b : UInt32) : UInt32 := if a < b then b - a else a - b

def update (roundTrip : RoundTrip) (rtt current : UInt32) : RoundTrip :=
  if rtt > 0x7FFFFFFF then roundTrip
  else
    let (srtt, variation) :=
      if roundTrip.srtt = 0 then (rtt, rtt / 2)
      else
        let srtt := (7 * roundTrip.srtt + rtt) / 8
        (if srtt < roundTrip.minRtt then roundTrip.minRtt else srtt,
          (3 * roundTrip.variation + absDiff roundTrip.srtt rtt) / 4)
    let four := 4 * variation
    let rto := if roundTrip.minRtt < four then srtt + four else srtt + variation
    { roundTrip with srtt, variation, rto := min rto 10000 * 5 / 4, updatedTimestamp := current }

end RoundTrip

/-- A data segment waiting for its ack. -/
structure Unacked where
  number : UInt32
  timestamp : UInt32 := 0
  payload : Bytes
  timeout : UInt32 := 0
  transmit : UInt32 := 0

structure SendingWorker where
  window : List Unacked := []
  totalInFlightSize : UInt32 := 0
  firstUnacknowledged : UInt32 := 0
  nextNumber : UInt32 := 0
  remoteNextNumber : UInt32 := 32
  controlWindow : UInt32
  windowSize : UInt32
  firstUnacknowledgedUpdated : Bool := false
  closed : Bool := false

namespace SendingWorker

def new (config : Config) : SendingWorker :=
  { controlWindow := config.sendingInFlightSize, windowSize := config.sendingBufferSize }

def release (sending : SendingWorker) : SendingWorker :=
  { sending with window := [], closed := true }

/-- Drops every segment numbered below `una` from the front. -/
def clear (sending : SendingWorker) (una : UInt32) : SendingWorker :=
  { sending with window := sending.window.dropWhile fun segment => decide (segment.number < una) }

def findFirstUnacknowledged (sending : SendingWorker) : SendingWorker :=
  let first := match sending.window with
    | segment :: _ => segment.number
    | [] => sending.nextNumber
  { sending with
    firstUnacknowledged := first
    firstUnacknowledgedUpdated :=
      sending.firstUnacknowledgedUpdated || sending.firstUnacknowledged != first }

def processReceivingNext (sending : SendingWorker) (nextNumber : UInt32) : SendingWorker :=
  (sending.clear nextNumber).findFirstUnacknowledged

/-- The window without a number; `none` when it is not there. -/
def removeFrom (number : UInt32) : List Unacked → Option (List Unacked)
  | [] => none
  | segment :: rest =>
    if segment.number > number then none
    else if segment.number = number then some rest
    else (removeFrom number rest).map (segment :: ·)

def remove (sending : SendingWorker) (number : UInt32) : SendingWorker × Bool :=
  match removeFrom number sending.window with
  | none => (sending, false)
  | some window =>
    ({ sending with
      window
      totalInFlightSize :=
        if sending.totalInFlightSize > 0 then sending.totalInFlightSize - 1
        else sending.totalInFlightSize }, true)

def processAck (sending : SendingWorker) (number : UInt32) : SendingWorker × Bool :=
  -- number < firstUnacknowledged or number >= nextNumber
  if number - sending.firstUnacknowledged > 0x7FFFFFFF ∨
      number - sending.nextNumber < 0x7FFFFFFF then (sending, false)
  else
    match sending.remove number with
    | (sending, true) => (sending.findFirstUnacknowledged, true)
    | (sending, false) => (sending, false)

/-- The loop of `handle_fast_ack`: segments before the acked one time out sooner. -/
def hasten (number rto : UInt32) : List Unacked → List Unacked
  | [] => []
  | segment :: rest =>
    if number = segment.number ∨ number - segment.number > 0x7FFFFFFF then segment :: rest
    else
      (if segment.transmit > 0 ∧ segment.timeout > rto / 3 then
        { segment with timeout := segment.timeout - rto / 3 }
      else segment) :: hasten number rto rest

def handleFastAck (sending : SendingWorker) (number rto : UInt32) : SendingWorker :=
  { sending with window := hasten number rto sending.window }

/-- The acks of one segment in order, with the largest and whether it was waited
for. -/
def processAcks : List UInt32 → SendingWorker → UInt32 → Bool → SendingWorker × UInt32 × Bool
  | [], sending, maxAck, maxAckRemoved => (sending, maxAck, maxAckRemoved)
  | number :: numbers, sending, maxAck, maxAckRemoved =>
    let (sending, removed) := sending.processAck number
    if maxAck < number then processAcks numbers sending number removed
    else processAcks numbers sending maxAck maxAckRemoved

def processSegment (sending : SendingWorker) (current : UInt32) (segment : AckSegment)
    (rto : UInt32) (roundTrip : RoundTrip) : SendingWorker × RoundTrip :=
  if sending.closed then (sending, roundTrip)
  else
    let sending := { sending with
      remoteNextNumber :=
        if sending.remoteNextNumber < segment.receivingWindow then segment.receivingWindow
        else sending.remoteNextNumber }
    let sending := sending.processReceivingNext segment.receivingNext
    if segment.numbers.isEmpty then (sending, roundTrip)
    else
      let (sending, maxAck, maxAckRemoved) := processAcks segment.numbers sending 0 false
      if maxAckRemoved then
        let rtt := current - segment.timestamp
        (sending.handleFastAck maxAck rto,
          if rtt < 10000 then roundTrip.update rtt current else roundTrip)
      else (sending, roundTrip)

def push (sending : SendingWorker) (payload : Bytes) : Option SendingWorker :=
  if sending.closed ∨ UInt32.ofNat sending.window.length > sending.windowSize then none
  else
    some { sending with
      window := sending.window ++ [{ number := sending.nextNumber, payload }]
      nextNumber := sending.nextNumber + 1 }

def onPacketLoss (sending : SendingWorker) (lossRate rto : UInt32) (config : Config) :
    SendingWorker :=
  if rto = 0 then sending
  else
    let window := sending.controlWindow
    let window := if lossRate ≥ 15 then 3 * window / 4 else window
    let window := if lossRate ≤ 5 then window + window / 4 else window
    let window := if window < 16 then 16 else window
    { sending with controlWindow := min window config.sendingInFlightSize }

def closeWrite (sending : SendingWorker) : SendingWorker := sending.clear 0xFFFFFFFF

end SendingWorker

/-- A number to be acked: when it was sent, and when to ack it again. -/
structure AckEntry where
  number : UInt32
  timestamp : UInt32
  nextFlush : UInt32

structure AckList where
  entries : List AckEntry := []
  dirty : Bool := false
  mtu : UInt32

/-- The most not-yet-due numbers an ack repeats. -/
def flushCandidates : Nat := 128

namespace AckList

def add (acks : AckList) (number timestamp : UInt32) : AckList :=
  { acks with entries := acks.entries ++ [⟨number, timestamp, 0⟩], dirty := true }

def clear (acks : AckList) (una : UInt32) : AckList :=
  let entries := acks.entries.filter fun entry => !decide (entry.number < una)
  { acks with
    entries
    dirty := acks.dirty || decide (entries.length < acks.entries.length) }

def newSegment (acks : AckList) : AckSegment := AckSegment.new (((acks.mtu.toNat : Int) - 17) / 4)

/-- What the loop of `flush` has gathered: the entries it passed, the segment it
fills, the numbers that are not due, and the segments it wrote. -/
structure Flushing where
  passed : List AckEntry := []
  segment : AckSegment
  candidates : List UInt32 := []
  dirty : Bool
  written : List AckSegment := []

/-- One turn of the loop of `flush`. -/
def flushEntry (acks : AckList) (current rto : UInt32) (flushing : Flushing) (entry : AckEntry) :
    Flushing :=
  if entry.nextFlush > current then
    { flushing with
      passed := flushing.passed ++ [entry]
      candidates :=
        if flushing.candidates.length < flushCandidates then
          flushing.candidates ++ [entry.number]
        else flushing.candidates }
  else
    let segment := { flushing.segment with numbers := flushing.segment.numbers ++ [entry.number] }
    let segment := segment.putTimestamp entry.timestamp
    let passed := flushing.passed ++ [{ entry with nextFlush := current + max (rto / 2) 20 }]
    if segment.isFull then
      { flushing with
        passed
        segment := acks.newSegment
        dirty := false
        written := flushing.written ++ [segment] }
    else { flushing with passed, segment }

/-- Numbers that are not due, as long as the segment takes them. -/
def repeatInto (segment : AckSegment) : List UInt32 → AckSegment
  | [] => segment
  | number :: numbers =>
    if segment.isFull then segment
    else repeatInto { segment with numbers := segment.numbers ++ [number] } numbers

/-- The ack segments due at `current`. -/
def flush (acks : AckList) (current rto : UInt32) : AckList × List AckSegment :=
  let flushing := acks.entries.foldl (acks.flushEntry current rto)
    { segment := acks.newSegment, dirty := acks.dirty }
  if flushing.dirty || !flushing.segment.numbers.isEmpty then
    ({ acks with entries := flushing.passed, dirty := false },
      flushing.written ++ [repeatInto flushing.segment flushing.candidates])
  else ({ acks with entries := flushing.passed, dirty := flushing.dirty }, flushing.written)

end AckList

structure ReceivingWorker where
  /-- Bytes handed over from the window and not read yet. -/
  leftOver : Bytes := []
  window : AList fun _ : UInt32 => Bytes := ∅
  acks : AckList
  nextNumber : UInt32 := 0
  windowSize : UInt32

namespace ReceivingWorker

def new (config : Config) : ReceivingWorker :=
  { acks := { mtu := config.mtu }, windowSize := config.receivingInFlightSize }

def release (receiving : ReceivingWorker) : ReceivingWorker := { receiving with leftOver := [] }

def processSegment (receiving : ReceivingWorker) (segment : DataSegment) : ReceivingWorker :=
  if segment.number - receiving.nextNumber ≥ receiving.windowSize then receiving
  else
    { receiving with
      acks := (receiving.acks.clear segment.sendingNext).add segment.number segment.timestamp
      window :=
        if segment.number ∈ receiving.window then receiving.window
        else receiving.window.insert segment.number segment.payload }

def isDataAvailable (receiving : ReceivingWorker) : Bool :=
  decide (receiving.nextNumber ∈ receiving.window)

lemma entries_lt_of_lookup {window : AList fun _ : UInt32 => Bytes} {number : UInt32}
    {payload : Bytes} (h : window.lookup number = some payload) :
    (window.erase number).entries.length < window.entries.length := by
  have hmem : number ∈ window.keys := AList.lookup_isSome.mp (by rw [h]; rfl)
  have hlen : (window.erase number).keys.length = window.keys.length - 1 := by
    rw [AList.keys_erase, List.length_erase_of_mem hmem]
  have hpos := List.length_pos_of_mem hmem
  simp only [AList.keys, List.keys, List.length_map] at hlen hpos
  omega

/-- The loop of `read`: what is in order goes over to the bytes to be read. -/
def collect (receiving : ReceivingWorker) : ReceivingWorker :=
  match _h : receiving.window.lookup receiving.nextNumber with
  | none => receiving
  | some payload =>
    collect { receiving with
      window := receiving.window.erase receiving.nextNumber
      nextNumber := receiving.nextNumber + 1
      leftOver := receiving.leftOver ++ payload }
termination_by receiving.window.entries.length
decreasing_by exact entries_lt_of_lookup _h

def read (receiving : ReceivingWorker) (size : Nat) : ReceivingWorker × Bytes :=
  let receiving := if receiving.leftOver.isEmpty then receiving.collect else receiving
  ({ receiving with leftOver := receiving.leftOver.drop size }, receiving.leftOver.take size)

end ReceivingWorker

inductive State where
  | active
  /-- Closed here; draining what is left to send. -/
  | readyToClose
  /-- Closed by the peer. -/
  | peerClosed
  /-- Sending terminate commands before going away. -/
  | terminating
  /-- The peer is terminating. -/
  | peerTerminating
  | terminated
deriving DecidableEq

/-- The largest payload a data segment carries. -/
def maxSegmentPayload : Nat := 8192

structure Engine where
  conv : UInt16
  config : Config
  state : State := .active
  stateBeginTime : UInt32 := 0
  lastIncomingTime : UInt32 := 0
  lastPingTime : UInt32 := 0
  mss : UInt32
  roundTrip : RoundTrip
  receiving : ReceivingWorker
  sending : SendingWorker
  /-- Encoded segments to send, one datagram each. -/
  out : List Bytes := []
  /-- A reader should look again. -/
  inputReady : Bool := false
  /-- A writer should look again. -/
  outputReady : Bool := false
  /-- There is something to update. -/
  wakeData : Bool := false

inductive WriteBlocked where
  | closed
  | full
deriving DecidableEq

/-- `chunks`: pieces of `n + 1` bytes, and what is left. -/
def chunks (n : Nat) (data : Bytes) : List Bytes :=
  match data with
  | [] => []
  | b :: data => (b :: data.take n) :: chunks n (data.drop n)
termination_by data.length
decreasing_by simp only [List.length_drop, List.length_cons]; omega

namespace Engine

def new (conv : UInt16) (config : Config) : Engine :=
  { conv
    config
    mss := config.mtu - dataOverhead
    roundTrip := { minRtt := config.tti }
    receiving := .new config
    sending := .new config }

def setState (engine : Engine) (state : State) (current : UInt32) : Engine :=
  let engine := { engine with state, stateBeginTime := current }
  match state with
  | .active | .readyToClose => engine
  | .peerClosed | .terminating | .peerTerminating =>
    { engine with sending := engine.sending.closeWrite }
  | .terminated =>
    { engine with
      wakeData := true
      inputReady := true
      outputReady := true
      sending := engine.sending.closeWrite.release
      receiving := engine.receiving.release }

/-- `Close`: false when the connection was closed already. -/
def close (engine : Engine) (current : UInt32) : Engine × Bool :=
  let engine := { engine with inputReady := true, outputReady := true }
  match engine.state with
  | .readyToClose | .terminating | .terminated => (engine, false)
  | .active => (engine.setState .readyToClose current, true)
  | .peerClosed => (engine.setState .terminating current, true)
  | .peerTerminating => (engine.setState .terminated current, true)

/-- Reads what has arrived in order. `none` at the end of the stream, nothing when
nothing is there yet. -/
def read (engine : Engine) (size : Nat) : Engine × Option Bytes :=
  if engine.state = .readyToClose ∨ engine.state = .terminating ∨ engine.state = .terminated then
    (engine, none)
  else
    let (receiving, got) := engine.receiving.read size
    let engine := { engine with receiving }
    if got ≠ [] then ({ engine with wakeData := true }, some got)
    else if engine.state = .peerTerminating then (engine, none)
    else (engine, some [])

/-- The loop of `write`: pieces until one is not taken, and how many bytes were. -/
def pushAll : List Bytes → Engine → Nat → Engine × Nat
  | [], engine, written => (engine, written)
  | piece :: pieces, engine, written =>
    if engine.state ≠ .active then (engine, written)
    else
      match engine.sending.push piece with
      | none => (engine, written)
      | some sending => pushAll pieces { engine with sending } (written + piece.length)

/-- The payload of the segments `write` makes, less one. -/
def chunkLen (engine : Engine) : Nat := min engine.mss.toNat maxSegmentPayload - 1

/-- Queues as much of `data` as the sending window takes, in segments of at most
the MSS. -/
def write (engine : Engine) (data : Bytes) : Engine × Except WriteBlocked Nat :=
  let (engine, written) := pushAll (chunks engine.chunkLen data) engine 0
  if written > 0 then ({ engine with wakeData := true }, .ok written)
  else (engine, .error (if engine.state = .active then .full else .closed))

def onPeerClosed (engine : Engine) (current : UInt32) : Engine :=
  match engine.state with
  | .readyToClose => engine.setState .terminating current
  | .active => engine.setState .peerClosed current
  | _ => engine

def handleOption (engine : Engine) (option : UInt8) (current : UInt32) : Engine :=
  if option &&& optionClose = optionClose then engine.onPeerClosed current else engine

def inputData (engine : Engine) (segment : DataSegment) (current : UInt32) : Engine :=
  let engine := engine.handleOption segment.option current
  let receiving := engine.receiving.processSegment segment
  { engine with
    receiving
    inputReady := engine.inputReady || receiving.isDataAvailable
    wakeData := true }

def inputAck (engine : Engine) (segment : AckSegment) (current : UInt32) : Engine :=
  let engine := engine.handleOption segment.option current
  let (sending, roundTrip) :=
    engine.sending.processSegment current segment engine.roundTrip.rto engine.roundTrip
  { engine with sending, roundTrip, outputReady := true, wakeData := true }

def onTerminate (engine : Engine) (current : UInt32) : Engine :=
  match engine.state with
  | .active | .peerClosed => engine.setState .peerTerminating current
  | .readyToClose => engine.setState .terminating current
  | .terminating => engine.setState .terminated current
  | .peerTerminating | .terminated => engine

def inputCmd (engine : Engine) (segment : CmdSegment) (current : UInt32) : Engine :=
  let engine := engine.handleOption segment.option current
  let engine := if segment.cmd = cmdTerminate then engine.onTerminate current else engine
  let signalled := segment.option = optionClose ∨ segment.cmd = cmdTerminate
  { engine with
    inputReady := engine.inputReady || signalled
    outputReady := engine.outputReady || signalled
    sending := engine.sending.processReceivingNext segment.receivingNext
    receiving := { engine.receiving with
      acks := engine.receiving.acks.clear segment.sendingNext }
    roundTrip := engine.roundTrip.updatePeerRto segment.peerRto current }

def inputSegments : List Segment → Engine → UInt32 → Engine
  | [], engine, _ => engine
  | segment :: segments, engine, current =>
    if segment.conv ≠ engine.conv then engine
    else
      inputSegments segments
        (match segment with
        | .data segment => engine.inputData segment current
        | .ack segment => engine.inputAck segment current
        | .cmd segment => engine.inputCmd segment current) current

/-- `Input`: the segments of one datagram. -/
def input (engine : Engine) (segments : List Segment) (current : UInt32) : Engine :=
  inputSegments segments { engine with lastIncomingTime := current } current

def closeOption (engine : Engine) : UInt8 :=
  if engine.state = .readyToClose then optionClose else 0

def ping (engine : Engine) (current : UInt32) (cmd : UInt8) : Engine :=
  let segment : CmdSegment :=
    { conv := engine.conv
      cmd
      option := engine.closeOption
      sendingNext := engine.sending.firstUnacknowledged
      receivingNext := engine.receiving.nextNumber
      peerRto := engine.roundTrip.rto }
  { engine with out := engine.out ++ [segment.encode], lastPingTime := current }

def flushAcks (engine : Engine) (current : UInt32) : Engine :=
  let (acks, segments) := engine.receiving.acks.flush current engine.roundTrip.rto
  let addressed := segments.map fun segment => { segment with
    conv := engine.conv
    receivingNext := engine.receiving.nextNumber
    receivingWindow := engine.receiving.nextNumber + engine.receiving.windowSize
    option := engine.closeOption }
  { engine with
    receiving := { engine.receiving with acks }
    out := engine.out ++ addressed.map AckSegment.encode }

/-- What the loop of `flush_data` counts, and the datagrams it makes. -/
structure Sending where
  total : UInt32
  lost : UInt32 := 0
  inFlight : UInt32 := 0
  datagrams : List Bytes := []

/-- The loop of `flush_data`: segments whose time is up are sent, as many as the
window takes. `header` makes the segment of a number, a timestamp and a payload. -/
def sendDue (current rto cwnd : UInt32) (header : UInt32 → UInt32 → Bytes → DataSegment) :
    List Unacked → Sending → List Unacked × Sending
  | [], sending => ([], sending)
  | segment :: rest, sending =>
    if current - segment.timeout ≥ 0x7FFFFFFF then
      let (rest, sending) := sendDue current rto cwnd header rest sending
      (segment :: rest, sending)
    else
      let first := segment.transmit = 0
      let segment := { segment with
        timeout := current + rto
        timestamp := current
        transmit := segment.transmit + 1 }
      let sending := { sending with
        total := if first then sending.total + 1 else sending.total
        lost := if first then sending.lost else sending.lost + 1
        inFlight := sending.inFlight + 1
        datagrams := sending.datagrams ++
          [(header segment.number segment.timestamp segment.payload).encode] }
      if sending.inFlight ≥ cwnd then (segment :: rest, sending)
      else
        let (rest, sending) := sendDue current rto cwnd header rest sending
        (segment :: rest, sending)

def cwnd (engine : Engine) : UInt32 :=
  let sending := engine.sending
  let remote := sending.remoteNextNumber - sending.firstUnacknowledged
  min (min engine.config.sendingInFlightSize remote) sending.controlWindow *
    engine.config.cwndMultiplier

def dataSegment (engine : Engine) (number timestamp : UInt32) (payload : Bytes) : DataSegment :=
  { conv := engine.conv
    option := engine.closeOption
    timestamp
    number
    sendingNext := engine.sending.firstUnacknowledged
    payload }

/-- The part of `flush_data` for a window that is not empty. -/
def sendWindow (engine : Engine) (current : UInt32) : Engine :=
  let (window, sent) := sendDue current engine.roundTrip.rto engine.cwnd engine.dataSegment
    engine.sending.window { total := engine.sending.totalInFlightSize }
  let sending := { engine.sending with window, totalInFlightSize := sent.total }
  let sending :=
    if sent.inFlight > 0 ∧ sent.total ≠ 0 then
      sending.onPacketLoss (sent.lost * 100 / sent.total) engine.roundTrip.rto engine.config
    else sending
  { engine with
    sending := { sending with firstUnacknowledgedUpdated := false }
    out := engine.out ++ sent.datagrams }

def flushData (engine : Engine) (current : UInt32) : Engine :=
  if engine.sending.closed then engine
  else
    let engine := if engine.sending.window.isEmpty then engine else engine.sendWindow current
    let updated := engine.sending.firstUnacknowledgedUpdated
    let engine := { engine with
      sending := { engine.sending with firstUnacknowledgedUpdated := false } }
    if updated then engine.ping current cmdPing else engine

/-- `flush`, the work of both of Xray's updaters. -/
def flush (engine : Engine) (current : UInt32) : Engine :=
  if engine.state = .terminated then engine
  else
    let engine :=
      if engine.state = .active ∧ current - engine.lastIncomingTime ≥ 30000 then
        (engine.close current).1
      else engine
    let engine :=
      if engine.state = .readyToClose ∧ engine.sending.window = [] then
        engine.setState .terminating current
      else engine
    if engine.state = .terminating then
      let engine := engine.ping current cmdTerminate
      if current - engine.stateBeginTime > 8000 then engine.setState .terminated current
      else engine
    else
      let engine :=
        if engine.state = .peerTerminating ∧ current - engine.stateBeginTime > 4000 then
          engine.setState .terminating current
        else engine
      let engine :=
        if engine.state = .readyToClose ∧ current - engine.stateBeginTime > 15000 then
          engine.setState .terminating current
        else engine
      let engine := (engine.flushAcks current).flushData current
      if current - engine.lastPingTime ≥ 3000 then engine.ping current cmdPing else engine

end Engine

end Xray.Kcp
