import Xray.Proofs.KcpDelivery

/-!
# The end of an mKCP stream

A side that stops draining because its sending window is empty has seen every segment acked, so
its peer has them all, and keeps what is not read. The peer ends the stream when nothing is left
to read; four seconds after it was told, though, it ends it in any case.
-/

namespace Xray.Kcp

open Bytes

namespace Engine

/-- A flush closes the side: nothing has come in for thirty seconds. -/
def Idle (engine : Engine) (current : UInt32) : Prop :=
  engine.state = .active ∧ current - engine.lastIncomingTime ≥ 30000

/-- A flush ends the draining, as nothing waits for its ack. -/
def Drains (engine : Engine) (current : UInt32) : Prop :=
  engine.sending.window = [] ∧ (engine.state = .readyToClose ∨ engine.Idle current)

/-- A flush ends the stream that the peer has ended, read or not. -/
def GivesUp (engine : Engine) (current : UInt32) : Prop :=
  engine.state = .peerTerminating ∧ current - engine.stateBeginTime > 4000

end Engine

/-- What a party may do that does not close, flushed only at times that are allowed. -/
inductive Stays (allowed : Engine → UInt32 → Prop) (peer party : Party) : Party → Prop where
  | write (data : Bytes) : Stays allowed peer party (party.write data)
  | read (size : Nat) : Stays allowed peer party (party.read size)
  | flush {current : UInt32} (h : allowed party.engine current) :
      Stays allowed peer party (party.flush current)
  | send : Stays allowed peer party party.send
  | input {datagram : Bytes} (h : datagram ∈ peer.network) (current : UInt32) :
      Stays allowed peer party (party.input datagram current)

/-- The runs in which the second party stays, with whether the first has drained. -/
inductive Runs (conv : UInt16) (allowed : Engine → UInt32 → Prop) : Bool → Party → Party → Prop where
  | start {settings settings' : KcpConfig} {config config' : Config}
      (h : settings.engineConfig = .ok config) (h' : settings'.engineConfig = .ok config') :
      Runs conv allowed false (.new conv config) (.new conv config')
  | left {drained : Bool} {a a' b : Party} :
      Runs conv allowed drained a b → Act b a a' → Runs conv allowed drained a' b
  | drains {drained : Bool} {a b : Party} {current : UInt32} :
      Runs conv allowed drained a b → a.engine.Drains current →
      Runs conv allowed true (a.flush current) b
  | right {drained : Bool} {a b b' : Party} :
      Runs conv allowed drained a b → Stays allowed a b b' → Runs conv allowed drained a b'

lemma Stays.act {allowed : Engine → UInt32 → Prop} {a a' b : Party} (h : Stays allowed b a a') :
    Act b a a' := by
  cases h with
  | write data => exact .write data
  | read size => exact .read size
  | flush => exact .flush _
  | send => exact .send
  | input h current => exact .input h current

lemma Runs.reachable {conv : UInt16} {allowed : Engine → UInt32 → Prop} {drained : Bool}
    {a b : Party} (h : Runs conv allowed drained a b) : Reachable conv a b := by
  induction h with
  | start h h' => exact .start h h'
  | left _ hact ih => exact ih.left hact
  | drains _ _ ih => exact ih.left (.flush _)
  | right _ hstays ih => exact ih.right hstays.act

/-! ## The side that has drained -/

namespace Engine

lemma not_open_flush {engine : Engine} {current : UInt32} (h : engine.Drains current) :
    ¬ (engine.flush current).state.Open := by
  obtain ⟨hwindow, hstate⟩ := h
  rcases hstate with hstate | ⟨hstate, hidle⟩
  · simp only [flush, hstate, hwindow, reduceCtorEq, if_false, false_and, true_and, if_true, setState,
      ping]
    split <;> simp [State.Open]
  · simp only [flush, hstate, hidle, close, hwindow, reduceCtorEq, if_false, true_and, if_true,
      setState, ping]
    split <;> simp [State.Open]

lemma write_of_shut {engine : Engine} (h : ¬ engine.state.Open) (data : Bytes) :
    engine.write data = (engine, .error .closed) := by
  have hactive : engine.state ≠ .active := fun heq => h (.inl heq)
  have hnone : ∀ pieces, pushAll pieces engine 0 = (engine, 0) := by
    intro pieces
    cases pieces with
    | nil => rfl
    | cons piece pieces => rw [pushAll, if_pos hactive]
  rw [write, hnone]
  simp [hactive]

end Engine

section

variable {a a' b : Party}

lemma Act.effect (hact : Act b a a') (hinv : Invariant a b) :
    (∃ data, a' = a.write data) ∨ (∃ size, a' = a.read size) ∨
      a.engine.Effect b.sent b.engine.receiving.Has a'.engine ∧ a'.payloads = a.payloads := by
  cases hact with
  | write data => exact .inl ⟨data, rfl⟩
  | read size => exact .inr (.inl ⟨size, rfl⟩)
  | flush current => exact .inr (.inr ⟨a.engine.effect_flush current, rfl⟩)
  | close current => exact .inr (.inr ⟨a.engine.effect_close current, rfl⟩)
  | send => exact .inr (.inr ⟨.of_out rfl rfl rfl fun _ _ _ h => absurd h List.not_mem_nil, rfl⟩)
  | input hdatagram current =>
    exact .inr (.inr ⟨a.engine.effect_input current (hinv.right.network _ hdatagram), rfl⟩)

lemma Act.shut (hact : Act b a a') (hinv : Invariant a b) (h : ¬ a.engine.state.Open) :
    ¬ a'.engine.state.Open ∧ a'.payloads = a.payloads := by
  rcases hact.effect hinv with ⟨data, rfl⟩ | ⟨size, rfl⟩ | ⟨heffect, hpayloads⟩
  · rw [Party.write, Engine.write_of_shut h]
    exact ⟨h, by simp [Party.payloads]⟩
  · refine ⟨fun hopen => h ?_, rfl⟩
    rcases a.engine.read_collects size with hnone | ⟨-, hreads⟩
    · rwa [Party.read, hnone] at hopen
    · rw [← hreads.state]
      exact hopen
  · exact ⟨fun hopen => h (heffect.opened hopen), hpayloads⟩

lemma Act.view_le (hact : Act b a a') (hinv : Invariant a b) (hb : b.pushed.length < 2 ^ 32 - 1) :
    a.engine.receiving.view.Le a'.engine.receiving.view := by
  rcases hact.effect hinv with ⟨data, rfl⟩ | ⟨size, rfl⟩ | ⟨heffect, -⟩
  · obtain ⟨pieces, hwrote⟩ := a.wrote_write data
    rw [hwrote.pushes.receiving]
    exact .refl _
  · rcases a.engine.read_collects size with hnone | ⟨hend, hreads⟩
    · rw [Party.read, hnone]
      exact .refl _
    obtain ⟨receiving, hreceiving, hresult, -⟩ := hreads.collected
    have hle := (hinv.collected hend hreceiving hb).le
    show a.engine.receiving.view.Le (a.engine.read size).1.receiving.view
    rw [hresult]
    exact hle
  · exact heffect.view_le

end

/-- Once a side has drained, its peer has all that it pushed, and it pushes no more. -/
lemma Runs.drained {conv : UInt16} {allowed : Engine → UInt32 → Prop} {drained : Bool}
    {a b : Party} (h : Runs conv allowed drained a b) (ha : a.pushed.length < 2 ^ 32 - 1)
    (hb : b.pushed.length < 2 ^ 32 - 1) (hdrained : drained) :
    ¬ a.engine.state.Open ∧ ∀ i < a.payloads.length, b.engine.receiving.view.Has i := by
  induction h with
  | start => cases hdrained
  | left hruns hact ih =>
    have ha' := Nat.lt_of_le_of_lt hact.pushed_le ha
    obtain ⟨hshut, hall⟩ := ih ha' hb hdrained
    obtain ⟨hshut', hpayloads⟩ := hact.shut (hruns.reachable.invariant ha' hb) hshut
    exact ⟨hshut', hpayloads ▸ hall⟩
  | drains hruns hdrains ih =>
    refine ⟨Engine.not_open_flush hdrains, fun i hi => ?_⟩
    obtain ⟨hwindow, hstate⟩ := hdrains
    have hopen := hstate.symm.imp_left And.left
    rcases (hruns.reachable.invariant ha hb).forth.covered hopen i hi with ⟨u, hu, -⟩ | hhas
    · rw [hwindow] at hu
      cases hu
    · exact hhas
  | right hruns hstays ih =>
    have hb' := Nat.lt_of_le_of_lt hstays.act.pushed_le hb
    obtain ⟨hshut, hall⟩ := ih ha hb' hdrained
    refine ⟨hshut, fun i hi => ?_⟩
    exact (hstays.act.view_le (hruns.reachable.invariant ha hb').symm ha).has i (hall i hi)

/-! ## The side that reads -/

namespace Engine

variable {engine : Engine} {current : UInt32}

/-- The side has not been closed, and the stream goes on as long as there is something to read. -/
def Reading (engine : Engine) : Prop :=
  engine.state = .active ∨ engine.state = .peerClosed ∨ engine.state = .peerTerminating

lemma Reading.handleOption (h : engine.Reading) (option : UInt8) :
    (engine.handleOption option current).Reading := by
  rw [Engine.handleOption, onPeerClosed]
  split
  · rcases h with h | h | h <;> simp [h, Reading, setState]
  · exact h

lemma Reading.onTerminate (h : engine.Reading) : (engine.onTerminate current).Reading := by
  rw [Engine.onTerminate]
  rcases h with h | h | h <;> simp [h, Reading, setState]

lemma Reading.inputSegments {segments : List Segment} (h : engine.Reading) :
    (inputSegments segments engine current).Reading := by
  induction segments generalizing engine with
  | nil => exact h
  | cons segment segments ih =>
    unfold Engine.inputSegments
    split
    · exact h
    refine ih ?_
    cases segment with
    | data segment | ack segment => exact h.handleOption segment.option
    | cmd segment =>
      have hoption : (engine.handleOption segment.option current).Reading :=
        h.handleOption segment.option
      show (if segment.cmd = cmdTerminate then _ else _ : Engine).Reading
      split
      · exact hoption.onTerminate
      · exact hoption

lemma state_flushData (engine : Engine) : (engine.flushData current).state = engine.state := by
  rw [flushData]
  split
  · rfl
  · dsimp only
    split <;> split <;> rfl

lemma Reading.flush (h : engine.Reading) (hidle : ¬ engine.Idle current)
    (hgives : ¬ engine.GivesUp current) : (engine.flush current).Reading := by
  have hstate : (engine.flush current).state = engine.state := by
    have hready : engine.state ≠ .readyToClose := by rcases h with h | h | h <;> simp [h]
    have hterminating : engine.state ≠ .terminating := by rcases h with h | h | h <;> simp [h]
    rw [Idle] at hidle
    rw [GivesUp] at hgives
    simp only [Engine.flush, hidle, hready, hterminating, hgives, if_false, false_and]
    split
    · rfl
    · split <;> exact state_flushData _
  rw [Reading, hstate]
  exact h

end Engine

/-- Neither closes the side nor gives up on its reader. -/
def patient (engine : Engine) (current : UInt32) : Prop :=
  ¬ engine.Idle current ∧ ¬ engine.GivesUp current

lemma Stays.reading {a b b' : Party} (hstays : Stays patient a b b') (h : b.engine.Reading) :
    b'.engine.Reading := by
  cases hstays with
  | write data =>
    obtain ⟨pieces, hwrote⟩ := b.wrote_write data
    rwa [Engine.Reading, hwrote.pushes.state]
  | read size =>
    rcases b.engine.read_collects size with hnone | ⟨-, hreads⟩
    · rwa [Party.read, hnone]
    · show (b.engine.read size).1.Reading
      rwa [Engine.Reading, hreads.state]
  | flush hpatient => exact h.flush hpatient.1 hpatient.2
  | send => exact h
  | input _ current =>
    have hcurrent : { b.engine with lastIncomingTime := current }.Reading := h
    exact hcurrent.inputSegments

lemma Runs.reading {conv : UInt16} {drained : Bool} {a b : Party}
    (h : Runs conv patient drained a b) : b.engine.Reading := by
  induction h with
  | start => exact .inl rfl
  | left _ _ ih => exact ih
  | drains _ _ ih => exact ih
  | right _ hstays ih => exact hstays.reading ih

lemma ReceivingWorker.lookup_collect (receiving : ReceivingWorker) :
    receiving.collect.window.lookup receiving.collect.nextNumber = none := by
  fun_induction ReceivingWorker.collect receiving with
  | case1 receiving hnone => exact hnone
  | case2 receiving payload hlookup ih => exact ih

/-- A read with room for a byte ends the stream only when nothing is left. -/
lemma Engine.read_none {engine : Engine} {size : Nat} (h : engine.Reading) (hsize : 0 < size)
    (hread : (engine.read size).2 = none) : engine.receiving.collect.leftOver = [] := by
  rw [Engine.read, if_neg (by rcases h with h | h | h <;> simp [h])] at hread
  dsimp only at hread
  split at hread
  · cases hread
  next hnil =>
  have htake : (engine.receiving.read size).2 = [] := not_not.mp hnil
  have hnone := (List.take_eq_nil_iff.mp htake).resolve_left (by omega)
  split at hnone
  · exact hnone
  next hsome =>
  exact absurd hnone (by simpa using hsome)

/-- **The end of the stream is complete.** Where a side has drained before it left, a read of its
peer that has room for a byte ends the stream only when all that was written has been returned:
as long as the peer has not closed, was not idle for thirty seconds, and was not flushed more than
four seconds after it was told. -/
theorem mkcp_end_is_complete {conv : UInt16} {a b : Party} {size : Nat}
    (h : Runs conv patient true a b) (ha : a.pushed.length < 2 ^ 32 - 1)
    (hb : b.pushed.length < 2 ^ 32 - 1) (hsize : 0 < size)
    (hread : (b.engine.read size).2 = none) : b.returned = a.accepted := by
  have hinv := h.reachable.invariant ha hb
  obtain ⟨-, hall⟩ := h.drained ha hb rfl
  have hreading := h.reading
  have hend : b.engine.state ≠ .terminated := by
    rcases hreading with hstate | hstate | hstate <;> simp [hstate]
  have hcollected := hinv.symm.collected hend (.inr rfl) ha
  have hinOrder := hcollected.inOrder
  rw [Engine.read_none hreading hsize hread, List.append_nil, List.take_of_length_le] at hinOrder
  · rw [hinOrder, hinv.left.accepted]
  by_contra hmore
  rcases hcollected.le.has _ (hall _ (Nat.lt_of_not_le hmore)) with hlt | ⟨payload, n, hn, hkept⟩
  · exact Nat.lt_irrefl _ hlt
  · rw [UInt32.toNat_inj.mp hn, ReceivingWorker.lookup_collect] at hkept
    cases hkept

/-- The writer, told that its bytes have arrived, closes and drains. -/
def drainedWriter : Party :=
  (((writer.input (firstDatagram reader) 50).close 60).flush 70).send

def toldReader : Party := reader.input (drainedWriter.network.getLastD []) 80

lemma runs_toldReader {allowed : Engine → UInt32 → Prop}
    (hallowed : allowed (((((Party.new 7 plainConfig).input (firstDatagram writer) 20).input
      (firstDatagram writer) 30).read 2).engine) 40) :
    Runs 7 allowed true drainedWriter toldReader := by
  have hdata : firstDatagram writer ∈ writer.network := by decide +kernel
  have hack : firstDatagram reader ∈ reader.network := by decide +kernel
  have htold : drainedWriter.network.getLastD [] ∈ drainedWriter.network := by decide +kernel
  have hconfig : plainSettings.engineConfig = .ok plainConfig := rfl
  have hwriter : Runs 7 allowed false writer (.new 7 plainConfig) :=
    (((Runs.start hconfig hconfig).left (.write _)).left (.flush _)).left .send
  have hreader : Runs 7 allowed false writer reader :=
    ((((hwriter.right (.input hdata _)).right (.input hdata _)).right (.read _)).right
      (.flush hallowed)).right .send
  have hdrains : ((writer.input (firstDatagram reader) 50).close 60).engine.Drains 70 :=
    ⟨by decide +kernel, .inl (by decide +kernel)⟩
  exact ((((hreader.left (.input hack 50)).left (.close 60)).drains hdrains).left .send).right
    (.input htold 80)

lemma runs_patient : Runs 7 patient true drainedWriter toldReader := by
  refine runs_toldReader ⟨?_, ?_⟩
  · rw [Engine.Idle]
    decide +kernel
  · rw [Engine.GivesUp]
    decide +kernel

/-- The byte is read, and then the stream ends. -/
theorem mkcp_end_after_last_byte : (toldReader.read 10).returned = [1, 2, 3] := by
  have hread : ((toldReader.read 10).engine.read 10).2 = none := by decide +kernel
  exact (mkcp_end_is_complete (runs_patient.right (.read 10)) (by decide +kernel)
    (by decide +kernel) (by decide) hread).trans (by decide +kernel)

/-- Four seconds later the stream ends before the byte is read, and a read without room ends it
at any time. -/
theorem mkcp_end_loses_unread_byte :
    (∃ b, Runs 7 (fun engine current => ¬ engine.Idle current) true drainedWriter b ∧
      (b.engine.read 10).2 = none ∧ b.returned ≠ drainedWriter.accepted) ∧
    Runs 7 patient true drainedWriter toldReader ∧ (toldReader.engine.read 0).2 = none ∧
      toldReader.returned ≠ drainedWriter.accepted := by
  have hidle : ∀ {engine : Engine} {current : UInt32},
      engine.state ≠ .active → ¬ engine.Idle current := fun hstate hidle => hstate hidle.1
  refine ⟨⟨toldReader.flush 4081, (runs_toldReader ?_).right (.flush (hidle (by decide +kernel))),
    by decide +kernel, by decide +kernel⟩, runs_patient, by decide +kernel, by decide +kernel⟩
  rw [Engine.Idle]
  decide +kernel

end Xray.Kcp
