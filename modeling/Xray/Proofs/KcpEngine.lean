import Xray.Proofs.KcpSegment
import Xray.Proofs.KcpWorkers

/-!
# What one call does to an mKCP engine

* `Truthful` says what a segment claims, of its sender's data and of what its sender
  has received, and `Valid` that an engine's own datagrams claim what is so;
* `Effect` says what a call that neither writes nor reads does to an engine whose
  peer is truthful. It composes, so that `flush`, `close` and `input` have it because
  their steps do;
* `write_pushes` and `read_collects` are about the two calls that are left.
-/

namespace Xray.Kcp

open Bytes List SendingWorker

/-! ## What segments say -/

/-- What a segment says, of the data its sender sends and of the numbers its sender
has, is so. -/
def Truthful (sent : UInt32 → Bytes → Prop) (has : UInt32 → Prop) : Segment → Prop
  | .data segment => sent segment.number segment.payload
  | .ack segment => (∀ n < segment.receivingNext, has n) ∧ ∀ n ∈ segment.numbers, has n
  | .cmd segment => ∀ n < segment.receivingNext, has n

/-- Every segment of a datagram is truthful. -/
def Sound (sent : UInt32 → Bytes → Prop) (has : UInt32 → Prop) (datagram : Bytes) : Prop :=
  ∀ segment ∈ readSegments datagram, Truthful sent has segment

lemma Sound.mono {sent sent' : UInt32 → Bytes → Prop} {has has' : UInt32 → Prop}
    {datagram : Bytes} (h : Sound sent has datagram)
    (hsent : ∀ n payload, sent n payload → sent' n payload) (hhas : ∀ n, has n → has' n) :
    Sound sent' has' datagram := by
  intro segment hsegment
  have htruth := h segment hsegment
  cases segment with
  | data segment => exact hsent _ _ htruth
  | ack segment => exact ⟨fun n hn => hhas n (htruth.1 n hn), fun n hn => hhas n (htruth.2 n hn)⟩
  | cmd segment => exact fun n hn => hhas n (htruth n hn)

lemma Sound.of_singleton {sent : UInt32 → Bytes → Prop} {has : UInt32 → Prop} {datagram : Bytes}
    {segment : Segment} (hread : readSegments datagram = [segment])
    (h : Truthful sent has segment) : Sound sent has datagram := by
  intro segment' hsegment
  rw [hread, mem_singleton] at hsegment
  exact hsegment ▸ h

/-- The sending side is open: what it pushed is still to be delivered. -/
def State.Open (state : State) : Prop := state = .active ∨ state = .readyToClose

namespace Engine

/-- What an engine waits for was sent, what it will ack it has, and what it says is
so. -/
structure Valid (sent : UInt32 → Bytes → Prop) (engine : Engine) : Prop where
  waits : ∀ u ∈ engine.sending.window, sent u.number u.payload
  fits : ∀ u ∈ engine.sending.window, u.payload ≠ [] ∧ u.payload.length ≤ maxSegmentPayload
  names : ∀ n, engine.receiving.acks.Names n → engine.receiving.Has n
  out : ∀ datagram ∈ engine.out, Sound sent engine.receiving.Has datagram

/-- A call that neither writes nor reads, given that the peer has sent `sent` and
has `has`. -/
structure Effect (sent : UInt32 → Bytes → Prop) (has : UInt32 → Prop) (engine engine' : Engine) :
    Prop where
  valid : ∀ mine, engine.Valid mine → engine'.Valid mine
  sending : engine.sending.Loses (fun n => has n ∨ ¬ engine'.state.Open) engine'.sending
  receiving : engine.receiving.Grows sent engine'.receiving
  leftOver : engine'.receiving.leftOver = engine.receiving.leftOver ∨ engine'.state = .terminated
  opened : engine'.state.Open → engine.state.Open
  terminated : engine.state = .terminated → engine'.state = .terminated

namespace Effect

variable {sent : UInt32 → Bytes → Prop} {has : UInt32 → Prop} {engine engine' engine'' : Engine}

lemma trans (h : Effect sent has engine engine') (h' : Effect sent has engine' engine'') :
    Effect sent has engine engine'' where
  valid mine hvalid := h'.valid mine (h.valid mine hvalid)
  sending := (h.sending.mono fun n hn => hn.imp_right fun hshut hopen =>
    hshut (h'.opened hopen)).trans h'.sending
  receiving := h.receiving.trans h'.receiving
  leftOver := by
    rcases h'.leftOver with heq' | hend
    · rcases h.leftOver with heq | hend
      · exact .inl (heq'.trans heq)
      · exact .inr (h'.terminated hend)
    · exact .inr hend
  opened hopen := h.opened (h'.opened hopen)
  terminated hend := h'.terminated (h.terminated hend)

/-- An effect from what happens to the parts. Only the datagrams that are new need
an argument. -/
lemma of_parts
    (hsending : engine.sending.Loses (fun n => has n ∨ ¬ engine'.state.Open) engine'.sending)
    (hreceiving : engine.receiving.Grows sent engine'.receiving)
    (hleft : engine'.receiving.leftOver = engine.receiving.leftOver ∨ engine'.state = .terminated)
    (hopen : engine'.state.Open → engine.state.Open)
    (hend : engine.state = .terminated → engine'.state = .terminated)
    (hout : ∀ mine, engine.Valid mine → ∀ datagram ∈ engine'.out,
      datagram ∈ engine.out ∨ Sound mine engine'.receiving.Has datagram) :
    Effect sent has engine engine' := by
  refine ⟨fun mine hvalid => ?_, hsending, hreceiving, hleft, hopen, hend⟩
  refine ⟨fun u hu => ?_, fun u hu => ?_, fun n hn => ?_, fun datagram hdatagram => ?_⟩
  · obtain ⟨v, hv, hnumber, hpayload⟩ := hsending.window.kept_from u hu
    rw [← hnumber, ← hpayload]
    exact hvalid.waits v hv
  · obtain ⟨v, hv, -, hpayload⟩ := hsending.window.kept_from u hu
    rw [← hpayload]
    exact hvalid.fits v hv
  · rcases hreceiving.names n hn with hold | hmem
    · exact hreceiving.has (hvalid.names n hold)
    · exact .inr hmem
  · rcases hout mine hvalid datagram hdatagram with hold | hnew
    · exact (hvalid.out datagram hold).mono (fun _ _ h => h) fun n hn => hreceiving.has hn
    · exact hnew

lemma of_workers (hsending : engine.sending.Loses has engine'.sending)
    (hreceiving : engine.receiving.Grows sent engine'.receiving)
    (hleft : engine'.receiving.leftOver = engine.receiving.leftOver)
    (hstate : engine'.state = engine.state) (hout : engine'.out = engine.out) :
    Effect sent has engine engine' :=
  of_parts (hsending.mono fun _ hn => .inl hn) hreceiving (.inl hleft) (fun h => hstate ▸ h)
    (fun h => hstate.trans h) fun _ _ _ h => .inl (hout ▸ h)

lemma refl (engine : Engine) : Effect sent has engine engine :=
  of_workers (.refl _) (.refl _) rfl rfl rfl

lemma of_out
    (hsending : engine'.sending = engine.sending) (hreceiving : engine'.receiving = engine.receiving)
    (hstate : engine'.state = engine.state)
    (hout : ∀ mine, engine.Valid mine → ∀ datagram ∈ engine'.out,
      datagram ∈ engine.out ∨ Sound mine engine.receiving.Has datagram) :
    Effect sent has engine engine' :=
  of_parts (hsending ▸ .refl _) (hreceiving ▸ .refl _) (.inl (by rw [hreceiving]))
    (fun h => hstate ▸ h) (fun h => hstate.trans h) (hreceiving ▸ hout)

end Effect

variable {sent : UInt32 → Bytes → Prop} {has : UInt32 → Prop}

section

variable (engine : Engine)

lemma effect_setState (state : State) (current : UInt32) (hopen : state.Open → engine.state.Open)
    (hend : engine.state = .terminated → state = .terminated) :
    Effect sent has engine (engine.setState state current) := by
  -- A state that is not open closes the write side, which may then lose anything.
  have hclosed : ¬ state.Open → engine.sending.Loses (fun n => has n ∨ ¬ state.Open)
      engine.sending.closeWrite := fun hshut =>
    (engine.sending.loses_clear _).mono fun _ _ => .inr hshut
  cases state with
  | active => exact .of_parts (.refl _) (.refl _) (.inl rfl) hopen hend fun _ _ _ h => .inl h
  | readyToClose =>
    exact .of_parts (.refl _) (.refl _) (.inl rfl) hopen hend fun _ _ _ h => .inl h
  | peerClosed | terminating | peerTerminating =>
    exact .of_parts (hclosed (by simp [State.Open])) (.refl _) (.inl rfl) hopen hend
      fun _ _ _ h => .inl h
  | terminated =>
    have hreleased := (hclosed (by simp [State.Open])).trans
      ((loses_release _).mono fun _ _ => .inr (by simp [State.Open]))
    exact .of_parts hreleased (.of_acks rfl rfl fun _ h => h) (.inr rfl) hopen hend
      fun _ _ _ h => .inl h

lemma effect_onPeerClosed (current : UInt32) :
    Effect sent has engine (engine.onPeerClosed current) := by
  rw [onPeerClosed]
  split
  case h_3 => exact .refl _
  all_goals
    next hstate => exact effect_setState _ _ _ (by simp [State.Open]) (by simp [hstate])

lemma effect_handleOption (option : UInt8) (current : UInt32) :
    Effect sent has engine (engine.handleOption option current) := by
  rw [handleOption]
  split
  · exact effect_onPeerClosed _ _
  · exact .refl _

lemma effect_onTerminate (current : UInt32) :
    Effect sent has engine (engine.onTerminate current) := by
  rw [onTerminate]
  split
  case h_5 | h_6 => exact .refl _
  all_goals
    next hstate => exact effect_setState _ _ _ (by simp [State.Open]) (by simp [hstate])

lemma effect_close (current : UInt32) : Effect sent has engine (engine.close current).1 := by
  have hready : Effect sent has engine { engine with inputReady := true, outputReady := true } :=
    .of_workers (.refl _) (.refl _) rfl rfl rfl
  rw [close]
  dsimp only
  split
  · exact hready
  · exact hready
  · exact hready
  · next hstate =>
    refine hready.trans (effect_setState _ .readyToClose current (fun _ => .inl hstate) ?_)
    simp [hstate]
  · next hstate =>
    refine hready.trans (effect_setState _ .terminating current (by simp [State.Open]) ?_)
    simp [hstate]
  · exact hready.trans (effect_setState _ .terminated current (by simp [State.Open]) fun _ => rfl)

lemma effect_inputData (segment : DataSegment) (current : UInt32)
    (h : Truthful sent has (.data segment)) :
    Effect sent has engine (engine.inputData segment current) := by
  refine (effect_handleOption engine segment.option current).trans ?_
  refine .of_workers (.refl _) (ReceivingWorker.grows_processSegment _ segment h) ?_ rfl rfl
  simp only [inputData, ReceivingWorker.processSegment]
  split <;> rfl

lemma effect_inputAck (segment : AckSegment) (current : UInt32)
    (h : Truthful sent has (.ack segment)) :
    Effect sent has engine (engine.inputAck segment current) := by
  refine (effect_handleOption engine segment.option current).trans ?_
  refine .of_workers ?_ (.refl _) rfl rfl rfl
  exact (loses_processSegment _ _ segment _ _).mono fun n hn =>
    hn.elim (h.1 n) (h.2 n)

lemma effect_inputCmd (segment : CmdSegment) (current : UInt32)
    (h : Truthful sent has (.cmd segment)) :
    Effect sent has engine (engine.inputCmd segment current) := by
  refine (effect_handleOption engine segment.option current).trans ?_
  have hterminate : Effect sent has (engine.handleOption segment.option current)
      (if segment.cmd = cmdTerminate then
        (engine.handleOption segment.option current).onTerminate current
      else engine.handleOption segment.option current) := by
    split
    · exact effect_onTerminate _ _
    · exact .refl _
  refine hterminate.trans (.of_workers ?_ ?_ rfl rfl rfl)
  · exact (loses_processReceivingNext _ _).mono h
  · exact .of_acks rfl rfl fun _ hn => AckList.names_of_clear hn

end

lemma effect_inputSegments (segments : List Segment) (engine : Engine) (current : UInt32)
    (h : ∀ segment ∈ segments, Truthful sent has segment) :
    Effect sent has engine (inputSegments segments engine current) := by
  induction segments generalizing engine with
  | nil => exact .refl _
  | cons segment segments ih =>
    have hhead := h segment (.head _)
    have htail := fun e => ih e fun s hs => h s (.tail _ hs)
    unfold inputSegments
    split
    · exact .refl _
    cases segment with
    | data segment => exact (effect_inputData _ segment _ hhead).trans (htail _)
    | ack segment => exact (effect_inputAck _ segment _ hhead).trans (htail _)
    | cmd segment => exact (effect_inputCmd _ segment _ hhead).trans (htail _)

lemma effect_input (engine : Engine) {datagram : Bytes} (current : UInt32)
    (h : Sound sent has datagram) :
    Effect sent has engine (engine.input (readSegments datagram) current) := by
  refine Effect.trans ?_ (effect_inputSegments _ _ _ h)
  exact .of_workers (.refl _) (.refl _) rfl rfl rfl

lemma effect_ping (engine : Engine) (current : UInt32) {cmd : UInt8} (hdata : cmd ≠ cmdData)
    (hack : cmd ≠ cmdAck) : Effect sent has engine (engine.ping current cmd) := by
  refine .of_out rfl rfl rfl fun mine _ datagram hdatagram => ?_
  rcases mem_append.mp hdatagram with hold | hnew
  · exact .inl hold
  · rw [mem_singleton.mp hnew]
    exact .inr (.of_singleton (readSegments_cmd _ hdata hack) fun n hn => .inl hn)

lemma effect_flushAcks (engine : Engine) (current : UInt32) :
    Effect sent has engine (engine.flushAcks current) := by
  obtain ⟨hnames, hacks⟩ := engine.receiving.acks.flush_names current engine.roundTrip.rto
  refine .of_parts (.refl _) (.of_acks rfl rfl hnames) (.inl rfl) (fun h => h) (fun h => h)
    fun mine hvalid datagram hdatagram => ?_
  rcases mem_append.mp hdatagram with hold | hnew
  · exact .inl hold
  obtain ⟨segment, hsegment, rfl⟩ := mem_map.mp hnew
  obtain ⟨plain, hplain, rfl⟩ := mem_map.mp hsegment
  obtain ⟨hlength, hnumbers⟩ := hacks plain hplain
  have hread := readSegments_ack { plain with
    conv := engine.conv
    receivingNext := engine.receiving.nextNumber
    receivingWindow := engine.receiving.nextNumber + engine.receiving.windowSize
    option := engine.closeOption } (Nat.lt_of_le_of_lt hlength (by decide))
  exact .inr (.of_singleton hread ⟨fun n hn => .inl hn, fun n hn => hvalid.names n (hnumbers n hn)⟩)

lemma sendDue_spec (current rto cwnd : UInt32)
    (header : UInt32 → UInt32 → Bytes → DataSegment) (window : List Unacked) (sending : Sending) :
    Sheds (fun _ => False) window (sendDue current rto cwnd header window sending).1 ∧
      ∀ datagram ∈ (sendDue current rto cwnd header window sending).2.datagrams,
        datagram ∈ sending.datagrams ∨ ∃ u ∈ window, ∃ timestamp,
          datagram = (header u.number timestamp u.payload).encode := by
  induction window generalizing sending with
  | nil => exact ⟨.refl _, fun _ h => .inl h⟩
  | cons u window ih =>
    have hlift : ∀ {datagram : Bytes}, (∃ v ∈ window, ∃ timestamp,
        datagram = (header v.number timestamp v.payload).encode) → ∃ v ∈ u :: window,
        ∃ timestamp, datagram = (header v.number timestamp v.payload).encode :=
      fun ⟨v, hv, hdatagram⟩ => ⟨v, .tail _ hv, hdatagram⟩
    have hhead : ∀ {datagram : Bytes} {timestamp : UInt32}, datagram ∈ sending.datagrams ++
        [(header u.number timestamp u.payload).encode] → datagram ∈ sending.datagrams ∨
        ∃ v ∈ u :: window, ∃ timestamp,
          datagram = (header v.number timestamp v.payload).encode := by
      intro datagram timestamp hmem
      rcases mem_append.mp hmem with hold | hnew
      · exact .inl hold
      · exact .inr ⟨u, .head _, timestamp, mem_singleton.mp hnew⟩
    rw [sendDue]
    split
    · obtain ⟨hwindow, hdatagrams⟩ := ih sending
      exact ⟨hwindow.cons rfl rfl, fun d hd => (hdatagrams d hd).imp_right hlift⟩
    dsimp only
    split
    · exact ⟨(Sheds.refl _).cons rfl rfl, fun d hd => hhead hd⟩
    refine ⟨(ih _).1.cons rfl rfl, fun d hd => ?_⟩
    rcases (ih _).2 d hd with hold | hnew
    · exact hhead hold
    · exact .inr (hlift hnew)

lemma onPacketLoss_eq (sending : SendingWorker) (lossRate rto : UInt32) (config : Config) :
    (sending.onPacketLoss lossRate rto config).window = sending.window ∧
      (sending.onPacketLoss lossRate rto config).nextNumber = sending.nextNumber := by
  rw [onPacketLoss]
  split <;> exact ⟨rfl, rfl⟩

lemma effect_sendWindow (engine : Engine) (current : UInt32) :
    Effect sent has engine (engine.sendWindow current) := by
  obtain ⟨hwindow, hdatagrams⟩ := sendDue_spec current engine.roundTrip.rto engine.cwnd
    engine.dataSegment engine.sending.window { total := engine.sending.totalInFlightSize }
  rw [sendWindow]
  generalize sendDue current engine.roundTrip.rto engine.cwnd engine.dataSegment
    engine.sending.window { total := engine.sending.totalInFlightSize } = result
    at hwindow hdatagrams ⊢
  obtain ⟨window, due⟩ := result
  dsimp only at hwindow hdatagrams ⊢
  generalize hsending : (if due.inFlight > 0 ∧ due.total ≠ 0 then _ else _ : SendingWorker) = sending
  obtain ⟨hsame, hnext⟩ : sending.window = window ∧
      sending.nextNumber = engine.sending.nextNumber := by
    rw [← hsending]
    split
    · exact onPacketLoss_eq _ _ _ _
    · exact ⟨rfl, rfl⟩
  refine .of_parts ⟨?_, hnext⟩ (.refl _) (.inl rfl) (fun h => h) (fun h => h) ?_
  · rw [hsame]
    exact hwindow.mono fun _ h => h.elim
  intro mine hvalid datagram hdatagram
  rcases mem_append.mp hdatagram with hold | hnew
  · exact .inl hold
  rcases hdatagrams datagram hnew with hnil | ⟨u, hu, timestamp, rfl⟩
  · simp at hnil
  obtain ⟨hne, hle⟩ := hvalid.fits u hu
  have hread := readSegments_data (engine.dataSegment u.number timestamp u.payload) hne
    (Nat.lt_of_le_of_lt hle (by decide))
  exact .inr (.of_singleton hread (hvalid.waits u hu))

lemma Effect.of_ite {engine engine' : Engine} {c : Prop} [Decidable c]
    (h : c → Effect sent has engine engine') :
    Effect sent has engine (if c then engine' else engine) := by
  split
  · next hc => exact h hc
  · exact .refl _

lemma effect_flushData (engine : Engine) (current : UInt32) :
    Effect sent has engine (engine.flushData current) := by
  rw [flushData]
  split
  · exact .refl _
  extract_lets engine₁ updated sending engine₂
  have hwindow : Effect sent has engine engine₁ := by
    change Effect sent has engine (if _ then _ else _)
    split
    · exact .refl _
    · exact engine.effect_sendWindow current
  have hupdated : Effect sent has engine₁ engine₂ :=
    .of_workers ⟨.refl _, rfl⟩ (.refl _) rfl rfl rfl
  exact (hwindow.trans hupdated).trans
    (.of_ite fun _ => engine₂.effect_ping current (by decide) (by decide))

lemma effect_flush (engine : Engine) (current : UInt32) :
    Effect sent has engine (engine.flush current) := by
  have hset : ∀ (e : Engine) (state : State), ¬ state.Open → e.state ≠ .terminated →
      Effect sent has e (e.setState state current) := fun e state hshut hne =>
    e.effect_setState state current (fun h => absurd h hshut) fun h => absurd h hne
  have hterminating : ¬ State.terminating.Open := by simp [State.Open]
  rw [flush]
  split
  · exact .refl _
  extract_lets engine₁ engine₂ engine₃ engine₄ engine₅ engine₆
  have hidle : Effect sent has engine engine₁ := .of_ite fun _ => engine.effect_close current
  have hdrained : Effect sent has engine₁ engine₂ :=
    .of_ite fun hc => hset _ _ hterminating (by simp [hc.1])
  refine (hidle.trans hdrained).trans ?_
  split
  · next hstate =>
    have hping : Effect sent has engine₂ engine₃ :=
      engine₂.effect_ping current (by decide) (by decide)
    have hne : engine₃.state ≠ .terminated := by
      change engine₂.state ≠ .terminated
      simp [hstate]
    exact hping.trans (.of_ite fun _ => hset _ _ (by simp [State.Open]) hne)
  · have hleft : Effect sent has engine₂ engine₄ :=
      .of_ite fun hc => hset _ _ hterminating (by simp [hc.1])
    have hlong : Effect sent has engine₄ engine₅ :=
      .of_ite fun hc => hset _ _ hterminating (by simp [hc.1])
    have hsent : Effect sent has engine₅ engine₆ :=
      (engine₅.effect_flushAcks current).trans (effect_flushData _ current)
    exact ((hleft.trans hlong).trans hsent).trans
      (.of_ite fun _ => engine₆.effect_ping current (by decide) (by decide))

end Engine

lemma flatten_chunks (n : Nat) (data : Bytes) : (chunks n data).flatten = data := by
  fun_induction chunks n data with
  | case1 => rfl
  | case2 b data ih => rw [flatten_cons, ih, cons_append, take_append_drop]

lemma chunks_bounds (n : Nat) (data : Bytes) :
    ∀ piece ∈ chunks n data, piece ≠ [] ∧ piece.length ≤ n + 1 := by
  fun_induction chunks n data with
  | case1 => simp
  | case2 b data ih =>
    refine forall_mem_cons.mpr ⟨⟨by simp, ?_⟩, ih⟩
    rw [length_cons, length_take]
    omega

/-- The pieces as segments, numbered on from `number`. -/
def numbered : UInt32 → List Bytes → List Unacked
  | _, [] => []
  | number, payload :: pieces => { number, payload } :: numbered (number + 1) pieces

namespace Engine

/-- The pieces go to the end of the sending window, and nothing else happens. -/
structure Pushes (pieces : List Bytes) (engine engine' : Engine) : Prop where
  window : engine'.sending.window =
    engine.sending.window ++ numbered engine.sending.nextNumber pieces
  nextNumber : engine'.sending.nextNumber =
    engine.sending.nextNumber + UInt32.ofNat pieces.length
  receiving : engine'.receiving = engine.receiving
  out : engine'.out = engine.out
  state : engine'.state = engine.state

lemma Pushes.nil (engine : Engine) : Pushes [] engine engine :=
  ⟨by simp [numbered], by simp, rfl, rfl, rfl⟩

lemma pushAll_pushes (pieces : List Bytes) (engine : Engine) (written : Nat) :
    ∃ taken, taken <+: pieces ∧ Pushes taken engine (pushAll pieces engine written).1 ∧
      (pushAll pieces engine written).2 = written + taken.flatten.length := by
  induction pieces generalizing engine written with
  | nil => exact ⟨[], nil_prefix, .nil _, rfl⟩
  | cons piece pieces ih =>
    rw [pushAll]
    split
    · exact ⟨[], nil_prefix, .nil _, rfl⟩
    split
    · exact ⟨[], nil_prefix, .nil _, rfl⟩
    next sending hpush =>
    rw [push] at hpush
    split at hpush
    · simp at hpush
    obtain ⟨taken, htaken, hpushes, hwritten⟩ :=
      ih { engine with sending } (written + piece.length)
    cases hpush
    refine ⟨piece :: taken, cons_prefix_cons.mpr ⟨rfl, htaken⟩, ?_, ?_⟩
    · refine ⟨?_, ?_, hpushes.receiving, hpushes.out, hpushes.state⟩
      · rw [hpushes.window, append_assoc]
        rfl
      · rw [hpushes.nextNumber, length_cons, UInt32.ofNat_add]
        simp only [UInt32.ofNat_one]
        ac_rfl
    · rw [hwritten, flatten_cons, length_append, Nat.add_assoc]

def taken : Except WriteBlocked Nat → Nat
  | .ok written => written
  | .error _ => 0

lemma write_pushes (engine : Engine) (data : Bytes) :
    ∃ pieces, Pushes pieces engine (engine.write data).1 ∧
      (∀ piece ∈ pieces, piece ≠ [] ∧ piece.length ≤ maxSegmentPayload) ∧
      pieces.flatten = data.take (taken (engine.write data).2) := by
  obtain ⟨pieces, hpieces, hpushes, hwritten⟩ :=
    pushAll_pushes (chunks engine.chunkLen data) engine 0
  have hflatten : pieces.flatten = data.take (pushAll (chunks engine.chunkLen data) engine 0).2 := by
    obtain ⟨rest, hrest⟩ := hpieces
    have hdata := flatten_chunks engine.chunkLen data
    rw [← hrest, flatten_append] at hdata
    rw [hwritten, Nat.zero_add, ← hdata, take_left]
  have hbounds : ∀ piece ∈ pieces, piece ≠ [] ∧ piece.length ≤ maxSegmentPayload := by
    intro piece hpiece
    obtain ⟨hne, hle⟩ := chunks_bounds _ _ piece (hpieces.subset hpiece)
    refine ⟨hne, ?_⟩
    simp only [chunkLen, maxSegmentPayload] at hle ⊢
    omega
  refine ⟨pieces, ?_, hbounds, ?_⟩
  · rw [write]
    dsimp only
    split
    · exact ⟨hpushes.window, hpushes.nextNumber, hpushes.receiving, hpushes.out, hpushes.state⟩
    · exact hpushes
  · rw [hflatten, write]
    dsimp only
    split
    · rfl
    next hzero =>
    have hnone : (pushAll (chunks engine.chunkLen data) engine 0).2 = 0 := by omega
    rw [hnone]
    rfl

end Engine

/-- The loop of `read` keeps what each of its turns keeps. -/
lemma ReceivingWorker.collect_keeps {P : ReceivingWorker → Prop}
    (hturn : ∀ (receiving : ReceivingWorker) payload,
      receiving.window.lookup receiving.nextNumber = some payload → P receiving →
      P { receiving with
        window := receiving.window.erase receiving.nextNumber
        nextNumber := receiving.nextNumber + 1
        leftOver := receiving.leftOver ++ payload })
    (receiving : ReceivingWorker) (h : P receiving) : P receiving.collect := by
  fun_induction ReceivingWorker.collect receiving with
  | case1 => exact h
  | case2 receiving payload hlookup ih => exact ih (hturn receiving payload hlookup h)

namespace Engine

/-- A read that is let through hands over the front of what is in order. -/
structure Reads (size : Nat) (engine : Engine) (result : Engine × Option Bytes) : Prop where
  collected : ∃ receiving,
    (receiving = engine.receiving ∨ receiving = engine.receiving.collect) ∧
    result.1.receiving = { receiving with leftOver := receiving.leftOver.drop size } ∧
    result.2.getD [] = receiving.leftOver.take size
  sending : result.1.sending = engine.sending
  out : result.1.out = engine.out
  state : result.1.state = engine.state

lemma read_collects (engine : Engine) (size : Nat) : engine.read size = (engine, none) ∨
      engine.state ≠ .terminated ∧ Reads size engine (engine.read size) := by
  rw [read]
  split
  · exact .inl rfl
  next hstate =>
  refine .inr ⟨fun hend => hstate (.inr (.inr hend)), ?_⟩
  have hcollected : ∃ receiving,
      (receiving = engine.receiving ∨ receiving = engine.receiving.collect) ∧
      engine.receiving.read size =
        ({ receiving with leftOver := receiving.leftOver.drop size },
          receiving.leftOver.take size) := by
    rw [ReceivingWorker.read]
    split
    · exact ⟨_, .inr rfl, rfl⟩
    · exact ⟨_, .inl rfl, rfl⟩
  obtain ⟨receiving, hreceiving, hread⟩ := hcollected
  rw [hread]
  dsimp only
  split
  · exact ⟨⟨receiving, hreceiving, rfl, rfl⟩, rfl, rfl, rfl⟩
  next hnil =>
  have hnone : receiving.leftOver.take size = [] := not_not.mp hnil
  split <;> exact ⟨⟨receiving, hreceiving, rfl, hnone.symm⟩, rfl, rfl, rfl⟩

end Engine

end Xray.Kcp
