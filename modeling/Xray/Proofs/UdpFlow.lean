import Xray.Lib.Fallible
import Xray.Vless.UdpFlow

/-!
# The downlink of a VLESS UDP flow

The future that reads a response is not safe to drop: the bytes it has taken of a
frame are gone with it, and the next one takes what follows for the beginning of a
frame. The two loops drop it whenever another branch wins.

* `Response` is a frame a server may send, in either framing; a turn of the reader
  reads it and nothing beyond (`TunSettings.reads`, `SocksSettings.reads`);
* `Kept` says that a flow is in step with the frames while it lasts, and what has been
  passed on when it is over. A poll keeps it, and so does another branch that wins while
  the future has not begun (`Calm`);
* so a run of calm steps delivers every response once, in order and with its source.
-/

namespace Xray.Vless

open Bytes Routing

lemma decodeAddrPort_encode {target : Target} {address : Bytes}
    (h : encodeAddrPort target = .ok address) (hnetwork : target.network = .udp)
    (hutf8 : ∀ name, target.addr = .domain name → isUtf8 name) (more : Bytes) :
    decodeAddrPort (address ++ more) = .ok target := by
  obtain ⟨addr, port, network⟩ := target
  obtain rfl : network = .udp := hnetwork
  have hport : UInt16.ofNat (ofBe (toBe 2 port.toNat)) = port := by
    have hlt : port.toNat < 256 ^ 2 := port.toNat_lt
    rw [ofBe_toBe_of_lt hlt, UInt16.ofNat_toNat]
  obtain ⟨p₁, p₂, hbytes⟩ : ∃ p₁ p₂, toBe 2 port.toNat = [p₁, p₂] := ⟨_, _, rfl⟩
  rw [hbytes] at hport
  simp only [encodeAddrPort, hbytes] at h
  cases addr with
  | ip ip =>
    cases ip with
    | v4 ip =>
      cases h
      have hip : ofBe (toBe 4 ip.toNat) = ip.toNat := ofBe_toBe_of_lt ip.isLt
      simp only [List.cons_append, List.nil_append, decodeAddrPort, hport]
      rw [List.take_left' (length_toBe 4 _), hip, BitVec.ofNat_toNat]
      rfl
    | v6 ip =>
      cases h
      have hip : ofBe (toBe 16 ip.toNat) = ip.toNat := ofBe_toBe_of_lt ip.isLt
      simp only [List.cons_append, List.nil_append, decodeAddrPort, hport]
      rw [List.take_left' (length_toBe 16 _), hip, BitVec.ofNat_toNat]
      rfl
  | domain name =>
    dsimp only at h
    split at h
    · next hlt =>
      cases h
      have hlen : (UInt8.ofNat name.length).toNat = name.length := UInt8.toNat_ofNat_of_lt' hlt
      simp only [List.cons_append, List.nil_append, decodeAddrPort,
        show addrDomain ≠ addrIpv4 by decide, show addrDomain ≠ addrIpv6 by decide, if_false,
        if_true, hport, hlen]
      rw [if_neg (by simp), List.take_left, if_pos (hutf8 name rfl)]
    · simp at h

inductive XudpCommand where
  | new
  | keep
  | discard
deriving DecidableEq

def XudpCommand.toByte : XudpCommand → UInt8
  | .new => xudpCmdNew
  | .keep => xudpCmdKeep
  | .discard => xudpCmdDiscard

/-- An XUDP frame as a server may send it. -/
structure XudpFrame where
  id : UInt8 × UInt8
  command : XudpCommand
  /-- `XUDP_OPT_DATA`, and a payload follows; any other, and none does. -/
  option : UInt8
  source : Option Target
  /-- What the metadata holds behind the address, such as a global ID. -/
  trailer : Bytes
  payload : Bytes
deriving DecidableEq

namespace XudpFrame

/-- The address as `encode_addr_port` writes it, with the network in front. -/
def address (frame : XudpFrame) : Bytes :=
  match frame.source with
  | none => []
  | some source => xudpNetworkUdp :: ((encodeAddrPort source).toOption.getD [])

def metadata (frame : XudpFrame) : Bytes :=
  [frame.id.1, frame.id.2, frame.command.toByte, frame.option] ++ frame.address ++ frame.trailer

def wire (frame : XudpFrame) : Bytes :=
  toBe 2 frame.metadata.length ++ frame.metadata ++
    (if frame.option = xudpOptData then toBe 2 frame.payload.length ++ frame.payload else [])

/-- The datagram a frame carries, if it is not to be discarded and not empty. -/
def packet (frame : XudpFrame) : Option XudpPacket :=
  if frame.option = xudpOptData ∧ frame.command ≠ .discard ∧ frame.payload ≠ [] then
    some ⟨frame.source, frame.payload⟩
  else none

/-- The lengths fit, the source is an address that can be written, and nothing else in
the metadata looks like one. -/
structure Valid (frame : XudpFrame) : Prop where
  metadata_lt : frame.metadata.length < 65536
  payload_lt : frame.payload.length < 65536
  source_encodes : ∀ source, frame.source = some source →
    ∃ address, encodeAddrPort source = .ok address
  source_udp : ∀ source, frame.source = some source → source.network = .udp
  source_utf8 : ∀ source, frame.source = some source →
    ∀ name, source.addr = .domain name → isUtf8 name
  trailer_ne : frame.source = none → frame.trailer.head? ≠ some xudpNetworkUdp

lemma xudpSource_metadata {frame : XudpFrame} (h : frame.Valid) :
    xudpSource frame.metadata = .ok frame.source := by
  rw [xudpSource, metadata]
  cases hsource : frame.source with
  | none =>
    simp only [address, hsource]
    rw [if_neg]
    rintro ⟨hlong, hnetwork⟩
    refine h.trailer_ne hsource ?_
    cases htrailer : frame.trailer with
    | nil =>
      rw [htrailer] at hlong
      simp at hlong
    | cons b rest =>
      rw [htrailer] at hnetwork
      exact congrArg some hnetwork
  | some source =>
    obtain ⟨address, haddress⟩ := h.source_encodes source hsource
    have hdecode := decodeAddrPort_encode haddress (h.source_udp source hsource)
      (h.source_utf8 source hsource) frame.trailer
    simp only [XudpFrame.address, hsource, haddress]
    show (decodeAddrPort (address ++ frame.trailer)).map some = _
    rw [hdecode]
    rfl

end XudpFrame

lemma run_readU16 {n : Nat} (h : n < 65536) (more : Bytes) :
    readU16.run (toBe 2 n ++ more) = some (.ok (UInt16.ofNat n), more) := by
  rw [readU16, Future.run_bind _ (Future.run_readExact (length_toBe 2 n) more),
    ofBe_toBe_of_lt (by omega)]
  rfl

variable {payload : Bytes}

lemma run_readUdpPacket (h : payload.length < 65536) (more : Bytes) :
    readUdpPacket.run (toBe 2 payload.length ++ (payload ++ more)) = some (.ok payload, more) := by
  have hlen : (UInt16.ofNat payload.length).toNat = payload.length := UInt16.toNat_ofNat_of_lt' h
  rw [readUdpPacket, Future.run_bind _ (run_readU16 h _), hlen]
  exact Future.run_readExact rfl more

lemma reads_udpPacket (h : payload.length < 65536) :
    readUdpPackets.Reads ⟨toBe 2 payload.length ++ payload, some payload⟩ := by
  have hrun := run_readUdpPacket h []
  rw [List.append_nil] at hrun
  show readUdpPackets.turn.run _ = _
  rw [turn_readUdpPackets, Future.run_bind _ hrun]
  rfl

lemma reads_xudpFrame {frame : XudpFrame} (h : frame.Valid) :
    readXudpPacket.Reads ⟨frame.wire, frame.packet⟩ := by
  have hlen : (UInt16.ofNat frame.metadata.length).toNat = frame.metadata.length :=
    UInt16.toNat_ofNat_of_lt' h.metadata_lt
  have hlong : ¬ UInt16.ofNat frame.metadata.length < 4 := by
    rw [UInt16.lt_iff_toNat_lt, hlen]
    simp [XudpFrame.metadata]
  have hcommand : frame.metadata.getD 2 0 = frame.command.toByte := rfl
  have hoption : frame.metadata.getD 3 0 = frame.option := rfl
  have hknown : ¬ (frame.command.toByte ≠ xudpCmdNew ∧ frame.command.toByte ≠ xudpCmdKeep ∧
      frame.command.toByte ≠ xudpCmdDiscard) := by
    cases frame.command <;> decide
  have hdiscard : frame.command.toByte = xudpCmdDiscard ↔ frame.command = .discard := by
    cases frame.command <;> decide
  show (readU16 >>= readXudpFrame).run frame.wire = some (.ok frame.packet, [])
  rw [XudpFrame.wire, List.append_assoc, Future.run_bind _ (run_readU16 h.metadata_lt _),
    readXudpFrame, if_neg hlong, hlen, Future.run_bind _ (Future.run_readExact rfl _)]
  simp only [hcommand, hoption, if_neg hknown, XudpFrame.xudpSource_metadata h]
  by_cases hdata : frame.option = xudpOptData
  · have hrun := run_readUdpPacket h.payload_lt []
    rw [List.append_nil] at hrun
    rw [if_neg (not_not.mpr hdata), if_pos hdata, Future.run_bind _ hrun, XudpFrame.packet]
    by_cases hskip : frame.payload = [] ∨ frame.command.toByte = xudpCmdDiscard
    · rw [if_pos hskip, if_neg fun hkeep => hskip.elim hkeep.2.2 (hkeep.2.1 ∘ hdiscard.mp)]
      rfl
    rw [not_or, hdiscard] at hskip
    rw [if_neg (by rw [hdiscard, not_or]; exact hskip), if_pos ⟨hdata, hskip.2, hskip.1⟩]
    rfl
  · rw [if_pos hdata, if_neg hdata, XudpFrame.packet, if_neg (by simp [hdata])]
    rfl

inductive Response : VlessUdpFraming → Type where
  | datagram (payload : Bytes) (h : payload.length < 65536) : Response .lengthPrefixed
  | xudp (frame : XudpFrame) (h : frame.Valid) : Response .xudp

namespace Response

def wire {framing : VlessUdpFraming} : Response framing → Bytes
  | .datagram payload _ => toBe 2 payload.length ++ payload
  | .xudp frame _ => frame.wire

/-- The datagram for the client, with the source that came with it. -/
def packet {framing : VlessUdpFraming} : Response framing → Option XudpPacket
  | .datagram payload _ => some ⟨none, payload⟩
  | .xudp frame _ => frame.packet

end Response

/-- What a TUN client is shown of a packet: a source that is no address is replaced by
the one the client sent to. -/
def TunSettings.shows (settings : TunSettings) (packet : XudpPacket) : IpEndpoint × Bytes :=
  ((packet.source.bind targetToEndpoint).getD settings.fallbackSource, packet.payload)

def SocksSettings.takes (settings : SocksSettings) (packet : XudpPacket) : Target × Bytes :=
  (packet.source.getD settings.target, packet.payload)

/-- What a SOCKS client is shown of it: the name it sent to itself, where there is one. -/
def SocksSettings.shows (settings : SocksSettings) (packet : XudpPacket) : Target × Bytes :=
  (settings.clientVisibleTarget.getD (packet.source.getD settings.target), packet.payload)

lemma TunSettings.reads (settings : TunSettings) (response : Response settings.framing) :
    settings.response.Reads ⟨response.wire, response.packet.map settings.shows⟩ := by
  obtain ⟨framing, target, globalId, fallback⟩ := settings
  cases response with
  | datagram payload h => exact (reads_udpPacket h).map fun payload => (fallback, payload)
  | xudp frame h => exact (reads_xudpFrame h).map _

lemma SocksSettings.reads (settings : SocksSettings) (response : Response settings.framing) :
    settings.response.Reads ⟨response.wire, response.packet.map settings.takes⟩ := by
  obtain ⟨framing, target, visible, globalId⟩ := settings
  cases response with
  | datagram payload h => exact (reads_udpPacket h).map fun payload => (target, payload)
  | xudp frame h => exact (reads_xudpFrame h).map _

/-! ## What a flow keeps -/

section Kept

variable {α : Type} {turns : Turns IoError α} {frames : List (Turns.Frame α)}
  {downlink : Raced IoError α} {ended : Option FlowEnd}

/-- While the flow lasts it is in step with the frames. When it is over, what it passed
on is the front of their contents, and all of them if the stream ended. -/
structure Kept (turns : Turns IoError α) (frames : List (Turns.Frame α))
    (downlink : Raced IoError α) (ended : Option FlowEnd) : Prop where
  inStep : ended = none → downlink.InStep turns frames
  front : downlink.passed <+: Turns.contentsOf frames
  failed : ∀ error, ended = some (.readFailed error) →
    error = .unexpectedEof ∧ downlink.passed = Turns.contentsOf frames

lemma Kept.of_inStep (h : downlink.InStep turns frames) : Kept turns frames downlink none :=
  ⟨fun _ => h, h.passed_prefix, by simp⟩

/-- A branch other than the response: it ends the flow for a reason of its own, or it
leaves the future where it was. -/
lemma Kept.other {downlink' : Raced IoError α} {ended' : Option FlowEnd}
    (h : Kept turns frames downlink none)
    (hsame : downlink' = downlink ∨ downlink' = downlink.restart turns)
    (hreason : ∀ error, ended' ≠ some (.readFailed error))
    (hcalm : ended' = none → downlink.reading = turns.turn) :
    Kept turns frames downlink' ended' := by
  have hpassed : downlink'.passed = downlink.passed := by
    rcases hsame with rfl | rfl <;> rfl
  refine ⟨fun hnone => ?_, hpassed ▸ h.front, fun error heq => absurd heq (hreason error)⟩
  have hdownlink : downlink' = downlink := by
    rcases hsame with rfl | rfl
    · rfl
    · exact Raced.restart_of_fresh (hcalm hnone)
  rw [hdownlink]
  exact h.inStep rfl

/-- What the two loops make of a poll of the response. -/
def afterPoll (sent : Bool) :
    Raced IoError α × Option (Except IoError α) → Raced IoError α × Option FlowEnd
  | (downlink, none) => (downlink, none)
  | (downlink, some (.error error)) => (downlink, some (.readFailed error))
  | (downlink, some (.ok a)) =>
    if sent then (downlink.pass a, none) else (downlink, some .undelivered)

lemma Kept.response (h : Kept turns frames downlink none)
    (hreads : ∀ frame ∈ frames, turns.Reads frame) (sent : Bool) :
    Kept turns frames (afterPoll sent (downlink.poll .unexpectedEof turns)).1
      (afterPoll sent (downlink.poll .unexpectedEof turns)).2 := by
  obtain ⟨hwaits, hvalue, hfails⟩ := (h.inStep rfl).poll hreads
  generalize hpoll : downlink.poll .unexpectedEof turns = polled at hwaits hvalue hfails
  obtain ⟨downlink', _ | error | a⟩ := polled
  · exact .of_inStep (hwaits downlink' rfl)
  · obtain ⟨heof, hall⟩ := hfails downlink' error rfl
    refine ⟨by simp [afterPoll], hall ▸ List.prefix_rfl, fun e heq => ?_⟩
    cases heq
    exact ⟨heof, hall⟩
  · have hpass := hvalue downlink' a rfl
    cases sent with
    | true => exact .of_inStep hpass
    | false =>
      refine ⟨by simp [afterPoll], ?_, by simp [afterPoll]⟩
      exact (List.prefix_append _ _).trans hpass.passed_prefix

end Kept

/-! ## A loop that races the response -/

/-- What the two loops have in common: a poll of the response is what `afterPoll` says,
and any other branch drops the future or leaves it. -/
structure RaceLoop (Flow Wake α : Type) where
  turns : Turns IoError α
  downlink : Flow → Raced IoError α
  ended : Flow → Option FlowEnd
  step : Flow → Wake → Flow
  /-- That nothing but the response is ready, and whether the client takes it. -/
  response : Wake → Option Bool
  step_ended : ∀ flow wake, ended flow ≠ none → step flow wake = flow
  step_response : ∀ flow wake sent, ended flow = none → response wake = some sent →
    (downlink (step flow wake), ended (step flow wake)) =
      afterPoll sent ((downlink flow).poll .unexpectedEof turns)
  step_other : ∀ flow wake, ended flow = none → response wake = none →
    (downlink (step flow wake) = downlink flow ∨
        downlink (step flow wake) = (downlink flow).restart turns) ∧
      ∀ error, ended (step flow wake) ≠ some (.readFailed error)

namespace RaceLoop

variable {Flow Wake α : Type} (loop : RaceLoop Flow Wake α)

/-- Another branch that wins and does not end the flow finds the future not begun. -/
def Calm (flow : Flow) (wake : Wake) : Prop :=
  loop.response wake = none → loop.ended (loop.step flow wake) = none →
    (loop.downlink flow).reading = loop.turns.turn

def CalmRun : Flow → List Wake → Prop
  | _, [] => True
  | flow, wake :: wakes => loop.Calm flow wake ∧ CalmRun (loop.step flow wake) wakes

def Keeps (frames : List (Turns.Frame α)) (flow : Flow) : Prop :=
  Kept loop.turns frames (loop.downlink flow) (loop.ended flow)

variable {loop} {frames : List (Turns.Frame α)} {flow : Flow}

lemma Keeps.step (h : loop.Keeps frames flow) (hreads : ∀ frame ∈ frames, loop.turns.Reads frame)
    {wake : Wake} (hcalm : loop.Calm flow wake) : loop.Keeps frames (loop.step flow wake) := by
  cases hflow : loop.ended flow with
  | some reason =>
    rw [loop.step_ended flow wake (by simp [hflow])]
    exact h
  | none =>
    have hkept : Kept loop.turns frames (loop.downlink flow) none := hflow ▸ h
    cases hwake : loop.response wake with
    | some sent =>
      have hresponse := hkept.response hreads sent
      rw [← loop.step_response flow wake sent hflow hwake] at hresponse
      exact hresponse
    | none =>
      obtain ⟨hsame, hreason⟩ := loop.step_other flow wake hflow hwake
      exact hkept.other hsame hreason (hcalm hwake)

lemma Keeps.run (h : loop.Keeps frames flow) (hreads : ∀ frame ∈ frames, loop.turns.Reads frame)
    {wakes : List Wake} (hcalm : loop.CalmRun flow wakes) :
    loop.Keeps frames (wakes.foldl loop.step flow) := by
  induction wakes generalizing flow with
  | nil => exact h
  | cons wake wakes ih => exact ih (h.step hreads hcalm.1) hcalm.2

end RaceLoop

/-! ## Steps and runs of the two loops -/

namespace TunFlow

lemma writePayload_spec (settings : TunSettings) (flow : TunFlow) (payload : Bytes)
    (written flushed : Bool) :
    (flow.writePayload settings payload written flushed).downlink = flow.downlink ∧
      ∀ error, (flow.writePayload settings payload written flushed).ended =
        some (.readFailed error) → flow.ended = some (.readFailed error) := by
  rw [writePayload]
  split
  · exact ⟨rfl, fun _ h => h⟩
  split
  · exact ⟨rfl, fun _ h => by simp [finish] at h⟩
  split
  · exact ⟨rfl, fun _ h => h⟩
  · exact ⟨rfl, fun _ h => by simp [finish] at h⟩

def loop (settings : TunSettings) : RaceLoop TunFlow TunWake (IpEndpoint × Bytes) where
  turns := settings.response
  downlink := downlink
  ended := ended
  step := step settings
  response
    | .response sent => some sent
    | _ => none
  step_ended flow wake h := by
    unfold step
    rw [if_pos (Option.isSome_iff_ne_none.mpr h)]
  step_response flow wake sent hflow hwake := by
    cases wake <;> cases hwake
    rcases hpoll : flow.downlink.poll .unexpectedEof settings.response with
      ⟨downlink, _ | error | a⟩
    · simp [step, hpoll, afterPoll, hflow]
    · simp [step, hpoll, afterPoll, hflow, finish]
    cases sent with
    | true => simp [step, hpoll, afterPoll, hflow]
    | false => simp [step, hpoll, afterPoll, hflow, finish]
  step_other flow wake hflow hwake := by
    have hgoing : ¬ flow.ended.isSome = true := by simp [hflow]
    unfold step
    rw [if_neg hgoing]
    cases wake with
    | connectionClose => exact ⟨.inl rfl, by simp [finish]⟩
    | shutdown changed =>
      dsimp only
      split
      · exact ⟨.inr rfl, by simp [nextRound, hflow]⟩
      · exact ⟨.inl rfl, by simp [finish]⟩
    | idle => exact ⟨.inl rfl, by simp [finish]⟩
    | payload received written flushed =>
      cases received with
      | none => exact ⟨.inl rfl, by simp [finish]⟩
      | some payload =>
        obtain ⟨hsame, hreason⟩ := writePayload_spec settings flow payload written flushed
        refine ⟨.inr ?_, fun error heq => ?_⟩
        · show Raced.restart settings.response _ = _
          rw [hsame]
        · exact absurd (hreason error heq) (by simp [hflow])
    | response sent => cases hwake

end TunFlow

namespace SocksFlow

lemma writePayload_spec (settings : SocksSettings) (flow : SocksFlow) (payload : Bytes)
    (flush written flushed : Bool) :
    (flow.writePayload settings payload flush written flushed).downlink = flow.downlink ∧
      ∀ error, (flow.writePayload settings payload flush written flushed).ended =
        some (.readFailed error) → flow.ended = some (.readFailed error) := by
  rw [writePayload]
  split
  · split
    · exact ⟨rfl, fun _ h => by simp [finish] at h⟩
    · exact ⟨rfl, fun _ h => h⟩
  · split
    · exact ⟨rfl, fun _ h => by simp [finish] at h⟩
    split
    · exact ⟨rfl, fun _ h => h⟩
    · exact ⟨rfl, fun _ h => by simp [finish] at h⟩

def loop (settings : SocksSettings) : RaceLoop SocksFlow SocksWake (Target × Bytes) where
  turns := settings.response
  downlink := downlink
  ended := ended
  step := step settings
  response
    | .response sent => some sent
    | _ => none
  step_ended flow wake h := by
    unfold step
    rw [if_pos (Option.isSome_iff_ne_none.mpr h)]
  step_response flow wake sent hflow hwake := by
    cases wake <;> cases hwake
    rcases hpoll : flow.downlink.poll .unexpectedEof settings.response with
      ⟨downlink, _ | error | a⟩
    · simp [step, hpoll, afterPoll, hflow]
    · simp [step, hpoll, afterPoll, hflow, finish]
    cases sent with
    | true => simp [step, hpoll, afterPoll, hflow]
    | false => simp [step, hpoll, afterPoll, hflow, finish]
  step_other flow wake hflow hwake := by
    have hgoing : ¬ flow.ended.isSome = true := by simp [hflow]
    unfold step
    rw [if_neg hgoing]
    cases wake with
    | connectionClose => exact ⟨.inl rfl, by simp [finish]⟩
    | shutdown changed =>
      dsimp only
      split
      · exact ⟨.inr rfl, by simp [nextRound, hflow]⟩
      · exact ⟨.inl rfl, by simp [finish]⟩
    | idle => exact ⟨.inl rfl, by simp [finish]⟩
    | flushDeadline flushed =>
      dsimp only
      split
      · exact ⟨.inl rfl, by simp [hflow]⟩
      split
      · exact ⟨.inr rfl, by simp [nextRound, hflow]⟩
      · exact ⟨.inl rfl, by simp [finish]⟩
    | payload received written flushed =>
      cases received with
      | none => exact ⟨.inl rfl, by simp [finish]⟩
      | some payload =>
        obtain ⟨hsame, hreason⟩ := writePayload_spec settings flow payload
          (decide (flow.pendingFrames + 1 ≥ socksVlessUdpFlushBatch)) written flushed
        refine ⟨.inr ?_, fun error heq => ?_⟩
        · show Raced.restart settings.response _ = _
          rw [hsame]
        · exact absurd (hreason error heq) (by simp [hflow])
    | response sent => cases hwake

end SocksFlow

/-- What a flow owes its client of the datagrams it is to be sent: they come in order,
each once; all of them once the bytes have been read; and the stream is found broken
only at its end. -/
structure Intact {α : Type} (expected delivered : List α) (remaining : Bytes)
    (ended : Option FlowEnd) : Prop where
  front : delivered <+: expected
  all : ended = none → remaining = [] → delivered = expected
  failed : ∀ error, ended = some (.readFailed error) →
    error = .unexpectedEof ∧ delivered = expected

variable {α : Type}

lemma Kept.intact {turns : Turns IoError α} {frames : List (Turns.Frame α)}
    {downlink : Raced IoError α} {ended : Option FlowEnd} (h : Kept turns frames downlink ended)
    (hreads : ∀ frame ∈ frames, turns.Reads frame) :
    Intact (Turns.contentsOf frames) downlink.passed downlink.carrier.bytes ended :=
  ⟨h.front, fun hnone hend => (h.inStep hnone).passed_all hreads hend, h.failed⟩

lemma Intact.map {β : Type} {expected delivered : List α} {remaining : Bytes}
    {ended : Option FlowEnd} (h : Intact expected delivered remaining ended) (f : α → β) :
    Intact (expected.map f) (delivered.map f) remaining ended :=
  ⟨h.front.map f, fun hnone hend => congrArg _ (h.all hnone hend),
    fun error heq => ⟨(h.failed error heq).1, congrArg _ (h.failed error heq).2⟩⟩

variable {carrier : Carrier}

/-- What a calm run that begins with the bytes of some responses passes on of them. -/
lemma RaceLoop.delivers {Flow Wake : Type} (loop : RaceLoop Flow Wake α)
    {framing : VlessUdpFraming} {shows : XudpPacket → α}
    (hreads : ∀ response : Response framing,
      loop.turns.Reads ⟨response.wire, response.packet.map shows⟩)
    {responses : List (Response framing)} (h : carrier.bytes = responses.flatMap Response.wire)
    {frames : List (Turns.Frame α)}
    (hframes : frames = responses.map fun response => ⟨response.wire, response.packet.map shows⟩)
    {start last : Flow} (hsame : loop.downlink start = .new loop.turns carrier)
    (hreason : ∀ error, loop.ended start ≠ some (.readFailed error)) {wakes : List Wake}
    (hcalm : loop.CalmRun start wakes) (hlast : wakes.foldl loop.step start = last) :
    loop.Keeps frames last ∧ Intact (responses.filterMap fun response => response.packet.map shows)
        (loop.downlink last).passed (loop.downlink last).carrier.bytes (loop.ended last) := by
  have hall : ∀ frame ∈ frames, loop.turns.Reads frame := by
    rw [hframes, List.forall_mem_map]
    exact fun response _ => hreads response
  have hwire : carrier.bytes = Turns.wireOf frames := by
    rw [h, Turns.wireOf, hframes, List.flatMap_map]
  have hkeeps : loop.Keeps frames start :=
    (Kept.of_inStep (Raced.inStep_new hwire)).other (.inl hsame) hreason fun _ => rfl
  have hrun := hlast ▸ hkeeps.run hall hcalm
  have hintact := Kept.intact hrun hall
  rw [Turns.contentsOf, hframes, List.filterMap_map] at hintact
  exact ⟨hrun, hintact⟩

def TunSettings.framesOf (settings : TunSettings) (responses : List (Response settings.framing)) :
    List (Turns.Frame (IpEndpoint × Bytes)) :=
  responses.map fun response => ⟨response.wire, response.packet.map settings.shows⟩

def SocksSettings.framesOf (settings : SocksSettings)
    (responses : List (Response settings.framing)) : List (Turns.Frame (Target × Bytes)) :=
  responses.map fun response => ⟨response.wire, response.packet.map settings.takes⟩

/-- A TUN flow delivers the responses, each with its source, and while it lasts its
reader is in step with them: it never takes the middle of a frame for a beginning. -/
structure TunFlow.Delivers (settings : TunSettings) (responses : List (Response settings.framing))
    (flow : TunFlow) : Prop where
  inStep : flow.ended = none → flow.downlink.InStep settings.response (settings.framesOf responses)
  intact : Intact (responses.filterMap fun response => response.packet.map settings.shows)
    flow.delivered flow.downlink.carrier.bytes flow.ended

structure SocksFlow.Delivers (settings : SocksSettings)
    (responses : List (Response settings.framing)) (flow : SocksFlow) : Prop where
  inStep : flow.ended = none → flow.downlink.InStep settings.response (settings.framesOf responses)
  intact : Intact (responses.filterMap fun response => response.packet.map settings.shows)
    (flow.delivered settings) flow.downlink.carrier.bytes flow.ended

lemma TunFlow.delivers_run (settings : TunSettings) {responses : List (Response settings.framing)}
    (h : carrier.bytes = responses.flatMap Response.wire) {written flushed : Bool}
    {wakes : List TunWake}
    (hcalm : (loop settings).CalmRun (.new settings carrier payload written flushed) wakes) :
    ((new settings carrier payload written flushed).run settings wakes).Delivers settings
      responses := by
  obtain ⟨hsame, hreason⟩ := writePayload_spec settings
    { downlink := .new settings.response carrier } payload written flushed
  obtain ⟨hkeeps, hintact⟩ := (loop settings).delivers settings.reads h rfl hsame
    (fun error heq => absurd (hreason error heq) (by simp)) hcalm rfl
  exact ⟨hkeeps.inStep, hintact⟩

lemma SocksFlow.delivers_run (settings : SocksSettings)
    {responses : List (Response settings.framing)}
    (h : carrier.bytes = responses.flatMap Response.wire) {written flushed : Bool}
    {wakes : List SocksWake}
    (hcalm : (loop settings).CalmRun (.new settings carrier payload written flushed) wakes) :
    ((new settings carrier payload written flushed).run settings wakes).Delivers settings
      responses := by
  obtain ⟨hsame, hreason⟩ := writePayload_spec settings
    { downlink := .new settings.response carrier } payload true written flushed
  obtain ⟨hkeeps, hintact⟩ := (loop settings).delivers settings.reads h rfl hsame
    (fun error heq => absurd (hreason error heq) (by simp)) hcalm rfl
  have hshown := hintact.map fun shown =>
    (settings.clientVisibleTarget.getD shown.1, shown.2)
  rw [List.map_filterMap] at hshown
  simp only [Option.map_map] at hshown
  exact ⟨hkeeps.inStep, hshown⟩

/-- In every run in which no branch drops a future that has begun to read a frame, both
loops deliver the responses, however their bytes arrive. -/
theorem vless_udp_downlink_intact_when_calm (framing : VlessUdpFraming)
    (responses : List (Response framing)) (carrier : Carrier)
    (hcarrier : carrier.bytes = responses.flatMap Response.wire) (target : Target)
    (globalId : Vector UInt8 8) (firstPayload : Bytes) (written flushed : Bool) :
    (∀ (fallbackSource : IpEndpoint) (wakes : List TunWake),
      let settings : TunSettings := ⟨framing, target, globalId, fallbackSource⟩
      let start := TunFlow.new settings carrier firstPayload written flushed
      (TunFlow.loop settings).CalmRun start wakes →
        (start.run settings wakes).Delivers settings responses) ∧
    ∀ (clientVisibleTarget : Option Target) (wakes : List SocksWake),
      let settings : SocksSettings := ⟨framing, target, clientVisibleTarget, globalId⟩
      let start := SocksFlow.new settings carrier firstPayload written flushed
      (SocksFlow.loop settings).CalmRun start wakes →
        (start.run settings wakes).Delivers settings responses := by
  refine ⟨fun fallbackSource wakes hcalm => ?_, fun clientVisibleTarget wakes hcalm => ?_⟩
  · exact TunFlow.delivers_run _ hcarrier hcalm
  · exact SocksFlow.delivers_run _ hcarrier hcalm

def nameServer : Target := ⟨.ip (.v4 0x08080808), 53, .udp⟩

def nameServerTun (framing : VlessUdpFraming) : TunSettings :=
  ⟨framing, nameServer, Vector.replicate 8 0, ⟨.v4 0x08080808, 53⟩⟩

def nameServerSocks (framing : VlessUdpFraming) : SocksSettings :=
  ⟨framing, nameServer, none, Vector.replicate 8 0⟩

/-- An answer of three bytes that look like a datagram of one. -/
def nestedAnswer : Response .lengthPrefixed := .datagram [0, 1, 65] (by decide)

/-- The answer in two pieces, of which the first is its length. -/
def nestedCarrier : Carrier := [.piece ⟨[0, 3], by decide⟩, .pause, .piece ⟨[0, 1, 65], by decide⟩]

/-- A client's datagram before the answer has begun to arrive does no harm. -/
theorem vless_udp_downlink_intact_before_answer :
    ((TunFlow.new (nameServerTun .lengthPrefixed) nestedCarrier [7] true true).run
        (nameServerTun .lengthPrefixed)
        [.payload (some [8]) true true, .response true, .response true]).Delivers
      (nameServerTun .lengthPrefixed) [nestedAnswer] ∧
    ((TunFlow.new (nameServerTun .lengthPrefixed) nestedCarrier [7] true true).run
      (nameServerTun .lengthPrefixed)
      [.payload (some [8]) true true, .response true, .response true]).delivered =
        [(⟨.v4 0x08080808, 53⟩, [0, 1, 65])] := by
  refine ⟨?_, by decide +kernel⟩
  refine (vless_udp_downlink_intact_when_calm .lengthPrefixed [nestedAnswer] nestedCarrier rfl
    nameServer (Vector.replicate 8 0) [7] true true).1 ⟨.v4 0x08080808, 53⟩ _ ?_
  exact ⟨fun _ _ => rfl, fun h => absurd h (by simp [TunFlow.loop]),
    fun h => absurd h (by simp [TunFlow.loop]), trivial⟩

/-- Between the two pieces of the answer it costs the answer: both loops deliver the one
byte within it. -/
theorem vless_udp_downlink_torn_by_another_branch :
    nestedCarrier.bytes = [nestedAnswer].flatMap Response.wire ∧
    ((TunFlow.new (nameServerTun .lengthPrefixed) nestedCarrier [7] true true).run
      (nameServerTun .lengthPrefixed)
      [.response true, .payload (some [8]) true true, .response true]).delivered =
        [(⟨.v4 0x08080808, 53⟩, [65])] ∧
    ((SocksFlow.new (nameServerSocks .lengthPrefixed) nestedCarrier [7] true true).run
      (nameServerSocks .lengthPrefixed)
      [.response true, .shutdown (some false), .response true]).delivered
        (nameServerSocks .lengthPrefixed) = [(nameServer, [65])] := by
  refine ⟨rfl, ?_, ?_⟩
  · decide +kernel
  · decide +kernel

end Xray.Vless
