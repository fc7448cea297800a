import Xray.Hysteria.Reassembly
import Xray.Lib.Log
import Xray.Lib.Slots
import Xray.Proofs.HysteriaWire

/-!
# Hysteria reassembly never mixes packets

`Feeds` says once what a call of `feed` can do to a reassembler that is `Sound`, which
is that the counters of its packet are those of its slots. The rest follows from it:

* a call never panics and leaves a sound reassembler (`feed_feeds`, `Feeds.sound`);
* as long as a packet is at hand, the end of the log of a run shows where its
  fragments come from (`Underway`);
* so a packet that becomes complete is made of fragments in the log (`Assembled`).
-/

namespace Xray.Hysteria

open Bytes List

/-! ## What a call can do -/

/-- The counters are those of the slots. -/
structure PartialPacket.Sound (packet : PartialPacket) (maxPayload : Nat) : Prop where
  received : packet.received = Slots.filled packet.fragments
  size : packet.size = Slots.weight List.length packet.fragments
  size_le : packet.size ≤ maxPayload

namespace Reassembler

structure Sound (r : Reassembler) : Prop where
  timeout : 0 < r.timeout
  packet : ∀ packet, r.current = some packet → packet.Sound r.maxPayload

def SameLimits (r r' : Reassembler) : Prop :=
  r'.sessionId = r.sessionId ∧ r'.maxPayload = r.maxPayload ∧ r'.timeout = r.timeout

variable {r : Reassembler}

lemma SameLimits.trans {s t : Reassembler} (h : r.SameLimits s) (h' : s.SameLimits t) :
    r.SameLimits t :=
  ⟨h'.1.trans h.1, h'.2.1.trans h.2.1, h'.2.2.trans h.2.2⟩

lemma expire_eq (r : Reassembler) (now : Nat) : r.expire now = r ∨ r.expire now = r.clear := by
  rw [expire]
  split
  · split
    · exact .inr rfl
    · exact .inl rfl
  · exact .inl rfl

lemma expire_sameLimits (r : Reassembler) (now : Nat) : r.SameLimits (r.expire now) := by
  rcases r.expire_eq now with h | h <;> rw [h] <;> exact ⟨rfl, rfl, rfl⟩

lemma expire_current {now : Nat} {packet : PartialPacket}
    (h : (r.expire now).current = some packet) :
    r.current = some packet ∧ now - packet.firstSeen < r.timeout := by
  cases hc : r.current with
  | none => simp [expire, hc] at h
  | some p =>
    simp only [expire, hc] at h
    split at h
    · simp at h
    · next hlt =>
      cases hc.symm.trans h
      exact ⟨rfl, by omega⟩

lemma Sound.clear (h : r.Sound) : r.clear.Sound :=
  ⟨h.timeout, fun _ hp => absurd hp (by simp [Reassembler.clear])⟩

lemma Sound.expire (h : r.Sound) (now : Nat) : (r.expire now).Sound := by
  rcases r.expire_eq now with he | he
  · rwa [he]
  · rw [he]
    exact h.clear

end Reassembler

/-- The fragments of the packet and the message belong together. -/
structure PartialPacket.Takes (packet : PartialPacket) (message : UdpMessage) : Prop where
  packetId : packet.packetId = message.packetId
  count : packet.fragments.length = message.fragmentCount.toNat
  address : packet.address = message.address

lemma PartialPacket.Sound.store {packet : PartialPacket} {message : UdpMessage}
    {maxPayload : Nat} (h : packet.Sound maxPayload)
    (hslot : packet.fragments[message.fragmentId.toNat]? = some none)
    (hsize : packet.size + message.payload.length ≤ maxPayload) :
    (packet.store message).Sound maxPayload where
  received := by
    show packet.received + 1 = _
    rw [h.received]
    exact (Slots.filled_set hslot _).symm
  size := by
    show packet.size + message.payload.length = _
    rw [h.size]
    exact (Slots.weight_set _ hslot _).symm
  size_le := hsize

lemma mapM_id_map_some {α : Type} (pieces : List α) :
    (pieces.map some).mapM id = some pieces := by
  induction pieces with
  | nil => rfl
  | cons piece pieces ih => simp [mapM_cons, ih]

namespace Reassembler

structure Started (message : UdpMessage) (now : Nat) (packet : PartialPacket) : Prop where
  packetId : packet.packetId = message.packetId
  address : packet.address = message.address
  firstSeen : packet.firstSeen = now
  fragments : packet.fragments = List.replicate message.fragmentCount.toNat none
  received : packet.received = 0
  size : packet.size = 0

lemma packetFor_cases (r : Reassembler) (message : UdpMessage) (now : Nat) :
    Started message now (r.packetFor message now) ∨
      r.current = some (r.packetFor message now) ∧
        (r.packetFor message now).packetId = message.packetId ∧
        (r.packetFor message now).fragments.length = message.fragmentCount.toNat := by
  cases hc : r.current with
  | none =>
    simp only [packetFor, hc]
    exact .inl ⟨rfl, rfl, rfl, rfl, rfl, rfl⟩
  | some packet =>
    simp only [packetFor, hc]
    by_cases h : packet.packetId ≠ message.packetId ∨
        packet.fragments.length ≠ message.fragmentCount.toNat
    · rw [if_pos h]
      exact .inl ⟨rfl, rfl, rfl, rfl, rfl, rfl⟩
    · rw [if_neg h]
      rw [not_or, not_not, not_not] at h
      exact .inr ⟨rfl, h.1, h.2⟩

variable {message : UdpMessage} {now : Nat}

lemma Started.slot {packet : PartialPacket} (h : Started message now packet) {k : Nat}
    {payload : Bytes} : packet.fragments[k]? ≠ some (some payload) := by
  rw [h.fragments, getElem?_replicate]
  split <;> simp

lemma packetFor_length (r : Reassembler) (message : UdpMessage) (now : Nat) :
    (r.packetFor message now).fragments.length = message.fragmentCount.toNat := by
  rcases r.packetFor_cases message now with h | h
  · rw [h.fragments, length_replicate]
  · exact h.2.2

lemma packetFor_packetId (r : Reassembler) (message : UdpMessage) (now : Nat) :
    (r.packetFor message now).packetId = message.packetId := by
  rcases r.packetFor_cases message now with h | h
  · exact h.packetId
  · exact h.2.1

variable {r : Reassembler}

lemma Sound.packetFor (h : r.Sound) (message : UdpMessage) (now : Nat) :
    (r.packetFor message now).Sound r.maxPayload := by
  rcases r.packetFor_cases message now with hs | hs
  · refine ⟨?_, ?_, by rw [hs.size]; exact Nat.zero_le _⟩
    · rw [hs.received, hs.fragments, Slots.filled_replicate]
    · rw [hs.size, hs.fragments, Slots.weight_replicate]
  · exact h.packet _ hs.1

/-- What `feed` can do to a reassembler whose old packet has been expired. -/
inductive Feeds (r : Reassembler) (message : UdpMessage) (now : Nat) :
    Reassembler → Except ReassemblyError (Option ReassembledDatagram) → Prop
  /-- Turned away, and the packet at hand stays. -/
  | refused {error : ReassemblyError} (hconflict : error ≠ .conflict)
      (hbudget : error = .budget → message.fragmentCount = 1) :
      Feeds r message now r (.error error)
  | whole (hone : message.fragmentCount = 1) (datagram : ReassembledDatagram) :
      Feeds r message now r (.ok (some datagram))
  | dropped (error : ReassemblyError) : Feeds r message now r.clear (.error error)
  /-- A fragment that is there already. -/
  | kept {packet : PartialPacket} (hpacket : r.current = some packet) :
      Feeds r message now r (.ok none)
  | stored {packet : PartialPacket} (hpacket : packet = r.packetFor message now)
      (htakes : packet.Takes message) (hsession : message.sessionId = r.sessionId)
      (hslot : packet.fragments[message.fragmentId.toNat]? = some none)
      (hsize : packet.size + message.payload.length ≤ r.maxPayload) :
      Feeds r message now { r with current := some (packet.store message) } (.ok none)
  | completed {packet : PartialPacket} {pieces : List Bytes}
      (hpacket : packet = r.packetFor message now)
      (htakes : packet.Takes message) (hsession : message.sessionId = r.sessionId)
      (hslot : packet.fragments[message.fragmentId.toNat]? = some none)
      (hfull : (packet.store message).fragments = pieces.map some) :
      Feeds r message now r.clear
        (.ok (some ⟨message.sessionId, message.address, pieces.flatten⟩))

lemma file_feeds (h : r.Sound) (now : Nat) (hsession : message.sessionId = r.sessionId)
    (hid : message.fragmentId < message.fragmentCount) :
    ∃ r' answer, r.file (r.packetFor message now) message = some (r', answer) ∧
      Feeds r message now r' answer := by
  have hsound := h.packetFor message now
  have hlen := r.packetFor_length message now
  have hpid := r.packetFor_packetId message now
  have hcases := r.packetFor_cases message now
  generalize hpacket : r.packetFor message now = packet at *
  by_cases haddress : packet.address ≠ message.address
  · exact ⟨_, _, by simp only [file, if_pos haddress], .dropped .conflict⟩
  rw [not_not] at haddress
  have htakes : packet.Takes message := ⟨hpid, hlen, haddress⟩
  have hlt : message.fragmentId.toNat < packet.fragments.length := by
    rw [hlen]
    exact UInt8.lt_iff_toNat_lt.mp hid
  cases hslot : packet.fragments[message.fragmentId.toNat]? with
  | none => exact absurd hlt (by rw [getElem?_eq_none_iff] at hslot; omega)
  | some slot =>
    simp only [file, hslot, haddress, ne_eq, not_true_eq_false, if_false]
    cases slot with
    | some existing =>
      by_cases he : existing = message.payload
      · -- A fragment is there only when the packet was at hand before.
        rcases hcases with hs | hs
        · exact absurd hslot hs.slot
        · refine ⟨r, .ok none, ?_, .kept hs.1⟩
          simp only [if_pos he, ← hs.1]
      · exact ⟨_, _, by simp only [if_neg he], .dropped .conflict⟩
    | none =>
      simp only [if_neg (Nat.not_lt.mpr hsound.size_le)]
      by_cases hbig : message.payload.length > r.maxPayload - packet.size
      · exact ⟨_, _, by simp only [if_pos hbig], .dropped .budget⟩
      have hsize : packet.size + message.payload.length ≤ r.maxPayload := by
        have := hsound.size_le
        omega
      have hstore := hsound.store hslot hsize
      simp only [if_neg hbig]
      by_cases hdone :
          (packet.store message).received ≠ (packet.store message).fragments.length
      · exact ⟨_, _, by simp only [if_pos hdone], .stored hpacket.symm htakes hsession hslot hsize⟩
      rw [not_not, hstore.received] at hdone
      obtain ⟨pieces, hfull⟩ := Slots.exists_of_full hdone
      refine ⟨_, _, ?_, .completed hpacket.symm htakes hsession hslot hfull⟩
      rw [← hstore.received] at hdone
      simp only [hdone, hfull, mapM_id_map_some]
      rw [hsession, ← haddress]
      rfl

lemma feed_feeds (h : r.Sound) (message : UdpMessage) (now : Nat) :
    ∃ r' answer, r.feed message now = some (r', answer) ∧
      Feeds (r.expire now) message now r' answer := by
  have hsound := h.expire now
  simp only [feed]
  generalize r.expire now = r at hsound ⊢
  cases hvalid : message.validate with
  | error error => exact ⟨_, _, rfl, .refused (by simp) (by simp)⟩
  | ok _ =>
    have hv := UdpMessage.validate_eq_ok.mp hvalid
    by_cases hsession : message.sessionId ≠ r.sessionId
    · refine ⟨r, .error .session, by simp only [if_pos hsession], .refused ?_ ?_⟩
      all_goals exact fun h => nomatch h
    simp only [if_neg hsession]
    by_cases hone : message.fragmentCount = 1
    · simp only [if_pos hone]
      split
      · exact ⟨_, _, rfl, .refused (by simp) fun _ => hone⟩
      · exact ⟨_, _, rfl, .whole hone _⟩
    · simp only [if_neg hone]
      split
      · exact ⟨_, _, rfl, .dropped _⟩
      · exact file_feeds hsound now (not_not.mp hsession) (hv.id hone)

variable {answer : Except ReassemblyError (Option ReassembledDatagram)}

lemma Feeds.sameLimits {r' : Reassembler} (h : Feeds r message now r' answer) :
    r.SameLimits r' := by
  cases h <;> exact ⟨rfl, rfl, rfl⟩

lemma Feeds.sound {r' : Reassembler} (h : Feeds r message now r' answer) (hr : r.Sound) :
    r'.Sound := by
  cases h with
  | refused => exact hr
  | whole => exact hr
  | kept => exact hr
  | dropped => exact hr.clear
  | completed => exact hr.clear
  | stored hpacket _ _ hslot hsize =>
    refine ⟨hr.timeout, fun p hp => ?_⟩
    cases hp
    exact (hpacket ▸ hr.packetFor message now).store hslot hsize

end Reassembler

/-! ## Where a datagram comes from -/

/-- What the fragments of one packet share. -/
structure PacketKey where
  sessionId : UInt32
  packetId : UInt16
  fragmentCount : UInt8
  address : Str
deriving DecidableEq

def UdpMessage.key (message : UdpMessage) : PacketKey :=
  ⟨message.sessionId, message.packetId, message.fragmentCount, message.address⟩

abbrev Entry := Reassembler.Call × Except ReassemblyError (Option ReassembledDatagram)

/-- The entry feeds fragment `k` of the packet within `timeout` of `first`. -/
def Entry.Brings (entry : Entry) (timeout first : Nat) (key : PacketKey) (k : Nat)
    (payload : Bytes) : Prop :=
  ∃ message now, entry.1 = .feed message now ∧ message.key = key ∧
    message.fragmentId.toNat = k ∧ message.payload = payload ∧
    first ≤ now ∧ now - first < timeout

/-- No `clear`, no conflict, and no budget error of a fragment. -/
structure Entry.Calm (entry : Entry) : Prop where
  clear : entry.1 ≠ .clear
  conflict : entry.2 ≠ .error .conflict
  budget : entry.2 = .error .budget →
    ∃ message now, entry.1 = .feed message now ∧ message.fragmentCount = 1

lemma Entry.calm_ok {call : Reassembler.Call} (h : call ≠ .clear)
    (answer : Option ReassembledDatagram) : Entry.Calm (call, .ok answer) :=
  ⟨h, by simp, by simp⟩

/-- The entries since a packet was started at `first`: none disturbs it, and all the
fragments that are there have been fed. -/
structure Underway (timeout first : Nat) (key : PacketKey) (fragments : List (Option Bytes))
    (span : List Entry) : Prop where
  started : ∃ message answer rest,
    span = (.feed message first, answer) :: rest ∧ message.key = key
  calm : ∀ entry ∈ span, entry.Calm
  brought : ∀ k payload, fragments[k]? = some (some payload) →
    ∃ entry ∈ span, entry.Brings timeout first key k payload

/-- The entries from the first fragment to the last of a packet with this payload. -/
def Assembled (timeout : Nat) (key : PacketKey) (payload : Bytes) (span : List Entry) : Prop :=
  ∃ (first : Nat) (pieces : List Bytes), pieces.length = key.fragmentCount.toNat ∧
    payload = pieces.flatten ∧
    Underway timeout first key (pieces.map some) span

variable {timeout first : Nat} {fragments : List (Option Bytes)}

lemma Underway.snoc {key : PacketKey} {span : List Entry}
    (h : Underway timeout first key fragments span) {entry : Entry} (hcalm : entry.Calm) :
    Underway timeout first key fragments (span ++ [entry]) where
  started := by
    obtain ⟨message, answer, rest, rfl, hkey⟩ := h.started
    exact ⟨message, answer, rest ++ [entry], rfl, hkey⟩
  calm := by
    intro e he
    rcases mem_append.mp he with he | he
    · exact h.calm e he
    · rwa [mem_singleton.mp he]
  brought := by
    intro k payload hk
    obtain ⟨e, he, hb⟩ := h.brought k payload hk
    exact ⟨e, mem_append_left _ he, hb⟩

lemma Underway.set {key : PacketKey} {span : List Entry}
    (h : Underway timeout first key fragments span) {entry : Entry} (hmem : entry ∈ span) {k : Nat}
    {payload : Bytes} (hbrings : entry.Brings timeout first key k payload) :
    Underway timeout first key (fragments.set k (some payload)) span where
  started := h.started
  calm := h.calm
  brought := by
    intro j piece hj
    rw [getElem?_set] at hj
    split at hj
    · next heq =>
      subst heq
      split at hj
      · cases hj
        exact ⟨entry, hmem, hbrings⟩
      · simp at hj
    · exact h.brought j piece hj

namespace Reassembler

def Call.NotAfter (earlier later : Call) : Prop :=
  ∀ s ∈ earlier.time, ∀ t ∈ later.time, s ≤ t

/-- The end of the log is about the packet at hand. -/
def Tracked (r : Reassembler) (log : List Entry) : Prop :=
  ∀ packet, r.current = some packet → ∃ older span key, log = older ++ span ∧
    key.sessionId = r.sessionId ∧ packet.packetId = key.packetId ∧
    packet.fragments.length = key.fragmentCount.toNat ∧ packet.address = key.address ∧
    Underway r.timeout packet.firstSeen key packet.fragments span

lemma Tracked.clear (r : Reassembler) (log : List Entry) : r.clear.Tracked log :=
  fun _ hp => absurd hp (by simp [Reassembler.clear])

variable {r : Reassembler} {log : List Entry}

lemma Tracked.expire (h : r.Tracked log) (now : Nat) : (r.expire now).Tracked log := by
  rcases r.expire_eq now with he | he
  · rwa [he]
  · rw [he]
    exact .clear r log

lemma Tracked.snoc (h : r.Tracked log) {entry : Entry} (hcalm : entry.Calm) :
    r.Tracked (log ++ [entry]) := by
  intro packet hp
  obtain ⟨older, span, key, rfl, hs, hid, hcount, haddress, hu⟩ := h packet hp
  exact ⟨older, span ++ [entry], key, append_assoc .., hs, hid, hcount, haddress, hu.snoc hcalm⟩

/-- The packet a message goes to, with the message in its slot: what is in it has been fed
since the packet was started. -/
lemma Tracked.store (h : r.Tracked log) (htimeout : 0 < r.timeout) {message : UdpMessage}
    {now : Nat} {answer : Except ReassemblyError (Option ReassembledDatagram)}
    (hfresh : ∀ packet, r.current = some packet → now - packet.firstSeen < r.timeout)
    (hnow : ∀ e ∈ log, e.1.NotAfter (.feed message now))
    (hcalm : Entry.Calm (.feed message now, answer)) (hsession : message.sessionId = r.sessionId)
    {packet : PartialPacket} (hpacket : packet = r.packetFor message now)
    (htakes : packet.Takes message) :
    ∃ older span, log ++ [(.feed message now, answer)] = older ++ span ∧
      Underway r.timeout packet.firstSeen message.key (packet.store message).fragments span := by
  subst hpacket
  rcases r.packetFor_cases message now with hs | ⟨hcur, -⟩
  · -- A packet of its own: the span is this one entry.
    refine ⟨log, [(.feed message now, answer)], rfl, ?_⟩
    refine Underway.set ⟨⟨message, answer, [], by rw [hs.firstSeen], rfl⟩, ?_, ?_⟩
      mem_cons_self ⟨message, now, rfl, rfl, rfl, rfl, ?_, ?_⟩
    · intro e he
      rwa [mem_singleton.mp he]
    · exact fun k payload hk => absurd hk hs.slot
    · rw [hs.firstSeen]
    · rw [hs.firstSeen]
      omega
  · obtain ⟨older, span, key, rfl, hs, hid, hcount, haddress, hu⟩ := h _ hcur
    have hkey : key = message.key := by
      rcases key with ⟨_, _, count, _⟩
      simp only [UdpMessage.key, PacketKey.mk.injEq]
      refine ⟨hs.trans hsession.symm, hid.symm.trans htakes.packetId,
        UInt8.toNat_inj.mp (hcount.symm.trans htakes.count), haddress.symm.trans htakes.address⟩
    have hle : (r.packetFor message now).firstSeen ≤ now := by
      obtain ⟨first, a, rest, rfl, -⟩ := hu.started
      exact hnow (.feed first _, a) (mem_append_right _ mem_cons_self) _ rfl _ rfl
    refine ⟨older, span ++ [(.feed message now, answer)], append_assoc .., ?_⟩
    exact (hkey ▸ hu.snoc hcalm).set (mem_append_right _ (mem_singleton_self _))
      ⟨message, now, rfl, rfl, rfl, rfl, hle, hfresh _ hcur⟩

/-- A datagram put together from fragments has its fragments in the log. -/
def Traced (timeout : Nat) (before : List Entry) (entry : Entry) : Prop :=
  ∀ message now datagram, entry = (.feed message now, .ok (some datagram)) →
    message.fragmentCount ≠ 1 →
    datagram.sessionId = message.sessionId ∧ datagram.address = message.address ∧
      ∃ older span, before ++ [entry] = older ++ span ∧
        Assembled timeout message.key datagram.payload span

structure Recorded (limits r : Reassembler) (log : List Entry) : Prop where
  limits : limits.SameLimits r
  sound : r.Sound
  tracked : r.Tracked log
  traced : Log.Justified (Traced r.timeout) log

lemma Recorded.feed {limits : Reassembler} (h : Recorded limits r log) {message : UdpMessage}
    {now : Nat} (hnow : ∀ e ∈ log, e.1.NotAfter (.feed message now)) :
    ∃ r' answer, r.feed message now = some (r', answer) ∧
      Recorded limits r' (log ++ [(.feed message now, answer)]) := by
  obtain ⟨r', answer, hfeed, hf⟩ := feed_feeds h.sound message now
  have hsame := r.expire_sameLimits now
  have hsame' := hf.sameLimits
  have hsound := h.sound.expire now
  have htracked := h.tracked.expire now
  have htraced := h.traced
  have hfresh : ∀ packet, (r.expire now).current = some packet →
      now - packet.firstSeen < (r.expire now).timeout := by
    intro packet hp
    rw [hsame.2.2]
    exact (expire_current hp).2
  rw [← hsame.2.2, ← hsame'.2.2] at htraced
  refine ⟨r', answer, hfeed, ⟨?_, hf.sound hsound, ?_, htraced.snoc ?_⟩⟩
  · exact (h.limits.trans hsame).trans hsame'
  · generalize r.expire now = r at *
    cases hf with
    | refused hconflict hbudget =>
      refine htracked.snoc ⟨by simp, by simpa using hconflict, fun hb => ?_⟩
      exact ⟨message, now, rfl, hbudget (by simpa using hb)⟩
    | whole | kept => exact htracked.snoc (Entry.calm_ok (by simp) _)
    | dropped | completed => exact .clear r _
    | stored hpacket htakes hsession hslot hsize =>
      intro p hp
      cases hp
      obtain ⟨older, span, heq, hu⟩ := htracked.store hsound.timeout hfresh hnow
        (Entry.calm_ok (by simp) _) hsession hpacket htakes
      refine ⟨older, span, message.key, heq, hsession, htakes.packetId, ?_, htakes.address, hu⟩
      rw [PartialPacket.store, length_set]
      exact htakes.count
  · generalize r.expire now = r at *
    intro m t datagram heq hne
    obtain ⟨hcall, ha⟩ := Prod.mk.inj heq
    cases hcall
    cases hf with
    | refused => simp at ha
    | whole hone => exact absurd hone hne
    | dropped | kept | stored => simp at ha
    | @completed packet pieces hpacket htakes hsession hslot hfull =>
      cases ha
      obtain ⟨older, span, heq, hu⟩ := htracked.store hsound.timeout hfresh hnow
        (Entry.calm_ok (by simp) _) hsession hpacket htakes
      refine ⟨rfl, rfl, older, span, heq, packet.firstSeen, pieces, ?_, rfl, hfull ▸ hu⟩
      have hlen := congrArg List.length hfull
      rw [PartialPacket.store, length_set, length_map] at hlen
      exact hlen.symm.trans htakes.count

lemma Recorded.step {limits : Reassembler} (h : Recorded limits r log) {call : Call}
    (hcall : ∀ e ∈ log, e.1.NotAfter call) :
    ∃ r' answer, r.step call = some (r', answer) ∧
      Recorded limits r' (log ++ [(call, answer)]) := by
  have hnone : ∀ before : List Entry, ∀ c : Call, Traced r.timeout before (c, .ok none) :=
    fun _ _ _ _ _ heq => absurd heq (by simp)
  cases call with
  | feed message now => exact h.feed hcall
  | clear => exact ⟨_, _, rfl, h.limits, h.sound.clear, .clear r _, h.traced.snoc (hnone _ _)⟩
  | expire now =>
    have hsame := r.expire_sameLimits now
    refine ⟨_, _, rfl, h.limits.trans hsame, h.sound.expire now, ?_, ?_⟩
    · exact (h.tracked.expire now).snoc (Entry.calm_ok (by simp) _)
    · rw [hsame.2.2]
      exact h.traced.snoc (hnone _ _)

lemma Recorded.of_new {sessionId : UInt32} {maxPayload timeout : Nat}
    (h : new sessionId maxPayload timeout = .ok r) : Recorded r r [] := by
  rw [new] at h
  split at h
  · simp at h
  next hlimits =>
  rw [not_or, not_or] at hlimits
  cases h
  refine ⟨⟨rfl, rfl, rfl⟩, ⟨Nat.pos_of_ne_zero hlimits.2.2, ?_⟩, ?_, Log.Justified.nil⟩
  all_goals exact fun _ hp => absurd hp (by simp)

def storedBytes (r : Reassembler) : Nat :=
  r.current.elim 0 fun packet => Slots.weight List.length packet.fragments

lemma Sound.buffered (h : r.Sound) :
    r.bufferedPayloadBytes ≤ r.maxPayload ∧ r.bufferedPayloadBytes = r.storedBytes := by
  rw [bufferedPayloadBytes, storedBytes]
  cases hc : r.current with
  | none => exact ⟨Nat.zero_le _, rfl⟩
  | some packet => exact ⟨(h.packet packet hc).size_le, (h.packet packet hc).size⟩

/-- In a run of calls at times that never go back, no call panics, the buffered bytes
are those of the stored fragments and within the limit, and a datagram that is returned
from fragments is made of fragments of one packet, fed within the timeout. -/
theorem reassembly_never_mixes {sessionId : UInt32} {maxPayload timeout : Nat}
    {r : Reassembler} (hnew : new sessionId maxPayload timeout = .ok r) {calls : List Call}
    (htimes : calls.Pairwise Call.NotAfter) :
    ∃ r' log, Log.run step r calls = some (r', log) ∧
      r'.bufferedPayloadBytes ≤ maxPayload ∧ r'.bufferedPayloadBytes = r'.storedBytes ∧
      Log.Justified (Traced timeout) log := by
  have h0 := Recorded.of_new hnew
  obtain ⟨r', log, hrun, h⟩ := Log.run_inv (fun _ _ _ _ h => h.step) h0
    (show ((([] : List Entry).map Prod.fst) ++ calls).Pairwise Call.NotAfter from htimes)
  have hr : r.maxPayload = maxPayload ∧ r.timeout = timeout := by
    rw [new] at hnew
    split at hnew
    · exact absurd hnew (by simp)
    · cases hnew
      exact ⟨rfl, rfl⟩
  obtain ⟨hle, heq⟩ := h.sound.buffered
  rw [h.limits.2.1, hr.1] at hle
  have htraced := h.traced
  rw [h.limits.2.2, hr.2] at htraced
  exact ⟨r', log, hrun, hle, heq, htraced⟩

def sampleFragment (id count : UInt8) (payload : Bytes) : UdpMessage :=
  { sessionId := 7, packetId := 1, fragmentId := id, fragmentCount := count
    address := ⟨[97], by decide⟩, payload }

theorem reassembly_never_mixes_two_fragments :
    new 7 4 10 = .ok { sessionId := 7, maxPayload := 4, timeout := 10 } ∧
      ∃ r' log, Log.run step { sessionId := 7, maxPayload := 4, timeout := 10 }
          [.feed (sampleFragment 1 2 [2]) 3, .feed (sampleFragment 0 2 [1]) 5] = some (r', log) ∧
        r'.bufferedPayloadBytes ≤ 4 ∧ r'.bufferedPayloadBytes = r'.storedBytes ∧
        Log.Justified (Traced 10) log :=
  ⟨by rfl, @reassembly_never_mixes 7 4 10 _ (by rfl) _ (by
    simp [Call.NotAfter, Call.time])⟩

/-- A message that is too long and not a fragment is refused for its size between the two
fragments of a datagram, and the datagram is returned all the same. -/
theorem reassembly_survives_budget_error :
    (Log.run step { sessionId := 7, maxPayload := 2, timeout := 10 }
        [.feed (sampleFragment 0 2 [1]) 0, .feed (sampleFragment 0 1 [1, 2, 3]) 0,
          .feed (sampleFragment 1 2 [2]) 0]).map (fun (_, log) => log.map Prod.snd) =
      some [.ok none, .error .budget, .ok (some ⟨7, ⟨[97], by decide⟩, [1, 2]⟩)] := by
  decide +kernel

end Reassembler

end Xray.Hysteria
