import Xray.Proofs.Reassembly

/-!
# Hysteria fragments come together again

A message is cut into pieces and each is fed to a reassembler, in any order, more than
once, and with other datagrams in between. What the reassembler has at any time is the
pieces fed so far (`Holds`), so the piece that was missing completes the message.
-/

namespace Xray.Hysteria

open Bytes List Log Slots

namespace Reassembler

/-- A packet with the pieces of a message at the places where `has` holds. -/
structure Holds (message : UdpMessage) (pieces : List Bytes) (has : Nat → Bool)
    (packet : PartialPacket) : Prop where
  packetId : packet.packetId = message.packetId
  address : packet.address = message.address
  fragments : packet.fragments = restrict has pieces
  received : packet.received = filled packet.fragments
  size : packet.size = weight List.length packet.fragments

variable {message : UdpMessage} {maxDatagramSize : Nat} {pieces : List Bytes} {piece : Bytes}
  {m last : UdpMessage} {before : List (UdpMessage × Nat)} {k now : Nat}

lemma Started.holds {packet : PartialPacket} (hcut : Cut message maxDatagramSize pieces)
    (h : Started (message.piece pieces.length k piece) now packet) :
    Holds message pieces (fun _ => false) packet where
  packetId := h.packetId
  address := h.address
  fragments := by rw [h.fragments, hcut.toNat_count, restrict_false]
  received := by rw [h.received, h.fragments, filled_replicate]
  size := by rw [h.size, h.fragments, weight_replicate]

namespace Holds

variable {has : Nat → Bool} {packet : PartialPacket} {k : Nat} {piece : Bytes}

section

variable (h : Holds message pieces has packet)

include h

lemma slot (hk : pieces[k]? = some piece) :
    packet.fragments[k]? = some (if has k then some piece else none) := by
  rw [h.fragments, getElem?_restrict, hk]
  rfl

lemma size_le
    (hcut : Cut message maxDatagramSize pieces) : packet.size ≤ message.payload.length := by
  rw [h.size, h.fragments, ← hcut.flatten, length_flatten]
  exact weight_restrict_le _ _ _

lemma store (hcut : Cut message maxDatagramSize pieces)
    (hk : pieces[k]? = some piece) (hhas : has k = false) :
    Holds message pieces (fun j => has j || j == k)
      (packet.store (message.piece pieces.length k piece)) := by
  have hid := hcut.toNat_id (List.getElem_of_getElem? hk).1 piece
  have hslot : packet.fragments[k]? = some none := by
    rw [h.slot hk, hhas]
    rfl
  refine ⟨h.packetId, h.address, ?_, ?_, ?_⟩
  · rw [PartialPacket.store, hid, h.fragments]
    exact set_restrict has hk
  · rw [PartialPacket.store, hid, h.received]
    exact (filled_set hslot _).symm
  · rw [PartialPacket.store, hid, h.size]
    exact (weight_set _ hslot _).symm

end

variable {r : Reassembler}

lemma file_repeated (h : Holds message pieces has packet)
    (hcut : Cut message maxDatagramSize pieces) (hk : pieces[k]? = some piece) (hhas : has k) :
    r.file packet (message.piece pieces.length k piece) =
      some ({ r with current := some packet }, .ok none) := by
  have hid := hcut.toNat_id (List.getElem_of_getElem? hk).1 piece
  have hslot := h.slot hk
  rw [hhas, if_pos rfl] at hslot
  have haddress : packet.address = (message.piece pieces.length k piece).address := h.address
  have hpayload : piece = (message.piece pieces.length k piece).payload := rfl
  simp only [file, haddress, hid, hslot, ne_eq, not_true_eq_false, if_false, if_pos hpayload]

/-- A piece that is not there yet is stored, whatever is still missing. -/
lemma file_new (h : Holds message pieces has packet) (hcut : Cut message maxDatagramSize pieces)
    (hmax : message.payload.length ≤ r.maxPayload) (hk : pieces[k]? = some piece)
    (hhas : has k = false) :
    r.file packet (message.piece pieces.length k piece) =
      if ∀ j < pieces.length, (has j || j == k) = true then
        some (r.clear, .ok (some ⟨r.sessionId, message.address, message.payload⟩))
      else
        some ({ r with current := some (packet.store (message.piece pieces.length k piece)) },
          .ok none) := by
  have hid := hcut.toNat_id (List.getElem_of_getElem? hk).1 piece
  have hslot := h.slot hk
  rw [hhas, if_neg Bool.false_ne_true] at hslot
  have haddress : packet.address = (message.piece pieces.length k piece).address := h.address
  have hstore := h.store hcut hk hhas
  have hsize := hstore.size_le hcut
  have hpayload : (packet.store (message.piece pieces.length k piece)).size =
    packet.size + (message.piece pieces.length k piece).payload.length := rfl
  have hfits : ¬ (message.piece pieces.length k piece).payload.length >
      r.maxPayload - packet.size := by omega
  simp only [file, haddress, hid, hslot, ne_eq, not_true_eq_false, if_false,
    if_neg (show ¬ r.maxPayload < packet.size by omega), if_neg hfits]
  by_cases hall : ∀ j < pieces.length, (has j || j == k) = true
  · have hfull := hstore.fragments.trans (restrict_true hall)
    have hreceived := hstore.received
    rw [hfull, filled_map_some] at hreceived
    rw [if_pos hall]
    simp only [hreceived, hfull, length_map, mapM_id_map_some]
    rw [← hcut.flatten, ← hstore.address]
    rfl
  · have hopen : (packet.store (message.piece pieces.length k piece)).received ≠
        (packet.store (message.piece pieces.length k piece)).fragments.length := by
      rw [not_forall] at hall
      obtain ⟨j, hj⟩ := hall
      rw [Classical.not_imp, Bool.not_eq_true] at hj
      obtain ⟨hlt, hj⟩ := hj
      have hempty : (packet.store (message.piece pieces.length k piece)).fragments[j]? =
          some none := by
        rw [hstore.slot (getElem?_eq_getElem hlt), hj]
        rfl
      rw [hstore.received]
      exact Nat.ne_of_lt (filled_lt hempty)
    rw [if_neg hall, if_pos hopen]

end Holds

variable {r : Reassembler}

lemma feed_piece (hcut : Cut message maxDatagramSize pieces) (hone : pieces.length ≠ 1)
    (hsession : r.sessionId = message.sessionId) (hmax : message.payload.length ≤ r.maxPayload)
    (hk : pieces[k]? = some piece) (now : Nat) :
    r.feed (message.piece pieces.length k piece) now =
      (r.expire now).file ((r.expire now).packetFor (message.piece pieces.length k piece) now)
        (message.piece pieces.length k piece) := by
  have hvalid := UdpMessage.validate_eq_ok.mpr (hcut.piece_valid hk)
  have hcount := hcut.count_ne_one hone k piece
  obtain ⟨hs, hm, -⟩ := r.expire_sameLimits now
  have hsession' : (message.piece pieces.length k piece).sessionId = (r.expire now).sessionId := by
    rw [hs, hsession]
    rfl
  have hfits : ¬ (message.piece pieces.length k piece).payload.length >
      (r.expire now).maxPayload := by
    have hle : piece.length ≤ pieces.flatten.length :=
      List.Sublist.length_le (sublist_flatten_of_mem (mem_of_getElem? hk))
    rw [hcut.flatten] at hle
    rw [hm]
    exact Nat.not_lt.mpr (Nat.le_trans hle hmax)
  simp only [feed, hvalid, hsession', ne_eq, not_true_eq_false, if_false, if_neg hcount,
    if_neg hfits]

lemma feed_whole (r : Reassembler) (h : m.fragmentCount = 1) (now : Nat) :
    ∃ answer, r.feed m now = some (r.expire now, answer) := by
  simp only [feed]
  cases m.validate with
  | error error => exact ⟨_, rfl⟩
  | ok _ =>
    by_cases hsession : m.sessionId ≠ (r.expire now).sessionId
    · exact ⟨.error .session, by simp only [if_pos hsession]⟩
    simp only [if_neg hsession, if_pos h]
    split <;> exact ⟨_, rfl⟩

lemma feed_whole_ok (hvalid : m.Valid) (hsession : r.sessionId = m.sessionId)
    (hmax : m.payload.length ≤ r.maxPayload) (h : m.fragmentCount = 1) (now : Nat) :
    r.feed m now = some (r.expire now, .ok (some ⟨m.sessionId, m.address, m.payload⟩)) := by
  obtain ⟨hs, hm, -⟩ := r.expire_sameLimits now
  have hs' : m.sessionId = (r.expire now).sessionId := by rw [hs, hsession]
  have hfits : ¬ m.payload.length > (r.expire now).maxPayload := by
    rw [hm]
    exact Nat.not_lt.mpr hmax
  simp only [feed, UdpMessage.validate_eq_ok.mpr hvalid, ← hs', ne_eq, not_true_eq_false,
    if_false, if_pos h, if_neg hfits]

/-! ## Feeding all the pieces -/

abbrev Feeding :=
  (UdpMessage × Nat) × Except ReassemblyError (Option ReassembledDatagram)

def feedCall (r : Reassembler) (call : UdpMessage × Nat) : Fed := r.feed call.1 call.2

/-- A fragment is kept; an unfragmented message that may be fed is passed on as it is. -/
def Answered (limits : Reassembler) (e : Feeding) : Prop :=
  (e.1.1.fragmentCount ≠ 1 → e.2 = .ok none) ∧
  (e.1.1.fragmentCount = 1 → e.1.1.Valid → limits.sessionId = e.1.1.sessionId →
    e.1.1.payload.length ≤ limits.maxPayload →
      e.2 = .ok (some ⟨e.1.1.sessionId, e.1.1.address, e.1.1.payload⟩))

lemma feed_answered {limits : Reassembler} (hlimits : limits.SameLimits r)
    (h : m.fragmentCount = 1) (now : Nat) : ∃ answer,
      r.feed m now = some (r.expire now, answer) ∧ Answered limits ((m, now), answer) := by
  obtain ⟨answer, ha⟩ := r.feed_whole h now
  refine ⟨answer, ha, absurd h, fun _ hvalid hsession hmax => ?_⟩
  have hok := feed_whole_ok hvalid (hlimits.1.trans hsession) (by rwa [hlimits.2.1]) h now
  exact congrArg Prod.snd (Option.some.inj (ha.symm.trans hok))

def fed (log : List Feeding) (k : Nat) : Bool :=
  log.any fun e => e.1.1.fragmentCount != 1 && e.1.1.fragmentId.toNat == k

lemma fed_snoc (log : List Feeding) (e : Feeding) (k : Nat) : fed (log ++ [e]) k =
      (fed log k || (e.1.1.fragmentCount != 1 && e.1.1.fragmentId.toNat == k)) := by
  simp [fed, any_append]

lemma fed_snoc_piece (hcut : Cut message maxDatagramSize pieces) (hone : pieces.length ≠ 1)
    (hk : pieces[k]? = some piece) (log : List Feeding) (now : Nat)
    (answer : Except ReassemblyError (Option ReassembledDatagram)) :
    fed (log ++ [((message.piece pieces.length k piece, now), answer)]) =
      fun j => fed log j || j == k := by
  funext j
  rw [fed_snoc, hcut.toNat_id (List.getElem_of_getElem? hk).1,
    bne_iff_ne.mpr (hcut.count_ne_one hone k piece), Bool.true_and, Bool.beq_comm]

/-- The packet at hand, if any, is another one. -/
def Away (r : Reassembler) (packetId : UInt16) (count : Nat) : Prop :=
  ∀ packet, r.current = some packet →
    packet.packetId ≠ packetId ∨ packet.fragments.length ≠ count

/-- Pieces have been fed, but not the one that is `missing`. -/
structure Progress (message : UdpMessage) (pieces : List Bytes) (missing : Nat)
    (first r : Reassembler) (log : List Feeding) : Prop where
  limits : first.SameLimits r
  missing : fed log missing = false
  answers : ∀ e ∈ log, Answered first e
  packet : (∀ k, fed log k = false) ∧ r.Away message.packetId pieces.length ∨
    ∃ packet, r.current = some packet ∧ Holds message pieces (fed log) packet ∧
      ∃ e ∈ log, e.1.2 = packet.firstSeen

namespace Progress

variable {missing : Nat} {limits r : Reassembler} {log : List Feeding} {now : Nat}

variable (h : Progress message pieces missing limits r log)

include h

lemma expire (hnow : ∀ e ∈ log, now - e.1.2 < limits.timeout) :
    Progress message pieces missing limits (r.expire now) log := by
  refine ⟨h.limits.trans (r.expire_sameLimits now), h.missing, h.answers, ?_⟩
  rcases h.packet with ⟨hnone, haway⟩ | ⟨packet, hcur, hholds, e, he, hfirst⟩
  · exact .inl ⟨hnone, fun packet hp => haway packet (expire_current hp).1⟩
  refine .inr ⟨packet, ?_, hholds, e, he, hfirst⟩
  have hlt := hnow e he
  rw [hfirst, ← h.limits.2.2] at hlt
  simp only [Reassembler.expire, hcur, if_neg (Nat.not_le.mpr hlt)]

lemma packetFor
    (hcut : Cut message maxDatagramSize pieces) (k : Nat) (piece : Bytes) (now : Nat) :
    Holds message pieces (fed log) (r.packetFor (message.piece pieces.length k piece) now) ∧
      ((r.packetFor (message.piece pieces.length k piece) now).firstSeen = now ∨
        ∃ e ∈ log, e.1.2 = (r.packetFor (message.piece pieces.length k piece) now).firstSeen) := by
  have hcount := hcut.toNat_count k piece
  rcases h.packet with ⟨hnone, haway⟩ | ⟨packet, hcur, hholds, hfirst⟩
  · rcases r.packetFor_cases (message.piece pieces.length k piece) now with hs | ⟨hcur, hid, hlen⟩
    · have hfed : fed log = fun _ => false := funext hnone
      rw [hfed]
      exact ⟨hs.holds hcut, .inl hs.firstSeen⟩
    · rcases haway _ hcur with hne | hne
      · exact absurd hid hne
      · exact absurd (hlen.trans hcount) hne
  · have hlen : packet.fragments.length = pieces.length := by
      rw [hholds.fragments, Slots.length_restrict]
    have hpacket : r.packetFor (message.piece pieces.length k piece) now = packet := by
      simp only [Reassembler.packetFor, hcur, hcount, hlen, hholds.packetId]
      simp [UdpMessage.piece]
    rw [hpacket]
    exact ⟨hholds, .inr hfirst⟩

lemma snoc_whole {answer : Except ReassemblyError (Option ReassembledDatagram)}
    (hm : m.fragmentCount = 1) (hanswer : Answered limits ((m, now), answer)) :
    Progress message pieces missing limits r (log ++ [((m, now), answer)]) := by
  have hfed : fed (log ++ [((m, now), answer)]) = fed log := by
    funext k
    rw [fed_snoc, hm]
    simp
  refine ⟨h.limits, by rw [hfed]; exact h.missing, forall_mem_append.mpr ⟨h.answers, ?_⟩, ?_⟩
  · exact forall_mem_singleton.mpr hanswer
  · rw [hfed]
    rcases h.packet with hnone | ⟨packet, hcur, hholds, e, he, hfirst⟩
    · exact .inl hnone
    · exact .inr ⟨packet, hcur, hholds, e, mem_append_left _ he, hfirst⟩

lemma feed_piece (hcut : Cut message maxDatagramSize pieces) (hone : pieces.length ≠ 1)
    (hsession : limits.sessionId = message.sessionId)
    (hmax : message.payload.length ≤ limits.maxPayload) (hmissing : missing < pieces.length)
    {k : Nat} (hk : pieces[k]? = some piece) (hne : k ≠ missing)
    (hnow : ∀ e ∈ log, now - e.1.2 < limits.timeout) :
    ∃ r', r.feed (message.piece pieces.length k piece) now = some (r', .ok none) ∧
      Progress message pieces missing limits r'
        (log ++ [((message.piece pieces.length k piece, now), .ok none)]) := by
  have hexp := h.expire hnow
  obtain ⟨hs, hm, ht⟩ := h.limits
  have hm' : message.payload.length ≤ (r.expire now).maxPayload := by rwa [hexp.limits.2.1]
  rw [Reassembler.feed_piece hcut hone (hs.trans hsession) (by rwa [hm]) hk now]
  obtain ⟨hholds, hfirst⟩ := hexp.packetFor hcut k piece now
  have hfed := fed_snoc_piece hcut hone hk log now (.ok none)
  generalize (r.expire now).packetFor (message.piece pieces.length k piece) now = packet at *
  have hanswers : ∀ e ∈ log ++ [((message.piece pieces.length k piece, now), .ok none)],
      Answered limits e :=
    forall_mem_append.mpr ⟨h.answers, forall_mem_singleton.mpr
      ⟨fun _ => rfl, fun hone' => absurd hone' (hcut.count_ne_one hone k piece)⟩⟩
  have hopen : (fed log missing || missing == k) = false := by
    rw [h.missing, Bool.false_or, beq_eq_false_iff_ne]
    exact Ne.symm hne
  -- Where the packet was started is in the log, be it with this very piece.
  have hstart : ∃ e ∈ log ++ [((message.piece pieces.length k piece, now), .ok none)],
      e.1.2 = packet.firstSeen := by
    rcases hfirst with hfirst | ⟨e, he, hfirst⟩
    · exact ⟨_, mem_append_right _ (mem_singleton_self _), hfirst.symm⟩
    · exact ⟨e, mem_append_left _ he, hfirst⟩
  cases hhas : fed log k with
  | true =>
    refine ⟨{ r.expire now with current := some packet },
      hholds.file_repeated hcut hk hhas, hexp.limits, ?_, hanswers,
      .inr ⟨packet, rfl, ?_, hstart⟩⟩
    · rw [hfed]
      exact hopen
    rw [hfed]
    refine { hholds with fragments := ?_ }
    rw [hholds.fragments]
    refine restrict_congr fun j _ => ?_
    by_cases hj : j = k
    · rw [hj, hhas, Bool.true_or]
    · rw [beq_eq_false_iff_ne.mpr hj, Bool.or_false]
  | false =>
    refine ⟨{ r.expire now with
        current := some (packet.store (message.piece pieces.length k piece)) },
      ?_, hexp.limits, ?_, hanswers, .inr ⟨_, rfl, ?_, hstart⟩⟩
    · rw [hholds.file_new hcut hm' hk hhas, if_neg]
      exact fun hall => absurd (hall missing hmissing) (by rw [hopen]; simp)
    · rw [hfed]
      exact hopen
    · rw [hfed]
      exact hholds.store hcut hk hhas

lemma feed_missing (hcut : Cut message maxDatagramSize pieces) (hone : pieces.length ≠ 1)
    (hsession : limits.sessionId = message.sessionId)
    (hmax : message.payload.length ≤ limits.maxPayload) (hk : pieces[missing]? = some piece)
    (hothers : ∀ j < pieces.length, j ≠ missing → fed log j)
    (hnow : ∀ e ∈ log, now - e.1.2 < limits.timeout) :
    ∃ r', r.feed (message.piece pieces.length missing piece) now =
      some (r', .ok (some ⟨message.sessionId, message.address, message.payload⟩)) := by
  have hexp := h.expire hnow
  obtain ⟨hs, hm, ht⟩ := h.limits
  have hm' : message.payload.length ≤ (r.expire now).maxPayload := by rwa [hexp.limits.2.1]
  rw [Reassembler.feed_piece hcut hone (hs.trans hsession) (by rwa [hm]) hk now]
  obtain ⟨hholds, -⟩ := hexp.packetFor hcut missing piece now
  rw [hholds.file_new hcut hm' hk h.missing, if_pos, hexp.limits.1, hsession]
  · exact ⟨_, rfl⟩
  intro j hj
  by_cases heq : j = missing
  · rw [heq, beq_self_eq_true, Bool.or_true]
  · rw [hothers j hj heq, Bool.true_or]

end Progress

/-- Messages are fed one by one, and then the `last` fragment of a message, which is
the only one that has not been fed. -/
structure Delivery (r : Reassembler) (message : UdpMessage) (fragments : List UdpMessage)
    (before : List (UdpMessage × Nat)) (last : UdpMessage) (now : Nat) : Prop where
  session : r.sessionId = message.sessionId
  budget : message.payload.length ≤ r.maxPayload
  away : r.Away message.packetId fragments.length
  /-- Fragments of the message, and unfragmented messages of the session. -/
  kinds : ∀ call ∈ before, call.1 ∈ fragments ∨
    call.1.fragmentCount = 1 ∧ call.1.sessionId = r.sessionId
  fragment : last ∈ fragments
  missing : last.fragmentCount ≠ 1 → ∀ call ∈ before, call.1 ≠ last
  others : ∀ fragment ∈ fragments, fragment ≠ last → ∃ call ∈ before, call.1 = fragment
  times : (before.map Prod.snd ++ [now]).Pairwise fun s t => t - s < r.timeout

lemma mem_pieces {f : UdpMessage} (h : f ∈ pieces.mapIdx (message.piece pieces.length)) :
    ∃ k piece, pieces[k]? = some piece ∧ f = message.piece pieces.length k piece := by
  obtain ⟨k, hk, rfl⟩ := mem_mapIdx.mp h
  exact ⟨k, _, getElem?_eq_getElem hk, rfl⟩

lemma piece_mem (h : pieces[k]? = some piece) :
    message.piece pieces.length k piece ∈ pieces.mapIdx (message.piece pieces.length) := by
  obtain ⟨hk, rfl⟩ := List.getElem_of_getElem? h
  exact mem_mapIdx.mpr ⟨k, hk, rfl⟩

lemma fed_of_mem {log : List Feeding} {e : Feeding} (he : e ∈ log)
    (hne : e.1.1.fragmentCount ≠ 1) : fed log e.1.1.fragmentId.toNat := by
  rw [fed, any_eq_true]
  exact ⟨e, he, by simp [hne]⟩

/-- What a `Delivery` comes to. -/
def Delivers (r : Reassembler) (message : UdpMessage) (before : List (UdpMessage × Nat))
    (last : UdpMessage) (now : Nat) : Prop :=
  ∃ r' log, run feedCall r before = some (r', log) ∧
    (∀ e ∈ log, Answered r e) ∧
    ∃ r'', r'.feed last now =
      some (r'', .ok (some ⟨message.sessionId, message.address, message.payload⟩))

lemma Delivery.delivers_pieces (hcut : Cut message maxDatagramSize pieces)
    (hone : pieces.length ≠ 1)
    (h : Delivery r message (pieces.mapIdx (message.piece pieces.length)) before last now) :
    Delivers r message before last now := by
  obtain ⟨missing, final, hfinal, rfl⟩ := mem_pieces h.fragment
  have hmissing := (List.getElem_of_getElem? hfinal).1
  have haway := h.away
  rw [length_mapIdx] at haway
  obtain ⟨hbefore, -, hlast⟩ := pairwise_append.mp h.times
  have h0 : Progress message pieces missing r r [] :=
    ⟨⟨rfl, rfl, rfl⟩, rfl, by simp, .inl ⟨fun _ => rfl, haway⟩⟩
  have hstep : ∀ s log, ∀ call ∈ before, Progress message pieces missing r s log →
      (∀ e ∈ log, call.2 - e.1.2 < r.timeout) → ∃ s' answer, feedCall s call = some (s', answer) ∧
          Progress message pieces missing r s' (log ++ [(call, answer)]) := by
    intro s log call hcall hp hnow
    by_cases hwhole : call.1.fragmentCount = 1
    · obtain ⟨answer, ha, hanswer⟩ := feed_answered hp.limits hwhole call.2
      exact ⟨_, answer, ha, (hp.expire hnow).snoc_whole hwhole hanswer⟩
    rcases h.kinds call hcall with hf | hf
    · obtain ⟨k, piece, hk, hpiece⟩ := mem_pieces hf
      have hne : k ≠ missing := by
        rintro rfl
        cases hk.symm.trans hfinal
        exact h.missing (hcut.count_ne_one hone _ _) call hcall hpiece
      obtain ⟨s', hs', hp'⟩ := hp.feed_piece hcut hone h.session h.budget hmissing hk hne hnow
      rw [← hpiece] at hs' hp'
      exact ⟨s', _, hs', hp'⟩
    · exact absurd hf.1 hwhole
  obtain ⟨r', log, hrun, hp⟩ := run_inv hstep h0
    (R := fun c d => d.2 - c.2 < r.timeout) (pairwise_map.mp hbefore)
  have hcalls := run_calls hrun
  refine ⟨r', log, hrun, hp.answers, hp.feed_missing hcut hone h.session h.budget hfinal ?_ ?_⟩
  · intro j hj hne
    obtain ⟨call, hcall, heq⟩ := h.others _ (piece_mem (getElem?_eq_getElem hj)) (by
      intro heq
      refine hne ?_
      rw [← hcut.toNat_id hj _, heq, hcut.toNat_id hmissing])
    rw [← hcalls] at hcall
    obtain ⟨e, he, rfl⟩ := mem_map.mp hcall
    have hfed := fed_of_mem he (by rw [heq]; exact hcut.count_ne_one hone _ _)
    rwa [heq, hcut.toNat_id hj] at hfed
  · intro e he
    refine hlast e.1.2 ?_ now (mem_singleton_self _)
    rw [← hcalls]
    exact mem_map_of_mem (mem_map_of_mem he)

lemma Delivery.delivers_whole (hcut : Cut message maxDatagramSize pieces)
    (hone : pieces.length = 1)
    (h : Delivery r message (pieces.mapIdx (message.piece pieces.length)) before last now) :
    Delivers r message before last now := by
  have hcount : ∀ f ∈ pieces.mapIdx (message.piece pieces.length), f.fragmentCount = 1 := by
    intro f hf
    obtain ⟨k, piece, -, rfl⟩ := mem_pieces hf
    exact UInt8.toNat_inj.mp ((hcut.toNat_count k piece).trans hone)
  have hwhole : ∀ call ∈ before, call.1.fragmentCount = 1 := by
    intro call hcall
    rcases h.kinds call hcall with hf | hf
    · exact hcount _ hf
    · exact hf.1
  have hstep : ∀ s log, ∀ call ∈ before, r.SameLimits s ∧ (∀ e ∈ log, Answered r e) →
      ∃ s' answer, feedCall s call = some (s', answer) ∧
        r.SameLimits s' ∧ ∀ e ∈ log ++ [(call, answer)], Answered r e := by
    rintro s log call hcall ⟨hs, hanswers⟩
    obtain ⟨answer, ha, hanswer⟩ := feed_answered hs (hwhole call hcall) call.2
    exact ⟨_, answer, ha, hs.trans (s.expire_sameLimits call.2),
      forall_mem_append.mpr ⟨hanswers, forall_mem_singleton.mpr hanswer⟩⟩
  have h0 : r.SameLimits r ∧ ∀ e ∈ ([] : List Feeding), Answered r e := ⟨⟨rfl, rfl, rfl⟩, by simp⟩
  obtain ⟨r', log, hrun, ⟨hs, hm, -⟩, hanswers⟩ := run_inv (R := fun _ _ => True)
    (fun s log call hcall h _ => hstep s log call hcall h) h0 (pairwise_of_forall fun _ _ => trivial)
  refine ⟨r', log, hrun, hanswers, r'.expire now, ?_⟩
  obtain ⟨payload, rfl⟩ := length_eq_one_iff.mp hone
  have hpayload : payload = message.payload := by
    rw [← hcut.flatten, flatten_singleton]
  subst hpayload
  obtain ⟨k, piece, hk, hlast⟩ := mem_pieces h.fragment
  have hpiece := mem_singleton.mp (mem_of_getElem? hk)
  rw [hlast, feed_whole_ok (hcut.piece_valid hk) (hs.trans h.session) ?_
    (hcount _ (piece_mem hk)), hpiece]
  · rfl
  · rw [hpiece, hm]
    exact h.budget

/-- **The fragments of a message fit their datagrams, read back, and come together again**:
in any order, repeated, and with unfragmented messages in between. -/
theorem fragments_reassemble {message : UdpMessage} {maxDatagramSize : Nat}
    {fragments : List UdpMessage}
    (hfragments : fragmentUdpMessage message maxDatagramSize = .ok fragments) :
    (∀ fragment ∈ fragments, ∃ bytes, encodeUdpMessage fragment = .ok bytes ∧
      bytes.length ≤ maxDatagramSize ∧ decodeUdpMessage bytes = .ok fragment) ∧
    ∀ (r : Reassembler) (before : List (UdpMessage × Nat)) (last : UdpMessage) (now : Nat),
      Delivery r message fragments before last now → Delivers r message before last now := by
  obtain ⟨pieces, hcut, rfl⟩ := fragmentUdpMessage_cut hfragments
  refine ⟨fun fragment hf => ?_, fun r before last now h => ?_⟩
  · obtain ⟨k, piece, hk, rfl⟩ := mem_pieces hf
    exact hcut.encode hk
  by_cases hone : pieces.length = 1
  · exact h.delivers_whole hcut hone
  · exact h.delivers_pieces hcut hone

/-- A fragment, or with a count of one all of a message, to an address of one letter. -/
def sampleMessage (id count address : UInt8) (h : isUtf8 [address] = true) (payload : Bytes) :
    UdpMessage :=
  { sessionId := 7, packetId := 1, fragmentId := id, fragmentCount := count
    address := ⟨[address], h⟩, payload }

lemma fragmentUdpMessage_sample :
    fragmentUdpMessage (sampleMessage 0 1 97 (by decide) [1, 2, 3]) 12 =
      .ok [sampleMessage 0 2 97 (by decide) [1, 2], sampleMessage 1 2 97 (by decide) [3]] := by
  decide +kernel

/-- The second fragment twice, another message, and then the first. -/
theorem fragments_reassemble_two :
    fragmentUdpMessage (sampleMessage 0 1 97 (by decide) [1, 2, 3]) 12 =
      .ok [sampleMessage 0 2 97 (by decide) [1, 2], sampleMessage 1 2 97 (by decide) [3]] ∧
    Delivers { sessionId := 7, maxPayload := 3, timeout := 10 }
      (sampleMessage 0 1 97 (by decide) [1, 2, 3])
      [(sampleMessage 1 2 97 (by decide) [3], 0), (sampleMessage 1 2 97 (by decide) [3], 1),
        (sampleMessage 0 1 98 (by decide) [9], 2)]
      (sampleMessage 0 2 97 (by decide) [1, 2]) 3 :=
  ⟨fragmentUdpMessage_sample, (fragments_reassemble fragmentUdpMessage_sample).2 _ _ _ _
    { session := rfl
      budget := by decide
      away := fun _ h => nomatch h
      kinds := by decide
      fragment := mem_cons_self
      missing := by decide
      others := by decide
      times := by decide }⟩

/-- A packet to another address is at hand under the same number and with as many
fragments: the first fragment of the message is refused, and the second starts a packet
that is never complete. -/
theorem fragments_meet_stale_packet :
    fragmentUdpMessage (sampleMessage 0 1 97 (by decide) [1, 2, 3]) 12 =
      .ok [sampleMessage 0 2 97 (by decide) [1, 2], sampleMessage 1 2 97 (by decide) [3]] ∧
    (run feedCall { sessionId := 7, maxPayload := 3, timeout := 10 }
      [(sampleMessage 0 2 98 (by decide) [9], 0), (sampleMessage 0 2 97 (by decide) [1, 2], 1),
        (sampleMessage 1 2 97 (by decide) [3], 2)]).map (fun (_, log) => log.map Prod.snd) =
      some [.ok none, .error .conflict, .ok none] :=
  ⟨fragmentUdpMessage_sample, by decide +kernel⟩

end Reassembler

end Xray.Hysteria
