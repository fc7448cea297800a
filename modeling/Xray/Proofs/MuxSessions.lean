import Xray.Lib.Queue
import Xray.Proofs.MuxMoves
import Xray.Proofs.MuxWire

/-!
# Mux.Cool sessions are isolated and exactly-once

The history of a session is its `Event`s. `Books` compares an entry with the history:
the upload queue, the receive queue and the counters hold what the history says is on
its way. Every move keeps the books, so they hold in every run, for every session.
-/

namespace Xray.Mux

open List hiding Vector
open Bytes Routing Queue Frame World
open Framing (drain_append drain_of_none drain_of_some)

structure History where
  targets : List Target := []
  sendings : List Frame := []
  /-- The frames that have been written and flushed. -/
  sents : List Frame := []
  chunks : List Bytes := []
  /-- The payloads of the Keep frames consumed while the child was live. -/
  keeps : List Bytes := []
  /-- Whether each End frame of the peer had the error option. -/
  ends : List Bool := []
  reads : List Bytes := []

def History.add (past : History) : Event → History
  | .opened target => { past with targets := past.targets ++ [target] }
  | .wrote chunk => { past with chunks := past.chunks ++ [chunk] }
  | .sending frame => { past with sendings := past.sendings ++ [frame] }
  | .sent frame => { past with sents := past.sents ++ [frame] }
  | .kept payload => { past with keeps := past.keeps ++ [payload] }
  | .ended error => { past with ends := past.ends ++ [error] }
  | .read bytes => { past with reads := past.reads ++ [bytes] }

def History.after (past : History) (event : Option Event) : History := event.elim past past.add

def payloads (frames : List Frame) : List Bytes := frames.filterMap Frame.payload

/-- One New, then Keeps, then at most one End. -/
def Shape (frames : List Frame) : Prop :=
  frames = [] ∨ ∃ first rest last, frames = first :: rest ++ last ∧ first.status = .new ∧
    (∀ frame ∈ rest, frame.status = .keep) ∧ (∀ frame ∈ last, frame.status = .end) ∧
    last.length ≤ 1

lemma Shape.snoc {frames : List Frame} (h : Shape frames) (hne : frames ≠ [])
    (hopen : ∀ frame ∈ frames, frame.status ≠ .end) {frame : Frame}
    (hstatus : frame.status = .keep ∨ frame.status = .end) : Shape (frames ++ [frame]) := by
  rcases h with h | ⟨first, rest, last, rfl, hfirst, hrest, hlast, -⟩
  · exact absurd h hne
  have hnil : last = [] := by
    refine eq_nil_iff_forall_not_mem.mpr fun f hf => ?_
    exact hopen f (mem_append_right _ hf) (hlast f hf)
  subst hnil
  rcases hstatus with hkeep | hend
  · refine .inr ⟨first, rest ++ [frame], [], by simp, hfirst, fun f hf => ?_, by simp, by simp⟩
    rcases mem_append.mp hf with hf | hf
    · exact hrest f hf
    · rwa [mem_singleton.mp hf]
  · refine .inr ⟨first, rest, [frame], by simp, hfirst, hrest, fun f hf => ?_, by simp⟩
    rwa [mem_singleton.mp hf]

/-! ## The books of a session -/

/-- What is thrown away with the upload queue: nothing is accepted any more. -/
def Entry.Shut (e : Entry) : Prop := e.closing = true ∨ e.ended = true ∨ e.failed = true

/-- What is thrown away with the receive queue: nothing is read any more. -/
def Entry.Dead (e : Entry) : Prop := e.failed = true ∨ e.dropped = true

structure Books (v : View) (past : History) (e : Entry) : Prop where
  target : past.targets = [e.target]
  begun : v.running → (e.started ↔ past.sendings ≠ [])
  inflight : e.inflight → e.started
  closing : e.closing → e.started
  dropped : e.dropped → e.closing
  finished : v.running → (∃ frame ∈ past.sendings, frame.status = .end) →
    e.ended ∨ ∃ flight, v.flight = some flight ∧ flight.frame.status = .end
  landed : v.running → v.flight = none → past.sents = past.sendings
  upload : Conserved past.chunks (payloads past.sendings) (e.tx.map Prod.snd) e.Shut
  seqs : e.tx.map Prod.fst = List.range' ((payloads past.sendings).length + 1) e.tx.length
  accepted : e.accepted = past.chunks.length
  sent : e.sent = (payloads past.sents).length
  eof : e.readEof = e.ended
  ends : past.ends ≠ [] → e.ended
  held : v.held = !e.dropped
  stream : Conserved past.keeps.flatten past.reads.flatten (e.rx.map Packet.bytes).flatten e.Dead
  datagrams : e.target.network = .udp →
    Conserved past.keeps (past.reads.filter (· ≠ [])) (e.rx.map Packet.bytes) e.Dead
  filled : ∀ packet ∈ e.rx, packet.bytes ≠ []
  queue : e.rx.length ≤ childQueue

/-- What holds of every session in every run. -/
structure Good (id : Nat) (v : View) (past : History) : Prop where
  fresh : v.next < id → past = {} ∧ v.entry = none ∧ v.flight = none ∧ v.held = false
  room : v.next ≤ maxChildrenEver
  shape : Shape past.sendings
  upload : payloads past.sendings <+: past.chunks
  written : past.sents <+: past.sendings
  flight : ∀ flight, v.flight = some flight →
    flight.frame.sessionId.toNat = id ∧ past.sendings = past.sents ++ [flight.frame] ∧
      flight.seq = flight.frame.payload.map fun _ => (payloads past.sendings).length
  absent : v.entry = none → v.held = false
  stream : past.reads.flatten <+: past.keeps.flatten
  datagrams : (∃ target, target ∈ past.targets ∧ target.network = .udp) →
    past.reads.filter (· ≠ []) <+: past.keeps
  books : ∀ e, v.entry = some e → Books v past e

lemma payloads_snoc (frames : List Frame) (frame : Frame) :
    payloads (frames ++ [frame]) = payloads frames ++ frame.payload.toList := by
  simp only [payloads]
  cases h : frame.payload <;> simp [h]

/-! ## Moves that leave the history as it is -/

namespace Books

variable {v v' : View} {past : History} {e : Entry}

variable (h : Books v past e)

include h

lemma of_view (hheld : v'.held = v.held)
    (hrun : v'.running → v.running ∧ v'.flight = v.flight) : Books v' past e :=
  { h with
    begun := fun hr => h.begun (hrun hr).1
    finished := fun hr hex => by
      rw [(hrun hr).2]
      exact h.finished (hrun hr).1 hex
    landed := fun hr hf => h.landed (hrun hr).1 ((hrun hr).2 ▸ hf)
    held := hheld.trans h.held }

lemma fail : Books v past e.fail :=
  { h with
    upload := h.upload.clear (.inr (.inr rfl))
    seqs := rfl
    stream := h.stream.clear (.inl rfl)
    datagrams := fun hudp => (h.datagrams hudp).clear (.inl rfl)
    filled := fun _ hp => absurd hp (by simp [Entry.fail])
    queue := Nat.zero_le _ }

lemma close (hstarted : e.started) : Books v past { e with closing := true } :=
  { h with
    closing := fun _ => hstarted
    dropped := fun _ => rfl
    upload := h.upload.mono fun _ => .inl rfl }

lemma abandon (hstarted : e.started) : Books { v with held := false } past e.abandon :=
  { h with
    closing := fun _ => hstarted
    dropped := fun _ => rfl
    upload := h.upload.clear (.inl rfl)
    seqs := rfl
    held := rfl
    stream := h.stream.clear (.inr rfl)
    datagrams := fun hudp => (h.datagrams hudp).clear (.inr rfl)
    filled := fun _ hp => absurd hp (by simp [Entry.abandon])
    queue := Nat.zero_le _ }

/-- A frame was taken that could not be encoded; the writer has stopped. -/
lemma refuse (hrun : v'.running = false) (hheld : v'.held = v.held) :
    Books v' past e.sending.fail :=
  { h with
    begun := fun hr => absurd (hrun.symm.trans hr) (by simp)
    inflight := fun _ => rfl
    closing := fun _ => rfl
    finished := fun hr => absurd (hrun.symm.trans hr) (by simp)
    landed := fun hr => absurd (hrun.symm.trans hr) (by simp)
    upload := h.upload.clear (.inr (.inr rfl))
    seqs := rfl
    held := hheld.trans h.held
    stream := h.stream.clear (.inl rfl)
    datagrams := fun hudp => (h.datagrams hudp).clear (.inl rfl)
    filled := fun _ hp => absurd hp (by simp [Entry.fail])
    queue := Nat.zero_le _ }

end Books

namespace Good

variable {id : Nat} {v v' : View} {past : History} {e : Entry}

lemma known (h : Good id v past) (hentry : v.entry = some e) : id ≤ v.next := by
  rcases Nat.lt_or_ge v.next id with hlt | hle
  · rw [(h.fresh hlt).2.1] at hentry
    simp at hentry
  · exact hle

lemma with_entry (h : Good id v past) (hknown : id ≤ v.next) (hnext : v'.next = v.next)
    (hflight : ∀ flight, v'.flight = some flight → v.flight = some flight)
    (habsent : v'.entry = none → v'.held = false)
    (hbooks : ∀ e, v'.entry = some e → Books v' past e) : Good id v' past :=
  { h with
    fresh := fun hlt => absurd hknown (by omega)
    room := hnext ▸ h.room
    flight := fun flight hf => h.flight flight (hflight flight hf)
    absent := habsent
    books := hbooks }

/-- All children fail; the writer may stop with them. -/
lemma fail (h : Good id v past) (hentry : v'.entry = v.entry.map Entry.fail)
    (hheld : v'.held = v.held) (hnext : v'.next = v.next)
    (hrun : v'.running → v.running ∧ v'.flight = v.flight)
    (hflight : ∀ flight, v'.flight = some flight → v.flight = some flight) : Good id v' past :=
  { h with
    fresh := fun hlt => by
      obtain ⟨h1, h2, h3, h4⟩ := h.fresh (hnext ▸ hlt)
      refine ⟨h1, by rw [hentry, h2]; rfl, ?_, by rw [hheld, h4]⟩
      cases hf : v'.flight with
      | none => rfl
      | some flight => exact absurd (h3.symm.trans (hflight flight hf)) (by simp)
    room := hnext ▸ h.room
    flight := fun flight hf => h.flight flight (hflight flight hf)
    absent := fun hnone => by
      rw [hheld]
      rw [hentry, Option.map_eq_none_iff] at hnone
      exact h.absent hnone
    books := fun e he => by
      rw [hentry, Option.map_eq_some_iff] at he
      obtain ⟨e₀, he₀, rfl⟩ := he
      exact (h.books e₀ he₀).fail.of_view hheld hrun }

end Good

/-! ## A child's own moves -/

section Child

variable {id : Nat} {v : View} {past : History} {e : Entry}

lemma Books.opened (target : Target) (globalId : Vector UInt8 8) (hheld : v.held) :
    Books v { targets := [target] } { target, globalId } where
  target := rfl
  begun := fun _ => ⟨fun h => absurd h (by simp), fun h => absurd rfl h⟩
  inflight := fun h => absurd h (by simp)
  closing := fun h => absurd h (by simp)
  dropped := fun h => absurd h (by simp)
  finished := fun _ h => absurd h (by simp)
  landed := fun _ _ => rfl
  upload := .nil
  seqs := rfl
  accepted := rfl
  sent := rfl
  eof := rfl
  ends := fun h => absurd rfl h
  held := hheld
  stream := .nil
  datagrams := fun _ => .nil
  filled := fun _ h => absurd h (by simp)
  queue := Nat.zero_le _

lemma Books.wrote (h : Books v past e)
    (hopen : e.failed = false ∧ e.closing = false ∧ e.ended = false) (chunk : Bytes) :
    Books v (past.add (.wrote chunk))
      { e with accepted := e.accepted + 1, tx := e.tx ++ [(e.accepted + 1, chunk)] } := by
  have hshut : ¬ e.Shut := by simp [Entry.Shut, hopen]
  have hcount : e.accepted = (payloads past.sendings).length + e.tx.length := by
    rw [h.accepted, h.upload.alive hshut, length_append, length_map]
  have hupload := h.upload.push hshut [chunk]
  exact
    { h with
      upload := by
        show Conserved _ _ ((e.tx ++ [_]).map Prod.snd) _
        rw [map_append]
        exact hupload
      seqs := by
        show (e.tx ++ [_]).map Prod.fst = List.range' _ (e.tx ++ [_]).length
        rw [map_append, h.seqs, length_append, length_singleton,
          List.range'_1_concat, map_singleton, hcount]
        congr 2
        show (payloads past.sendings).length + e.tx.length + 1 =
          (payloads past.sendings).length + 1 + e.tx.length
        omega
      accepted := by
        show e.accepted + 1 = (past.chunks ++ [chunk]).length
        rw [h.accepted, length_append, length_singleton] }

lemma Books.read (h : Books v past e) {packet : Packet} {rest : List Packet} {n : Nat}
    (hrx : e.rx = packet :: rest)
    (hudp : e.target.network = .udp → packet.bytes.length ≤ n) :
    Books v (past.add (.read (packet.bytes.take n))) { e with
        rx := if packet.bytes.drop n = [] then rest
          else { packet with bytes := packet.bytes.drop n } :: rest } := by
  have hne := h.filled packet (by rw [hrx]; exact mem_cons_self)
  have hstream := h.stream
  have hqueue := h.queue
  have hfilled := h.filled
  rw [hrx] at hqueue hfilled
  rw [hrx, map_cons, flatten_cons, ← take_append_drop n packet.bytes, append_assoc] at hstream
  have htake := hstream.take
  have hreads : (past.reads ++ [packet.bytes.take n]).flatten =
      past.reads.flatten ++ packet.bytes.take n := by simp
  refine
    { h with
      stream := ?_
      datagrams := fun hu => ?_
      filled := fun p hp => ?_
      queue := ?_ }
  · show Conserved _ (past.reads ++ [_]).flatten _ _
    rw [hreads]
    split
    · next hnil =>
      rw [hnil] at htake
      exact htake
    · exact htake
  · have hall : packet.bytes.drop n = [] := drop_eq_nil_iff.mpr (hudp hu)
    have hwhole : packet.bytes.take n = packet.bytes := take_of_length_le (hudp hu)
    have hdata := h.datagrams hu
    rw [hrx] at hdata
    show Conserved past.keeps ((past.reads ++ [_]).filter _) _ _
    rw [if_pos hall, hwhole, filter_append, filter_singleton]
    simp only [ne_eq, hne]
    exact hdata.take
  · split at hp
    · exact hfilled p (mem_cons_of_mem _ hp)
    next hnil =>
    rcases mem_cons.mp hp with rfl | hp
    · exact hnil
    · exact hfilled p (mem_cons_of_mem _ hp)
  · split
    · exact Nat.le_of_succ_le hqueue
    · exact hqueue

lemma Books.readNothing (h : Books v past e) : Books v (past.add (.read [])) e :=
  { h with
    stream := by
      show Conserved _ (past.reads ++ [[]]).flatten _ _
      rw [flatten_append, flatten_singleton, append_nil]
      exact h.stream
    datagrams := fun hudp => by
      show Conserved _ ((past.reads ++ [[]]).filter _) _ _
      rw [filter_append, show ([[]] : List Bytes).filter (· ≠ []) = [] from rfl, append_nil]
      exact h.datagrams hudp }

end Child

section Writer

variable {id : Nat} {v : View} {past : History} {e : Entry}

lemma Entry.flight_payload (e : Entry) (id : Nat) :
    (e.flight id).frame.payload = (e.tx.head?).map Prod.snd ∧
      (e.flight id).seq = (e.tx.head?).map Prod.fst := by
  cases htx : e.tx <;> simp [Entry.flight, htx]

variable (h : Books v past e)

include h

/-- The frame fits what was sent before it. -/
lemma Books.flight_status (id : Nat) (hrunning : v.running) :
    (past.sendings = [] ∧ (e.flight id).frame.status = .new) ∨
      (past.sendings ≠ [] ∧
        ((e.flight id).frame.status = .keep ∨ (e.flight id).frame.status = .end)) := by
  cases hstarted : e.started with
  | true =>
    refine .inr ⟨(h.begun hrunning).mp hstarted, ?_⟩
    simp only [Entry.flight]
    split
    · exact .inr rfl
    · exact .inl rfl
  | false =>
    have hnot : past.sendings = [] := by
      by_contra hne
      exact absurd ((h.begun hrunning).mpr hne) (by simp [hstarted])
    have hclosing : e.closing = false := by
      cases hc : e.closing with
      | false => rfl
      | true => exact absurd (h.closing hc) (by simp [hstarted])
    refine .inl ⟨hnot, ?_⟩
    simp [Entry.flight, hstarted, hclosing]

lemma Books.sending (id : Nat) (hrunning : v.running)
    (hflight : v.flight = none) (hopen : e.ended = false) :
    Books { v with flight := some (e.flight id) } (past.add (.sending (e.flight id).frame))
      e.sending := by
  obtain ⟨hpayload, -⟩ := e.flight_payload id
  have hsendings : payloads (past.sendings ++ [(e.flight id).frame]) =
      payloads past.sendings ++ ((e.tx.head?).map Prod.snd).toList := by
    rw [payloads_snoc, hpayload]
  refine
    { h with
      begun := fun _ => ⟨fun _ => by simp [History.add], fun _ => rfl⟩
      inflight := fun _ => rfl
      closing := fun _ => rfl
      finished := fun _ hex => ?_
      landed := fun _ hf => absurd hf (by simp)
      upload := ?_
      seqs := ?_ }
  · obtain ⟨frame, hframe, hend⟩ := hex
    rcases mem_append.mp hframe with hframe | hframe
    · rcases h.finished hrunning ⟨frame, hframe, hend⟩ with hended | ⟨flight, hf, -⟩
      · exact absurd hended (by simp [hopen])
      · cases hflight.symm.trans hf
    · exact .inr ⟨_, rfl, mem_singleton.mp hframe ▸ hend⟩
  · show Conserved past.chunks (payloads (past.sendings ++ [_])) (e.tx.tail.map Prod.snd) e.Shut
    rw [hsendings]
    have hupload := h.upload
    cases htx : e.tx with
    | nil =>
      rw [htx] at hupload
      simpa using hupload
    | cons chunk rest =>
      rw [htx] at hupload
      exact hupload.take
  · show e.tx.tail.map Prod.fst =
      List.range' ((payloads (past.sendings ++ [_])).length + 1) e.tx.tail.length
    rw [hsendings]
    have hseqs := h.seqs
    cases htx : e.tx with
    | nil => rfl
    | cons chunk rest =>
      rw [htx, length_cons, List.range'_succ] at hseqs
      have hrest := (List.cons.inj hseqs).2
      simpa using hrest

lemma Books.flight_seq : (e.flight id).seq = (e.flight id).frame.payload.map fun _ =>
      (payloads (past.sendings ++ [(e.flight id).frame])).length := by
  obtain ⟨hpayload, hseq⟩ := e.flight_payload id
  rw [payloads_snoc, hpayload, hseq]
  have hseqs := h.seqs
  cases htx : e.tx with
  | nil => rfl
  | cons chunk rest =>
    rw [htx] at hseqs
    have hfirst := (List.cons.inj hseqs).1
    simp [hfirst]

lemma Books.landed_entry {flight : Flight}
    (hflight : v.flight = some flight) (hsendings : past.sendings = past.sents ++ [flight.frame])
    (hseq : flight.seq = flight.frame.payload.map fun _ => (payloads past.sendings).length) :
    Books { v with flight := none } (past.add (.sent flight.frame)) (e.landed flight) := by
  have hsent : flight.seq.getD e.sent = (payloads (past.sents ++ [flight.frame])).length := by
    rw [hseq, hsendings, payloads_snoc]
    cases hp : flight.frame.payload with
    | none => simp [h.sent]
    | some payload => simp
  have hover : ∀ e' : Entry, (e'.ended = false → flight.frame.status ≠ .end ∧ e.ended = false) →
      v.running = true → (∃ frame ∈ past.sendings, frame.status = .end) →
      e'.ended = true ∨ ∃ fl, ({ v with flight := none } : View).flight = some fl ∧
        fl.frame.status = .end := by
    intro e' himp hrunning hex
    cases hended : e'.ended with
    | true => exact .inl rfl
    | false =>
      obtain ⟨hstatus, hopen⟩ := himp hended
      rcases h.finished hrunning hex with h1 | ⟨fl, hfl, h1⟩
      · exact absurd h1 (by simp [hopen])
      · cases hflight.symm.trans hfl
        exact absurd h1 hstatus
  rw [Entry.landed]
  by_cases hstatus : flight.frame.status = .end
  · rw [if_pos hstatus]
    exact
      { h with
        inflight := fun hi => absurd hi (by simp)
        finished := hover _ fun hf => absurd hf (by simp)
        landed := fun _ _ => hsendings.symm
        upload := h.upload.mono fun _ => .inr (.inl rfl)
        sent := hsent
        eof := rfl
        ends := fun _ => rfl }
  · rw [if_neg hstatus]
    exact
      { h with
        inflight := fun hi => absurd hi (by simp)
        finished := hover _ fun hf => ⟨hstatus, hf⟩
        landed := fun _ _ => hsendings.symm
        sent := hsent }

end Writer

section Reader

variable {id : Nat} {v : View} {past : History} {e e' : Entry} {frame : Frame}

lemma Entry.receive_cases (h : e.receive frame = some e') : (frame.status = .end ∧ e' = { e with
        readEof := true
        ended := true
        tx := []
        failed := e.failed || (frame.error || e.sent != e.accepted) }) ∨
    (∃ payload, frame.status = .keep ∧ frame.content = some payload ∧
      (e.dropped = false ∧ e.failed = false ∧ e.readEof = false) ∧ e.rx.length < childQueue ∧
      e' = { e with rx := e.rx ++ [{ source := frame.target, bytes := payload }] }) ∨
    (e' = e ∧ frame.status ≠ .end ∧ (frame.status = .keep →
      ¬(e.dropped = false ∧ e.failed = false ∧ e.readEof = false) ∨ frame.content = none)) := by
  simp only [Entry.receive] at h
  cases hstatus : frame.status with
  | keep =>
    simp only [hstatus] at h
    by_cases hopen : (!e.dropped) = true ∧ (!e.failed) = true ∧ (!e.readEof) = true
    · rw [if_pos hopen] at h
      simp only [Bool.not_eq_true'] at hopen
      cases hcontent : frame.payload.filter (· ≠ []) with
      | none =>
        simp only [hcontent, Option.some.injEq] at h
        exact .inr (.inr ⟨h.symm, by simp, fun _ => .inr hcontent⟩)
      | some payload =>
        simp only [hcontent] at h
        split at h
        · simp at h
        · next hroom =>
          cases h
          exact .inr (.inl ⟨payload, rfl, hcontent, hopen, Nat.not_le.mp hroom, rfl⟩)
    · rw [if_neg hopen, Option.some.injEq] at h
      simp only [Bool.not_eq_true'] at hopen
      exact .inr (.inr ⟨h.symm, by simp, fun _ => .inl hopen⟩)
  | «end» =>
    simp only [hstatus, Option.some.injEq] at h
    exact .inl ⟨rfl, h.symm⟩
  | new | keepAlive =>
    simp only [hstatus, Option.some.injEq] at h
    exact .inr (.inr ⟨h.symm, by simp, fun hk => absurd hk (by simp)⟩)

/-- A frame is for a live child exactly when `deliver` queues it. -/
lemma Books.live_iff (h : Books v past e) :
    v.live e ↔ e.dropped = false ∧ e.failed = false ∧ e.readEof = false := by
  rw [View.live, h.held, h.eof]
  cases e.dropped <;> cases e.ended <;> cases e.failed <;> simp

lemma content_ne_nil {payload : Bytes} (h : frame.content = some payload) : payload ≠ [] := by
  have := (Option.filter_eq_some_iff.mp h).2
  simpa using this

lemma Books.received (h : Books v past e) (hreceive : e.receive frame = some e') :
    Books v (past.after (frame.event (v.live e))) e' := by
  rcases Entry.receive_cases hreceive with
    ⟨hstatus, rfl⟩ | ⟨payload, hstatus, hcontent, hlive, hroom, rfl⟩ | ⟨rfl, hnot⟩
  · have hkept : frame.event (v.live e) = some (.ended frame.error) := by
      simp only [event, hstatus]
    rw [hkept]
    exact
      { h with
        finished := fun _ _ => .inl rfl
        upload := h.upload.clear (.inr (.inl rfl))
        seqs := rfl
        eof := rfl
        ends := fun _ => rfl
        stream := h.stream.mono fun hd => hd.imp_left fun hf => by simp [hf]
        datagrams := fun hu => (h.datagrams hu).mono fun hd => hd.imp_left fun hf => by simp [hf] }
  · have hkept : frame.event (v.live e) = some (.kept payload) := by
      simp only [event, hstatus, h.live_iff.mpr hlive, if_true, hcontent, Option.map_some]
    have hdead : ¬ e.Dead := by simp [Entry.Dead, hlive]
    rw [hkept]
    refine
      { h with
        stream := ?_
        datagrams := fun hu => ?_
        filled := fun p hp => ?_
        queue := ?_ }
    · have hpush := h.stream.push hdead payload
      show Conserved (past.keeps ++ [payload]).flatten _ ((e.rx ++ [_]).map Packet.bytes).flatten _
      rw [flatten_append, map_append, map_singleton, flatten_append, flatten_singleton]
      exact hpush
    · have hpush := (h.datagrams hu).push hdead [payload]
      show Conserved (past.keeps ++ [payload]) _ ((e.rx ++ [_]).map Packet.bytes) _
      rw [map_append]
      exact hpush
    · rcases mem_append.mp hp with hp | hp
      · exact h.filled p hp
      · rw [mem_singleton.mp hp]
        exact content_ne_nil hcontent
    · rw [length_append]
      exact hroom
  · have hkept : frame.event (v.live e') = none := by
      simp only [event]
      cases hstatus : frame.status with
      | keep =>
        rcases hnot.2 hstatus with hdead | hnone
        · rw [if_neg fun hlive => hdead (h.live_iff.mp hlive)]
        · simp [hnone]
      | «end» => exact absurd hstatus hnot.1
      | _ => rfl
    rw [hkept]
    exact h

end Reader

/-! ## Every move keeps the books -/

namespace Good

variable {id : Nat} {v v' : View} {past : History} {e : Entry}

lemma settled (hbooks : Books v past e) :
    (e.settled = none → v.held = false) ∧ ∀ e', e.settled = some e' → Books v past e' := by
  rw [Entry.settled]
  split
  · next hover =>
    refine ⟨fun _ => ?_, fun e' he => absurd he (by simp)⟩
    rw [hbooks.held, hover.1]
    rfl
  · refine ⟨fun hn => absurd hn (by simp), fun e' he => ?_⟩
    cases he
    exact hbooks

lemma opened (h : Good id v past) (target : Target) (globalId : Vector UInt8 8)
    (hnext : v.next + 1 = id) (hroom : v.next < maxChildrenEver) :
    Good id { v with entry := some { target, globalId }, held := true, next := id }
      (past.add (.opened target)) := by
  obtain ⟨rfl, hentry, hflight, -⟩ := h.fresh (by omega)
  refine ⟨fun hlt => ?_, ?_, .inl rfl, List.nil_prefix, List.nil_prefix, fun flight hf => ?_, ?_,
    List.nil_prefix, fun _ => List.nil_prefix, fun e he => ?_⟩
  · exact absurd hlt (Nat.lt_irrefl _)
  · show id ≤ maxChildrenEver
    omega
  · cases hflight.symm.trans hf
  · exact fun hn => absurd hn (by simp)
  · cases he
    exact Books.opened target globalId rfl

variable {e' : Entry} {entry : Option Entry}

variable (h : Good id v past)

include h

lemma with_history (hentry : v.entry = some e) {past' : History}
    (hwire : past'.sendings = past.sendings ∧ past'.sents = past.sents)
    (hchunks : past.chunks <+: past'.chunks) (hbooks : Books v past' e')
    (habsent : entry = none → v.held = false) (hsome : ∀ e, entry = some e → Books v past' e) :
    Good id { v with entry } past' := by
  obtain ⟨hsendings, hsents⟩ := hwire
  refine ⟨fun hlt => absurd (h.known hentry) (by simp only at hlt; omega), h.room, ?_, ?_, ?_, ?_,
    habsent, hbooks.stream.got_initial, fun ⟨t, ht, hu⟩ => ?_, fun e he => ?_⟩
  · rw [hsendings]
    exact h.shape
  · rw [hsendings]
    exact h.upload.trans hchunks
  · rw [hsendings, hsents]
    exact h.written
  · rw [hsendings, hsents]
    exact h.flight
  · rw [hbooks.target, mem_singleton] at ht
    exact (hbooks.datagrams (ht ▸ hu)).got_initial
  · exact (hsome e he).of_view rfl fun hr => ⟨hr, rfl⟩

lemma child_move (hentry : v.entry = some e) {past' : History}
    (hwire : past'.sendings = past.sendings ∧ past'.sents = past.sents)
    (hchunks : past.chunks <+: past'.chunks) (hbooks : Books v past' e') :
    Good id { v with entry := some e' } past' := by
  refine h.with_history hentry hwire hchunks hbooks (fun hn => absurd hn (by simp)) fun e he => ?_
  cases he
  exact hbooks

lemma sending (hid : (UInt16.ofNat id).toNat = id)
    (hrunning : v.running) (hflight : v.flight = none) (hentry : v.entry = some e)
    (hopen : e.ended = false) :
    Good id { v with entry := some e.sending, flight := some (e.flight id) }
      (past.add (.sending (e.flight id).frame)) := by
  have hb := h.books e hentry
  have hbooks : Books { v with entry := some e.sending, flight := some (e.flight id) } _ _ :=
    (hb.sending id hrunning hflight hopen).of_view rfl fun hr => ⟨hr, rfl⟩
  have hsents : past.sents = past.sendings := hb.landed hrunning hflight
  refine
    { h with
      fresh := fun hlt => absurd (h.known hentry) (by simp only at hlt; omega)
      shape := ?_
      upload := hbooks.upload.got_initial
      written := h.written.trans (prefix_append _ _)
      flight := fun flight hf => ?_
      absent := fun hn => absurd hn (by simp)
      books := fun e' he => ?_ }
  · rcases hb.flight_status id hrunning with ⟨hnil, hnew⟩ | ⟨hne, hstatus⟩
    · refine .inr ⟨(e.flight id).frame, [], [], ?_, hnew, by simp, by simp, by simp⟩
      simp [History.add, hnil]
    refine h.shape.snoc hne (fun frame hframe hend => ?_) hstatus
    rcases hb.finished hrunning ⟨frame, hframe, hend⟩ with hended | ⟨flight, hf, -⟩
    · exact absurd hended (by simp [hopen])
    · cases hflight.symm.trans hf
  · cases hf
    refine ⟨hid, ?_, hb.flight_seq⟩
    show past.sendings ++ _ = past.sents ++ _
    rw [hsents]
  · cases he
    exact hbooks

lemma landed {flight : Flight} (hflight : v.flight = some flight)
    (habsent : entry = none → v.held = false) (hbooks : ∀ e, entry = some e →
      Books { v with entry, flight := none } (past.add (.sent flight.frame)) e) :
    Good id { v with entry, flight := none } (past.add (.sent flight.frame)) := by
  obtain ⟨-, hsendings, -⟩ := h.flight flight hflight
  refine
    { h with
      fresh := fun hlt => ?_
      written := ?_
      flight := fun flight hf => absurd hf (by simp)
      absent := habsent
      books := hbooks }
  · exact absurd ((h.fresh hlt).2.2.1.symm.trans hflight) (by simp)
  · show past.sents ++ [flight.frame] <+: past.sendings
    rw [hsendings]

lemma received {frame : Frame} (hentry : v.entry = some e)
    (hreceive : e.receive frame = some e') :
    Good id { v with entry := e'.settled } (past.after (frame.event (v.live e))) := by
  have hbooks := (h.books e hentry).received hreceive
  obtain ⟨habsent, hall⟩ := settled hbooks
  have hwire : (past.after (frame.event (v.live e))).sendings = past.sendings ∧
      (past.after (frame.event (v.live e))).sents = past.sents ∧
      (past.after (frame.event (v.live e))).chunks = past.chunks := by
    simp only [event]
    cases frame.status with
    | keep =>
      cases v.live e with
      | false => exact ⟨rfl, rfl, rfl⟩
      | true => cases frame.content <;> exact ⟨rfl, rfl, rfl⟩
    | _ => exact ⟨rfl, rfl, rfl⟩
  obtain ⟨hsendings, hsents, hchunks⟩ := hwire
  exact h.with_history hentry ⟨hsendings, hsents⟩ (by rw [hchunks]) hbooks habsent hall

lemma moves (hid : v.entry ≠ none → (UInt16.ofNat id).toNat = id)
    {event : Option Event} (hmove : Moves id v event v') : Good id v' (past.after event) := by
  cases hmove with
  | stays => exact h
  | other hroom hnext hfresh =>
    exact
      { h with
        fresh := fun hlt => h.fresh (Nat.lt_of_le_of_lt hnext hlt)
        room := hroom
        books := fun e he => (h.books e he).of_view rfl fun hr => ⟨hr, rfl⟩ }
  | opened target globalId hnext hroom => exact h.opened target globalId hnext hroom
  | wrote hentry hheld hopen chunk =>
    exact h.child_move hentry ⟨rfl, rfl⟩ (prefix_append _ _)
      ((h.books _ hentry).wrote hopen chunk)
  | read hentry hheld hfailed hrx hudp =>
    exact h.child_move hentry ⟨rfl, rfl⟩ (prefix_refl _)
      ((h.books _ hentry).read hrx hudp)
  | readNothing hheld =>
    cases hentry : v.entry with
    | none => exact absurd (h.absent hentry) (by simp [hheld])
    | some e =>
      have hgood : Good id _ (past.add (.read [])) :=
        h.child_move hentry ⟨rfl, rfl⟩ (prefix_refl _) (h.books e hentry).readNothing
      rwa [← hentry] at hgood
  | closing hentry hstarted =>
    refine h.with_entry (h.known hentry) rfl (fun _ hf => hf) (fun hn => absurd hn (by simp)) ?_
    intro e he
    cases he
    exact ((h.books _ hentry).close hstarted).of_view rfl fun hr => ⟨hr, rfl⟩
  | gone hentry =>
    exact h.with_entry (h.known hentry) rfl (fun _ hf => hf) (fun _ => rfl)
      (fun e he => absurd he (by simp))
  | released hentry =>
    have hheld := h.absent hentry
    rwa [← hheld]
  | abandoned hentry hstarted =>
    refine h.with_entry (h.known hentry) rfl (fun _ hf => hf) (fun hn => absurd hn (by simp)) ?_
    intro e he
    cases he
    have hb := h.books _ hentry
    exact (hb.abandon (hstarted.elim (fun hs => hs) hb.inflight)).of_view rfl fun hr => ⟨hr, rfl⟩
  | sending hrunning hflight hentry hopen =>
    exact h.sending (hid (by simp [hentry])) hrunning hflight hentry hopen
  | landed hflight hentry =>
    obtain ⟨-, hsendings, hseq⟩ := h.flight _ hflight
    have hbooks := (h.books _ hentry).landed_entry hflight hsendings hseq
    obtain ⟨habsent, hall⟩ := settled hbooks
    exact h.landed hflight habsent fun e he => (hall e he).of_view rfl fun hr => ⟨hr, rfl⟩
  | landedGone hflight hentry =>
    refine h.landed hflight h.absent fun e he => ?_
    cases hentry.symm.trans he
  | received hentry hreceive => exact h.received hentry hreceive
  | endedGone hentry hknown error =>
    exact
      { h with
        fresh := fun hlt => absurd hknown (by omega)
        books := fun e he => absurd (hentry.symm.trans he) (by simp) }
  | failed => exact h.fail rfl rfl rfl (fun hr => ⟨hr, rfl⟩) fun _ hf => hf
  | stopped =>
    exact h.fail rfl rfl rfl (fun hr => absurd hr (by simp)) fun _ hf => absurd hf (by simp)
  | refused hentry =>
    refine h.with_entry (h.known hentry) rfl (fun _ hf => absurd hf (by simp))
      (fun hn => absurd hn (by simp)) ?_
    intro e he
    cases he
    exact (h.books _ hentry).refuse rfl rfl

end Good

def history (id : Nat) (log : List (Act × Answer)) : History :=
  (log.filterMap (eventOf id)).foldl History.add {}

lemma history_snoc (id : Nat) (log : List (Act × Answer)) (entry : Act × Answer) :
    history id (log ++ [entry]) = (history id log).after (eventOf id entry) := by
  cases h : eventOf id entry <;> simp [h, History.after, history]

def openingOf : Act × Answer → Option Nat
  | (.open _ _ _, .opened (some id)) => some id
  | _ => none

/-- The ids of the children, in the order in which they were opened. -/
def openings (log : List (Act × Answer)) : List Nat := log.filterMap openingOf

lemma eventOf_opening {entry : Act × Answer} {id : Nat} (h : openingOf entry = some id) :
    ∃ target, eventOf id entry = some (.opened target) := by
  rcases entry with ⟨act, answer⟩
  cases act with
  | «open» target concurrency globalId =>
    cases answer with
    | opened opened =>
      cases opened with
      | none => exact absurd h (by simp [openingOf])
      | some j =>
        cases h
        exact ⟨target, by simp [eventOf]⟩
    | _ => exact absurd h (by simp [openingOf])
  | _ => exact absurd h (by simp [openingOf])

lemma Moves.next_le {id : Nat} {v v' : View} {event : Option Event}
    (h : Moves id v event v') : v.next ≤ v'.next := by
  cases h with
  | other hroom hnext hid => exact hnext
  | opened target globalId hnext hroom => exact Nat.le_of_lt (by simp only; omega)
  | _ => exact Nat.le_refl _

lemma Frame.event_ne_opened {frame : Frame} {live : Bool} {target : Target} :
    frame.event live ≠ some (.opened target) := by
  simp only [event]
  cases frame.status with
  | keep => cases live <;> simp
  | _ => simp

lemma Moves.opened_next {id : Nat} {v v' : View} {target : Target}
    (h : Moves id v (some (.opened target)) v') : v.next < id ∧ v'.next = id := by
  generalize hevent : some (Event.opened target) = event at h
  cases h with
  | opened target globalId hnext hroom => exact ⟨by omega, rfl⟩
  | received hentry hreceive =>
    exact absurd hevent.symm event_ne_opened
  | _ => simp at hevent

/-- A flush that is answered finds all chunks written and flushed. -/
def Flushed (before : List (Act × Answer)) (entry : Act × Answer) : Prop :=
  ∀ id, entry = (.flush id, .flushed (.ready (.ok ()))) →
    payloads (history id before).sents = (history id before).chunks

/-! ## The frames of the peer -/

def arrivedOf : Act × Answer → Bytes
  | (.arrive chunk, .arrived n) => chunk.take n
  | _ => []

def receivedOf : Act × Answer → Option Frame
  | (_, .received frame _) => some frame
  | _ => none

def arrivals (log : List (Act × Answer)) : Bytes := log.flatMap arrivedOf

def receipts (log : List (Act × Answer)) : List Frame := log.filterMap receivedOf

/-- The frames in the bytes that arrived are those consumed, and then those that are in the buffer. -/
def Consumes (arrived : Bytes) (received : List Frame) (bytes : Bytes) : Prop :=
  decoder.drain arrived = (received ++ (decoder.drain bytes).1, (decoder.drain bytes).2)

/-- What an act does to the buffer: bytes come when there is no frame in it, and a frame that is
received is the first one. -/
inductive Takes (bytes : Bytes) : Bytes → Option Frame → Bytes → Prop
  | stays : Takes bytes [] none bytes
  | arrives (hnone : decode bytes = .ok none) (piece : Bytes) :
      Takes bytes piece none (bytes ++ piece)
  | receives {frame : Frame} {n : Nat} (hframe : decode bytes = .ok (some (frame, n))) :
      Takes bytes [] (some frame) (bytes.drop n)

lemma step_takes (w : World) (act : Act) :
    Takes w.bytes (arrivedOf (act, (w.step act).2)) (receivedOf (act, (w.step act).2))
      (w.step act).1.bytes := by
  cases act with
  | arrive chunk =>
    simp only [step, arrive]
    split
    · split
      next hnone =>
        split
        · exact .stays
        · exact .arrives hnone _
      · exact .stays
    · exact .stays
  | deliver =>
    simp only [step, deliver]
    split
    · split
      · exact .stays
      · exact .stays
      next frame n hframe =>
        split
        · exact .stays
        · exact .stays
        · exact .receives hframe
    · exact .stays
  | _ =>
    simp only [step, send]
    repeat' split
    all_goals exact .stays

lemma step_live {w : World} {frame : Frame} {live : Bool}
    (h : (w.step .deliver).2 = .received frame live) : live = w.live frame.sessionId.toNat := by
  simp only [World.step, deliver] at h
  repeat' split at h
  all_goals cases h
  rfl

lemma Consumes.step {arrived piece bytes bytes' : Bytes} {received : List Frame}
    {frame : Option Frame} (h : Consumes arrived received bytes)
    (htakes : Takes bytes piece frame bytes') :
    Consumes (arrived ++ piece) (received ++ frame.toList) bytes' := by
  rw [Consumes] at h
  cases htakes with
  | stays => rwa [append_nil, Option.toList_none, append_nil, Consumes]
  | arrives hnone =>
    rw [drain_of_none (d := decoder) hnone, append_nil] at h
    rw [Consumes, drain_append, h, Option.toList_none, append_nil]
  | receives hframe =>
    rw [drain_of_some (d := decoder) hframe] at h
    rw [append_nil, Consumes, h, Option.toList_some, append_assoc, singleton_append]

/-- What holds of the world and the log in every run. -/
structure Kept (w : World) (log : List (Act × Answer)) : Prop where
  good : ∀ id, Good id (w.view id) (history id log)
  increasing : (openings log).Pairwise (· < ·)
  opened : ∀ id ∈ openings log, id ≤ w.state.next
  flushes : Log.Justified Flushed log
  frames : Consumes (arrivals log) (receipts log) w.bytes

namespace Kept

variable {w : World} {log : List (Act × Answer)}

lemma sane (h : Kept w log) : w.Sane where
  fresh := fun id hlt => ((h.good id).fresh hlt).2.1
  room := (h.good 0).room
  flight := fun flight hf => ((h.good flight.id).flight flight (by simp [view, hf])).1

lemma flushed (h : Kept w log) (act : Act) : Flushed log (act, (w.step act).2) := by
  intro id heq
  obtain ⟨rfl, hanswer⟩ := Prod.mk.inj heq
  simp only [step] at hanswer
  split at hanswer
  · obtain ⟨e, hchild, -, -, hsent, -⟩ := State.pollFlush_ok (Answer.flushed.inj hanswer)
    have hgood := h.good id
    have hbooks := hgood.books e hchild
    rw [hbooks.sent, hbooks.accepted] at hsent
    have hpre : payloads (history id log).sents <+: (history id log).chunks :=
      (hgood.written.filterMap payload).trans hgood.upload
    exact hpre.eq_of_length hsent
  · simp at hanswer

lemma step (h : Kept w log) (act : Act) :
    Kept (w.step act).1 (log ++ [(act, (w.step act).2)]) := by
  have hmoves := step_moves h.sane act
  have hnext : w.state.next ≤ (w.step act).1.state.next := (hmoves 0).next_le
  have hopenings : openings (log ++ [(act, (w.step act).2)]) =
      openings log ++ (openingOf (act, (w.step act).2)).toList := by
    cases ho : openingOf (act, (w.step act).2) <;> simp [ho, openings]
  have hframes := h.frames.step (step_takes w act)
  refine ⟨fun id => ?_, ?_, ?_, h.flushes.snoc (h.flushed act), ?_⟩
  · rw [history_snoc]
    refine (h.good id).moves (fun hne => ?_) (hmoves id)
    obtain ⟨e, he⟩ := Option.ne_none_iff_exists'.mp hne
    exact h.sane.toNat_sessionId he
  · rw [hopenings]
    cases ho : openingOf (act, (w.step act).2) with
    | none => simpa using h.increasing
    | some id =>
      obtain ⟨target, hevent⟩ := eventOf_opening ho
      have hmove := hmoves id
      rw [hevent] at hmove
      refine pairwise_append.mpr ⟨h.increasing, by simp, fun j hj k hk => ?_⟩
      rw [Option.toList, mem_singleton] at hk
      have := h.opened j hj
      have := hmove.opened_next.1
      simp only [view] at this
      omega
  · rw [hopenings]
    intro id hid
    rcases mem_append.mp hid with hid | hid
    · exact Nat.le_trans (h.opened id hid) hnext
    rw [Option.mem_toList] at hid
    obtain ⟨target, hevent⟩ := eventOf_opening hid
    have hmove := hmoves id
    rw [hevent] at hmove
    exact Nat.le_of_eq hmove.opened_next.2.symm
  · rw [arrivals, receipts, flatMap_append, filterMap_append, flatMap_singleton]
    cases hr : receivedOf (act, (w.step act).2) <;> simpa [hr, arrivals, receipts] using hframes

lemma run (h : Kept w log) (acts : List Act) :
    ∃ w' later, w.run acts = some (w', later) ∧ Kept w' (log ++ later) := by
  have hR : (log.map Prod.fst ++ acts).Pairwise fun _ _ => True :=
    pairwise_of_forall fun _ _ => trivial
  exact Log.run_inv (fun w log act _ h _ => ⟨_, _, rfl, h.step act⟩) h hR

lemma start : Kept {} [] := by
  refine ⟨fun id => ?_, by simp [openings], by simp [openings], .nil, rfl⟩
  exact ⟨fun _ => ⟨rfl, rfl, rfl, rfl⟩, Nat.zero_le _, .inl rfl, List.nil_prefix, List.nil_prefix,
    fun _ hf => absurd hf (by simp [view]), fun _ => rfl, List.nil_prefix,
    fun _ => List.nil_prefix, fun _ he => absurd he (by simp [view, State.child, Assoc.get])⟩

end Kept

/-- In every run: the frames written for a session are one New, Keeps and at most one End,
and carry its chunks in order; ids grow and are never used again; a flush is answered
when everything is written and flushed; the frames of the peer are consumed in order and
each once; and a child reads the payloads of its own Keep frames in order, none of which
is lost while it lives. -/
theorem mux_sessions_isolated (acts : List Act) : ∃ w log, run {} acts = some (w, log) ∧
      ((openings log).Pairwise (· < ·) ∧ ∀ id ∈ openings log, id ≤ 128) ∧
      (∀ id, Shape (history id log).sendings ∧
        payloads (history id log).sendings <+: (history id log).chunks) ∧
      Log.Justified Flushed log ∧
      (decoder.drain (arrivals log) =
          (receipts log ++ (decoder.drain w.bytes).1, (decoder.drain w.bytes).2) ∧
        ∀ frame live, (w.step .deliver).2 = .received frame live →
          live = w.live frame.sessionId.toNat) ∧
      (∀ id, (history id log).reads.flatten <+: (history id log).keeps.flatten ∧
        ((∃ target ∈ (history id log).targets, target.network = .udp) →
          (history id log).reads.filter (· ≠ []) <+: (history id log).keeps)) ∧
      (∀ id e, w.state.child id = some e → e.rx.length ≤ 8) ∧
      ∀ id ∈ w.held, ∃ e, w.state.child id = some e ∧ (e.failed = false →
        (history id log).keeps.flatten =
          (history id log).reads.flatten ++ (e.rx.map Packet.bytes).flatten) := by
  obtain ⟨w, log, hrun, h⟩ := Kept.start.run acts
  refine ⟨w, log, hrun, ⟨h.increasing, fun id hid => ?_⟩, fun id => ?_, h.flushes,
    ⟨h.frames, fun frame live => step_live⟩, fun id => ?_, fun id e he => ?_, fun id hheld => ?_⟩
  · exact Nat.le_trans (h.opened id hid) h.sane.room
  · exact ⟨(h.good id).shape, (h.good id).upload⟩
  · exact ⟨(h.good id).stream, (h.good id).datagrams⟩
  · exact ((h.good id).books e he).queue
  have hview := view_held hheld
  cases hchild : w.state.child id with
  | none => exact absurd ((h.good id).absent hchild) (by simp [hview])
  | some e =>
    have hbooks := (h.good id).books e hchild
    refine ⟨e, rfl, fun hfailed => hbooks.stream.alive ?_⟩
    have hdropped : e.dropped = false := by simpa [hview] using hbooks.held
    simp [Entry.Dead, hfailed, hdropped]

end Xray.Mux
