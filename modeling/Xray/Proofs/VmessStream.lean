import Xray.Proofs.RecordReader
import Xray.Vmess.Stream

/-!
# A VMess reader hands out what its peer sealed

The records of a peer are read with the peer's own counters and masks, one step behind them. So
every record that has arrived whole is opened to its payload, a record of which a part is
missing is not, and an empty payload ends the stream. What the reader then does with the records
is the same for every codec; four of them may be read at once, and an error behind the first is
kept for the next read.
-/

namespace Xray.Vmess

open Bytes Fallible RecordCodec List
open Xray.Proxy Moved ReadState Reader State

variable {C : Crypto}

def rank (this : Reader (State C)) : Nat :=
  match this.state.phase with
  | .headerLength _ => 5
  | .header _ => 4
  | .length => 3
  | .payload => 2
  | .plain => if this.plainLen - this.plainPos = 0 then 3 else 1

lemma rank_le (this : Reader (State C)) : rank this ≤ 5 := by
  rw [rank]
  split
  · exact Nat.le_refl 5
  · exact Nat.le_succ 4
  · omega
  · omega
  · split <;> omega

lemma rank_processFrame {this this' : Reader (State C)}
    (h : this.processFrame (codec C) = (none, this')) : rank this' < rank this := by
  rw [processFrame] at h
  split at h
  · cases h
  · next n state hprocess =>
    cases h
    rw [rank, rank]
    cases process_spec hprocess with
    | headerLength phase =>
      rw [phase]
      exact Nat.lt_succ_self 4
    | header phase =>
      rw [phase]
      exact Nat.lt_succ_self 3
    | length phase =>
      rw [phase]
      exact Nat.lt_succ_self 2
  · next plain state readAhead hprocess =>
    cases h
    rw [rank, rank]
    cases process_spec hprocess with
    | payload phase read some =>
      have hlength : plain.length ≠ 0 := fun hnil => some (eq_nil_of_length_eq_zero hnil)
      rw [phase]
      dsimp only
      rw [if_neg (by omega)]
      omega
  · cases h

variable {this this' : ReadState C} {inner inner' : Inner} {packet p : Bool}
  {room budget turns : Nat} {answer : ReadAnswer} {call : ReadCall} {calls : List ReadCall}
  {answers : List ReadAnswer}

lemma rank_takeFrame {this this' : Reader (State C)}
    (h : this.takeFrame (codec C) inner = (none, this', inner')) : rank this' < rank this := by
  rw [takeFrame] at h
  split at h
  · cases h
  · split at h
    next hprocess =>
    cases h
    have hlt := rank_processFrame hprocess
    exact hlt
  · split at h <;> cases h
  · cases h

lemma rank_turn {this this' : Reader (State C)}
    (h : this.turn (codec C) packet room budget inner = (none, this', inner')) :
    rank this' < rank this := by
  rw [turn] at h
  split at h
  · next hplain =>
    dsimp only at h
    split at h
    · split at h <;> cases h
    next hused =>
    have hphase : this.state.phase = .plain := by
      have hplain : this.state.phase.isPlain = true := hplain
      cases hphase : this.state.phase <;> rw [hphase] at hplain <;> first | rfl | cases hplain
    have hrank : rank this = 3 := by
      rw [rank, hphase]
      exact if_pos (by omega)
    rw [hrank]
    exact rank_takeFrame h
  · exact rank_takeFrame h

lemma loop_answers {this this' : Reader (State C)} {answer : Option ReadAnswer}
    (hrank : rank this ≤ turns)
    (h : loop (codec C) packet room budget turns this inner = (answer, this', inner')) :
    answer ≠ none := by
  induction turns generalizing this inner with
  | zero =>
    have hpos : 0 < rank this := by
      rw [rank]
      split
      · omega
      · omega
      · omega
      · omega
      · split <;> omega
    omega
  | succ turns ih =>
    rw [loop] at h
    split at h
    · next hturn =>
      have := rank_turn hturn
      exact ih (by omega) h
    · cases h
      simp

lemma whole_of_packet (hpacket : packet) (hbudget : maxFrame ≤ budget) :
    Whole (codec C) packet budget := by
  refine ⟨hpacket, hbudget, fun hprocess => ?_⟩
  cases process_spec hprocess with
  | payload _ _ some => exact some

lemma packet_loop {this this' : Reader (State C)} {answer : Option ReadAnswer}
    (hp : this.state.packet = p)
    (h : loop (codec C) packet room budget turns this inner = (answer, this', inner')) :
    this'.state.packet = p := by
  refine loop_keeps (P := fun state => state.packet = p) ?_ ?_ (fun hp => hp) hp h
  · intro s frame n t hs hprocess
    cases process_spec hprocess <;> exact hs
  · intro s frame plain t readAhead hs hprocess
    cases process_spec hprocess with
    | payload => exact hs

variable {read : Bytes → List Bytes × Fate (State C)} {all : Bytes} {opened : List Bytes} {left : Bytes}

/-- What an answer of `poll_read_one` says. -/
def TellsOne (this : Reader (State C)) (inner : Inner) (this' : Reader (State C)) (inner' : Inner)
    (packet : Bool) (room budget : Nat) : ReadAnswer → Prop
  | .pending =>
    this'.failed = false ∧ this'.eof = false ∧
      this'.ahead (codec C) inner' < this.ahead (codec C) inner
  | .ready (.ok got) =>
    this'.failed = false ∧ (got = [] → room = 0 ∨ this'.eof = true) ∧
      (got ≠ [] → this'.eof = false) ∧ got.length ≤ budget ∧
      (this'.eof = false → this'.ahead (codec C) inner' ≤ this.ahead (codec C) inner)
  | .ready (.error _) => this'.failed = true ∨ packet = true

lemma pollReadOne_spec {this this' : Reader (State C)} (hp : this.state.packet = p)
    (hbudget : 0 < budget) (h : Position (codec C) read all opened left this inner)
    (hpoll : pollReadOne this inner room budget = (answer, this', inner')) :
    this'.state.packet = p ∧ TellsOne this inner this' inner' p room budget answer ∧
    ∃ opened' left', Position (codec C) read all opened' left' this' inner' ∧
      Moved (p ∧ maxFrame ≤ budget) opened left (answered (some answer)) opened' left' := by
  rw [pollReadOne] at hpoll
  split at hpoll
  · next hfailed =>
    cases hpoll
    exact ⟨hp, .inl hfailed, opened, left, h, refl _ _⟩
  next hfailed =>
  rw [Bool.not_eq_true] at hfailed
  split at hpoll
  · next hnone =>
    cases hpoll
    exact ⟨hp, ⟨hfailed, fun _ => hnone, fun hne => absurd rfl hne, Nat.zero_le _,
      fun _ => Nat.le_refl _⟩, opened, left, h, refl _ _⟩
  next hsome =>
  have heof : this.eof = false := by
    rw [← Bool.not_eq_true]
    exact fun heof => hsome (.inr heof)
  split at hpoll
  next found this₁ inner₁ hloop =>
  cases hpoll
  obtain ⟨answer, rfl⟩ := Option.ne_none_iff_exists'.mp (loop_answers (rank_le this) hloop)
  obtain ⟨-, opened', left', hposition, hmoved, htells⟩ :=
    loop_spec (Nat.pos_of_ne_zero fun hroom => hsome (.inl hroom)) hbudget h hfailed heof hloop
  rw [hp] at hmoved htells
  refine ⟨packet_loop hp hloop, ?_, opened', left', hposition,
    hmoved.imp fun hwhole => whole_of_packet hwhole.1 hwhole.2⟩
  cases answer with
  | pending => exact htells
  | ready result =>
    cases result with
    | ok got =>
      exact ⟨htells.1, fun hnil => .inr (htells.2.1.mp hnil),
        fun hne => Bool.not_eq_true _ ▸ mt htells.2.1.mpr hne, htells.2.2⟩
    | error e => exact htells.imp id fun hpacket => hpacket.1

lemma pollRecord_spec {prepare : Option IoError} (hp : this.reader.state.packet = p)
    (hbudget : 0 < budget) (h : Position (codec C) read all opened left this.reader inner)
    (hpoll : this.pollRecord inner prepare room budget = (answer, this', inner')) :
    this'.reader.state.packet = p ∧ this'.readError = this.readError ∧
    TellsOne this.reader inner this'.reader inner' p room budget answer ∧
    ∃ opened' left', Position (codec C) read all opened' left' this'.reader inner' ∧
      Moved (p ∧ maxFrame ≤ budget) opened left (answered (some answer)) opened' left' := by
  rw [pollRecord.eq_def] at hpoll
  split at hpoll
  · split at hpoll
    next hread =>
    cases hpoll
    obtain ⟨hp', htells, hrest⟩ := pollReadOne_spec hp hbudget h hread
    exact ⟨hp', rfl, htells, hrest⟩
  · split at hpoll
    · cases hpoll
      exact ⟨hp, rfl, .inl rfl, opened, left, .failed rfl h.seen, refl _ _⟩
    split at hpoll
    next hread =>
    cases hpoll
    obtain ⟨hp', htells, hrest⟩ := pollReadOne_spec hp hbudget h hread
    exact ⟨hp', rfl, htells, hrest⟩

def ReadState.Kept (this : ReadState C) : Prop :=
  this.readError ≠ none → this.reader.failed = true

/-- The records of a read. What it gives begins with what it has already. -/
lemma pollRecords_spec {n i : Nat} {got : Bytes} (hp : this.reader.state.packet = p)
    (hbudget : got.length < budget) (hwhole : p → got = [] ∧ maxFrame ≤ budget)
    (hn : n = 0 → got ≠ []) (hnone : this.readError = none)
    (h : Position (codec C) read all opened left this.reader inner)
    (hpoll : this.pollRecords call budget n i got inner = (answer, this', inner')) :
    this'.reader.state.packet = p ∧ this'.Kept ∧
    TellsRead (codec C) this.reader inner this'.reader inner' call.room answer ∧
    ∃ opened' left' more, Position (codec C) read all opened' left' this'.reader inner' ∧
      answered (some answer) = got ++ more ∧ Moved (p) opened left more opened' left' := by
  induction n generalizing this inner i got opened left with
  | zero =>
    cases hpoll
    exact ⟨hp, fun herror => absurd hnone herror,
      ⟨fun hnil => absurd hnil (hn rfl), fun _ _ => Nat.le_refl _⟩, opened, left, [], h,
      (append_nil _).symm, refl _ _⟩
  | succ n ih =>
    have hparcel : p = true → p = true ∧ maxFrame ≤ budget - got.length := by
      intro hpacket
      obtain ⟨rfl, hmax⟩ := hwhole hpacket
      exact ⟨hpacket, hmax⟩
    rw [pollRecords] at hpoll
    split at hpoll
    · next this₁ inner₁ hrecord =>
      obtain ⟨hp', herror, htells, opened', left', hposition, hmoved⟩ :=
        pollRecord_spec hp (by omega) h hrecord
      cases hpoll
      refine ⟨hp', fun hsome => absurd (herror.trans hnone) hsome, ?_, opened', left', [],
        hposition, ?_, hmoved.imp hparcel⟩
      · split
        · exact htells
        · next hne => exact ⟨fun hnil => absurd hnil hne, fun _ _ => Nat.le_of_lt htells.2.2⟩
      · split
        · next hnil =>
          rw [hnil]
          rfl
        · exact (append_nil _).symm
    · next e this₁ inner₁ hrecord =>
      obtain ⟨hp', herror, htells, opened', left', hposition, hmoved⟩ :=
        pollRecord_spec hp (by omega) h hrecord
      split at hpoll
      · next hnil =>
        cases hpoll
        refine ⟨hp', fun hsome => absurd (herror.trans hnone) hsome, trivial, opened', left',
          [], hposition, ?_, hmoved.imp hparcel⟩
        rw [hnil]
        rfl
      next hne =>
      cases hpoll
      -- Only a reader of datagrams can survive an error, and it has no data before it.
      have hfailed : this₁.reader.failed = true :=
        htells.resolve_right fun hpacket => hne (hwhole hpacket).1
      exact ⟨hp', fun _ => hfailed, ⟨fun hnil => absurd hnil hne, fun hlive =>
        absurd (hfailed.symm.trans hlive) (by simp)⟩, opened', left', [], hposition,
        (append_nil _).symm, hmoved.imp hparcel⟩
    next bytes this₁ inner₁ hrecord =>
    obtain ⟨hp', herror, htells, opened₁, left₁, hposition, hmoved⟩ :=
      pollRecord_spec hp (by omega) h hrecord
    obtain ⟨hfailed, hnil, heof, hle, hahead⟩ := htells
    dsimp only at hpoll
    split at hpoll
    · cases hpoll
      refine ⟨hp', fun hsome => absurd (herror.trans hnone) hsome, ⟨fun hempty => ?_,
        fun _ => hahead⟩, opened₁, left₁, bytes, hposition, rfl, hmoved.imp hparcel⟩
      obtain ⟨rfl, rfl⟩ := append_eq_nil_iff.mp hempty
      exact (hnil rfl).imp id fun hend => ⟨hend, hfailed⟩
    next hmore =>
    rw [not_or, not_or, not_or] at hmore
    obtain ⟨hstream, -, hne, hfull⟩ := hmore
    rw [hp'] at hstream
    have hlength : (got ++ bytes).length < budget := by
      rw [length_append] at hfull ⊢
      omega
    obtain ⟨hp₂, hkept, htells, opened', left', more, hposition', hanswer, hmoved'⟩ :=
      ih hp' hlength (fun hpacket => absurd hpacket hstream)
        (fun _ hempty => hne (append_eq_nil_iff.mp hempty).2)
        (herror.trans hnone) hposition hpoll
    refine ⟨hp₂, hkept, htells.mono (hahead (heof hne)), opened', left', bytes ++ more,
      hposition', ?_, ?_⟩
    · rw [hanswer, append_assoc]
    · exact (hmoved.imp hparcel).trans (fun hpacket => absurd hpacket hstream) hmoved'

lemma byteBudget_pos (this : ReadState C) : 0 < this.byteBudget := by
  rw [byteBudget]
  split
  · unfold unbounded
    omega
  · unfold maxReadRecords Records.maxPayload Records.sizeBytes
    split <;> omega

lemma pollRead_spec (hpoll : this.pollRead inner call = (answer, this', inner'))
    (hp : this.reader.state.packet = p)
    (h : Position (codec C) read all opened left this.reader inner) :
    (this'.reader.state.packet = p ∧ this'.Kept) ∧
    TellsRead (codec C) this.reader inner this'.reader inner' call.room answer ∧
    ∃ opened' left', Position (codec C) read all opened' left' this'.reader inner' ∧
      Moved (p) opened left (answered (some answer)) opened' left' := by
  rw [pollRead] at hpoll
  split at hpoll
  · cases hpoll
    exact ⟨⟨hp, fun hsome => absurd rfl hsome⟩, trivial, opened, left, h, refl _ _⟩
  next hnone =>
  have hwhole : p = true → ([] : Bytes) = [] ∧ maxFrame ≤ this.byteBudget := by
    intro hpacket
    refine ⟨rfl, ?_⟩
    rw [byteBudget, hp, if_pos hpacket]
    unfold maxFrame unbounded
    omega
  obtain ⟨hp', hkept, htells, opened', left', more, hposition, hanswer, hmoved⟩ :=
    pollRecords_spec hp (byteBudget_pos this) hwhole (by unfold maxReadRecords; omega) hnone h
      hpoll
  rw [hanswer]
  exact ⟨⟨hp', hkept⟩, htells, opened', left', hposition, hmoved⟩

lemma pollRead_failed (hfailed : this.reader.failed)
    (hpoll : this.pollRead inner call = (answer, this', inner')) :
    (∃ e, answer = .ready (.error e)) ∧ this'.reader = this.reader := by
  rw [pollRead] at hpoll
  split at hpoll
  · cases hpoll
    exact ⟨⟨_, rfl⟩, rfl⟩
  rw [maxReadRecords, pollRecords, pollRecord.eq_def, if_pos (.inl hfailed), pollReadOne,
    if_pos hfailed] at hpoll
  cases hpoll
  exact ⟨⟨_, rfl⟩, rfl⟩

lemma clientPollRead_failed (hfailed : this.reader.failed)
    (hpoll : this.clientPollRead inner call = (answer, this', inner')) :
    (∃ e, answer = .ready (.error e)) ∧ this'.reader.failed := by
  rw [clientPollRead] at hpoll
  split at hpoll
  · obtain ⟨herror, hsame⟩ := pollRead_failed rfl hpoll
    exact ⟨herror, hsame ▸ rfl⟩
  · obtain ⟨herror, hsame⟩ := pollRead_failed hfailed hpoll
    exact ⟨herror, hsame ▸ hfailed⟩

lemma clientPollRead_eof (heof : this.reader.eof)
    (hpoll : this.clientPollRead inner call = (answer, this', inner')) :
    answered (some answer) = [] ∧ this'.reader.eof := by
  have hread : ∀ {this : ReadState C}, this.pollRead inner call = (answer, this', inner') →
      this.reader.eof = true → answered (some answer) = [] ∧ this'.reader.eof = true := by
    intro this hpoll heof
    by_cases hfailed : this.reader.failed = true
    · obtain ⟨⟨e, rfl⟩, hsame⟩ := pollRead_failed hfailed hpoll
      exact ⟨rfl, hsame ▸ heof⟩
    rw [pollRead] at hpoll
    split at hpoll
    · cases hpoll
      exact ⟨rfl, heof⟩
    rw [maxReadRecords, pollRecords, pollRecord.eq_def, if_pos (.inr (.inr heof)), pollReadOne,
      if_neg hfailed, if_pos (.inr heof)] at hpoll
    dsimp only at hpoll
    rw [if_pos (.inr (.inr (.inl rfl)))] at hpoll
    cases hpoll
    exact ⟨rfl, heof⟩
  rw [clientPollRead] at hpoll
  split at hpoll <;> exact hread hpoll heof

lemma readSpec (read : Bytes → List Bytes × Fate (State C)) (all : Bytes) (p : Bool) :
    ReadSpec (codec C) read all (p) reader ReadCall.room
    (fun this _ => this.reader.state.packet = p ∧ this.Kept) clientPollRead where
  moves hkeeps h hpoll := by
    rw [clientPollRead] at hpoll
    split at hpoll
    · obtain ⟨hkeeps', htells, hrest⟩ := pollRead_spec hpoll hkeeps.1 (.failed rfl h.seen)
      exact ⟨hkeeps', htells.mono (Nat.le_refl _), hrest⟩
    · exact pollRead_spec hpoll hkeeps.1 h
  failed := clientPollRead_failed
  eof := clientPollRead_eof

lemma reads_of_eq (h : this.reads inner calls = (answers, this', inner')) :
    Reads clientPollRead this inner calls answers this' inner' := by
  induction calls generalizing this inner answers with
  | nil =>
    cases h
    exact .nil
  | cons call calls ih =>
    rw [reads] at h
    split at h
    next hpoll =>
    split at h
    next hrest =>
    cases h
    exact .cons hpoll (ih hrest)

end Xray.Vmess
