import Mathlib.Data.List.Infix
import Xray.Proofs.RecordBuffer
import Xray.Proxy.RecordReader

/-!
# A record reader reads what the whole stream is read as

Take all the bytes a stream brings, and what the codec reads them as at once (`Codec.run`). A
reader that gets the bytes in pieces stands somewhere in that: it has opened some plaintexts,
has handed out all of them but a rest of the last one, and what it still holds and what is still
to come are read as the rest (`Position`). Every turn of the loop moves it on (`turn_spec`).
It reports the end only where the bytes may end.

A turn without an answer, and one that finds nothing there yet, uses something up: a pause, or
some of the bytes (`Reader.ahead`). So a reader is not called in vain for ever.
-/

namespace Xray.Proxy

open List hiding after
open RecordCodec Reader RecordBuffer

variable {σ : Type} {c : Codec σ IoError maxFrame}

def Reader.toCome (this : Reader σ) (inner : Inner) : Bytes := this.body.held ++ inner.carrier.bytes

/-- What turns without data use up. -/
def Reader.ahead (c : Codec σ IoError maxFrame) (this : Reader σ) (inner : Inner) : Nat :=
  inner.carrier.pauses + (this.toCome inner).length + if c.isPlain this.state then 0 else 1

/-- A plaintext stands in the frame, and the rest of it is what is left. -/
structure Handing (c : Codec σ IoError maxFrame)
    (read : Bytes → List Bytes × Fate σ) (all : Bytes) (opened : List Bytes) (left : Bytes)
    (this : Reader σ) (inner : Inner) : Prop where
  needed : 0 < this.body.needed
  held : this.body.needed ≤ this.body.held.length
  pos : this.plainPos ≤ this.plainLen
  len : this.plainLen ≤ this.body.needed
  left : left = (this.body.held.take this.plainLen).drop this.plainPos
  run : c.Leads read all opened (c.resume this.state).2 (c.resume this.state).1
    (this.body.held.drop this.body.needed ++ inner.carrier.bytes)

/-- The plaintexts are those of bytes that have left the stream below. -/
def Seen (c : Codec σ IoError maxFrame) (read : Bytes → List Bytes × Fate σ) (all : Bytes)
    (opened : List Bytes) (inner : Inner) : Prop :=
  ∃ s n held, c.Leads read all opened s n (held ++ inner.carrier.bytes)

/-- A reader with the result of reading all the bytes: it has opened some plaintexts, and `left`
is what it has not handed out of them. It ends where the bytes may end; without a frame that
says so, only when the stream below ends and does not fail. -/
inductive Position (c : Codec σ IoError maxFrame) (read : Bytes → List Bytes × Fate σ) (all : Bytes)
    (opened : List Bytes) (left : Bytes) (this : Reader σ) (inner : Inner) : Prop where
  | waiting (hfailed : this.failed = false) (heof : this.eof = false)
      (hplain : c.isPlain this.state = false) (hneeded : 0 < this.body.needed) (hleft : left = [])
      (hrun : c.Leads read all opened this.state this.body.needed (this.toCome inner))
  | plain (hfailed : this.failed = false) (heof : this.eof = false)
      (hplain : c.isPlain this.state = true) (h : Handing c read all opened left this inner)
  | ended (hfailed : this.failed = false) (heof : this.eof = true) (hleft : left = [])
      (hseen : Seen c read all opened inner) (hall : opened = (read all).1)
      (hclean : c.Clean (read all).2) (hsound : (read all).2 = .ended ∨ inner.broken = none)
  | failed (hfailed : this.failed = true) (hseen : Seen c read all opened inner)

/-- A byte string as a list of records. -/
def parcels (bytes : Bytes) : List Bytes := if bytes = [] then [] else [bytes]

/-- Plaintexts are opened and bytes are handed out, each plaintext at once where they are
handed out `whole`. -/
def Moved (whole : Prop) (opened : List Bytes) (left got : Bytes) (opened' : List Bytes)
    (left' : Bytes) : Prop :=
  ∃ new, opened' = opened ++ new ∧ left ++ new.flatten = got ++ left' ∧
    (whole → parcels left ++ new = parcels got ++ parcels left')

variable {whole : Prop} {packet : Bool} {budget room : Nat} {answer : Option ReadAnswer}

lemma Moved.refl (opened : List Bytes) (left : Bytes) :
    Moved whole opened left [] opened left := by
  refine ⟨[], (append_nil _).symm, ?_, fun _ => ?_⟩
  · rw [flatten_nil, append_nil, nil_append]
  · rw [append_nil]
    rfl

lemma Moved.trans {opened opened₁ opened₂ : List Bytes} {left left₁ left₂ got got' : Bytes}
    (hwhole : whole → got = []) (h : Moved whole opened left got opened₁ left₁)
    (h' : Moved whole opened₁ left₁ got' opened₂ left₂) :
    Moved whole opened left (got ++ got') opened₂ left₂ := by
  obtain ⟨new, rfl, hnew, hparcels⟩ := h
  obtain ⟨new', rfl, hnew', hparcels'⟩ := h'
  refine ⟨new ++ new', append_assoc _ _ _, ?_, fun h => ?_⟩
  · rw [flatten_append, ← append_assoc, hnew, append_assoc, hnew', append_assoc]
  · obtain rfl := hwhole h
    rw [← append_assoc, hparcels h, append_assoc, hparcels' h]
    rfl

lemma Moved.imp {whole' : Prop} {opened opened' : List Bytes} {left left' got : Bytes}
    (himp : whole' → whole) (h : Moved whole opened left got opened' left') :
    Moved whole' opened left got opened' left' := by
  obtain ⟨new, hopened, hbytes, hparcels⟩ := h
  exact ⟨new, hopened, hbytes, fun h => hparcels (himp h)⟩

variable {read : Bytes → List Bytes × Fate σ} {all : Bytes} {opened : List Bytes} {left : Bytes}
  {this this' : Reader σ} {inner inner' : Inner}

section

variable (h : Position c read all opened left this inner)

include h

lemma Position.seen : Seen c read all opened inner := by
  cases h with
  | waiting _ _ _ _ _ hrun => exact ⟨_, _, _, hrun⟩
  | plain _ _ _ h => exact ⟨_, _, _, h.run⟩
  | ended _ _ _ hseen _ _ _ => exact hseen
  | failed _ hseen => exact hseen

lemma Position.opened_le : opened <+: (read all).1 := by
  obtain ⟨s, n, held, hleads⟩ := h.seen
  rw [hleads.total]
  exact prefix_append _ _

section

variable (hfailed : this.failed = false)

include hfailed

lemma Position.waits (heof : this.eof = false) (hplain : c.isPlain this.state = false) :
    left = [] ∧ 0 < this.body.needed ∧
      c.Leads read all opened this.state this.body.needed (this.toCome inner) := by
  cases h with
  | waiting _ _ _ hneeded hleft hrun => exact ⟨hleft, hneeded, hrun⟩
  | plain _ _ hyes => cases hyes.symm.trans hplain
  | ended _ hend => cases hend.symm.trans heof
  | failed hfail => cases hfail.symm.trans hfailed

lemma Position.hands (heof : this.eof = false)
    (hplain : c.isPlain this.state) : Handing c read all opened left this inner := by
  cases h with
  | plain _ _ _ h => exact h
  | waiting _ _ hnot => cases hnot.symm.trans hplain
  | ended _ hend => cases hend.symm.trans heof
  | failed hfail => cases hfail.symm.trans hfailed

/-- A reader that has ended has opened everything, and the bytes may end so. -/
lemma Position.ends (heof : this.eof) : opened = (read all).1 ∧ left = [] ∧ c.Clean (read all).2 ∧
      ((read all).2 = .ended ∨ inner.broken = none) := by
  cases h with
  | ended _ _ hleft _ hall hclean hsound => exact ⟨hall, hleft, hclean, hsound⟩
  | waiting _ hnot | plain _ hnot => cases hnot.symm.trans heof
  | failed hfail => cases hfail.symm.trans hfailed

end

end

/-! ## What an answer tells -/

/-- What an answer of the loop says: no answer and a pause use something up, data are never
empty, the end is reported by a reader that has ended, and only a datagram that does not fit
is an error the reader survives. -/
def Tells (c : Codec σ IoError maxFrame) (this : Reader σ) (inner : Inner) (this' : Reader σ)
    (inner' : Inner) (packet : Bool) (budget : Nat) : Option ReadAnswer → Prop
  | none => this'.failed = false ∧ this'.eof = false ∧ this'.ahead c inner' < this.ahead c inner
  | some .pending =>
    this'.failed = false ∧ this'.eof = false ∧ this'.ahead c inner' < this.ahead c inner
  | some (.ready (.ok got)) =>
    this'.failed = false ∧ (got = [] ↔ this'.eof = true) ∧ got.length ≤ budget ∧
      (this'.eof = false → this'.ahead c inner' ≤ this.ahead c inner)
  | some (.ready (.error _)) =>
    this'.failed = true ∨ packet = true ∧ this'.failed = false ∧ this'.eof = false

lemma Tells.mono {middle : Reader σ} {inner₁ : Inner}
    (hahead : middle.ahead c inner₁ ≤ this.ahead c inner)
    (h : Tells c middle inner₁ this' inner' packet budget answer) :
    Tells c this inner this' inner' packet budget answer := by
  cases answer with
  | none => exact ⟨h.1, h.2.1, Nat.lt_of_lt_of_le h.2.2 hahead⟩
  | some answer =>
    cases answer with
    | pending => exact ⟨h.1, h.2.1, Nat.lt_of_lt_of_le h.2.2 hahead⟩
    | ready result =>
      cases result with
      | ok got => exact ⟨h.1, h.2.1, h.2.2.1, fun heof => Nat.le_trans (h.2.2.2 heof) hahead⟩
      | error e => exact h

def answered : Option ReadAnswer → Bytes
  | some (.ready (.ok got)) => got
  | _ => []

def returned (answers : List ReadAnswer) : List Bytes :=
  answers.map fun answer => answered (some answer)

lemma returned_cons (answer : ReadAnswer) (answers : List ReadAnswer) :
    returned (answer :: answers) = answered (some answer) :: returned answers := rfl

/-- Plaintexts are never empty, and each is handed out at once. -/
def Whole (c : Codec σ IoError maxFrame) (packet : Bool) (budget : Nat) : Prop :=
  packet = true ∧ maxFrame ≤ budget ∧
    ∀ {s frame plain t readAhead}, c.process s frame = .ok (.opened plain t readAhead) → plain ≠ []

/-! ## The parts of a turn -/

lemma expect_spec (n : Nat) (state : σ) (hn : n ≤ maxFrame)
    (hheld : this.body.needed ≤ this.body.held.length) :
    (this.expect c n state).body.held = this.body.held.drop this.body.needed ∧
      (this.expect c n state).body.needed = n := by
  rw [Reader.expect]
  split
  · exact ⟨held_advance hheld n, needed_advance hn⟩
  have hzero := held_zeroize hheld
  have hneeded : this.body.zeroize.needed = this.body.needed := rfl
  have hlength : this.body.zeroize.held.length = this.body.held.length := by
    rw [hzero, length_append, length_replicate, length_drop]
    omega
  refine ⟨?_, needed_advance hn⟩
  rw [held_advance (by rw [hneeded, hlength]; exact hheld), hneeded, hzero,
    drop_left' length_replicate]

/-- Once a plaintext is used up the reader waits for the frame after it. -/
lemma Position.resume (h : Position c read all opened left this inner)
    (hfailed : this.failed = false) (heof : this.eof = false)
    (hplain : c.isPlain this.state) (hused : this.plainLen - this.plainPos = 0) :
    left = [] ∧ Position c read all opened []
        (this.expect c (c.resume this.state).1 (c.resume this.state).2) inner ∧
      (this.expect c (c.resume this.state).1 (c.resume this.state).2).ahead c inner ≤
        this.ahead c inner := by
  obtain ⟨hneeded, hheld, hpos, hlen, hleft, hrun⟩ := h.hands hfailed heof hplain
  obtain ⟨hnot, hresume, hlimit⟩ := c.resume_ok this.state
  obtain ⟨hheld', hneeded'⟩ := expect_spec (c := c) _ (c.resume this.state).2 hlimit hheld
  refine ⟨?_, .waiting hfailed heof hnot (by omega) rfl ?_, ?_⟩
  · rw [hleft]
    refine drop_of_length_le ?_
    rw [length_take]
    omega
  · rw [toCome, hheld', hneeded']
    exact hrun
  · have hnot' : c.isPlain (this.expect c (c.resume this.state).1
      (c.resume this.state).2).state = false := hnot
    simp only [ahead, toCome, hheld', length_append, length_drop, hnot', Bool.false_eq_true, if_false]
    omega

lemma elim_setReadAhead (body : RecordBuffer) (readAhead : Option Nat) :
    (readAhead.elim body body.setReadAhead).held = body.held ∧
      (readAhead.elim body body.setReadAhead).needed = body.needed := by
  cases readAhead <;> exact ⟨rfl, rfl⟩

lemma processFrame_spec (this : Reader σ) (packet : Bool) (budget : Nat)
    (hfailed : this.failed = false) (heof : this.eof = false)
    (hplain : c.isPlain this.state = false) (hneeded : 0 < this.body.needed)
    (hheld : this.body.needed ≤ this.body.held.length)
    (hrun : c.Leads read all opened this.state this.body.needed (this.toCome inner))
    (h : this.processFrame c = (answer, this')) :
    ∃ opened' left', Position c read all opened' left' this' inner ∧
      Moved (Whole c packet budget) opened [] (answered answer) opened' left' ∧
      Tells c this inner this' inner packet budget answer := by
  have hframe := RecordBuffer.frame_eq hheld
  have hlength : this.body.frame.length = this.body.needed := by
    rw [hframe, length_take]
    omega
  have hsplit : this.toCome inner =
      this.body.frame ++ (this.body.held.drop this.body.needed ++ inner.carrier.bytes) := by
    rw [toCome, hframe, ← append_assoc, take_append_drop]
  have hseen : Seen c read all opened inner := ⟨_, _, _, hrun⟩
  rw [hsplit] at hrun
  rw [processFrame] at h
  split at h
  · next e hprocess =>
    cases h
    exact ⟨opened, [], .failed rfl hseen, Moved.refl _ _, .inl rfl⟩
  · next n state hprocess =>
    cases h
    obtain ⟨hnot, hpos, hlimit⟩ := c.expect_ok hprocess
    obtain ⟨hheld', hneeded'⟩ := expect_spec (c := c) n state hlimit hheld
    refine ⟨opened, [], .waiting hfailed heof hnot (by omega) rfl ?_, Moved.refl _ _, hfailed,
      heof, ?_⟩
    · rw [toCome, hheld', hneeded']
      exact hrun.expects hneeded hlength hprocess
    have hnot' : c.isPlain (this.expect c n state).state = false := hnot
    simp only [ahead, toCome, hheld', length_append, length_drop, hnot', hplain]
    omega
  · next plain state readAhead hprocess =>
    cases h
    obtain ⟨hyes, hle⟩ := c.opened_ok hprocess
    have hwrite := this.body.held_write 0 plain (by omega)
    rw [take_zero, nil_append, Nat.zero_add] at hwrite
    obtain ⟨hheld', hneeded'⟩ := elim_setReadAhead (this.body.write 0 plain) readAhead
    rw [hwrite] at hheld'
    replace hneeded' : _ = this.body.needed := hneeded'
    have hlength' : (plain ++ this.body.held.drop plain.length).length = this.body.held.length := by
      rw [length_append, length_drop]
      omega
    refine ⟨opened ++ [plain], plain,
      .plain hfailed heof hyes ⟨?_, ?_, Nat.zero_le _, ?_, ?_, ?_⟩, ⟨[plain], rfl, by simp [answered], ?_⟩,
      hfailed, heof, ?_⟩
    · rw [hneeded']
      exact hneeded
    · rw [hneeded', hheld', hlength']
      exact hheld
    · rw [hneeded']
      show plain.length ≤ _
      omega
    · rw [hheld']
      show plain = ((plain ++ _).take plain.length).drop 0
      rw [take_left, drop_zero]
    · rw [hneeded', hheld']
      have hdrop : (plain ++ this.body.held.drop plain.length).drop this.body.needed =
          this.body.held.drop this.body.needed := by
        rw [drop_append, drop_of_length_le (by omega), nil_append, drop_drop]
        congr 1
        omega
      rw [hdrop]
      exact hrun.opens hneeded hlength hprocess
    · intro hwhole
      show [] ++ [plain] = [] ++ parcels plain
      rw [parcels, if_neg (hwhole.2.2 hprocess)]
    · rw [length_append] at hlength'
      simp only [ahead, toCome, hheld', length_append, hyes, hplain,
        Bool.false_eq_true, if_true, if_false]
      omega
  next hprocess =>
  cases h
  have htotal := hrun.total
  rw [Codec.run_ended hneeded hlength hprocess] at htotal
  have hended : (read all).2 = .ended := by rw [htotal, after]
  refine ⟨opened, [], .ended hfailed rfl rfl hseen (by rw [htotal, after, append_nil]) ?_
    (.inl hended), Moved.refl _ _, hfailed, ⟨fun _ => rfl, fun _ => rfl⟩, Nat.zero_le _,
    by simp⟩
  rw [hended]
  trivial

lemma takeFrame_spec (this : Reader σ) (packet : Bool) (budget : Nat)
    (hfailed : this.failed = false) (heof : this.eof = false)
    (hplain : c.isPlain this.state = false) (hneeded : 0 < this.body.needed)
    (hrun : c.Leads read all opened this.state this.body.needed (this.toCome inner))
    (h : this.takeFrame c inner = (answer, this', inner')) :
    inner'.broken = inner.broken ∧
    ∃ opened' left', Position c read all opened' left' this' inner' ∧
      Moved (Whole c packet budget) opened [] (answered answer) opened' left' ∧
      Tells c this inner this' inner' packet budget answer := by
  rw [Reader.takeFrame] at h
  split at h
  · next body _ hpoll =>
    cases h
    obtain ⟨⟨hsame, hbytes, hbroken⟩, hword⟩ := pollFrame_spec hpoll
    have hpauses : inner'.carrier.pauses + 1 = inner.carrier.pauses := hword
    have hlength := congrArg List.length hbytes
    refine ⟨hbroken, opened, [], .waiting hfailed heof hplain (by rw [hsame]; exact hneeded) rfl ?_,
      Moved.refl _ _, hfailed, heof, ?_⟩
    · rw [hsame, toCome, hbytes]
      exact hrun
    · simp only [ahead, toCome]
      omega
  · next body _ hpoll =>
    obtain ⟨⟨hsame, hbytes, hbroken⟩, hthere, hpauses⟩ := pollFrame_spec hpoll
    have hlength := congrArg List.length hbytes
    split at h
    next hprocess =>
    cases h
    have hrun' : c.Leads read all opened this.state body.needed
        (toCome { this with body } inner') := by
      rw [hsame, toCome, hbytes]
      exact hrun
    obtain ⟨opened', left', hposition, hmoved, htells⟩ := processFrame_spec
      { this with body } packet budget hfailed heof hplain
      (by rw [hsame]; exact hneeded) hthere hrun' hprocess
    have hahead : ahead c { this with body } inner' = this.ahead c inner := by
      simp only [ahead, toCome, hlength, hpauses]
    exact ⟨hbroken, opened', left', hposition, hmoved, htells.mono (Nat.le_of_eq hahead)⟩
  · next body _ hpoll =>
    obtain ⟨⟨hsame, hbytes, hbroken⟩, hnone, hend, hclean⟩ := pollFrame_spec hpoll
    rw [toCome, ← hbytes] at hrun
    have hcut : read all = after opened ([], .cut this.state []) := by
      rw [hrun.total, hnone, hend, append_nil, Codec.run_short hneeded]
    have hall : opened = (read all).1 := by rw [hcut, after, append_nil]
    split at h
    · next hboundary =>
      cases h
      refine ⟨hbroken, opened, [], .ended hfailed rfl rfl ⟨_, _, _, hrun⟩ hall ?_
        (.inr hclean), Moved.refl _ _, hfailed, ⟨fun _ => rfl, fun _ => rfl⟩, Nat.zero_le _, by simp⟩
      rw [hcut]
      exact ⟨rfl, hboundary⟩
    · next hboundary =>
      cases h
      exact ⟨hbroken, opened, [], .failed rfl ⟨_, _, _, hrun⟩, Moved.refl _ _, .inl rfl⟩
  next e body _ hpoll =>
  cases h
  obtain ⟨⟨hsame, hbytes, hbroken⟩, -⟩ := pollFrame_spec hpoll
  rw [toCome, ← hbytes] at hrun
  exact ⟨hbroken, opened, [], .failed rfl ⟨_, _, _, hrun⟩, Moved.refl _ _, .inl rfl⟩

/-! ## Turns and loops -/

lemma deliver_spec {n : Nat} (hheld : this.body.needed ≤ this.body.held.length)
    (hlen : this.plainLen ≤ this.body.needed) (hn : this.plainPos + n ≤ this.plainLen) :
    (this.deliver n).1 = ((this.body.held.take this.plainLen).drop this.plainPos).take n ∧
      (this.deliver n).2.body.held.length = this.body.held.length ∧
      (this.deliver n).2.body.held.drop this.body.needed = this.body.held.drop this.body.needed ∧
      ((this.deliver n).2.body.held.take this.plainLen).drop (this.plainPos + n) =
        ((this.body.held.take this.plainLen).drop this.plainPos).drop n := by
  have hzeros : (List.replicate n (0 : UInt8)).length = n := length_replicate
  have hwrite : (this.deliver n).2.body.held =
      this.body.held.take this.plainPos ++ (List.replicate n 0 ++
        this.body.held.drop (this.plainPos + n)) := by
    have := this.body.held_write this.plainPos (List.replicate n 0) (by omega)
    rw [hzeros] at this
    exact this
  have hfront : (this.body.held.take this.plainPos ++ List.replicate n (0 : UInt8)).length =
      this.plainPos + n := by
    rw [length_append, length_take]
    omega
  rw [← append_assoc] at hwrite
  refine ⟨?_, ?_, ?_, ?_⟩
  · rw [Reader.deliver]
    dsimp only
    rw [frame_eq hheld, drop_take, drop_take, take_take, take_take]
    congr 1
    omega
  · rw [hwrite, length_append, length_drop]
    omega
  · rw [hwrite, drop_append, drop_of_length_le (by omega), nil_append, drop_drop]
    congr 1
    omega
  · rw [hwrite, drop_take, drop_left' hfront, drop_drop, drop_take]

lemma turn_spec (hroom : 0 < room) (hbudget : 0 < budget)
    (h : Position c read all opened left this inner) (hfailed : this.failed = false)
    (heof : this.eof = false)
    (hturn : this.turn c packet room budget inner = (answer, this', inner')) :
    inner'.broken = inner.broken ∧
    ∃ opened' left', Position c read all opened' left' this' inner' ∧
      Moved (Whole c packet budget) opened left (answered answer) opened' left' ∧
      Tells c this inner this' inner' packet budget answer := by
  rw [Reader.turn] at hturn
  split at hturn
  · next hplain =>
    dsimp only at hturn
    split at hturn
    · next hremaining =>
      have hhands := h.hands hfailed heof hplain
      obtain ⟨hneeded, hheld, hpos, hlen, hleft, hrun⟩ := hhands
      have hlength : left.length = this.plainLen - this.plainPos := by
        rw [hleft, length_drop, length_take]
        omega
      split at hturn
      · next hsmall =>
        cases hturn
        exact ⟨rfl, opened, left, h, Moved.refl _ _, .inr ⟨hsmall.1, hfailed, heof⟩⟩
      next hfits =>
      cases hturn
      generalize hn : min (min room (this.plainLen - this.plainPos)) budget = n
      obtain ⟨hgot, hsame, hrest, hleft'⟩ := deliver_spec (n := n) hheld hlen (by omega)
      refine ⟨rfl, opened, left.drop n, .plain hfailed heof hplain ⟨hneeded, ?_, ?_, hlen, ?_, ?_⟩,
        ⟨[], (append_nil _).symm, ?_, ?_⟩, hfailed, ?_, ?_, ?_⟩
      · show this.body.needed ≤ _
        rw [hsame]
        exact hheld
      · show this.plainPos + n ≤ this.plainLen
        omega
      · rw [hleft]
        exact hleft'.symm
      · show c.Leads read all opened _ _ ((this.deliver n).2.body.held.drop this.body.needed ++ _)
        rw [hrest]
        exact hrun
      · rw [answered, hgot, ← hleft, flatten_nil, append_nil, take_append_drop]
      · rintro ⟨hpacket, hbudget, -⟩
        have hmax := this.body.needed_le
        have hall : n = left.length := by
          have := not_and.mp hfits hpacket
          omega
        rw [hgot, ← hleft, hall, take_length, drop_length, append_nil]
        exact (append_nil _).symm
      · rw [hgot, ← hleft]
        refine ⟨fun hnil => ?_, fun hend => ?_⟩
        · have := congrArg List.length hnil
          rw [length_take, length_nil] at this
          omega
        · exact absurd (Eq.trans (show true = this.eof from hend.symm) heof) (by simp)
      · rw [hgot, length_take]
        omega
      · intro _
        show _ + (_ ++ _ : Bytes).length + _ ≤ _ + (_ ++ _ : Bytes).length + _
        rw [length_append, length_append, hsame]
        exact Nat.le_refl _
    next hremaining =>
    obtain ⟨rfl, hresumed, hahead⟩ := h.resume hfailed heof hplain (by omega)
    obtain ⟨-, hneeded, hrun⟩ := hresumed.waits hfailed heof (c.resume_ok _).1
    obtain ⟨hbroken, opened', left', hposition, hmoved, htells⟩ :=
      takeFrame_spec (this.expect c (c.resume this.state).1 (c.resume this.state).2)
        packet budget hfailed heof (c.resume_ok _).1 hneeded hrun hturn
    exact ⟨hbroken, opened', left', hposition, hmoved, htells.mono hahead⟩
  next hplain =>
  rw [Bool.not_eq_true] at hplain
  obtain ⟨rfl, hneeded, hrun⟩ := h.waits hfailed heof hplain
  exact takeFrame_spec this packet budget hfailed heof hplain hneeded hrun hturn

lemma loop_spec {turns : Nat} (hroom : 0 < room) (hbudget : 0 < budget)
    (h : Position c read all opened left this inner) (hfailed : this.failed = false)
    (heof : this.eof = false)
    (hloop : Reader.loop c packet room budget (turns + 1) this inner = (answer, this', inner')) :
    inner'.broken = inner.broken ∧
    ∃ opened' left', Position c read all opened' left' this' inner' ∧
      Moved (Whole c packet budget) opened left (answered answer) opened' left' ∧
      Tells c this inner this' inner' packet budget answer := by
  induction turns generalizing opened left this inner with
  | zero =>
    rw [loop] at hloop
    split at hloop
    all_goals
      next hturn =>
        cases hloop
        exact turn_spec hroom hbudget h hfailed heof hturn
  | succ turns ih =>
    rw [loop] at hloop
    split at hloop
    · next this₁ inner₁ hturn =>
      obtain ⟨hbroken, opened₁, left₁, hposition, hmoved, htells⟩ :=
        turn_spec hroom hbudget h hfailed heof hturn
      obtain ⟨hbroken', opened', left', hposition', hmoved', htells'⟩ :=
        ih hposition htells.1 htells.2.1 hloop
      exact ⟨hbroken'.trans hbroken, opened', left', hposition',
        hmoved.trans (fun _ => rfl) hmoved', htells'.mono (Nat.le_of_lt htells.2.2)⟩
    · next hturn =>
      cases hloop
      exact turn_spec hroom hbudget h hfailed heof hturn

/-! ## What frames leave alone -/

section

variable {P : σ → Prop}
  (hexpect : ∀ {s frame n t}, P s → c.process s frame = .ok (.expect n t) → P t)
  (hopened : ∀ {s frame plain t readAhead}, P s →
    c.process s frame = .ok (.opened plain t readAhead) → P t)
  (hresume : ∀ {s}, P s → P (c.resume s).2)

include hexpect hopened

variable {answer : Option ReadAnswer}

lemma takeFrame_keeps (this : Reader σ) (h : P this.state)
    (htake : this.takeFrame c inner = (answer, this', inner')) : P this'.state := by
  revert htake
  fun_cases Reader.takeFrame c this inner with
  | case2 body _ _ _ _ hprocess =>
    rintro ⟨⟩
    revert hprocess
    fun_cases processFrame c { this with body } with
    | case2 _ _ hframe =>
      rintro ⟨⟩
      exact hexpect h hframe
    | case3 _ _ _ hframe =>
      rintro ⟨⟩
      exact hopened h hframe
    | _ =>
      rintro ⟨⟩
      exact h
  | _ =>
    rintro ⟨⟩
    exact h

include hresume

lemma turn_keeps (h : P this.state)
    (hturn : this.turn c packet room budget inner = (answer, this', inner')) : P this'.state := by
  revert hturn
  fun_cases Reader.turn c packet room budget this inner with
  | case1 =>
    rintro ⟨⟩
    exact h
  | case2 _ _ _ _ _ _ hdeliver =>
    cases hdeliver
    rintro ⟨⟩
    exact h
  | case3 =>
    exact takeFrame_keeps hexpect hopened (this.expect c _ (c.resume this.state).2) (hresume h)
  | case4 => exact takeFrame_keeps hexpect hopened this h

lemma loop_keeps {turns : Nat} (h : P this.state)
    (hloop : Reader.loop c packet room budget turns this inner = (answer, this', inner')) :
    P this'.state := by
  fun_induction Reader.loop c packet room budget turns this inner with
  | case1 =>
    cases hloop
    exact h
  | case2 turns this inner _ _ hturn ih =>
    exact ih (turn_keeps hexpect hopened hresume h hturn) hloop
  | case3 turns this inner _ _ _ hturn =>
    cases hloop
    exact turn_keeps hexpect hopened hresume h hturn

end

/-! ## Runs of reads -/

def TellsRead (c : Codec σ IoError maxFrame) (this : Reader σ) (inner : Inner) (this' : Reader σ)
    (inner' : Inner) (room : Nat) : ReadAnswer → Prop
  | .pending => this'.failed = false ∧ this'.eof = false ∧ this'.ahead c inner' < this.ahead c inner
  | .ready (.ok got) =>
    (got = [] → room = 0 ∨ this'.eof = true ∧ this'.failed = false) ∧
      (this'.failed = false → this'.eof = false → this'.ahead c inner' ≤ this.ahead c inner)
  | .ready (.error _) => True

lemma TellsRead.mono {middle : Reader σ} {inner₁ : Inner} {answer : ReadAnswer}
    (hahead : middle.ahead c inner₁ ≤ this.ahead c inner)
    (h : TellsRead c middle inner₁ this' inner' room answer) :
    TellsRead c this inner this' inner' room answer := by
  cases answer with
  | pending => exact ⟨h.1, h.2.1, Nat.lt_of_lt_of_le h.2.2 hahead⟩
  | ready result =>
    cases result with
    | ok got => exact ⟨h.1, fun hfailed heof => Nat.le_trans (h.2 hfailed heof) hahead⟩
    | error e => exact h

def returnedRecords (answers : List ReadAnswer) : List Bytes :=
  (returned answers).filter (· ≠ [])

lemma parcels_append_returnedRecords (answer : ReadAnswer) (answers : List ReadAnswer) :
    parcels (answered (some answer)) ++ returnedRecords answers = returnedRecords (answer :: answers) := by
  rw [returnedRecords, returnedRecords, returned, returned, map_cons, parcels]
  split
  · next hnil => rw [filter_cons_of_neg (by simpa using hnil), nil_append]
  · next hne => rw [filter_cons_of_pos (by simpa using hne), singleton_append]

variable {τ κ : Type} {reader : τ → Reader σ} {room : κ → Nat} {keeps : τ → Inner → Prop}
  {step : τ → Inner → κ → ReadAnswer × τ × Inner}

/-- The reads of a stream move its reader on. A stream that has failed gives errors only, and one
that has ended nothing more. -/
structure ReadSpec (c : Codec σ IoError maxFrame) (read : Bytes → List Bytes × Fate σ) (all : Bytes)
    (whole : Prop) (reader : τ → Reader σ) (room : κ → Nat) (keeps : τ → Inner → Prop)
    (step : τ → Inner → κ → ReadAnswer × τ × Inner) : Prop where
  moves : ∀ {this inner call answer this' inner' opened left}, keeps this inner →
    Position c read all opened left (reader this) inner →
    step this inner call = (answer, this', inner') →
    keeps this' inner' ∧
    TellsRead c (reader this) inner (reader this') inner' (room call) answer ∧
    ∃ opened' left', Position c read all opened' left' (reader this') inner' ∧
      Moved whole opened left (answered (some answer)) opened' left'
  failed : ∀ {this inner call answer this' inner'}, (reader this).failed →
    step this inner call = (answer, this', inner') →
    (∃ e, answer = .ready (.error e)) ∧ (reader this').failed
  eof : ∀ {this inner call answer this' inner'}, (reader this).eof →
    step this inner call = (answer, this', inner') →
    answered (some answer) = [] ∧ (reader this').eof

inductive Reads (step : τ → Inner → κ → ReadAnswer × τ × Inner) :
    τ → Inner → List κ → List ReadAnswer → τ → Inner → Prop where
  | nil {this : τ} {inner : Inner} : Reads step this inner [] [] this inner
  | cons {this this₁ this' : τ} {inner inner₁ inner' : Inner} {call : κ} {answer : ReadAnswer}
      {calls : List κ} {answers : List ReadAnswer} :
      step this inner call = (answer, this₁, inner₁) →
      Reads step this₁ inner₁ calls answers this' inner' →
      Reads step this inner (call :: calls) (answer :: answers) this' inner'

/-- What is still to be done: turns without data, and bytes to be handed out. -/
def toDo (c : Codec σ IoError maxFrame) (total opened : List Bytes) (left : Bytes)
    (this : Reader σ) (inner : Inner) : Nat :=
  (if this.failed then 0 else this.ahead c inner) +
    (total.flatten.length + left.length - opened.flatten.length)

namespace Reads

variable {this this' : τ} {calls : List κ} {answers : List ReadAnswer}

variable (hspec : ReadSpec c read all whole reader room keeps step)
include hspec

variable (h : Reads step this inner calls answers this' inner')

include h

lemma moves (hkeeps : keeps this inner)
    (hposition : Position c read all opened left (reader this) inner) :
    keeps this' inner' ∧ ∃ new left',
      Position c read all (opened ++ new) left' (reader this') inner' ∧
      left ++ new.flatten = (returned answers).flatten ++ left' ∧
      (whole → parcels left ++ new = returnedRecords answers ++ parcels left') := by
  induction h generalizing opened left with
  | nil =>
    refine ⟨hkeeps, [], left, ?_, ?_, fun _ => ?_⟩
    · rwa [append_nil]
    · rw [flatten_nil, append_nil]
      rfl
    · rw [append_nil]
      rfl
  | cons hstep _ ih =>
    obtain ⟨hkeeps', -, opened₁, left₁, hposition', new, rfl, hbytes, hparcels⟩ :=
      hspec.moves hkeeps hposition hstep
    obtain ⟨hlast, new', left', hlater, hbytes', hparcels'⟩ := ih hkeeps' hposition'
    refine ⟨hlast, new ++ new', left', ?_, ?_, fun hwhole => ?_⟩
    · rwa [← append_assoc]
    · rw [flatten_append, ← append_assoc, hbytes, append_assoc, hbytes',
        returned_cons, flatten_cons, append_assoc]
    · rw [← append_assoc, hparcels hwhole, append_assoc, hparcels' hwhole,
        ← append_assoc, parcels_append_returnedRecords]

lemma eof (heof : (reader this).eof) : (returned answers).flatten = [] ∧ (reader this').eof := by
  induction h with
  | nil => exact ⟨rfl, heof⟩
  | cons hstep _ ih =>
    obtain ⟨hnil, heof'⟩ := hspec.eof heof hstep
    obtain ⟨hrest, hend⟩ := ih heof'
    rw [returned_cons, flatten_cons, hnil, hrest]
    exact ⟨rfl, hend⟩

/-- A read with room that returns nothing has found a clean end, and everything before it has
been returned. -/
lemma ends (hkeeps : keeps this inner)
    (hposition : Position c read all opened left (reader this) inner) :
    ∀ pair ∈ calls.zip answers, pair.2 = .ready (.ok []) → room pair.1 = 0 ∨
      (reader this').eof ∧ c.Clean (read all).2 ∧
      (∃ t i, keeps t i ∧ ((read all).2 = .ended ∨ i.broken = none)) ∧
      ∃ new, (read all).1 = opened ++ new ∧ left ++ new.flatten = (returned answers).flatten := by
  induction h generalizing opened left with
  | nil =>
    intro pair hpair
    cases hpair
  | cons hstep hrest ih =>
    obtain ⟨hkeeps', htells, opened₁, left₁, hposition', new, rfl, hbytes, -⟩ :=
      hspec.moves hkeeps hposition hstep
    intro pair hpair hend
    rcases mem_cons.mp hpair with rfl | hpair
    · obtain rfl := hend
      refine (htells.1 rfl).imp id fun ⟨heof, hlive⟩ => ?_
      obtain ⟨hall, rfl, hclean, hsound⟩ := hposition'.ends hlive heof
      obtain ⟨hnone, hlast⟩ := hrest.eof hspec heof
      refine ⟨hlast, hclean, ⟨_, _, hkeeps', hsound⟩, new, hall.symm, ?_⟩
      rw [hbytes, returned_cons, flatten_cons, hnone]
    · refine (ih hkeeps' hposition' pair hpair hend).imp id fun ⟨hlast, hclean, hsound, hmore⟩ => ?_
      obtain ⟨new', hall, hbytes'⟩ := hmore
      refine ⟨hlast, hclean, hsound, new ++ new', ?_, ?_⟩
      · rw [hall, append_assoc]
      · rw [flatten_append, ← append_assoc, hbytes, append_assoc, hbytes',
          returned_cons, flatten_cons]

lemma failed (hfailed : (reader this).failed) :
    ∀ answer ∈ answers, ∃ e, answer = .ready (.error e) := by
  induction h with
  | nil => exact nofun
  | cons hstep _ ih =>
    obtain ⟨herror, hfailed'⟩ := hspec.failed hfailed hstep
    exact forall_mem_cons.mpr ⟨herror, ih hfailed'⟩

/-- Where the stream has no clean end, reads with room fail before long. -/
lemma fails (hkeeps : keeps this inner)
    (hposition : Position c read all opened left (reader this) inner)
    (hbad : ∀ t i, keeps t i → ¬(c.Clean (read all).2 ∧ ((read all).2 = .ended ∨ i.broken = none)))
    (hroom : ∀ call ∈ calls, 0 < room call)
    (hlong : toDo c (read all).1 opened left (reader this) inner < calls.length) :
    ∃ e, .ready (.error e) ∈ answers := by
  induction h generalizing opened left with
  | nil => exact absurd hlong (Nat.not_lt_zero _)
  | @cons this this₁ _ inner inner₁ _ call answer calls answers hstep _ ih =>
    obtain ⟨hkeeps', htells, opened₁, left₁, hposition', new, rfl, hbytes, -⟩ :=
      hspec.moves hkeeps hposition hstep
    have hnext : toDo c (read all).1 (opened ++ new) left₁ (reader this₁) inner₁ <
        toDo c (read all).1 opened left (reader this) inner →
        ∃ e, .ready (.error e) ∈ answer :: answers := by
      intro hless
      rw [length_cons] at hlong
      obtain ⟨e, he⟩ := ih hkeeps' hposition'
        (fun call hcall => hroom call (mem_cons_of_mem _ hcall)) (by omega)
      exact ⟨e, mem_cons_of_mem _ he⟩
    have hle := hposition'.opened_le.flatten.length_le
    rw [flatten_append, length_append] at hle
    have hlength := congrArg List.length hbytes
    rw [length_append, length_append] at hlength
    cases hfailed : (reader this).failed with
    | true =>
      obtain ⟨⟨e, rfl⟩, -⟩ := hspec.failed hfailed hstep
      exact ⟨e, mem_cons_self⟩
    | false =>
      simp only [toDo, hfailed, flatten_append, length_append] at hnext
      cases answer with
      | pending =>
        obtain ⟨hfailed', -, hless⟩ := htells
        refine hnext ?_
        simp only [hfailed', Bool.false_eq_true, if_false]
        omega
      | ready result =>
        cases result with
        | error e => exact ⟨e, mem_cons_self⟩
        | ok got =>
          have hends : (reader this₁).failed = false → (reader this₁).eof ≠ true :=
            fun hlive heof => hbad _ _ hkeeps' (hposition'.ends hlive heof).2.2
          have hpos : 0 < got.length := by
            refine length_pos_iff.mpr fun hgot => ?_
            rcases htells.1 hgot with hnone | hend
            · exact absurd hnone (Nat.ne_of_gt (hroom call mem_cons_self))
            · exact hends hend.2 hend.1
          have hsome : (answered (some (.ready (.ok got)))).length = got.length := rfl
          refine hnext ?_
          simp only [Bool.false_eq_true, if_false]
          split
          · omega
          next hlive =>
          rw [Bool.not_eq_true] at hlive
          have := htells.2 hlive (Bool.eq_false_iff.mpr (hends hlive))
          omega

end Reads

end Xray.Proxy
