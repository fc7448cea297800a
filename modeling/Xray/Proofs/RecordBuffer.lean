import Xray.Proxy.RecordBuffer

/-!
# The read-ahead buffer is a queue of bytes

Where in its storage a buffer keeps its bytes shows nowhere: every operation is one on the
bytes it holds. `pollFrame` puts what the stream below brings behind them (`pollFrame_spec`),
a write changes some of them (`held_write`) and `advance` takes the frame off (`held_advance`).
-/

namespace Xray.Proxy

open Storage List

/-! ## The stream below -/

variable {inner inner' : Inner}

lemma Inner.pollRead_pending {n : Nat} (h : inner.pollRead n = (.pending, inner')) :
    inner'.broken = inner.broken ∧ inner'.carrier.bytes = inner.carrier.bytes ∧
      inner'.carrier.pauses + 1 = inner.carrier.pauses := by
  rw [pollRead] at h
  split at h
  · cases h
  split at h
  · next hread =>
    cases h
    exact ⟨rfl, Carrier.pollRead_pending hread⟩
  · cases h

lemma Inner.pollRead_error {n : Nat} {e : IoError}
    (h : inner.pollRead n = (.ready (.error e), inner')) :
    inner' = inner ∧ inner.carrier.bytes = [] ∧ inner.broken = some e := by
  rw [pollRead] at h
  split at h
  · next hcarrier hbroken =>
    cases h
    exact ⟨rfl, by rw [hcarrier]; rfl, hbroken⟩
  · split at h <;> cases h

lemma Inner.pollRead_ok {n : Nat} (hn : 0 < n) {got : Bytes}
    (h : inner.pollRead n = (.ready (.ok got), inner')) :
    inner'.broken = inner.broken ∧ got ++ inner'.carrier.bytes = inner.carrier.bytes ∧
      inner'.carrier.pauses = inner.carrier.pauses ∧
      (got = [] → inner.carrier.bytes = [] ∧ inner.broken = none) := by
  rw [pollRead] at h
  split at h
  · cases h
  next hend =>
  split at h
  · cases h
  next hread =>
  cases h
  obtain ⟨hbytes, hpauses, hnil⟩ := Carrier.pollRead_ready hn hread
  refine ⟨rfl, hbytes, hpauses, fun hgot => ?_⟩
  have hcarrier := hnil hgot
  refine ⟨by rw [hcarrier]; rfl, ?_⟩
  -- A stream with nothing in store and an error to give would have given the error.
  cases hbroken : inner.broken with
  | none => rfl
  | some e => exact absurd hbroken (hend e hcarrier)

namespace RecordBuffer

variable {buffer : RecordBuffer}

/-! ## What is held -/

lemma length_held (buffer : RecordBuffer) : buffer.held.length = buffer.filled - buffer.start := by
  have := buffer.filled_le
  rw [held, length_drop, length_take]
  omega

lemma length_front : (buffer.bytes.take buffer.start).length = buffer.start := by
  have := buffer.filled_le
  have := buffer.start_le
  rw [length_take]
  omega

lemma bytes_eq (buffer : RecordBuffer) : buffer.bytes =
      buffer.bytes.take buffer.start ++ (buffer.held ++ buffer.bytes.drop buffer.filled) := by
  have hstart : (buffer.bytes.take buffer.filled).take buffer.start =
      buffer.bytes.take buffer.start := by
    rw [take_take, Nat.min_eq_left buffer.start_le]
  rw [held, ← append_assoc, ← hstart, take_append_drop, take_append_drop]

lemma held_eq {front middle rest : Bytes} (hbytes : buffer.bytes = front ++ (middle ++ rest))
    (hstart : buffer.start = front.length) (hfilled : buffer.filled = front.length + middle.length) :
    buffer.held = middle := by
  rw [held, hbytes, hstart, hfilled, ← append_assoc, ← length_append, take_left, drop_left]

lemma frame_eq (h : buffer.needed ≤ buffer.held.length) :
    buffer.frame = buffer.held.take buffer.needed := by
  have hdrop : buffer.bytes.drop buffer.start = buffer.held ++ buffer.bytes.drop buffer.filled := by
    rw [bytes_eq buffer, drop_left' length_front, ← bytes_eq]
  rw [frame, hdrop, take_append_of_le_length h]

lemma held_write (buffer : RecordBuffer) (offset : Nat) (content : Bytes)
    (h : offset + content.length ≤ buffer.held.length) :
    (buffer.write offset content).held =
      buffer.held.take offset ++ (content ++ buffer.held.drop (offset + content.length)) := by
  have hsplit : buffer.bytes = (buffer.bytes.take buffer.start ++ buffer.held.take offset) ++
        ((buffer.held.drop offset).take content.length ++
          (buffer.held.drop (offset + content.length) ++ buffer.bytes.drop buffer.filled)) := by
    rw [append_assoc, ← append_assoc _ _ (buffer.bytes.drop buffer.filled),
      ← drop_drop, take_append_drop, ← append_assoc (buffer.held.take offset),
      take_append_drop]
    exact bytes_eq buffer
  have hfront : (buffer.bytes.take buffer.start ++ buffer.held.take offset).length =
      buffer.start + offset := by
    rw [length_append, length_front, length_take]
    omega
  have hmiddle : content.length = ((buffer.held.drop offset).take content.length).length := by
    rw [length_take, length_drop]
    omega
  have hwrite : (buffer.write offset content).bytes = buffer.bytes.take buffer.start ++
        ((buffer.held.take offset ++ (content ++ buffer.held.drop (offset + content.length))) ++
          buffer.bytes.drop buffer.filled) := by
    have := overwrite_middle hsplit hfront.symm hmiddle
    simp only [append_assoc] at this ⊢
    exact this
  refine held_eq hwrite (show buffer.start = _ from length_front.symm) ?_
  have hlength := buffer.length_held
  have := buffer.start_le
  show buffer.filled = _
  rw [length_front, length_append, length_append, length_take, length_drop]
  omega

lemma held_zeroize (h : buffer.needed ≤ buffer.held.length) : buffer.zeroize.held =
      List.replicate buffer.needed 0 ++ buffer.held.drop buffer.needed := by
  have hlength : (List.replicate buffer.needed (0 : UInt8)).length = buffer.needed :=
    length_replicate
  rw [zeroize, held_write _ _ _ (by omega), take_zero, nil_append, hlength, Nat.zero_add]

lemma held_advance (h : buffer.needed ≤ buffer.held.length) (needed : Nat) :
    (buffer.advance needed).held = buffer.held.drop buffer.needed := by
  have hlength := buffer.length_held
  have hstart := buffer.start_le
  have hmin : min (buffer.start + buffer.needed) buffer.filled = buffer.start + buffer.needed := by
    omega
  rw [advance]
  split
  · next hall =>
    have hdrop : buffer.held.drop buffer.needed = [] := drop_of_length_le (by omega)
    rw [hdrop]
    rfl
  · show (buffer.bytes.take buffer.filled).drop (min (buffer.start + buffer.needed) buffer.filled) = _
    rw [hmin, held, drop_drop]

lemma needed_advance {needed : Nat} (h : needed ≤ maxFrame) :
    (buffer.advance needed).needed = needed := by
  rw [advance]
  split <;> exact Nat.min_eq_left h

/-! ## Reading a frame -/

lemma needed_le_size (buffer : RecordBuffer) : buffer.needed ≤ buffer.size := by
  have := buffer.needed_le
  have hmultiple : buffer.needed + buffer.prefixLen ≤
      nextMultiple (buffer.needed + buffer.prefixLen) := by
    unfold nextMultiple
    omega
  unfold size maxBuffer
  omega

lemma grow_spec (buffer : RecordBuffer) :
    buffer.grow.held = buffer.held ∧ buffer.grow.needed = buffer.needed ∧
      buffer.needed ≤ buffer.grow.bytes.length := by
  have hsize := buffer.needed_le_size
  rw [grow]
  split
  · refine ⟨?_, rfl, ?_⟩
    · rw [held, held]
      rw [take_append_of_le_length buffer.filled_le]
    · dsimp only
      rw [length_append, length_replicate]
      omega
  · exact ⟨rfl, rfl, by omega⟩

lemma compact_spec (h : buffer.needed ≤ buffer.bytes.length) :
    buffer.compact.held = buffer.held ∧ buffer.compact.needed = buffer.needed ∧
      buffer.compact.start + buffer.needed ≤ buffer.compact.bytes.length := by
  rw [compact]
  split
  · refine ⟨?_, rfl, ?_⟩
    · have hlength := buffer.length_held
      have hfilled := buffer.filled_le
      have hfront : buffer.held.length = (buffer.bytes.take buffer.held.length).length := by
        rw [length_take]
        omega
      have hbytes : overwrite buffer.bytes 0 buffer.held =
          [] ++ (buffer.held ++ buffer.bytes.drop buffer.held.length) := by
        conv_lhs => rw [← take_append_drop buffer.held.length buffer.bytes]
        exact overwrite_zero _ hfront
      refine held_eq hbytes rfl ?_
      rw [hlength, length_nil, Nat.zero_add]
    · dsimp only
      rw [length_overwrite]
      omega
  · exact ⟨rfl, rfl, by omega⟩

lemma held_put {got : Bytes} (h : got.length ≤ buffer.bytes.length - buffer.filled) :
    (buffer.put got h).held = buffer.held ++ got := by
  have hlength := buffer.length_held
  have hstart := buffer.start_le
  have hsplit : buffer.bytes = (buffer.bytes.take buffer.start ++ buffer.held) ++
        ((buffer.bytes.drop buffer.filled).take got.length ++
          (buffer.bytes.drop buffer.filled).drop got.length) := by
    rw [take_append_drop, append_assoc]
    exact bytes_eq buffer
  have hfront : (buffer.bytes.take buffer.start ++ buffer.held).length = buffer.filled := by
    rw [length_append, length_front]
    omega
  have hmiddle : got.length = ((buffer.bytes.drop buffer.filled).take got.length).length := by
    rw [length_take, length_drop]
    omega
  have hput : (buffer.put got h).bytes = buffer.bytes.take buffer.start ++
        ((buffer.held ++ got) ++ (buffer.bytes.drop buffer.filled).drop got.length) := by
    have := overwrite_middle hsplit hfront.symm hmiddle
    simp only [append_assoc] at this ⊢
    exact this
  refine held_eq hput (show buffer.start = _ from length_front.symm) ?_
  show buffer.filled + got.length = _
  rw [length_front, length_append]
  omega

/-- Bytes move from the stream below into the buffer, in order. -/
structure Took (buffer : RecordBuffer) (inner : Inner) (buffer' : RecordBuffer) (inner' : Inner) :
    Prop where
  needed : buffer'.needed = buffer.needed
  bytes : buffer'.held ++ inner'.carrier.bytes = buffer.held ++ inner.carrier.bytes
  broken : inner'.broken = inner.broken

def Says (pauses : Nat) (buffer : RecordBuffer) (inner : Inner) : Poll (Except IoError Bool) → Prop
  | .pending => inner.carrier.pauses + 1 = pauses
  | .ready (.ok true) => buffer.needed ≤ buffer.held.length ∧ inner.carrier.pauses = pauses
  | .ready (.ok false) => buffer.held = [] ∧ inner.carrier.bytes = [] ∧ inner.broken = none
  | .ready (.error _) =>
    inner.carrier.bytes = [] ∧ buffer.held.length < buffer.needed ∧
      (buffer.held ≠ [] ∨ inner.broken ≠ none)

variable {inner inner' : Inner} {answer : Poll (Except IoError Bool)}

lemma fill_spec {buffer' : RecordBuffer}
    (hroom : buffer.start + buffer.needed ≤ buffer.bytes.length)
    (h : buffer.fill inner = (answer, buffer', inner')) :
    Took buffer inner buffer' inner' ∧ Says inner.carrier.pauses buffer' inner' answer := by
  have hlength := buffer.length_held
  have hstart := buffer.start_le
  fun_induction fill buffer inner with
  | case1 buffer inner hshort inner₁ hread =>
    cases h
    obtain ⟨hbroken, hbytes, hpauses⟩ := Inner.pollRead_pending hread
    exact ⟨⟨rfl, by rw [hbytes], hbroken⟩, hpauses⟩
  | case2 buffer inner hshort e inner₁ hread =>
    cases h
    obtain ⟨rfl, hbytes, hbroken⟩ := Inner.pollRead_error hread
    exact ⟨⟨rfl, rfl, rfl⟩, hbytes, by omega, Or.inr (by rw [hbroken]; simp)⟩
  | case3 buffer inner hshort inner₁ hread =>
    cases h
    obtain ⟨hbroken, hbytes, hpauses, hnil⟩ := Inner.pollRead_ok (by omega) hread
    obtain ⟨hend, hclean⟩ := hnil rfl
    rw [nil_append] at hbytes
    refine ⟨⟨rfl, by rw [hbytes], hbroken⟩, ?_⟩
    split
    · refine ⟨eq_nil_of_length_eq_zero (by omega), by rw [hbytes, hend], ?_⟩
      rw [hbroken, hclean]
    refine ⟨by rw [hbytes, hend], by omega, Or.inl ?_⟩
    intro hempty
    rw [hempty, length_nil] at hlength
    omega
  | case4 buffer inner hshort got inner₁ hread hgot ih =>
    obtain ⟨hbroken, hbytes, hpauses, -⟩ := Inner.pollRead_ok (by omega) hread
    have hput := held_put (Inner.length_pollRead_le hread)
    obtain ⟨⟨hneeded, htook, hbroken'⟩, hword⟩ := ih (by
      show buffer.start + buffer.needed ≤ (overwrite buffer.bytes _ _).length
      rw [length_overwrite]
      exact hroom) h (length_held _) (start_le _)
    refine ⟨⟨hneeded, ?_, hbroken'.trans hbroken⟩, ?_⟩
    · rw [htook, hput, append_assoc, hbytes]
    · rw [← hpauses]
      exact hword
  | case5 =>
    cases h
    exact ⟨⟨rfl, rfl, rfl⟩, by omega, rfl⟩

lemma pollFrame_spec {buffer' : RecordBuffer}
    (h : buffer.pollFrame inner = (answer, buffer', inner')) :
    Took buffer inner buffer' inner' ∧ Says inner.carrier.pauses buffer' inner' answer := by
  rw [pollFrame] at h
  split at h
  · next hthere =>
    cases h
    exact ⟨⟨rfl, rfl, rfl⟩, by rw [length_held]; exact hthere, rfl⟩
  · obtain ⟨hgrow, hneeded, hsize⟩ := buffer.grow_spec
    obtain ⟨hcompact, hneeded', hroom⟩ := compact_spec (by rw [hneeded]; exact hsize)
    obtain ⟨⟨hsame, htook, hbroken⟩, hword⟩ := fill_spec (by rw [hneeded']; exact hroom) h
    exact ⟨⟨hsame.trans (hneeded'.trans hneeded), by rw [htook, hcompact, hgrow], hbroken⟩, hword⟩

/-! ## Room to read -/

/-- The sizes of the slices that the loop offers to the stream below. -/
def fillReads (buffer : RecordBuffer) (inner : Inner) : List Nat :=
  if buffer.filled - buffer.start < buffer.needed then
    let size := buffer.bytes.length - buffer.filled
    match h : inner.pollRead size with
    | (.ready (.ok got), inner) =>
      if got = [] then [size]
      else size :: fillReads (buffer.put got (Inner.length_pollRead_le h)) inner
    | _ => [size]
  else []
termination_by buffer.needed - (buffer.filled - buffer.start)
decreasing_by
  have hgot : 0 < got.length := length_pos_iff.mpr ‹_›
  have := buffer.start_le
  show buffer.needed - (buffer.filled + got.length - buffer.start) <
    buffer.needed - (buffer.filled - buffer.start)
  omega

def pollReads (buffer : RecordBuffer) (inner : Inner) : List Nat :=
  if buffer.filled - buffer.start ≥ buffer.needed then [] else buffer.grow.compact.fillReads inner

/-- What reads of the given sizes leave of the stream below. -/
def innerAfter (inner : Inner) (sizes : List Nat) : Inner :=
  sizes.foldl (fun inner n => (inner.pollRead n).2) inner

lemma innerAfter_cons {n : Nat} {sizes : List Nat} {got : Poll (Except IoError Bytes)}
    (h : inner.pollRead n = (got, inner')) :
    innerAfter inner (n :: sizes) = innerAfter inner' sizes := by
  rw [innerAfter, foldl_cons, h]
  rfl

lemma inner_fill (buffer : RecordBuffer) (inner : Inner) :
    (buffer.fill inner).2.2 = innerAfter inner (buffer.fillReads inner) := by
  fun_induction fillReads buffer inner with
  | case1 buffer inner hshort size inner' hread =>
    rw [fill, if_pos hshort]
    split <;> simp_all [innerAfter, size]
  | case2 buffer inner hshort size got inner' hread hgot ih =>
    rw [fill, if_pos hshort]
    split
    next heq => cases hread.symm.trans heq
    next heq => cases hread.symm.trans heq
    next heq =>
      cases hread.symm.trans heq
      rw [if_neg hgot, ih, innerAfter_cons hread]
  | case3 buffer inner hshort size hnot =>
    rw [fill, if_pos hshort]
    split <;> simp_all [innerAfter, size]
  | case4 buffer inner hthere =>
    rw [fill, if_neg hthere]
    rfl

lemma inner_pollFrame (buffer : RecordBuffer) (inner : Inner) :
    (buffer.pollFrame inner).2.2 = innerAfter inner (buffer.pollReads inner) := by
  rw [pollFrame, pollReads]
  split
  · rfl
  · exact inner_fill _ _

lemma fillReads_pos (hroom : buffer.start + buffer.needed ≤ buffer.bytes.length) :
    ∀ n ∈ buffer.fillReads inner, 0 < n := by
  have hstart := buffer.start_le
  fun_induction fillReads buffer inner with
  | case1 | case3 =>
    rw [forall_mem_singleton]
    omega
  | case2 buffer inner hshort size got inner' hread hgot ih =>
    rw [forall_mem_cons]
    refine ⟨by omega, ih ?_ ?_⟩
    · show buffer.start + buffer.needed ≤ (overwrite buffer.bytes _ _).length
      rw [length_overwrite]
      exact hroom
    · exact Nat.le_add_right_of_le hstart
  | case4 => exact by simp

lemma pollReads_pos (buffer : RecordBuffer) (inner : Inner) :
    ∀ n ∈ buffer.pollReads inner, 0 < n := by
  rw [pollReads]
  split
  · exact by simp
  obtain ⟨-, hneeded, hsize⟩ := buffer.grow_spec
  obtain ⟨-, hneeded', hroom⟩ := compact_spec (by rw [hneeded]; exact hsize)
  exact fillReads_pos (by rw [hneeded']; exact hroom)

lemma length_fill (buffer : RecordBuffer) (inner : Inner) :
    (buffer.fill inner).2.1.bytes.length = buffer.bytes.length := by
  fun_induction fill buffer inner with
  | case4 buffer inner hshort got inner' hread hgot ih => exact ih.trans (length_overwrite _ _ _)
  | case1 | case2 | case3 | case5 => rfl

lemma length_pollFrame (h : buffer.bytes.length ≤ maxBuffer) (inner : Inner) :
    (buffer.pollFrame inner).2.1.bytes.length ≤ maxBuffer := by
  have hgrow : buffer.grow.bytes.length ≤ maxBuffer := by
    rw [grow]
    split
    · have hsize : buffer.size ≤ maxBuffer := Nat.min_le_right _ _
      dsimp only
      rw [length_append, length_replicate]
      omega
    · exact h
  have hcompact : buffer.grow.compact.bytes.length = buffer.grow.bytes.length := by
    rw [compact]
    split
    · exact length_overwrite _ _ _
    · rfl
  rw [pollFrame]
  split
  · exact h
  · rw [length_fill, hcompact]
    exact hgrow

end RecordBuffer

/-- The sizes that `new` and `advance` assert. -/
abbrev FrameSize := { needed : Nat // needed ≤ maxFrame }

inductive FrameCall where
  | pollFrame
  | advance (needed : FrameSize)
  | setReadAhead (bytes : Nat)

/-- A buffer in use, with the frames it was advanced over and the sizes asked of it. -/
structure FrameRun where
  buffer : RecordBuffer
  inner : Inner
  frames : List Bytes
  asked : List Nat

namespace FrameRun

open RecordBuffer

def new (needed : FrameSize) (prefixLen : Nat) (inner : Inner) : FrameRun :=
  ⟨.new needed prefixLen needed.2, inner, [], [needed.1]⟩

/-- One call. The source asserts that a frame is there before it advances. -/
def step (this : FrameRun) : FrameCall → FrameRun
  | .pollFrame =>
    let (_, buffer, inner) := this.buffer.pollFrame this.inner
    { this with buffer, inner }
  | .advance needed =>
    if this.buffer.needed ≤ this.buffer.filled - this.buffer.start then
      { this with
        buffer := this.buffer.advance needed
        frames := this.frames ++ [this.buffer.frame]
        asked := this.asked ++ [needed.1] }
    else this
  | .setReadAhead bytes => { this with buffer := this.buffer.setReadAhead bytes }

/-- The frames, what is held and what is to come are the stream. -/
structure Delivers (stream : Bytes) (this : FrameRun) : Prop where
  bytes : stream = this.frames.flatten ++ (this.buffer.held ++ this.inner.carrier.bytes)
  asked : this.asked = this.frames.map length ++ [this.buffer.needed]
  storage : this.buffer.bytes.length ≤ maxBuffer

variable {stream : Bytes} {this : FrameRun}

lemma Delivers.step (h : Delivers stream this) (call : FrameCall) :
    Delivers stream (this.step call) := by
  cases call with
  | pollFrame =>
    rcases hpoll : this.buffer.pollFrame this.inner with ⟨answer, buffer, inner⟩
    obtain ⟨⟨hneeded, hbytes, -⟩, -⟩ := pollFrame_spec hpoll
    have hstorage := length_pollFrame h.storage this.inner
    rw [hpoll] at hstorage
    rw [FrameRun.step, hpoll]
    exact ⟨by rw [hbytes]; exact h.bytes, by rw [hneeded]; exact h.asked, hstorage⟩
  | advance needed =>
    rw [FrameRun.step]
    split
    next hthere =>
      -- The frame is the front of what is held, and the rest stays held.
      rw [← length_held] at hthere
      refine ⟨?_, ?_, ?_⟩
      · rw [h.bytes, held_advance hthere, frame_eq hthere,
          flatten_append, flatten_singleton, append_assoc, ← append_assoc (take _ _),
          take_append_drop]
      · rw [h.asked, needed_advance needed.2, frame_eq hthere, map_append,
          map_singleton, length_take, Nat.min_eq_left hthere]
      · rw [advance]
        split <;> exact h.storage
    next => exact h
  | setReadAhead bytes => exact ⟨h.bytes, h.asked, h.storage⟩

lemma Delivers.run (h : Delivers stream this) (calls : List FrameCall) :
    Delivers stream (calls.foldl FrameRun.step this) := by
  induction calls generalizing this with
  | nil => exact h
  | cons call calls ih => exact ih (h.step call)

/-- What the answer to a poll says of the rest of the stream, from the asked frame on. -/
def Answers (rest : Bytes) (inner : Inner) :
    Poll (Except IoError Bool) × RecordBuffer × Inner → Prop
  | (.pending, _, inner') => inner'.carrier.pauses + 1 = inner.carrier.pauses
  | (.ready (.ok true), buffer, _) =>
    buffer.needed ≤ rest.length ∧ buffer.frame = rest.take buffer.needed
  | (.ready (.ok false), _, _) => rest = [] ∧ inner.broken = none
  | (.ready (.error _), buffer, _) =>
    rest.length < buffer.needed ∧ (rest ≠ [] ∨ inner.broken ≠ none)

/-- After any calls the frames have the sizes asked for and stand one behind the other in the
stream, the storage is bounded, no read is offered an empty slice, and a poll answers for the
rest of the stream. -/
theorem recordBuffer_delivers_stream (needed : FrameSize) (prefixLen : Nat)
    (inner : Inner) (calls : List FrameCall) :
    ∃ rest this, calls.foldl step (new needed prefixLen inner) = this ∧
      inner.carrier.bytes = this.frames.flatten ++ rest ∧
      this.asked = this.frames.map length ++ [this.buffer.needed] ∧
      this.buffer.bytes.length ≤ maxBuffer ∧
      (this.buffer.pollFrame this.inner).2.2 =
        innerAfter this.inner (this.buffer.pollReads this.inner) ∧
      (∀ n ∈ this.buffer.pollReads this.inner, 0 < n) ∧
      Answers rest this.inner (this.buffer.pollFrame this.inner) := by
  have hnew : Delivers inner.carrier.bytes (new needed prefixLen inner) :=
    ⟨rfl, rfl, Nat.zero_le _⟩
  have hrun := hnew.run calls
  generalize calls.foldl step (new needed prefixLen inner) = this at hrun
  refine ⟨_, this, rfl, hrun.bytes, hrun.asked, hrun.storage, inner_pollFrame _ _,
    pollReads_pos _ _, ?_⟩
  rcases hpoll : this.buffer.pollFrame this.inner with ⟨answer, buffer, inner'⟩
  obtain ⟨⟨-, hbytes, hbroken⟩, hsays⟩ := pollFrame_spec hpoll
  rw [← hbytes]
  rcases answer with (error | _ | _) | _
  · obtain ⟨hend, hshort, hwhy⟩ := hsays
    rw [hend, append_nil]
    exact ⟨hshort, hbroken ▸ hwhy⟩
  · obtain ⟨hheld, hend, hnone⟩ := hsays
    rw [hheld, hend]
    exact ⟨rfl, hbroken ▸ hnone⟩
  · obtain ⟨hthere, -⟩ := hsays
    rw [Answers, frame_eq hthere, take_append_of_le_length hthere, length_append]
    exact ⟨by omega, rfl⟩
  · exact hsays

end FrameRun

end Xray.Proxy
