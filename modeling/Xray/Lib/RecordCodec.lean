import Xray.Lib.Bytes

/-!
# Streams of frames whose sizes are told by the frames before

A codec reads one frame at a time. From its state and the bytes of a frame it learns how long
the next one is, or it gets a plaintext, or it finds that the stream ends here, or it fails.
`run` is what a whole byte string is read as: the plaintexts in order, and how it went out. A
reader that gets the bytes in pieces can be compared with it.
-/

namespace RecordCodec

open List

variable {σ ε : Type*}

/-- What a frame turns out to be. A plaintext may come with the advice how far to read ahead. -/
inductive Reading (σ : Type*) where
  | expect (size : Nat) (next : σ)
  | opened (plain : Bytes) (next : σ) (readAhead : Option Nat)
  | ended

/-- A codec of frames of at most `limit` bytes. While `isPlain` holds, the plaintext of a frame
is being handed out; `resume` gives the size of the frame after it. At a `boundary` the bytes
may end. -/
structure Codec (σ ε : Type*) (limit : Nat) where
  isPlain : σ → Bool
  boundary : σ → Bool
  process : σ → Bytes → Except ε (Reading σ)
  resume : σ → Nat × σ
  expect_ok : ∀ {s frame n t}, process s frame = .ok (.expect n t) →
    isPlain t = false ∧ 0 < n ∧ n ≤ limit
  opened_ok : ∀ {s frame plain t readAhead}, process s frame = .ok (.opened plain t readAhead) →
    isPlain t ∧ plain.length ≤ frame.length
  resume_ok : ∀ s, isPlain (resume s).2 = false ∧ 0 < (resume s).1 ∧ (resume s).1 ≤ limit

/-- How reading goes out: a frame that cannot be read, a frame that ends the stream, or too few
bytes for the frame that would be next. -/
inductive Fate (σ : Type*) where
  | failed
  | ended
  | cut (state : σ) (rest : Bytes)

/-- What is read after some plaintexts. -/
def after (opened : List Bytes) (result : List Bytes × Fate σ) : List Bytes × Fate σ :=
  (opened ++ result.1, result.2)

lemma after_after (first second : List Bytes) (result : List Bytes × Fate σ) :
    after first (after second result) = after (first ++ second) result := by
  rw [after, after, after, append_assoc]

namespace Codec

variable {limit : Nat} (c : Codec σ ε limit)

/-- What a byte string is read as from a state in which a frame of `n` bytes is next. -/
def run (s : σ) (n : Nat) (bytes : Bytes) : List Bytes × Fate σ :=
  if 0 < n ∧ n ≤ bytes.length then
    match c.process s (bytes.take n) with
    | .error _ => ([], .failed)
    | .ok .ended => ([], .ended)
    | .ok (.expect m t) => run t m (bytes.drop n)
    | .ok (.opened plain t _) =>
      after [plain] (run (c.resume t).2 (c.resume t).1 (bytes.drop n))
  else ([], .cut s bytes)
termination_by bytes.length
decreasing_by all_goals (rw [length_drop]; omega)

/-- The bytes may end this way. -/
def Clean : Fate σ → Prop
  | .failed => False
  | .ended => True
  | .cut s rest => rest = [] ∧ c.boundary s = true

variable {c} {s : σ} {n : Nat} {frame : Bytes}

lemma run_short {bytes : Bytes} (h : bytes.length < n) : c.run s n bytes = ([], .cut s bytes) := by
  rw [run, if_neg (by omega)]

lemma run_nil : c.run s n [] = ([], .cut s []) := by
  rw [run, if_neg (by rw [length_nil]; omega)]

lemma short_or_frame (n : Nat) (bytes : Bytes) :
    bytes.length < n ∨ ∃ frame rest, bytes = frame ++ rest ∧ frame.length = n := by
  rcases Nat.lt_or_ge bytes.length n with hshort | hlong
  · exact .inl hshort
  · refine .inr ⟨bytes.take n, bytes.drop n, (take_append_drop n bytes).symm, ?_⟩
    rw [length_take]
    omega

section

variable (hn : 0 < n) (hframe : frame.length = n)

include hn hframe

lemma run_error {e : ε} (h : c.process s frame = .error e) (bytes : Bytes) :
    c.run s n (frame ++ bytes) = ([], .failed) := by
  rw [run, if_pos ⟨hn, by rw [length_append]; omega⟩, take_left' hframe, h]

lemma run_ended (h : c.process s frame = .ok .ended) (bytes : Bytes) :
    c.run s n (frame ++ bytes) = ([], .ended) := by
  rw [run, if_pos ⟨hn, by rw [length_append]; omega⟩, take_left' hframe, h]

lemma run_expect {m : Nat} {t : σ} (h : c.process s frame = .ok (.expect m t)) (bytes : Bytes) :
    c.run s n (frame ++ bytes) = c.run t m bytes := by
  rw [run, if_pos ⟨hn, by rw [length_append]; omega⟩, take_left' hframe, h]
  simp only [drop_left' hframe]

lemma run_opened {plain : Bytes} {t : σ} {readAhead : Option Nat}
    (h : c.process s frame = .ok (.opened plain t readAhead)) (bytes : Bytes) :
    c.run s n (frame ++ bytes) = after [plain] (c.run (c.resume t).2 (c.resume t).1 bytes) := by
  rw [run, if_pos ⟨hn, by rw [length_append]; omega⟩, take_left' hframe, h]
  simp only [drop_left' hframe]

end

/-! ## Where a reader stands in a stream -/

/-- Of the bytes `all`, those before `rest` have been read as the plaintexts `opened`, whatever
follows them, and `rest` is read from the state `s`. -/
def Leads (c : Codec σ ε limit) (read : Bytes → List Bytes × Fate σ) (all : Bytes)
    (opened : List Bytes) (s : σ) (n : Nat) (rest : Bytes) : Prop :=
  ∃ consumed, consumed ++ rest = all ∧
    ∀ more, read (consumed ++ more) = after opened (c.run s n more)

variable {read : Bytes → List Bytes × Fate σ} {all rest : Bytes} {opened : List Bytes}

lemma Leads.start (s : σ) (n : Nat) (all : Bytes) : c.Leads (c.run s n) all [] s n all :=
  ⟨[], rfl, fun _ => rfl⟩

lemma Leads.total (h : c.Leads read all opened s n rest) :
    read all = after opened (c.run s n rest) := by
  obtain ⟨consumed, rfl, hread⟩ := h
  exact hread rest

variable (hn : 0 < n) (hframe : frame.length = n)

include hn hframe

lemma Leads.expects {m : Nat} {t : σ} (h : c.Leads read all opened s n (frame ++ rest))
    (hprocess : c.process s frame = .ok (.expect m t)) : c.Leads read all opened t m rest := by
  obtain ⟨consumed, hall, hread⟩ := h
  refine ⟨consumed ++ frame, by rw [append_assoc, hall], fun more => ?_⟩
  rw [append_assoc, hread, run_expect hn hframe hprocess]

lemma Leads.opens {plain : Bytes} {t : σ} {readAhead : Option Nat}
    (h : c.Leads read all opened s n (frame ++ rest))
    (hprocess : c.process s frame = .ok (.opened plain t readAhead)) :
    c.Leads read all (opened ++ [plain]) (c.resume t).2 (c.resume t).1 rest := by
  obtain ⟨consumed, hall, hread⟩ := h
  refine ⟨consumed ++ frame, by rw [append_assoc, hall], fun more => ?_⟩
  rw [append_assoc, hread, run_opened hn hframe hprocess, after_after]

end Codec

end RecordCodec
