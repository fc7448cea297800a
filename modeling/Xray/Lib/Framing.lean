import Xray.Lib.Bytes

/-!
# Frames read one at a time from the front of a buffer

A decoder looks at the bytes received so far: it asks for more of them, gives a frame and how
many bytes it took, or fails. It must not change its answer when more bytes come (`stable`);
that alone makes reading independent of how the bytes were cut (`feed_eq_drain`).
-/

namespace Framing

variable {α ε : Type*}

/-- A decoder of one frame whose answers hold for every continuation of the input. -/
structure Decoder (α ε : Type*) where
  decode : Bytes → Except ε (Option (α × Nat))
  bounds : ∀ {input a n}, decode input = .ok (some (a, n)) → 0 < n ∧ n ≤ input.length
  stable : ∀ {input}, decode input ≠ .ok none → ∀ tail, decode (input ++ tail) = decode input

variable (d : Decoder α ε)

/-- The frames that stand in a buffer, and what is left: the bytes after them, or the error. -/
def Decoder.drain (bytes : Bytes) : List α × Except ε Bytes :=
  match _ : d.decode bytes with
  | .error e => ([], .error e)
  | .ok none => ([], .ok bytes)
  | .ok (some (a, n)) =>
    let (as, last) := Decoder.drain (bytes.drop n)
    (a :: as, last)
termination_by bytes.length
decreasing_by
  have := d.bounds ‹_›
  rw [List.length_drop]
  omega

/-- Reads pieces as they come: each is put behind the bytes left over, and drained. -/
def Decoder.feed : Bytes → List Bytes → List α × Except ε Bytes
  | buffer, [] => ([], .ok buffer)
  | buffer, piece :: pieces =>
    match d.drain (buffer ++ piece) with
    | (as, .error e) => (as, .error e)
    | (as, .ok rest) =>
      let (more, last) := Decoder.feed rest pieces
      (as ++ more, last)

variable {d}

variable {bytes : Bytes}

lemma drain_of_error {e : ε} (h : d.decode bytes = .error e) :
    d.drain bytes = ([], .error e) := by
  rw [Decoder.drain]
  split <;> simp_all

lemma drain_of_none (h : d.decode bytes = .ok none) : d.drain bytes = ([], .ok bytes) := by
  rw [Decoder.drain]
  split <;> simp_all

lemma drain_of_some {a : α} {n : Nat} (h : d.decode bytes = .ok (some (a, n))) :
    d.drain bytes = (a :: (d.drain (bytes.drop n)).1, (d.drain (bytes.drop n)).2) := by
  rw [Decoder.drain]
  split <;> simp_all

/-- A strict part of a frame is not read yet. -/
lemma decode_short {wire part : Bytes} {a : α} (h : d.decode wire = .ok (some (a, wire.length)))
    (hpart : part <+: wire) (hne : part ≠ wire) : d.decode part = .ok none := by
  obtain ⟨tail, rfl⟩ := hpart
  by_contra hread
  rw [d.stable hread] at h
  have hle := (d.bounds h).2
  rw [List.length_append] at hle
  have htail : tail = [] := List.eq_nil_of_length_eq_zero (by omega)
  exact hne (by rw [htail, List.append_nil])

/-- What a buffer gives does not change when bytes follow: they are read after its frames. -/
lemma drain_append (bytes more : Bytes) :
    d.drain (bytes ++ more) =
      match d.drain bytes with
      | (as, .error e) => (as, .error e)
      | (as, .ok rest) => (as ++ (d.drain (rest ++ more)).1, (d.drain (rest ++ more)).2) := by
  fun_induction Decoder.drain d bytes with
  | case1 bytes e h =>
    have hmore : d.decode (bytes ++ more) = .error e := by
      rw [d.stable (by rw [h]; exact nofun), h]
    rw [drain_of_error hmore]
  | case2 => rfl
  | case3 bytes a n h as last hdrain ih =>
    have hmore : d.decode (bytes ++ more) = .ok (some (a, n)) := by
      rw [d.stable (by rw [h]; exact nofun), h]
    rw [drain_of_some hmore, List.drop_append_of_le_length (d.bounds h).2, ih, hdrain]
    cases last <;> rfl

lemma drain_rest {rest : Bytes} {as : List α} (h : d.drain bytes = (as, .ok rest)) :
    d.drain rest = ([], .ok rest) := by
  fun_induction Decoder.drain d bytes generalizing as with
  | case1 => cases h
  | case2 bytes hdecode =>
    cases h
    exact drain_of_none hdecode
  | case3 bytes a n hdecode as' last hdrain ih =>
    cases h
    exact ih hdrain

lemma drain_wires {as : List α} {wires : List Bytes} (hnil : d.decode [] = .ok none)
    (h : List.Forall₂ (fun a wire => ∀ tail, d.decode (wire ++ tail) = .ok (some (a, wire.length)))
      as wires) : d.drain wires.flatten = (as, .ok []) := by
  induction h with
  | nil => exact drain_of_none hnil
  | @cons a wire as wires hread _ ih =>
    rw [List.flatten_cons, drain_of_some (hread _), List.drop_left, ih]

/-- The cuts do not matter: the pieces give what the whole gives. -/
lemma feed_eq_drain {buffer : Bytes} (pieces : List Bytes) (h : d.drain buffer = ([], .ok buffer)) :
    d.feed buffer pieces = d.drain (buffer ++ pieces.flatten) := by
  induction pieces generalizing buffer with
  | nil => rw [Decoder.feed, List.flatten_nil, List.append_nil, h]
  | cons piece pieces ih =>
    rw [Decoder.feed, List.flatten_cons, ← List.append_assoc, drain_append (buffer ++ piece)]
    rcases hdrain : d.drain (buffer ++ piece) with ⟨as, e | rest⟩
    · rfl
    · have hrest : d.drain rest = ([], .ok rest) := drain_rest hdrain
      simp only [ih hrest]

end Framing
