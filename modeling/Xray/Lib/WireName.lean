import Xray.Lib.Bytes

/-!
# Names in a message that compresses them

A name is written as labels, each behind its length, and ends with an empty one, or with a pointer
to a place of the message where it goes on. `element` reads what stands at a place, and a `Walk`
is the way from a place to the end of a name. A walk is the only one from its place, and it is a
walk of every message that has the same bytes where it goes (`Walk.eq_of_extends`,
`Walk.extend`).
-/

namespace WireName

open Bytes List

/-- The bytes from `start` to `stop`, if the message has them. -/
def slice? (message : Bytes) (start stop : Nat) : Option Bytes :=
  if start ≤ stop ∧ stop ≤ message.length then some ((message.take stop).drop start) else none

def u16? (message : Bytes) (offset : Nat) : Option UInt16 :=
  (slice? message offset (offset + 2)).map fun bytes => UInt16.ofNat (ofBe bytes)

def u32? (message : Bytes) (offset : Nat) : Option UInt32 :=
  (slice? message offset (offset + 4)).map fun bytes => UInt32.ofNat (ofBe bytes)

/-- The place a pointer names. -/
def pointerTo (high low : UInt8) : Nat := ((high &&& 0x3f).toNat <<< 8) ||| low.toNat

/-- From `floor` on, the second message has what the first has. -/
def Extends (floor : Nat) (message message' : Bytes) : Prop :=
  ∀ i byte, floor ≤ i → message[i]? = some byte → message'[i]? = some byte

variable {message bytes : Bytes} {start stop : Nat}

lemma slice?_eq_some (h : slice? message start stop = some bytes) :
    start ≤ stop ∧ stop ≤ message.length ∧ bytes = (message.take stop).drop start := by
  rw [slice?] at h
  split at h
  · next hin => exact ⟨hin.1, hin.2, (Option.some.inj h).symm⟩
  · cases h

lemma length_slice (hstop : stop ≤ message.length) :
    ((message.take stop).drop start).length = stop - start := by
  rw [length_drop, length_take, Nat.min_eq_left hstop]

lemma slice?_append (before bytes after : Bytes) :
    slice? (before ++ bytes ++ after) before.length (before.length + bytes.length) = some bytes := by
  have hlen : before.length + bytes.length = (before ++ bytes).length := by
    rw [length_append]
  rw [slice?, if_pos (by simp only [length_append]; omega), hlen, take_left, drop_left]

variable {floor : Nat} {message' : Bytes}

lemma Extends.length_le (h : Extends floor message message') {n : Nat} (hfloor : floor < n)
    (hn : n ≤ message.length) : n ≤ message'.length := by
  have hget : message[n - 1]? = some (message[n - 1]) := getElem?_eq_getElem (by omega)
  have := (List.getElem_of_getElem? (h (n - 1) _ (by omega) hget)).1
  omega

lemma Extends.slice_eq (h : Extends floor message message') (hfloor : floor ≤ start)
    (hstop : stop ≤ message.length) :
    (message'.take stop).drop start = (message.take stop).drop start := by
  apply ext_getElem?
  intro i
  rw [getElem?_drop, getElem?_drop]
  by_cases hi : start + i < stop
  · rw [getElem?_take_of_lt hi, getElem?_take_of_lt hi]
    have hget : message[start + i]? = some (message[start + i]) := getElem?_eq_getElem (by omega)
    rw [hget, h (start + i) _ (by omega) hget]
  · rw [getElem?_take_eq_none (by omega), getElem?_take_eq_none (by omega)]

lemma Extends.slice?_eq (h : Extends floor message message') (hfloor : floor ≤ start)
    (hne : start < stop) (hbytes : slice? message start stop = some bytes) :
    slice? message' start stop = some bytes := by
  obtain ⟨hle, hstop, rfl⟩ := slice?_eq_some hbytes
  rw [slice?, if_pos ⟨hle, h.length_le (by omega) hstop⟩, h.slice_eq hfloor hstop]

lemma Extends.u16? (h : Extends floor message message') {offset : Nat} {value : UInt16}
    (hfloor : floor ≤ offset) (hvalue : u16? message offset = some value) :
    u16? message' offset = some value := by
  obtain ⟨bytes, hbytes, rfl⟩ := Option.map_eq_some_iff.mp hvalue
  rw [WireName.u16?, h.slice?_eq hfloor (by omega) hbytes]
  rfl

inductive Element where
  | root
  | label (bytes : Bytes)
  | pointer (target : Nat)
deriving DecidableEq

def element (message : Bytes) (cursor : Nat) : Option Element :=
  match message[cursor]? with
  | none => none
  | some length =>
    if length &&& 0xc0 = 0xc0 then
      message[cursor + 1]?.map fun low => .pointer (pointerTo length low)
    else if length = 0 then some .root
    else if length &&& 0xc0 ≠ 0 then none
    else (slice? message (cursor + 1) (cursor + 1 + length.toNat)).map .label

/-- A step of the way through a name. -/
inductive Step where
  | label (bytes : Bytes)
  | pointer (target : Nat)
deriving DecidableEq

/-- The way from a place to the end of the name there, and where its bytes at that place end. -/
inductive Walk (message : Bytes) : Nat → List Step → Nat → Prop where
  | root {cursor : Nat} (h : element message cursor = some .root) :
      Walk message cursor [] (cursor + 1)
  | label {cursor : Nat} {bytes : Bytes} {steps : List Step} {stop : Nat}
      (h : element message cursor = some (.label bytes))
      (hrest : Walk message (cursor + 1 + bytes.length) steps stop) :
      Walk message cursor (.label bytes :: steps) stop
  | pointer {cursor target : Nat} {steps : List Step} {stop : Nat}
      (h : element message cursor = some (.pointer target))
      (hrest : Walk message target steps stop) :
      Walk message cursor (.pointer target :: steps) (cursor + 2)

def labels : List Step → List Bytes
  | [] => []
  | .label bytes :: steps => bytes :: labels steps
  | .pointer _ :: steps => labels steps

/-- No pointer leads below `floor`. -/
def Above (floor : Nat) (steps : List Step) : Prop :=
  ∀ target, Step.pointer target ∈ steps → floor ≤ target

variable {floor cursor stop stop' : Nat} {message message' : Bytes} {steps steps' : List Step}

lemma Extends.element (h : Extends floor message message') (hfloor : floor ≤ cursor)
    {e : Element} (he : element message cursor = some e) : element message' cursor = some e := by
  rw [WireName.element] at he ⊢
  cases hlength : message[cursor]? with
  | none =>
    rw [hlength] at he
    cases he
  | some length =>
    rw [hlength] at he
    rw [h cursor length hfloor hlength]
    dsimp only at he ⊢
    split at he
    · next hpointer =>
      obtain ⟨low, hlow, rfl⟩ := Option.map_eq_some_iff.mp he
      rw [if_pos hpointer, h (cursor + 1) low (by omega) hlow]
      rfl
    next hpointer =>
    rw [if_neg hpointer]
    split at he
    · next hzero =>
      rw [if_pos hzero]
      exact he
    next hzero =>
    rw [if_neg hzero]
    split at he
    · cases he
    next hplain =>
    rw [if_neg hplain]
    obtain ⟨bytes, hbytes, rfl⟩ := Option.map_eq_some_iff.mp he
    have hne : length.toNat ≠ 0 := by
      intro h0
      exact hzero (UInt8.toNat_inj.mp h0)
    rw [h.slice?_eq (by omega) (by omega) hbytes]
    rfl

lemma element_label {length : UInt8} (hbyte : message[cursor]? = some length)
    (hpointer : ¬length &&& 0xc0 = 0xc0) (hzero : ¬length = 0) (hplain : ¬length &&& 0xc0 ≠ 0)
    (hbytes : slice? message (cursor + 1) (cursor + 1 + length.toNat) = some bytes) :
    element message cursor = some (.label bytes) ∧ bytes.length = length.toNat := by
  rw [element, hbyte]
  dsimp only
  rw [if_neg hpointer, if_neg hzero, if_neg hplain, hbytes]
  obtain ⟨-, hstop, rfl⟩ := slice?_eq_some hbytes
  refine ⟨rfl, ?_⟩
  rw [length_slice hstop]
  omega

lemma element_pointer {length low : UInt8}
    (hbyte : message[cursor]? = some length) (hpointer : length &&& 0xc0 = 0xc0)
    (hlow : message[cursor + 1]? = some low) :
    element message cursor = some (.pointer (pointerTo length low)) := by
  rw [element, hbyte]
  dsimp only
  rw [if_pos hpointer, hlow]
  rfl

lemma element_root (hbyte : message[cursor]? = some 0) : element message cursor = some .root := by
  rw [element, hbyte]
  rfl

lemma element_cases {e : Element} (h : element message cursor = some e) :
    (e = .root ∧ message[cursor]? = some 0) ∨
    (∃ length low, e = .pointer (pointerTo length low) ∧ message[cursor]? = some length ∧
      length &&& 0xc0 = 0xc0 ∧ message[cursor + 1]? = some low) ∨
    ∃ length bytes, e = .label bytes ∧ message[cursor]? = some length ∧ bytes.length = length.toNat ∧
      ¬length &&& 0xc0 = 0xc0 ∧ ¬length = 0 ∧ ¬length &&& 0xc0 ≠ 0 ∧
      slice? message (cursor + 1) (cursor + 1 + length.toNat) = some bytes := by
  rw [element] at h
  cases hbyte : message[cursor]? with
  | none =>
    rw [hbyte] at h
    cases h
  | some length =>
    rw [hbyte] at h
    dsimp only at h
    split at h
    · next hpointer =>
      obtain ⟨low, hlow, rfl⟩ := Option.map_eq_some_iff.mp h
      exact .inr (.inl ⟨length, low, rfl, rfl, hpointer, hlow⟩)
    next hpointer =>
    split at h
    · next hzero =>
      cases h
      rw [hzero]
      exact .inl ⟨rfl, rfl⟩
    next hzero =>
    split at h
    · cases h
    next hplain =>
    obtain ⟨bytes, hbytes, rfl⟩ := Option.map_eq_some_iff.mp h
    exact .inr (.inr ⟨length, bytes, rfl, rfl,
      (element_label hbyte hpointer hzero hplain hbytes).2, hpointer, hzero, hplain,
      hbytes⟩)

lemma Walk.lt_stop (h : Walk message cursor steps stop) : cursor < stop := by
  induction h with
  | root _ => omega
  | label _ _ ih => omega
  | pointer _ _ _ => omega

lemma Walk.stop_le (h : Walk message cursor steps stop) : stop ≤ message.length := by
  induction h with
  | root h =>
    rcases element_cases h with ⟨-, hbyte⟩ | ⟨_, _, heq, -⟩ | ⟨_, _, heq, -⟩
    · exact (List.getElem_of_getElem? hbyte).1
    · cases heq
    · cases heq
  | label _ _ ih => exact ih
  | pointer h _ _ =>
    rcases element_cases h with ⟨heq, -⟩ | ⟨_, _, -, -, -, hlow⟩ | ⟨_, _, heq, -⟩
    · cases heq
    · exact (List.getElem_of_getElem? hlow).1
    · cases heq

lemma Above.tail {s : Step} (h : Above floor (s :: steps)) : Above floor steps :=
  fun target hmem => h target (mem_cons_of_mem s hmem)

lemma Walk.extend (hextends : Extends floor message message')
    (h : Walk message cursor steps stop) (hcursor : floor ≤ cursor) (habove : Above floor steps) :
    Walk message' cursor steps stop := by
  induction h with
  | root h => exact .root (hextends.element hcursor h)
  | label h _ ih =>
    exact .label (hextends.element hcursor h) (ih (by omega) habove.tail)
  | pointer h _ ih =>
    exact .pointer (hextends.element hcursor h) (ih (habove _ mem_cons_self) habove.tail)

lemma Walk.eq_of_extends (hextends : Extends floor message message')
    (h : Walk message cursor steps stop) (h' : Walk message' cursor steps' stop')
    (hcursor : floor ≤ cursor) (habove : Above floor steps') : steps = steps' ∧ stop = stop' := by
  induction h generalizing steps' stop' with
  | root h =>
    have hsame := hextends.element hcursor h
    cases h' with
    | root h' => exact ⟨rfl, rfl⟩
    | label h' _ | pointer h' _ => cases hsame.symm.trans h'
  | label h _ ih =>
    have hsame := hextends.element hcursor h
    cases h' with
    | root h' | pointer h' _ => cases hsame.symm.trans h'
    | label h' hrest' =>
      cases hsame.symm.trans h'
      obtain ⟨rfl, rfl⟩ := ih hrest' (by omega) habove.tail
      exact ⟨rfl, rfl⟩
  | pointer h _ ih =>
    have hsame := hextends.element hcursor h
    cases h' with
    | root h' | label h' _ => cases hsame.symm.trans h'
    | pointer h' hrest' =>
      cases hsame.symm.trans h'
      obtain ⟨rfl, rfl⟩ := ih hrest' (habove _ mem_cons_self) habove.tail
      exact ⟨rfl, rfl⟩

lemma Extends.refl (floor : Nat) (message : Bytes) : Extends floor message message :=
  fun _ _ _ h => h

lemma Walk.unique (h : Walk message cursor steps stop) (h' : Walk message cursor steps' stop') :
    steps = steps' ∧ stop = stop' :=
  h.eq_of_extends (Extends.refl 0 message) h' (Nat.zero_le _) fun _ _ => Nat.zero_le _

/-! ## Names without pointers -/

/-- The labels, each behind its length. -/
def encode (parts : List Bytes) : Bytes :=
  parts.flatMap fun part => UInt8.ofNat part.length :: part

lemma plain_length {n : Nat} (hpos : 0 < n) (hle : n ≤ 63) :
    ¬UInt8.ofNat n &&& 0xc0 = 0xc0 ∧ ¬UInt8.ofNat n = 0 ∧ ¬UInt8.ofNat n &&& 0xc0 ≠ 0 := by
  have hall : ∀ k : Fin 64, 0 < k.val → ¬UInt8.ofNat k.val &&& 0xc0 = 0xc0 ∧
      ¬UInt8.ofNat k.val = 0 ∧ ¬UInt8.ofNat k.val &&& 0xc0 ≠ 0 := by decide +kernel
  exact hall ⟨n, by omega⟩ hpos

lemma walk_encode {parts : List Bytes} (h : ∀ part ∈ parts, part ≠ [] ∧ part.length ≤ 63)
    (before after : Bytes) :
    Walk (before ++ (encode parts ++ 0 :: after)) before.length (parts.map .label)
      (before.length + (encode parts).length + 1) := by
  induction parts generalizing before with
  | nil =>
    refine .root (element_root ?_)
    rw [getElem?_append_right (Nat.le_refl _), Nat.sub_self]
    rfl
  | cons part parts ih =>
    obtain ⟨hne, hle⟩ := h part mem_cons_self
    obtain ⟨hpointer, hzero, hplain⟩ := plain_length (length_pos_iff.mpr hne) hle
    have hcons : encode (part :: parts) = UInt8.ofNat part.length :: (part ++ encode parts) := by
      rw [encode, flatMap_cons, cons_append, encode]
    have hmessage : before ++ (encode (part :: parts) ++ 0 :: after) =
        (before ++ UInt8.ofNat part.length :: part) ++ (encode parts ++ 0 :: after) := by
      rw [hcons]
      simp only [append_assoc, cons_append]
    have hrest := ih (fun p hp => h p (mem_cons_of_mem part hp))
      (before ++ UInt8.ofNat part.length :: part)
    have hlength : (UInt8.ofNat part.length).toNat = part.length := by
      exact Nat.mod_eq_of_lt (by omega)
    have hbyte : (before ++ (encode (part :: parts) ++ 0 :: after))[before.length]? =
        some (UInt8.ofNat part.length) := by
      rw [getElem?_append_right (Nat.le_refl _), Nat.sub_self]
      rfl
    have hslice : slice? (before ++ (encode (part :: parts) ++ 0 :: after)) (before.length + 1)
        (before.length + 1 + (UInt8.ofNat part.length).toNat) = some part := by
      have happend := slice?_append (before ++ [UInt8.ofNat part.length]) part
        (encode parts ++ 0 :: after)
      rw [length_append, length_singleton] at happend
      rw [hlength, hmessage]
      simpa only [append_assoc, cons_append, nil_append] using happend
    refine .label (element_label hbyte hpointer hzero hplain hslice).1 ?_
    have hcursor : before.length + 1 + part.length =
        (before ++ UInt8.ofNat part.length :: part).length := by
      rw [length_append, length_cons]
      omega
    have hstop : before.length + (encode (part :: parts)).length + 1 =
        (before ++ UInt8.ofNat part.length :: part).length + (encode parts).length + 1 := by
      rw [hcons, length_append, length_cons, length_cons, length_append]
      omega
    rw [hcursor, hstop, hmessage]
    exact hrest

lemma labels_map_label (parts : List Bytes) : labels (parts.map .label) = parts := by
  induction parts with
  | nil => rfl
  | cons part parts ih => rw [map_cons, labels, ih]

end WireName
