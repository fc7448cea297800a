import Xray.Proofs.VmessStream

/-!
# What a VMess peer seals

A peer seals records with the same keys, counters and masks the reader starts with. A record is
read back with the counters and masks it was sealed with, and leaves the reader with those the
peer goes on with (`record_read`). So a stream of records is read as its payloads, up to an
empty one, and where it is cut inside a record nothing of that record is read.

A length that is sealed leaves out the tag of the payload, so that the longest lengths it can say
are ones the reader refuses. What was read before stays right.
-/

namespace Xray.Vmess

open Bytes Fallible RecordCodec List
open Xray.Proxy Codec ReadState Records State

variable {C : Crypto}

/-! ## Sealing and opening -/

lemma length_aeadSeal (key : C.Aead) (nonce plain : Bytes) :
    (C.aeadSeal key nonce plain).length = plain.length + 16 :=
  C.length_open (C.open_seal key nonce plain)

lemma openSlice_aeadSeal (key : C.Aead) (nonce plain : Bytes) :
    openSlice key nonce (C.aeadSeal key nonce plain) = .ok plain := by
  rw [openSlice, C.open_seal]

lemma Counter.open_sealFrom {counter next : Counter C} {plain sealed : Bytes}
    (h : counter.sealFrom plain = .ok (sealed, next)) :
    counter.open sealed = .ok (plain, next) ∧ sealed.length = plain.length + 16 := by
  obtain ⟨⟨nonce, next'⟩, hnonce, h⟩ := bind_eq_ok.mp h
  cases h
  refine ⟨?_, length_aeadSeal _ _ _⟩
  rw [Counter.open, hnonce, bind_ok]
  dsimp only
  rw [openSlice_aeadSeal]
  rfl

namespace Records

def Says (records : Records C) (size : Nat) : Prop :=
  if records.length.isSome then size < 65536 + 16 else size < 65536

instance (records : Records C) (size : Nat) : Decidable (records.Says size) := by
  unfold Says
  infer_instance

lemma nextMask_lt (records : Records C) : records.nextMask.1 < 65536 := by
  have := ofBe_lt [records.mask records.read, records.mask (records.read + 1)]
  rw [length_cons, length_singleton] at this
  show ofBe _ < _
  omega

lemma openLength_appendLength (records : Records C) {next : Records C} {size : Nat} {bytes : Bytes}
    (hsize : 16 ≤ size) (hword : records.Says size)
    (h : records.appendLength size = .ok (bytes, next)) :
    records.openLength bytes = .ok (size, next) ∧ bytes.length = records.sizeBytes ∧
      next.body = records.body := by
  rw [appendLength] at h
  rw [openLength, sizeBytes]
  unfold Says at hword
  cases hlength : records.length with
  | some cipher =>
    rw [hlength] at h hword
    simp only [Option.isSome_some, if_true] at hword ⊢
    obtain ⟨⟨sealed, cipher'⟩, hseal, h⟩ := bind_eq_ok.mp h
    cases h
    obtain ⟨hopen, hbytes⟩ := Counter.open_sealFrom hseal
    have hread : ofBe ((toBe 2 (size - 16)).take 2) = size - 16 := by
      rw [take_of_length_le (by rw [length_toBe])]
      exact ofBe_toBe_of_lt (by omega)
    refine ⟨?_, by rw [hbytes, length_toBe], rfl⟩
    rw [hopen, bind_ok]
    rw [hread, Nat.sub_add_cancel hsize]
    rfl
  | none =>
    rw [hlength] at h hword
    cases h
    have hmask := records.nextMask_lt
    have hxor : size % 65536 ^^^ records.nextMask.1 < 2 ^ 16 :=
      Nat.xor_lt_two_pow (by omega) (by omega)
    have hread : ofBe ((toBe 2 (size % 65536 ^^^ records.nextMask.1)).take 2) ^^^
        records.nextMask.1 = size := by
      rw [take_of_length_le (by rw [length_toBe]), ofBe_toBe_of_lt (by omega),
        Nat.xor_assoc, Nat.xor_self, Nat.xor_zero, Nat.mod_eq_of_lt hword]
    exact ⟨congrArg (fun n => Except.ok (n, records.nextMask.2)) hread, length_toBe _ _, rfl⟩

/-- The payload fits into what the length of its record can say. -/
def Admits (records : Records C) (payload : Bytes) : Prop :=
  records.Says (payload.length + 16 + records.nextMask.1 % 64)

instance (records : Records C) (payload : Bytes) : Decidable (records.Admits payload) :=
  inferInstanceAs (Decidable (records.Says _))

/-- A record is a length and a frame. The length is refused or gives the frame's size, and the
frame gives the payload. -/
lemma append_spec {records next : Records C} {payload wire : Bytes} {filler : Nat → UInt8}
    (hadmits : records.Admits payload) (h : records.append payload filler = .ok (wire, next)) :
    ∃ first second, wire = first ++ second ∧ first.length = records.sizeBytes ∧ 0 < second.length ∧
      ((∃ e, records.decodeLength first = .error e) ∨
        ∃ padding middle, records.decodeLength first = .ok (second.length, padding, middle) ∧
          middle.openSlice second padding = .ok (payload, next)) := by
  obtain ⟨⟨first, middle⟩, hlength, h⟩ := bind_eq_ok.mp h
  obtain ⟨⟨sealed, body⟩, hseal, h⟩ := bind_eq_ok.mp h
  cases h
  obtain ⟨hopen, hfirst, hbody⟩ := openLength_appendLength records.nextMask.2
    (by omega) hadmits hlength
  obtain ⟨hplain, hsealed⟩ := Counter.open_sealFrom hseal
  have hpadding : ((List.range (records.nextMask.1 % 64)).map filler).length =
      records.nextMask.1 % 64 := by
    rw [length_map, length_range]
  have hsecond : (sealed ++ (List.range (records.nextMask.1 % 64)).map filler).length =
      payload.length + 16 + records.nextMask.1 % 64 := by
    rw [length_append, hsealed, hpadding]
  refine ⟨first, sealed ++ (List.range (records.nextMask.1 % 64)).map filler,
    append_assoc _ _ _, hfirst, by omega, ?_⟩
  by_cases hlong : payload.length + 16 + records.nextMask.1 % 64 > 65535
  · refine .inl ⟨.invalidData "invalid VMess record length", ?_⟩
    show (records.nextMask.2.openLength first).bind _ = _
    rw [hopen]
    exact if_pos (.inr hlong)
  refine .inr ⟨records.nextMask.1 % 64, middle, ?_, ?_⟩
  · rw [hsecond]
    show (records.nextMask.2.openLength first).bind _ = _
    rw [hopen]
    exact if_neg (show ¬(_ < 16 + records.nextMask.1 % 64 ∨ _) by omega)
  · have htake : (sealed ++ (List.range (records.nextMask.1 % 64)).map filler).take
        (payload.length + 16 + records.nextMask.1 % 64 - records.nextMask.1 % 64) = sealed :=
      take_left' (by omega)
    rw [openSlice, hsecond, if_neg (by omega), htake, hplain]
    rfl

end Records

/-! ## Reading a record -/

variable {frame : Bytes}

lemma State.process_length_error {this : State C} {e : IoError} (hphase : this.phase = .length)
    (h : this.reader.decodeLength frame = .error e) : (codec C).process this frame = .error e := by
  show this.process frame = _
  rw [process, hphase]
  simp only [processLength]
  rw [h]
  rfl

lemma State.process_length_ok {this : State C} {size padding : Nat} {reader : Records C}
    (hphase : this.phase = .length)
    (h : this.reader.decodeLength frame = .ok (size, padding, reader)) :
    (codec C).process this frame =
      .ok (.expect size { this with phase := .payload, reader, padding }) := by
  show this.process frame = _
  rw [process, hphase]
  simp only [processLength]
  rw [h]
  rfl

lemma State.processPayload_opened (this : State C) {plain : Bytes} {reader : Records C}
    (h : this.reader.openSlice frame this.padding = .ok (plain, reader)) (hne : plain ≠ []) :
    ∃ bulkReadRemaining readAhead, this.processPayload frame =
      .ok (.opened plain { this with phase := .plain, reader, bulkReadRemaining } readAhead) := by
  rw [processPayload, h, bind_ok]
  dsimp only
  rw [if_neg hne]
  exact ⟨_, _, rfl⟩

structure AtRecord (state : State C) (records : Records C) : Prop where
  phase : state.phase = .length
  reader : state.reader = records

variable {state : State C} {records : Records C} {wire : Bytes}

/-- A record that has arrived: the stream fails, ends, or goes on after the payload. -/
lemma run_record {next : Records C} {payload : Bytes} {filler : Nat → UInt8}
    (hstate : AtRecord state records) (hadmits : records.Admits payload)
    (h : records.append payload filler = .ok (wire, next)) (rest : Bytes) :
    (codec C).run state records.sizeBytes (wire ++ rest) = ([], .failed) ∨
    payload = [] ∧ (codec C).run state records.sizeBytes (wire ++ rest) = ([], .ended) ∨
    payload ≠ [] ∧ ∃ state', AtRecord state' next ∧
      (codec C).run state records.sizeBytes (wire ++ rest) =
        after [payload] ((codec C).run state' next.sizeBytes rest) := by
  obtain ⟨hphase, rfl⟩ := hstate
  obtain ⟨first, second, rfl, hfirst, hpos, hread⟩ := append_spec hadmits h
  have hsize := state.reader.sizeBytes_ok.1
  rw [append_assoc]
  rcases hread with ⟨e, herror⟩ | ⟨padding, middle, hlength, hopen⟩
  · exact .inl (run_error hsize hfirst (process_length_error hphase herror) _)
  rw [run_expect hsize hfirst (process_length_ok hphase hlength)]
  refine .inr ?_
  by_cases hnil : payload = []
  · subst hnil
    refine .inl ⟨rfl, run_ended hpos rfl ?_ _⟩
    show processPayload _ second = _
    rw [processPayload]
    rw [hopen]
    rfl
  · obtain ⟨bulk, readAhead, hopened⟩ := processPayload_opened
      { state with phase := .payload, reader := middle, padding } hopen hnil
    have hrun := run_opened (c := codec C)
      (s := { state with phase := .payload, reader := middle, padding }) hpos rfl hopened rest
    exact .inr ⟨hnil, { state with
      phase := .length
      reader := next
      padding
      bulkReadRemaining := bulk }, ⟨rfl, rfl⟩, hrun⟩

lemma prefix_append_cases {bytes front rest : Bytes} (h : bytes <+: front ++ rest) :
    (bytes <+: front ∧ bytes ≠ front) ∨ ∃ more, bytes = front ++ more ∧ more <+: rest := by
  by_cases hle : front.length ≤ bytes.length
  · obtain ⟨more, rfl⟩ := prefix_of_prefix_length_le (prefix_append front rest) h hle
    exact .inr ⟨more, rfl, (prefix_append_right_inj front).mp h⟩
  refine .inl ⟨prefix_of_prefix_length_le h (prefix_append front rest) (by omega), ?_⟩
  rintro rfl
  omega

lemma run_part {next : Records C} {payload part : Bytes} {filler : Nat → UInt8}
    (hstate : AtRecord state records) (hadmits : records.Admits payload)
    (h : records.append payload filler = .ok (wire, next)) (hpart : part <+: wire)
    (hne : part ≠ wire) :
    ((codec C).run state records.sizeBytes part).1 = [] ∧
      (part ≠ [] → ¬(codec C).Clean ((codec C).run state records.sizeBytes part).2) := by
  obtain ⟨hphase, rfl⟩ := hstate
  obtain ⟨first, second, rfl, hfirst, hpos, hread⟩ := append_spec hadmits h
  have hsize := state.reader.sizeBytes_ok.1
  rcases prefix_append_cases hpart with ⟨hshort, hstrict⟩ | ⟨more, rfl, hmore⟩
  · have hlength : part.length < state.reader.sizeBytes := by
      have hle := hshort.length_le
      have hlt : part.length ≠ first.length := fun heq => hstrict (hshort.eq_of_length heq)
      omega
    rw [run_short hlength]
    exact ⟨rfl, fun hsome hclean => hsome hclean.1⟩
  · have hlength : more.length < second.length := by
      have hle := hmore.length_le
      have hlt : more.length ≠ second.length := fun heq =>
        hne (congrArg (first ++ ·) (hmore.eq_of_length heq))
      omega
    rcases hread with ⟨e, herror⟩ | ⟨padding, middle, hsecond, -⟩
    · rw [run_error hsize hfirst (process_length_error hphase herror)]
      exact ⟨rfl, fun _ hclean => hclean⟩
    · rw [run_expect hsize hfirst (process_length_ok hphase hsecond), run_short hlength]
      exact ⟨rfl, fun _ hclean => absurd hclean.2 (by simp [codec, Phase.isLength])⟩

/-! ## Reading what a peer sealed -/

/-- Records sealed one after another, each with a payload its length can say. -/
inductive Sealed : Records C → List Bytes → List Bytes → Prop where
  | nil (records : Records C) : Sealed records [] []
  | cons {records next : Records C} {payload wire : Bytes} {filler : Nat → UInt8}
      {payloads wires : List Bytes} (admits : records.Admits payload)
      (append : records.append payload filler = .ok (wire, next))
      (rest : Sealed next payloads wires) : Sealed records (payload :: payloads) (wire :: wires)

def untilEmpty (payloads : List Bytes) : List Bytes := payloads.takeWhile (· ≠ [])

/-- Of a stream of records, cut anywhere, nothing but payloads is read, and none after an empty
one. -/
lemma run_sealed {payloads wires : List Bytes} {bytes : Bytes} (hstate : AtRecord state records)
    (h : Sealed records payloads wires) (hbytes : bytes <+: wires.flatten) :
    ((codec C).run state records.sizeBytes bytes).1 <+: untilEmpty payloads := by
  induction h generalizing state bytes with
  | nil records =>
    obtain rfl := prefix_nil.mp hbytes
    rw [run_short records.sizeBytes_ok.1]
    exact nil_prefix
  | @cons records next payload wire filler payloads wires admits append rest ih =>
    rcases prefix_append_cases hbytes with ⟨hpart, hne⟩ | ⟨more, rfl, hmore⟩
    · rw [(run_part hstate admits append hpart hne).1]
      exact nil_prefix
    rcases run_record hstate admits append more with hrun | ⟨-, hrun⟩ | ⟨hne, state', hstate', hrun⟩
    · rw [hrun]
      exact nil_prefix
    · rw [hrun]
      exact nil_prefix
    · rw [hrun, untilEmpty, takeWhile_cons_of_pos (by simpa using hne)]
      exact (prefix_cons_inj payload).mpr (ih hstate' hmore)

/-- Cut inside a record, after records that are not empty, a stream does not end cleanly. -/
lemma run_cut {payloads before later : List Bytes} {part : Bytes}
    (hstate : AtRecord state records) (h : Sealed records payloads (before ++ wire :: later))
    (hpart : part <+: wire) (hsome : part ≠ []) (hne : part ≠ wire)
    (hfull : ∀ payload ∈ payloads.take before.length, payload ≠ []) :
    ¬(codec C).Clean ((codec C).run state records.sizeBytes (before.flatten ++ part)).2 := by
  induction before generalizing state records payloads with
  | nil =>
    cases h with
    | cons admits append rest => exact (run_part hstate admits append hpart hne).2 hsome
  | cons first before ih =>
    cases h with
    | @cons _ next payload _ filler payloads _ admits append rest =>
      rw [flatten_cons, append_assoc]
      rcases run_record hstate admits append (before.flatten ++ part) with
        hrun | ⟨hnil, -⟩ | ⟨-, state', hstate', hrun⟩
      · rw [hrun]
        exact id
      · exact absurd hnil (hfull payload mem_cons_self)
      rw [hrun]
      exact ih hstate' rest fun payload hpayload =>
        hfull payload (mem_cons_of_mem _ hpayload)

/-! ## The response header -/

/-- A header that answers the request: its length, and itself. It gives back the options of the
request, or none. -/
def ResponseHeader (C : Crypto) (keys : SessionKeys) (options : Options) (header : Bytes) : Prop :=
  ∃ echo : UInt8, (echo = 0 ∨ echo = options.wire) ∧
    header = C.aeadSeal (lengthAead C keys).1 (lengthAead C keys).2 (toBe 2 4) ++
      C.aeadSeal (bodyAead C keys).1 (bodyAead C keys).2 [keys.responseMarker, echo, 0, 0]

section

variable {state : State C} {keys : SessionKeys} {header : Bytes}
  (hphase : state.phase = .headerLength keys) (h : ResponseHeader C keys state.options header)

include hphase h

lemma header_parts : ∃ first second, header = first ++ second ∧ first.length = 18 ∧
    second.length = 20 ∧
    (codec C).process state first = .ok (.expect 20 { state with phase := .header keys }) ∧
    (codec C).process { state with phase := .header keys } second =
      .ok (.expect state.reader.sizeBytes { state with phase := .length }) := by
  obtain ⟨echo, hecho, rfl⟩ := h
  refine ⟨_, _, rfl, ?_, ?_, ?_, ?_⟩
  · rw [length_aeadSeal, length_toBe]
  · rw [length_aeadSeal]
    rfl
  · show state.process _ = _
    rw [State.process, hphase]
    simp only [processHeaderLength]
    have hsize : ofBe ((toBe 2 4).take 2) = 4 := rfl
    rw [openSlice_aeadSeal, bind_ok]
    exact if_neg (by omega)
  · show processHeader { state with phase := .header keys } keys _ = _
    rw [processHeader, openSlice_aeadSeal]
    refine if_pos ?_
    rcases hecho with rfl | rfl <;> simp [headerOk]

lemma run_header (rest : Bytes) : (codec C).run state 18 (header ++ rest) =
      (codec C).run { state with phase := .length } state.reader.sizeBytes rest := by
  obtain ⟨first, second, rfl, hfirst, hsecond, hlength, hheader⟩ := header_parts hphase h
  rw [append_assoc, run_expect (by omega) hfirst hlength, run_expect (by omega) hsecond hheader]

lemma run_header_part {part : Bytes} (hpart : part <+: header) (hne : part ≠ header) :
    ((codec C).run state 18 part).1 = [] ∧ ¬(codec C).Clean ((codec C).run state 18 part).2 := by
  obtain ⟨first, second, rfl, hfirst, hsecond, hlength, -⟩ := header_parts hphase h
  rcases prefix_append_cases hpart with ⟨hshort, hstrict⟩ | ⟨more, rfl, hmore⟩
  · have hle := hshort.length_le
    have hlt : part.length ≠ first.length := fun heq => hstrict (hshort.eq_of_length heq)
    rw [run_short (by omega)]
    exact ⟨rfl, fun hclean => absurd hclean.2 (by simp [codec, hphase, Phase.isLength])⟩
  · have hle := hmore.length_le
    have hlt : more.length ≠ second.length := fun heq =>
      hne (congrArg (first ++ ·) (hmore.eq_of_length heq))
    rw [run_expect (by omega) hfirst hlength, run_short (by omega)]
    exact ⟨rfl, fun hclean => absurd hclean.2 (by simp [codec, Phase.isLength])⟩

end

/-! ## The whole stream -/

/-- A stream that stops inside its header, or inside a record behind records that are not
empty. -/
inductive CutInside (header : Bytes) (payloads wires : List Bytes) (bytes : Bytes) : Prop where
  | header (part : bytes <+: header) (strict : bytes ≠ header)
  | record {before later : List Bytes} {wire part : Bytes} (wires_eq : wires = before ++ wire :: later)
      (bytes_eq : bytes = header ++ (before.flatten ++ part)) (part_le : part <+: wire)
      (some : part ≠ []) (strict : part ≠ wire)
      (full : ∀ payload ∈ payloads.take before.length, payload ≠ [])

def readAs (keys : SessionKeys) (records : Records C) (options : Options) (packet : Bool)
    (bytes : Bytes) : List Bytes × Fate (State C) :=
  (codec C).run (new keys records options packet).reader.state 18 bytes

section

variable {keys : SessionKeys} {records : Records C} {options : Options} (packet : Bool)
  {header : Bytes} {payloads wires : List Bytes} {bytes : Bytes}
  (hheader : ResponseHeader C keys options header) (hsealed : Sealed records payloads wires)

include hheader hsealed

lemma readAs_le (hbytes : bytes <+: header ++ wires.flatten) :
    (readAs keys records options packet bytes).1 <+: untilEmpty payloads := by
  rcases prefix_append_cases hbytes with ⟨hpart, hne⟩ | ⟨more, rfl, hmore⟩
  · rw [readAs, (run_header_part rfl hheader hpart hne).1]
    exact nil_prefix
  · rw [readAs, run_header rfl hheader]
    exact run_sealed ⟨rfl, rfl⟩ hsealed hmore

lemma not_clean_readAs (hcut : CutInside header payloads wires bytes) :
    ¬(codec C).Clean (readAs keys records options packet bytes).2 := by
  cases hcut with
  | header part strict => exact (run_header_part rfl hheader part strict).2
  | record wires_eq bytes_eq part_le some strict full =>
    subst wires_eq bytes_eq
    rw [readAs, run_header rfl hheader]
    exact run_cut ⟨rfl, rfl⟩ hsealed part_le some strict full

end

lemma position_new (keys : SessionKeys) (records : Records C) (options : Options)
    (packet : Bool) (inner : Inner) :
    Position (codec C) (readAs keys records options packet) inner.carrier.bytes [] []
      (new keys records options packet).reader inner :=
  .waiting rfl rfl rfl (Nat.succ_pos 17) rfl (.start _ _ _)

/-- Whatever the peer seals, and however its bytes arrive and are asked for: the reads return a
beginning of the payloads, and nothing behind an empty one. Cut inside the header or a record,
the stream never reports its end to a read that has room, and fails after finitely many of them.
Once an error is kept for the next read, all reads are errors. With a UDP target a read that
returns something returns a record, whole and in order; one that returns nothing had no room, or
has found the end. -/
theorem vmess_reads_what_was_sealed {keys : SessionKeys} {records : Records C} {options : Options}
    {packet : Bool} {header : Bytes} {payloads wires : List Bytes} {inner inner' : Inner}
    {this' : ReadState C} {calls : List ReadCall} {answers : List ReadAnswer}
    (hheader : ResponseHeader C keys options header) (hsealed : Sealed records payloads wires)
    (hbytes : inner.carrier.bytes <+: header ++ wires.flatten)
    (hreads : (new keys records options packet).reads inner calls =
      (answers, this', inner')) :
    (returned answers).flatten <+: (untilEmpty payloads).flatten ∧
    (CutInside header payloads wires inner.carrier.bytes →
      (∀ pair ∈ calls.zip answers, pair.2 = .ready (.ok []) → pair.1.room = 0) ∧
      ((∀ call ∈ calls, 0 < call.room) →
        inner.carrier.pauses + inner.carrier.bytes.length + 1 + payloads.flatten.length <
          calls.length → ∃ e, .ready (.error e) ∈ answers)) ∧
    (this'.readError ≠ none →
      ∀ later, ∀ answer ∈ (this'.reads inner' later).1, ∃ e, answer = .ready (.error e)) ∧
    (packet = true →
      (returned answers).filter (· ≠ []) <+: untilEmpty payloads ∧
      ∀ pair ∈ calls.zip answers, pair.2 = .ready (.ok []) →
        pair.1.room = 0 ∨ this'.reader.eof = true) := by
  have hposition := position_new keys records options packet inner
  have hkeeps : (new keys records options packet).reader.state.packet = packet ∧
      (new keys records options packet).Kept := ⟨rfl, fun hsome => absurd rfl hsome⟩
  have hruns := reads_of_eq hreads
  obtain ⟨⟨-, hkept⟩, new, left, hlast, hmoved, hparcels⟩ :=
    hruns.moves (readSpec _ _ packet) hkeeps hposition
  have hopened := hlast.opened_le
  have hend := hruns.ends (readSpec _ _ packet) hkeeps hposition
  have hle := readAs_le packet hheader hsealed hbytes
  rw [nil_append] at hopened hmoved
  refine ⟨?_, fun hcut => ?_, fun herror later answer hanswer => ?_, fun hpacket => ⟨?_, ?_⟩⟩
  · have hflat := (hopened.trans hle).flatten
    rw [hmoved] at hflat
    exact (prefix_append _ _).trans hflat
  · have hclean := not_clean_readAs packet hheader hsealed hcut
    refine ⟨fun pair hpair hnil => (hend pair hpair hnil).resolve_right fun h => hclean h.2.1,
      fun hroom hlong => hruns.fails (readSpec _ _ packet) hkeeps hposition
        (fun _ _ _ h => hclean h.1) hroom ?_⟩
    have hpayloads : (readAs keys records options packet inner.carrier.bytes).1.flatten.length ≤
        payloads.flatten.length :=
      (hle.trans (List.takeWhile_prefix _)).flatten.length_le
    refine Nat.lt_of_le_of_lt ?_ hlong
    show inner.carrier.pauses + inner.carrier.bytes.length + 1 + _ ≤ _
    exact Nat.add_le_add_left hpayloads _
  · exact (reads_of_eq rfl).failed (readSpec (readAs keys records options packet) [] packet)
      (hkept herror) answer hanswer
  · have hrecords : new = returnedRecords answers ++ parcels left := hparcels hpacket
    rw [hrecords] at hopened
    exact ((prefix_append _ _).trans hopened).trans hle
  · exact fun pair hpair hnil => (hend pair hpair hnil).imp id fun h => h.1

/-- A cipher that only appends a tag of zeros, and a mask of zeros. -/
def tagOnly : Crypto where
  Aead := Unit
  aead _ _ := ()
  aeadSeal _ _ plain := plain ++ List.replicate 16 0
  aeadOpen _ _ sealed :=
    if 16 ≤ sealed.length ∧ sealed.drop (sealed.length - 16) = List.replicate 16 0 then
      some (sealed.take (sealed.length - 16))
    else none
  kdf key _ := key
  shake _ _ := 0
  open_seal _ _ plain := by simp
  length_open h := by
    split at h
    · next hlong =>
      cases h
      rw [length_take]
      omega
    · cases h

def sampleKeys : SessionKeys := ⟨[], [], 7⟩

def sampleRecords : Records tagOnly := new .aes128Gcm [] [] none

def sampleHeader : Bytes :=
  toBe 2 4 ++ List.replicate 16 0 ++ ([7, 0, 0, 0] ++ List.replicate 16 0)

def sampleWires : List Bytes :=
  [[0, 18, 1, 2] ++ List.replicate 16 0, [0, 16] ++ List.replicate 16 0]

lemma responseHeader_sampleHeader :
    ResponseHeader tagOnly sampleKeys ⟨false⟩ sampleHeader := ⟨0, .inl rfl, rfl⟩

lemma sealed_sampleWires : Sealed sampleRecords [[1, 2], []] sampleWires :=
  .cons (by decide) (show sampleRecords.append [1, 2] (fun _ => 0) = .ok _ from rfl)
    (.cons (by decide) (show append _ [] (fun _ => 0) = .ok _ from rfl) (.nil _))

def sampleInner : Inner where
  carrier :=
    [.piece ⟨sampleHeader ++ [0], by decide⟩, .pause,
      .piece ⟨(sampleWires.flatten).drop 1, by decide⟩]
  broken := none

def readOf (room : Nat) : ReadCall := ⟨room, false, fun _ => none⟩

theorem vmess_reads_a_record_in_two_pieces :
    (returned ((new sampleKeys sampleRecords ⟨false⟩ false).reads sampleInner
      [readOf 1, readOf 9, readOf 9]).1).flatten <+: [1, 2] :=
  (vmess_reads_what_was_sealed responseHeader_sampleHeader sealed_sampleWires (by decide) rfl).1

/-- A UDP reader without room succeeds and returns no record, though one is there. -/
theorem vmess_read_without_room : Sealed sampleRecords [[1, 2], []] sampleWires ∧
    sampleInner.carrier.bytes = sampleHeader ++ sampleWires.flatten ∧
    ((new sampleKeys sampleRecords ⟨false⟩ true).reads sampleInner [readOf 0]).1 =
      [.ready (.ok [])] :=
  ⟨sealed_sampleWires, rfl, rfl⟩

end Xray.Vmess
