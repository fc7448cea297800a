import Xray.Proofs.RecordReader
import Xray.Shadowsocks.Stream

/-!
# Shadowsocks streams give what was sealed, and end only where it ends

A read is a few turns of the record reader, so a sequence of reads keeps the reader's position in
the whole stream (`reads_spec`). What remains is to say what a whole stream is read as.

* **Nonces.** A session's nonces count up from zero and are never used twice, since the counter
  stops when it is used up. So a nonce tells how many things were sealed before
  (`Records.sealChunks_get`).

* **What opens.** A cipher is assumed to open only what was sealed under its key. The reader's
  counter then says that the `k`-th thing it opens is the `k`-th the peer sealed (`open_at`).

* **Records.** Lengths and payloads alternate, so the plaintexts are the payloads in order, the
  bytes they were read from are the peer's own, and they may end only between records
  (`run_start`).
-/

namespace Xray.Shadowsocks

open List hiding after
open Bytes Fallible RecordCodec
open Xray.Proxy Client Codec Records

variable {C : StreamCrypto} {client : Client}

section

variable {read : Bytes → List Bytes × RecordCodec.Fate (State C)} {all : Bytes}
  {opened : List Bytes} {left : Bytes} {this this' : Reader (State C)} {inner inner' : Inner}
  {call : ReadCall} {answer : ReadAnswer} {calls : List ReadCall} {answers : List ReadAnswer}

lemma pollRead_spec (this : Reader (State C))
    (h : Position (codec C client) read all opened left this inner)
    (hpoll : client.pollRead this inner call = (answer, this', inner')) :
    inner'.broken = inner.broken ∧
    TellsRead (codec C client) this inner this' inner' call.room answer ∧
    (∀ e, answer = .ready (.error e) → this'.failed) ∧
    ∃ opened' left', Position (codec C client) read all opened' left' this' inner' ∧
      Moved False opened left (answered (some answer)) opened' left' := by
  rw [pollRead] at hpoll
  split at hpoll
  · next hfailed =>
    cases hpoll
    exact ⟨rfl, trivial, fun _ _ => hfailed, opened, left, h, Moved.refl _ _⟩
  next hfailed =>
  rw [Bool.not_eq_true] at hfailed
  split at hpoll
  · next hnone =>
    cases hpoll
    exact ⟨rfl, ⟨fun _ => hnone.imp id fun heof => ⟨heof, hfailed⟩, fun _ _ => Nat.le_refl _⟩,
      nofun, opened, left, h, Moved.refl _ _⟩
  next hsome =>
  have heof : this.eof = false := by
    rw [← Bool.not_eq_true]
    exact fun heof => hsome (.inr heof)
  have hroom : 0 < call.room := Nat.pos_of_ne_zero fun hroom => hsome (.inl hroom)
  split at hpoll
  · cases hpoll
    exact ⟨rfl, trivial, fun _ _ => rfl, opened, left, .failed rfl h.seen, Moved.refl _ _⟩
  split at hpoll
  next found this₁ inner₁ hloop =>
  cases hpoll
  obtain ⟨hbroken, opened', left', hposition, hmoved, htells⟩ :=
    loop_spec hroom hroom h hfailed heof hloop
  cases found with
  | none => exact ⟨hbroken, htells, nofun, opened', left', hposition, hmoved.imp False.elim⟩
  | some answer =>
    refine ⟨hbroken, ?_, ?_, opened', left', hposition, hmoved.imp False.elim⟩
    · cases answer with
      | pending => exact htells
      | ready result =>
        cases result with
        | ok got => exact ⟨fun hnil => .inr ⟨htells.2.1.mp hnil, htells.1⟩, fun _ => htells.2.2.2⟩
        | error e => trivial
    · rintro e rfl
      exact htells.resolve_right fun hpacket => absurd hpacket.1 (by simp)

lemma read_spec (h : Position (codec C client) read all opened left this inner)
    (hread : client.read this inner call = (answer, this', inner')) :
    inner'.broken = inner.broken ∧
    TellsRead (codec C client) this inner this' inner' call.room answer ∧
    (∀ e, answer = .ready (.error e) → this'.failed) ∧
    ∃ opened' left', Position (codec C client) read all opened' left' this' inner' ∧
      Moved False opened left (answered (some answer)) opened' left' := by
  rw [Client.read] at hread
  split at hread
  · exact pollRead_spec { this with failed := true } (.failed rfl h.seen) hread
  · exact pollRead_spec this h hread

lemma read_failed (hfailed : this.failed)
    (hread : client.read this inner call = (answer, this', inner')) :
    (∃ e, answer = .ready (.error e)) ∧ this'.failed := by
  have hstill : (if call.writeFailed then { this with failed := true } else this).failed = true := by
    split
    · rfl
    · exact hfailed
  rw [Client.read, Client.pollRead, if_pos hstill] at hread
  cases hread
  exact ⟨⟨_, rfl⟩, hstill⟩

lemma read_eof (heof : this.eof) (hread : client.read this inner call = (answer, this', inner')) :
    answered (some answer) = [] ∧ this'.eof := by
  have hpoll : ∀ this : Reader (State C), this.eof = true →
      client.pollRead this inner call = (answer, this', inner') →
        answered (some answer) = [] ∧ this'.eof = true := by
    intro this heof hpoll
    rw [pollRead, if_pos (Or.inr heof)] at hpoll
    split at hpoll <;> cases hpoll <;> exact ⟨rfl, heof⟩
  rw [Client.read] at hread
  split at hread
  · exact hpoll { this with failed := true } heof hread
  · exact hpoll this heof hread

lemma readSpec (read : Bytes → List Bytes × RecordCodec.Fate (State C)) (all : Bytes)
    (broken : Option IoError) : ReadSpec (codec C client) read all False
    (fun this => this) ReadCall.room (fun _ inner => inner.broken = broken) client.read where
  moves hkeeps h hread := by
    obtain ⟨hbroken, htells, -, hrest⟩ := read_spec h hread
    exact ⟨hbroken.trans hkeeps, htells, hrest⟩
  failed := read_failed
  eof := read_eof

lemma reads_of_eq (h : client.reads this inner calls = (answers, this', inner')) :
    Reads client.read this inner calls answers this' inner' := by
  induction calls generalizing this inner answers with
  | nil =>
    cases h
    exact .nil
  | cons call calls ih =>
    rw [reads] at h
    split at h
    next hread =>
    split at h
    next hrest =>
    cases h
    exact .cons hread (ih hrest)

lemma reads_after_error {before later : List ReadAnswer} {e : IoError}
    (h : Reads client.read this inner calls answers this' inner')
    (hposition : Position (codec C client) read all opened left this inner)
    (hsplit : answers = before ++ .ready (.error e) :: later) :
    ∀ answer ∈ later, ∃ e', answer = .ready (.error e') := by
  induction h generalizing opened left before with
  | nil => simp at hsplit
  | cons hread hrest ih =>
    obtain ⟨-, -, herror, opened₁, left₁, hposition', -⟩ := read_spec hposition hread
    cases before with
    | nil =>
      obtain ⟨rfl, rfl⟩ := List.cons.inj hsplit
      exact hrest.failed (readSpec read all none) (herror e rfl)
    | cons first before => exact ih hposition' (List.cons.inj hsplit).2

end

/-- The number whose bytes these are, lowest first. -/
def ofLe : Bytes → Nat
  | [] => 0
  | b :: rest => b.toNat + 256 * ofLe rest

lemma ofLe_replicate (n : Nat) : ofLe (List.replicate n 0) = 0 := by
  induction n with
  | zero => rfl
  | succ n ih =>
    rw [replicate_succ, ofLe, ih]
    rfl

lemma ofLe_increment {bytes : Bytes} (h : (increment bytes).2 = false) :
    ofLe (increment bytes).1 = ofLe bytes + 1 := by
  induction bytes with
  | nil => exact absurd h (by simp [increment])
  | cons n rest ih =>
    have hn := n.toNat_lt
    rw [increment] at h ⊢
    split at h
    · next hne =>
      rw [if_pos hne]
      have hsum : (n + 1).toNat = (n.toNat + 1) % 256 := UInt8.toNat_add n 1
      have hzero : (n + 1).toNat ≠ 0 := fun h => hne (UInt8.toNat_inj.mp h)
      simp only [ofLe]
      omega
    next heq =>
    rw [if_neg heq]
    have hsum : (n + 1).toNat = (n.toNat + 1) % 256 := UInt8.toNat_add n 1
    have hzero : (n + 1).toNat = 0 := by
      rw [Decidable.not_not.mp heq]
      rfl
    have hrest := ih h
    simp only [ofLe]
    show 0 + _ = _
    omega

/-- Something sealed: with which nonce, what, and what came out. -/
structure Chunk where
  nonce : Bytes
  plain : Bytes
  wire : Bytes
deriving DecidableEq

def Records.sealChunks (client : Client) : Records C → List Bytes → Except IoError (List Chunk)
  | _, [] => .ok []
  | records, plain :: plains => do
    let (wire, next) ← records.sealFrom client plain
    let chunks ← next.sealChunks client plains
    return ⟨records.nonce, plain, wire⟩ :: chunks

/-- A record is sealed as its length and its payload. -/
def record (payload : Bytes) : List Bytes := [toBe 2 payload.length, payload]

/-- What is sealed for the payloads. Under a 2022 method the header stands in for the length of
the first payload. -/
def Client.plains (header : Bytes) (payloads : List Bytes) : Client → List Bytes
  | .edition2022 _ _ _ =>
    match payloads with
    | [] => [header]
    | first :: rest => header :: first :: rest.flatMap record
  | .classic _ => payloads.flatMap record

/-- The number of payloads before the first place where the bytes may end. -/
def Client.least : Client → Nat
  | .edition2022 _ _ _ => 1
  | .classic _ => 0

/-- A peer that seals payloads under the key of a salt. Under this key nothing else opens. -/
structure Peer (C : StreamCrypto) (client : Client) (salt : Bytes) where
  header : Bytes
  payloads : List Bytes
  chunks : List Chunk
  length_salt : salt.length = client.saltLen
  small : ∀ payload ∈ payloads, payload.length < 2 ^ 16
  chunks_eq :
    (new C client salt).sealChunks client (client.plains header payloads) = .ok chunks
  opens : ∀ {nonce sealed plain}, C.aeadOpen (client.key C salt) nonce sealed = some plain →
    ⟨nonce, plain, sealed⟩ ∈ chunks

lemma Records.sealChunks_get {records : Records C} {plains : List Bytes} {chunks : List Chunk}
    {i : Nat} {chunk : Chunk} (h : records.sealChunks client plains = .ok chunks)
    (hchunk : chunks[i]? = some chunk) :
    plains[i]? = some chunk.plain ∧ ofLe chunk.nonce = ofLe records.nonce + i := by
  induction plains generalizing records chunks i with
  | nil =>
    cases h
    simp at hchunk
  | cons plain plains ih =>
    obtain ⟨⟨wire, following⟩, hseal, h⟩ := bind_eq_ok.mp h
    obtain ⟨rest, hrest, h⟩ := bind_eq_ok.mp h
    cases h
    cases i with
    | zero =>
      cases hchunk
      exact ⟨rfl, rfl⟩
    | succ i =>
      obtain ⟨hplain, hnonce⟩ := ih hrest hchunk
      refine ⟨hplain, ?_⟩
      -- the counter was not used up, for something has been sealed after it
      have hmore : following.exhausted = false := by
        cases plains with
        | nil => simp at hplain
        | cons plain' plains =>
          obtain ⟨⟨wire', following'⟩, hseal', -⟩ := bind_eq_ok.mp hrest
          obtain ⟨_, hnext, -⟩ := bind_eq_ok.mp hseal'
          rw [next] at hnext
          split at hnext
          · cases hnext
          · next hmore => exact Bool.not_eq_true _ ▸ hmore
      obtain ⟨⟨nonce, following'⟩, hnext, hseal⟩ := bind_eq_ok.mp hseal
      cases hseal
      rw [next] at hnext
      split at hnext
      · cases hnext
      cases hnext
      have hcount : ofLe (increment records.nonce).1 = ofLe records.nonce + 1 :=
        ofLe_increment hmore
      rw [hnonce, hcount]
      omega

/-! ## Lengths and payloads alternate -/

lemma flatMap_record_even (payloads : List Bytes) (k : Nat) :
    (payloads.flatMap record)[2 * k]? = payloads[k]?.map (fun p => toBe 2 p.length) := by
  induction payloads generalizing k with
  | nil => rfl
  | cons payload payloads ih =>
    cases k with
    | zero => rfl
    | succ k => exact ih k

lemma flatMap_record_odd (payloads : List Bytes) (k : Nat) :
    (payloads.flatMap record)[2 * k + 1]? = payloads[k]? := by
  induction payloads generalizing k with
  | nil => rfl
  | cons payload payloads ih =>
    cases k with
    | zero => rfl
    | succ k => exact ih k

lemma Client.plains_even (client : Client) (header : Bytes) (payloads : List Bytes) {k : Nat}
    (hk : client.least ≤ k) :
    (client.plains header payloads)[2 * k]? = payloads[k]?.map (fun p => toBe 2 p.length) := by
  cases client with
  | classic => exact flatMap_record_even payloads k
  | edition2022 =>
    obtain ⟨k, rfl⟩ : ∃ j, k = j + 1 := ⟨k - 1, (Nat.sub_add_cancel hk).symm⟩
    cases payloads with
    | nil => rfl
    | cons first rest => exact flatMap_record_even rest k

lemma Client.plains_odd (client : Client) (header : Bytes) (payloads : List Bytes) (k : Nat) :
    (client.plains header payloads)[2 * k + 1]? = payloads[k]? := by
  cases client with
  | classic => exact flatMap_record_odd payloads k
  | edition2022 =>
    cases payloads with
    | nil => rfl
    | cons first rest =>
      cases k with
      | zero => rfl
      | succ k => exact flatMap_record_odd rest k

/-! ## What a stream is read as -/

section

variable {salt : Bytes} (peer : Peer C client salt)

/-- The salt and the first things sealed, as they are on the wire. -/
def Peer.wire (n : Nat) : Bytes := salt ++ ((peer.chunks.take n).map Chunk.wire).flatten

variable {k : Nat} {reader : Records C}

lemma Peer.wire_succ {chunk : Chunk} (h : peer.chunks[k]? = some chunk) :
    peer.wire (k + 1) = peer.wire k ++ chunk.wire := by
  rw [Peer.wire, Peer.wire, take_add_one, h]
  simp

/-- A reader that has opened as many things as have been sealed before the `k`-th one. -/
def Stands (client : Client) (salt : Bytes) (reader : Records C) (k : Nat) : Prop :=
  reader.aead = client.key C salt ∧ (reader.exhausted = false → ofLe reader.nonce = k)

lemma stands_new (salt : Bytes) : Stands client salt (new C client salt) 0 :=
  ⟨rfl, fun _ => ofLe_replicate _⟩

lemma Peer.open_at {reader' : Records C} {sealed plain : Bytes}
    (hat : Stands client salt reader k) (h : reader.open client sealed = .ok (plain, reader')) :
    peer.chunks[k]? = some ⟨reader.nonce, plain, sealed⟩ ∧ Stands client salt reader' (k + 1) := by
  obtain ⟨haead, hnonce⟩ := hat
  obtain ⟨hmore, hopen, rfl⟩ := open_eq_ok h
  rw [haead] at hopen
  obtain ⟨i, hi⟩ := mem_iff_getElem?.mp (peer.opens hopen)
  have hplace := (sealChunks_get peer.chunks_eq hi).2
  have hstart : ofLe (new C client salt).nonce = 0 := ofLe_replicate _
  obtain rfl : i = k := by
    have := hnonce hmore
    dsimp only at hplace
    omega
  refine ⟨hi, haead, fun hmore' => ?_⟩
  rw [← hnonce hmore]
  exact ofLe_increment hmore'

/-- The result of reading `bytes` is the payloads of the peer's first `m` records, and these are
what `bytes` begin with. If they may end so, they end there, or an empty record is next. -/
def Peer.Read (bytes : Bytes) (m : Nat)
    (result : List Bytes × RecordCodec.Fate (State C)) : Prop :=
  result.1 = peer.payloads.take m ∧ m ≤ peer.payloads.length ∧ peer.wire (2 * m) <+: bytes ∧
  ((codec C client).Clean result.2 →
    bytes = peer.wire (2 * m) ∧ client.least ≤ m ∧ result.2 ≠ .ended ∨
    (∃ method, client = .classic method) ∧ peer.payloads[m]? = some [] ∧
      peer.wire (2 * m + 1) <+: bytes)

lemma Peer.read_here {bytes : Bytes} {result : List Bytes × RecordCodec.Fate (State C)}
    (hk : k ≤ peer.payloads.length) (hnone : result.1 = [])
    (hclean : ¬(codec C client).Clean result.2) :
    peer.Read (peer.wire (2 * k) ++ bytes) k (after (peer.payloads.take k) result) := by
  refine ⟨?_, hk, prefix_append _ _, fun h => absurd h hclean⟩
  rw [after, hnone, append_nil]

/-- Reading goes no further than a payload, or it is the peer's. -/
lemma Peer.run_payload {n : Nat} (hat : Stands client salt reader (2 * k + 1)) (hn : 0 < n)
    (bytes : Bytes) :
    (((codec C client).run (.payload reader) n bytes).1 = [] ∧
      ¬(codec C client).Clean ((codec C client).run (.payload reader) n bytes).2) ∨
    ∃ chunk rest reader', bytes = chunk.wire ++ rest ∧ 0 < chunk.wire.length ∧
      peer.chunks[2 * k + 1]? = some chunk ∧
      peer.payloads[k]? = some chunk.plain ∧ Stands client salt reader' (2 * (k + 1)) ∧
      (codec C client).run (.payload reader) n bytes =
        after [chunk.plain] ((codec C client).run (.length reader') (2 + tagLength) rest) := by
  rcases short_or_frame n bytes with hshort | ⟨frame, rest, rfl, hframe⟩
  · rw [run_short hshort]
    exact .inl ⟨rfl, fun h => absurd h.2 (by simp [codec, State.isLength])⟩
  cases hprocess : processBody client (.payload reader) frame with
  | error e =>
    rw [run_error hn hframe hprocess]
    exact .inl ⟨rfl, id⟩
  | ok reading =>
    cases processBody_spec hprocess with
    | payload read =>
      obtain ⟨hchunk, hat'⟩ := peer.open_at hat read
      rw [run_opened hn hframe hprocess]
      have hplain := (sealChunks_get peer.chunks_eq hchunk).1
      rw [plains_odd] at hplain
      exact .inr ⟨_, rest, _, rfl, by rw [hframe]; exact hn, hchunk, hplain, hat', rfl⟩

/-- A record's length that is zero is that of an empty payload. -/
lemma empty_of_length {payload : Bytes} (hsmall : payload.length < 2 ^ 16)
    (h : ofBe ((toBe 2 payload.length).take 2) = 0) : payload = [] := by
  have hlength : (toBe 2 payload.length).length = 2 := rfl
  rw [take_of_length_le (Nat.le_of_eq hlength), ofBe_toBe] at h
  refine eq_nil_of_length_eq_zero ?_
  omega

/-- From a record's length on. The induction is on the bytes: each record uses some. -/
lemma Peer.run_length (hleast : client.least ≤ k) (hk : k ≤ peer.payloads.length)
    (hat : Stands client salt reader (2 * k)) (bytes : Bytes) :
    ∃ m, peer.Read (peer.wire (2 * k) ++ bytes) m (after (peer.payloads.take k)
      ((codec C client).run (.length reader) (2 + tagLength) bytes)) := by
  have hn : 0 < 2 + tagLength := by decide
  induction hlength : bytes.length using Nat.strong_induction_on generalizing k reader bytes with
  | _ size ih =>
  rcases short_or_frame (2 + tagLength) bytes with hshort | ⟨frame, rest, rfl, hframe⟩
  · rw [run_short hshort]
    refine ⟨k, by rw [after, append_nil], hk, prefix_append _ _, fun hclean => .inl ?_⟩
    obtain rfl : bytes = [] := hclean.1
    exact ⟨append_nil _, hleast, by simp [after]⟩
  cases hprocess : processBody client (.length reader) frame with
  | error e =>
    rw [run_error hn hframe hprocess]
    exact ⟨k, peer.read_here hk rfl id⟩
  | ok reading =>
    cases processBody_spec hprocess with
    | length read =>
      obtain ⟨hchunk, hat'⟩ := peer.open_at hat read
      rw [run_expect hn hframe hprocess]
      rcases peer.run_payload hat' (expect_pos hprocess) rest with
        hnone | ⟨chunk, rest', reader'', rfl, hpos, hchunk', hpayload, hat'', hrun⟩
      · exact ⟨k, peer.read_here hk hnone.1 hnone.2⟩
      have htake : peer.payloads.take k ++ [chunk.plain] = peer.payloads.take (k + 1) := by
        rw [take_add_one, hpayload]
        rfl
      have hwire : peer.wire (2 * k) ++ (frame ++ (chunk.wire ++ rest')) =
          peer.wire (2 * (k + 1)) ++ rest' := by
        have hboth : peer.wire (2 * (k + 1)) = peer.wire (2 * k) ++ frame ++ chunk.wire := by
          rw [show 2 * (k + 1) = 2 * k + 1 + 1 from rfl, peer.wire_succ hchunk',
            peer.wire_succ hchunk]
        rw [hboth, append_assoc, append_assoc]
      rw [hrun, after_after, htake, hwire]
      have hk' : k < peer.payloads.length := (List.getElem_of_getElem? hpayload).1
      rw [length_append, length_append] at hlength
      exact ih rest'.length (by omega) (by omega) hk' hat'' rest' rfl
    | ended kind read zero =>
      obtain ⟨hchunk, -⟩ := peer.open_at hat read
      have hplain := (sealChunks_get peer.chunks_eq hchunk).1
      rw [plains_even _ _ _ hleast] at hplain
      obtain ⟨payload, hpayload, hfield⟩ := Option.map_eq_some_iff.mp hplain
      dsimp only at hfield
      rw [← hfield] at zero
      obtain rfl := empty_of_length (peer.small _ (mem_of_getElem? hpayload)) zero
      rw [run_ended hn hframe hprocess]
      refine ⟨k, by rw [after, append_nil], hk, prefix_append _ _, fun _ =>
        .inr ⟨⟨_, kind⟩, hpayload, ?_⟩⟩
      rw [peer.wire_succ hchunk, ← append_assoc]
      exact prefix_append _ _

lemma Peer.run_start {bytes : Bytes} (hsalt : bytes.take client.saltLen <+: salt) :
    (((codec C client).run .start client.firstLen bytes).1 = [] ∧
      ¬(codec C client).Clean ((codec C client).run .start client.firstLen bytes).2) ∨
    ∃ m, peer.Read bytes m ((codec C client).run .start client.firstLen bytes) := by
  have hn : 0 < client.firstLen := client.firstLen_pos
  rcases short_or_frame client.firstLen bytes with hshort | ⟨frame, rest, rfl, hframe⟩
  · rw [run_short hshort]
    exact .inl ⟨rfl, fun h => absurd h.2 (by simp [codec, State.isLength])⟩
  have hle := client.saltLen_le
  have hfront : frame.take client.saltLen = salt := by
    rw [take_append_of_le_length (by omega)] at hsalt
    refine hsalt.eq_of_length ?_
    rw [length_take, peer.length_salt]
    omega
  have hzero : peer.wire 0 = salt := by
    rw [Peer.wire, take_zero, map_nil, flatten_nil, append_nil]
  cases hprocess : processBody client (.start : State C) frame with
  | error e =>
    rw [run_error hn hframe hprocess]
    exact .inl ⟨rfl, id⟩
  | ok reading =>
    cases processBody_spec hprocess with
    | salt kind =>
      have hlen : client.firstLen = client.saltLen := by rw [kind]; rfl
      rw [take_of_length_le (by omega)] at hfront
      obtain ⟨m, hread⟩ := peer.run_length (k := 0) (by rw [kind]; exact Nat.le_refl 0)
        (Nat.zero_le _) (stands_new salt) rest
      rw [hzero] at hread
      rw [run_expect hn hframe hprocess, hfront]
      exact .inr ⟨m, hread⟩
    | header kind read small =>
      rw [hfront] at read
      obtain ⟨hchunk, hat⟩ := peer.open_at (stands_new salt) read
      rw [run_expect hn hframe hprocess]
      rcases peer.run_payload (k := 0) hat (expect_pos hprocess) rest with
        hnone | ⟨chunk, rest', reader', rfl, -, hchunk', hpayload, hat', hrun⟩
      · exact .inl hnone
      have hone : [chunk.plain] = peer.payloads.take 1 := by
        rw [take_add_one, hpayload]
        rfl
      have hwire : frame ++ (chunk.wire ++ rest') = peer.wire (2 * 1) ++ rest' := by
        rw [peer.wire_succ hchunk', peer.wire_succ hchunk, hzero, append_assoc, append_assoc]
        rw [← append_assoc salt, ← hfront, take_append_drop]
      rw [hrun, hone, hwire]
      exact .inr (peer.run_length (by rw [kind]; exact Nat.le_refl 1)
        (List.getElem_of_getElem? hpayload).1 hat' rest')

/-- The stream has a clean end behind its first `m` records: it ends there, or an empty record of
a classic method is next. -/
def Peer.EndsAfter (inner : Inner) (m : Nat) : Prop :=
  client.least ≤ m ∧ m ≤ peer.payloads.length ∧ inner.carrier.bytes = peer.wire (2 * m) ∧
    inner.broken = none ∨
  (∃ method, client = .classic method) ∧ peer.payloads[m]? = some [] ∧
    peer.wire (2 * m + 1) <+: inner.carrier.bytes

end

def readAs (C : StreamCrypto) (client : Client) (bytes : Bytes) : List Bytes × RecordCodec.Fate (State C) :=
  (codec C client).run .start client.firstLen bytes

lemma position_new (C : StreamCrypto) (client : Client) (inner : Inner) :
    Position (codec C client) (readAs C client) inner.carrier.bytes [] [] (new C client) inner :=
  .waiting rfl rfl rfl client.firstLen_pos rfl (.start _ _ _)

section

variable {salt : Bytes} {inner : Inner} (peer : Peer C client salt)
  (hsalt : inner.carrier.bytes.take client.saltLen <+: salt)

include hsalt

lemma Peer.endsAfter (hclean : (codec C client).Clean (readAs C client inner.carrier.bytes).2)
    (hsound : (readAs C client inner.carrier.bytes).2 = .ended ∨ inner.broken = none) :
    ∃ m, peer.EndsAfter inner m ∧
      (readAs C client inner.carrier.bytes).1 = peer.payloads.take m := by
  rcases peer.run_start hsalt with hnone | ⟨m, hpayloads, hm, -, hends⟩
  · exact absurd hclean hnone.2
  refine ⟨m, ?_, hpayloads⟩
  rcases hends hclean with ⟨hbytes, hleast, hnot⟩ | hempty
  · exact .inl ⟨hleast, hm, hbytes, hsound.resolve_left hnot⟩
  · exact .inr hempty

lemma Peer.readAs_le : (readAs C client inner.carrier.bytes).1 <+: peer.payloads := by
  rcases peer.run_start hsalt with hnone | ⟨m, hpayloads, -⟩
  · rw [readAs, hnone.1]
    exact List.nil_prefix
  · rw [readAs, hpayloads]
    exact List.take_prefix m _

/-- What has been opened of a stream is the peer's first records, and all their bytes are
among those that have come. -/
lemma Peer.seen {inner' : Inner} {opened : List Bytes}
    (hseen : Seen (codec C client) (readAs C client) inner.carrier.bytes opened inner') :
    ∃ m arrived, m ≤ peer.payloads.length ∧ arrived ++ inner'.carrier.bytes = inner.carrier.bytes ∧
      (0 < m → peer.wire (2 * m) <+: arrived) ∧ opened = peer.payloads.take m := by
  obtain ⟨s, n, held, consumed, hall, hread⟩ := hseen
  have harrived : consumed ++ held ++ inner'.carrier.bytes = inner.carrier.bytes := by
    rw [append_assoc, hall]
  have hopened : (readAs C client consumed).1 = opened := by
    have := hread []
    rw [append_nil, run_nil] at this
    rw [this, after, append_nil]
  have hsalt' : consumed.take client.saltLen <+: salt := by
    refine List.IsPrefix.trans ?_ hsalt
    rw [← hall]
    exact (prefix_append _ _).take _
  rcases peer.run_start hsalt' with hnone | ⟨m, hpayloads, hm, hwire, -⟩
  · refine ⟨0, consumed ++ held, Nat.zero_le _, harrived, by simp, ?_⟩
    rw [← hopened, readAs, hnone.1, take_zero]
  · exact ⟨m, consumed ++ held, hm, harrived, fun _ => hwire.trans (prefix_append _ _),
      by rw [← hopened, readAs, hpayloads]⟩

end

/-- However the bytes of a stream arrive and are asked for: the reads return a beginning of the
payloads the peer sealed, from records that have come and opened as a whole. A read that has room
and returns nothing has found a clean end, and all before it has been returned. Where a frame
does not open, or the stream has no clean end, no read with room reports an end, and before long
one fails. After a failure all reads fail. -/
theorem shadowsocks_reads_what_was_sealed {salt : Bytes} {inner inner' : Inner}
    {this' : Reader (State C)} {calls : List ReadCall} {answers : List ReadAnswer}
    (peer : Peer C client salt) (hsalt : inner.carrier.bytes.take client.saltLen <+: salt)
    (hreads : client.reads (new C client) inner calls = (answers, this', inner')) :
    (∃ m arrived, m ≤ peer.payloads.length ∧
      arrived ++ inner'.carrier.bytes = inner.carrier.bytes ∧
      (0 < m → peer.wire (2 * m) <+: arrived) ∧
      (returned answers).flatten <+: (peer.payloads.take m).flatten) ∧
    (∀ pair ∈ calls.zip answers, pair.2 = .ready (.ok []) → pair.1.room = 0 ∨
      ∃ m, peer.EndsAfter inner m ∧
        (returned answers).flatten = (peer.payloads.take m).flatten) ∧
    ((readAs C client inner.carrier.bytes).2 = .failed ∨ (¬∃ m, peer.EndsAfter inner m) →
      (∀ pair ∈ calls.zip answers, pair.2 = .ready (.ok []) → pair.1.room = 0) ∧
      ((∀ call ∈ calls, 0 < call.room) →
        inner.carrier.pauses + inner.carrier.bytes.length + 1 + peer.payloads.flatten.length <
          calls.length → ∃ e, .ready (.error e) ∈ answers)) ∧
    ∀ before e later, answers = before ++ .ready (.error e) :: later →
      ∀ answer ∈ later, ∃ e', answer = .ready (.error e') := by
  have hposition := position_new C client inner
  have hruns := reads_of_eq hreads
  have hend := hruns.ends (readSpec _ _ inner.broken) rfl hposition
  refine ⟨?_, fun pair hpair hnil => ?_, fun hbad => ?_, fun before e later hsplit =>
    reads_after_error hruns hposition hsplit⟩
  · obtain ⟨-, new, left, hposition', hmoved, -⟩ :=
      hruns.moves (readSpec _ _ inner.broken) rfl hposition
    obtain ⟨m, arrived, hm, harrived, hwire, hpayloads⟩ := peer.seen hsalt hposition'.seen
    rw [nil_append] at hpayloads hmoved
    refine ⟨m, arrived, hm, harrived, hwire, ?_⟩
    rw [← hpayloads, hmoved]
    exact prefix_append _ _
  · refine (hend pair hpair hnil).imp id fun hfound => ?_
    obtain ⟨-, hclean, ⟨-, i, hbroken, hsound⟩, new, hall, hmoved⟩ := hfound
    rw [hbroken] at hsound
    obtain ⟨m, hends, hpayloads⟩ := peer.endsAfter hsalt hclean hsound
    rw [nil_append] at hall hmoved
    refine ⟨m, hends, ?_⟩
    rw [← hpayloads, hall, hmoved]
  have hno : ¬((codec C client).Clean (readAs C client inner.carrier.bytes).2 ∧
      ((readAs C client inner.carrier.bytes).2 = .ended ∨ inner.broken = none)) := by
    rintro ⟨hclean, hsound⟩
    rcases hbad with hfailed | hnowhere
    · rw [hfailed] at hclean
      exact hclean
    · obtain ⟨m, hends, -⟩ := peer.endsAfter hsalt hclean hsound
      exact hnowhere ⟨m, hends⟩
  have hnever : ∀ (_ : Reader (State C)) (i : Inner), i.broken = inner.broken →
      ¬((codec C client).Clean (readAs C client inner.carrier.bytes).2 ∧
        ((readAs C client inner.carrier.bytes).2 = .ended ∨ i.broken = none)) := by
    intro _ i hbroken
    rw [hbroken]
    exact hno
  refine ⟨fun pair hpair hnil => (hend pair hpair hnil).resolve_right fun h => ?_,
    fun hroom hlong => hruns.fails (readSpec _ _ inner.broken) rfl hposition hnever hroom ?_⟩
  · obtain ⟨-, hclean, ⟨t, i, hbroken, hsound⟩, -⟩ := h
    exact hnever t i hbroken ⟨hclean, hsound⟩
  have hpayloads := (peer.readAs_le hsalt).flatten.length_le
  refine Nat.lt_of_le_of_lt ?_ hlong
  show inner.carrier.pauses + inner.carrier.bytes.length + 1 + _ ≤ _
  exact Nat.add_le_add_left hpayloads _

/-- Two chunks under the first two nonces. -/
def sampleChunks (first : Bytes) : List Chunk :=
  [⟨List.replicate 12 0, first, first ++ List.replicate 16 0⟩,
    ⟨1 :: List.replicate 11 0, [7], [7] ++ List.replicate 16 0⟩]

/-- A cipher that opens nothing else. -/
def sampleCrypto (first : Bytes) : StreamCrypto where
  Aead := Unit
  session _ _ := ()
  subkey _ _ := ()
  aeadSeal _ _ plain := plain ++ List.replicate 16 0
  aeadOpen _ nonce sealed :=
    ((sampleChunks first).find? fun chunk => chunk.nonce = nonce ∧ chunk.wire = sealed).map
      Chunk.plain
  length_open h := by
    obtain ⟨chunk, hfind, rfl⟩ := Option.map_eq_some_iff.mp h
    have hwire := find?_some hfind
    have hmem := mem_of_find?_eq_some hfind
    simp only [decide_eq_true_eq] at hwire
    rw [← hwire.2]
    simp only [sampleChunks, mem_cons, not_mem_nil, or_false] at hmem
    rcases hmem with rfl | rfl <;> exact length_append

def samplePeer (client : Client) (first : Bytes) (hsalt : 16 = client.saltLen)
    (hchunks : (new (sampleCrypto first) client (List.replicate 16 9)).sealChunks client
      (client.plains first [[7]]) = .ok (sampleChunks first)) :
    Peer (sampleCrypto first) client (List.replicate 16 9) where
  header := first
  payloads := [[7]]
  chunks := sampleChunks first
  length_salt := hsalt
  small payload hpayload := by
    cases mem_singleton.mp hpayload
    decide
  chunks_eq := hchunks
  opens {nonce sealed plain} h := by
    obtain ⟨chunk, hfind, rfl⟩ := Option.map_eq_some_iff.mp h
    have hchunk := find?_some hfind
    simp only [decide_eq_true_eq] at hchunk
    obtain ⟨rfl, rfl⟩ := hchunk
    exact mem_of_find?_eq_some hfind

def sampleInner (first : Bytes) : Inner where
  carrier :=
    [.piece ⟨9 :: List.replicate 15 9 ++ first, by simp⟩, .pause,
      .piece ⟨0 :: List.replicate 15 0 ++ ([7] ++ List.replicate 16 0), by decide⟩]
  broken := none

def sampleReads (client : Client) (first : Bytes) :=
  client.reads (new (sampleCrypto first) client) (sampleInner first)
    [⟨4, false, none⟩, ⟨4, false, none⟩]

def classicClient : Client := .classic ⟨.aes128Gcm, []⟩

def modernClient : Client := .edition2022 ⟨.aes128Gcm, [[]], by decide⟩ (List.replicate 16 8) (.ok 5)

/-- The response's type, its time, the salt of the request and the length of the payload. -/
def modernHeader : Bytes := 1 :: toBe 8 5 ++ List.replicate 16 8 ++ [0, 1]

/-- A payload of one byte, by a classic method and by one of 2022. -/
theorem shadowsocks_reads_a_record_in_two_pieces :
    ((returned (sampleReads classicClient [0, 1]).1).flatten = [7] ∧
      ∃ m arrived, m ≤ 1 ∧
        arrived ++ (sampleReads classicClient [0, 1]).2.2.carrier.bytes =
          (sampleInner [0, 1]).carrier.bytes ∧
        (0 < m → (samplePeer classicClient [0, 1] rfl rfl).wire (2 * m) <+: arrived) ∧
        (returned (sampleReads classicClient [0, 1]).1).flatten <+: ([[7]].take m).flatten) ∧
    (returned (sampleReads modernClient modernHeader).1).flatten = [7] ∧
      ∃ m arrived, m ≤ 1 ∧
        arrived ++ (sampleReads modernClient modernHeader).2.2.carrier.bytes =
          (sampleInner modernHeader).carrier.bytes ∧
        (0 < m → (samplePeer modernClient modernHeader rfl rfl).wire (2 * m) <+: arrived) ∧
        (returned (sampleReads modernClient modernHeader).1).flatten <+: ([[7]].take m).flatten :=
  ⟨⟨by decide +kernel, (shadowsocks_reads_what_was_sealed
      (samplePeer classicClient [0, 1] rfl rfl) (by decide) rfl).1⟩,
    by decide +kernel, (shadowsocks_reads_what_was_sealed
      (samplePeer modernClient modernHeader rfl rfl) (by decide) rfl).1⟩

end Xray.Shadowsocks
