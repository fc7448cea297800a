import Xray.Lib.Fallible
import Xray.Proxy.RecordReader
import Xray.Shadowsocks.Send

/-!
# Reading Shadowsocks streams (`shadowsocks2022/stream.rs`, `shadowsocks/aead2017/stream.rs`)

The response begins with a salt, from which the session's key is derived. Under a 2022 method a
sealed header follows, which names the request and the length of the first payload. Then come
records: a sealed length and a sealed payload. The nonces of a session count what is sealed.

The two client streams differ in what they expect at the beginning and in what they make of a
length, and share the rest, so there is one reader for a `Client` of either kind. The ciphers
are another crate; of them is assumed that a tag has 16 bytes.
-/

namespace Xray.Shadowsocks

open Bytes Fallible RecordCodec
open Xray.Proxy

structure StreamCrypto where
  /-- `Aead`, `Engine`: a cipher with a session's key. -/
  Aead : Type
  /-- `Aead::session`: the key of a salt under a 2022 method. -/
  session : Method → Bytes → Aead
  /-- `subkey` and the engine of a classic method. -/
  subkey : Method2017 → Bytes → Aead
  /-- `seal_from`: nonce, then plaintext. -/
  aeadSeal : Aead → Bytes → Bytes → Bytes
  /-- `open_slice`: nonce, then ciphertext with its tag. -/
  aeadOpen : Aead → Bytes → Bytes → Option Bytes
  length_open : ∀ {key nonce sealed plain}, aeadOpen key nonce sealed = some plain →
    sealed.length = plain.length + tagLength

variable {C : StreamCrypto}

def Cipher.keyLen (cipher : Cipher) : Nat := if cipher = .aes128Gcm then 16 else 32

def Cipher2017.nonceLen (cipher : Cipher2017) : Nat := if cipher = .xchacha20Poly1305 then 24 else 12

/-- What a client stream has been made with. `now` is the clock when the header is read. -/
inductive Client where
  | edition2022 (method : Method) (requestSalt : Bytes) (now : Except IoError Nat)
  | classic (method : Method2017)

namespace Client

def saltLen : Client → Nat
  | .edition2022 method _ _ => method.cipher.keyLen
  | .classic method => method.cipher.keyLen

def nonceLen : Client → Nat
  | .edition2022 _ _ _ => 12
  | .classic method => method.cipher.nonceLen

def key (C : StreamCrypto) : Client → Bytes → C.Aead
  | .edition2022 method _ _ => C.session method
  | .classic method => C.subkey method

def nonceExhausted : Client → String
  | .edition2022 _ _ _ => "Shadowsocks 2022 nonce exhausted"
  | .classic _ => "Shadowsocks AEAD nonce exhausted"

def streamFailed : Client → String
  | .edition2022 _ _ _ => "Shadowsocks 2022 stream failed"
  | .classic _ => "Shadowsocks AEAD stream failed"

/-- The first frame: salt and sealed header, or the salt alone. -/
def firstLen : Client → Nat
  | .edition2022 method _ _ => method.cipher.keyLen * 2 + 11 + tagLength
  | .classic method => method.cipher.keyLen

end Client

structure Records (C : StreamCrypto) where
  aead : C.Aead
  nonce : Bytes
  exhausted : Bool

namespace Records

def new (C : StreamCrypto) (client : Client) (salt : Bytes) : Records C where
  aead := client.key C salt
  nonce := List.replicate client.nonceLen 0
  exhausted := false

/-- Counts up, lowest byte first. Says whether every byte wrapped around. -/
def increment : Bytes → Bytes × Bool
  | [] => ([], true)
  | n :: rest =>
    if n + 1 ≠ 0 then ((n + 1) :: rest, false)
    else (0 :: (increment rest).1, (increment rest).2)

def next (client : Client) (records : Records C) : Except IoError (Bytes × Records C) :=
  if records.exhausted = true then .error (.invalidData client.nonceExhausted)
  else
    .ok (records.nonce, { records with
      nonce := (increment records.nonce).1
      exhausted := (increment records.nonce).2 })

def sealFrom (client : Client) (records : Records C) (plain : Bytes) :
    Except IoError (Bytes × Records C) := do
  let (nonce, next) ← records.next client
  return (C.aeadSeal records.aead nonce plain, next)

def «open» (client : Client) (records : Records C) (sealed : Bytes) :
    Except IoError (Bytes × Records C) := do
  let (nonce, next) ← records.next client
  match C.aeadOpen records.aead nonce sealed with
  | some plain => return (plain, next)
  | none => .error (.invalidData "AEAD authentication failed")

end Records

/-- The phases of a stream. `start` is `Phase::Header` or `Phase::Salt`; the records are there
from then on. -/
inductive State (C : StreamCrypto) where
  | start
  | length (reader : Records C)
  | payload (reader : Records C)
  | plain (reader : Records C)

namespace State

def isPlain : State C → Bool
  | .plain _ => true
  | _ => false

def isLength : State C → Bool
  | .length _ => true
  | _ => false

end State

/-- An error of the parsers as an error of the stream. -/
def io {α : Type} (result : Except InvalidData α) : Except IoError α :=
  result.mapError fun e => .invalidData e.message

/-- The header of a response, from which the length of the first payload is learnt. -/
def readHeader (keyLen : Nat) (requestSalt : Bytes) (now : Except IoError Nat) (plain : Bytes) :
    Except IoError Nat := do
  let (kind, cursor) ← io (takeBe 1 plain)
  if kind ≠ 1 then .error (.invalidData "invalid Shadowsocks 2022 response type")
  else
    let (timestamp, cursor) ← io (takeBe 8 cursor)
    let now ← now
    let _ ← io (checkTime timestamp now)
    let (salt, cursor) ← io (take keyLen cursor)
    if salt ≠ requestSalt then .error (.invalidData "Shadowsocks 2022 response salt mismatch")
    else
      let (length, _) ← io (takeBe 2 cursor)
      return length

def processHeader (client : Client) (requestSalt : Bytes) (now : Except IoError Nat)
    (frame : Bytes) : Except IoError (Reading (State C)) := do
  let (plain, reader) ← (Records.new C client (frame.take client.saltLen)).open client
    (frame.drop client.saltLen)
  let length ← readHeader client.saltLen requestSalt now plain
  return .expect (length + tagLength) (.payload reader)

def processSalt (client : Client) (frame : Bytes) : Except IoError (Reading (State C)) :=
  .ok (.expect (2 + tagLength) (.length (Records.new C client frame)))

def maxPayloadLength : Nat := 0x3FFF

/-- What a client makes of a record's length. A classic stream ends at an empty record. -/
def Client.afterLength (client : Client) (length : Nat) (reader : Records C) :
    Except IoError (Reading (State C)) :=
  match client with
  | .edition2022 _ _ _ => .ok (.expect (length + tagLength) (.payload reader))
  | .classic _ =>
    if length = 0 then .ok .ended
    else if length > maxPayloadLength then
      .error (.invalidData "Shadowsocks AEAD record exceeds 0x3FFF")
    else .ok (.expect (length + tagLength) (.payload reader))

def processLength (client : Client) (reader : Records C) (frame : Bytes) :
    Except IoError (Reading (State C)) := do
  let (plain, reader) ← reader.open client frame
  client.afterLength (ofBe (plain.take 2)) reader

def processPayload (client : Client) (reader : Records C) (frame : Bytes) :
    Except IoError (Reading (State C)) := do
  let (plain, reader) ← reader.open client frame
  return .opened plain (.plain reader) none

/-- `process_body`. It is never called while plaintext is handed out. -/
def processBody (client : Client) (state : State C) (frame : Bytes) :
    Except IoError (Reading (State C)) :=
  match state with
  | .start =>
    match client with
    | .edition2022 _ requestSalt now => processHeader client requestSalt now frame
    | .classic _ => processSalt client frame
  | .length reader => processLength client reader frame
  | .payload reader => processPayload client reader frame
  | .plain _ => .error (.other 0)

lemma ofBe_take_lt (n : Nat) (bytes : Bytes) : ofBe (bytes.take n) < 256 ^ n := by
  refine Nat.lt_of_lt_of_le (ofBe_lt _) (Nat.pow_le_pow_right (by decide) ?_)
  rw [List.length_take]
  omega

lemma io_eq_ok {α : Type} {result : Except InvalidData α} {a : α} (h : io result = .ok a) :
    result = .ok a := by
  cases result with
  | error e => cases h
  | ok b => exact congrArg Except.ok (Except.ok.inj h)

lemma takeBe_lt {n value : Nat} {bytes rest : Bytes} (h : takeBe n bytes = .ok (value, rest)) :
    value < 256 ^ n := by
  rw [takeBe] at h
  obtain ⟨⟨field, tail⟩, htake, h⟩ := bind_eq_ok.mp h
  rw [take] at htake
  split at htake
  · cases htake
  cases h
  rw [List.splitAt_eq] at htake
  cases htake
  exact ofBe_take_lt n bytes

lemma readHeader_lt {keyLen length : Nat} {requestSalt plain : Bytes} {now : Except IoError Nat}
    (h : readHeader keyLen requestSalt now plain = .ok length) : length < 2 ^ 16 := by
  rw [readHeader] at h
  obtain ⟨⟨kind, cursor⟩, -, h⟩ := bind_eq_ok.mp h
  dsimp only at h
  split at h
  · cases h
  obtain ⟨⟨timestamp, cursor⟩, -, h⟩ := bind_eq_ok.mp h
  obtain ⟨now, -, h⟩ := bind_eq_ok.mp h
  obtain ⟨_, -, h⟩ := bind_eq_ok.mp h
  obtain ⟨⟨salt, cursor⟩, -, h⟩ := bind_eq_ok.mp h
  dsimp only at h
  split at h
  · cases h
  obtain ⟨⟨value, rest⟩, htake, h⟩ := bind_eq_ok.mp h
  cases h
  exact takeBe_lt (io_eq_ok htake)

inductive Processed (client : Client) (frame : Bytes) : State C → Reading (State C) → Prop where
  | header {method : Method} {requestSalt plain : Bytes} {now : Except IoError Nat}
      {reader : Records C} {length : Nat} (kind : client = .edition2022 method requestSalt now)
      (read : (Records.new C client (frame.take client.saltLen)).open client
        (frame.drop client.saltLen) = .ok (plain, reader)) (small : length < 2 ^ 16) :
      Processed client frame .start (.expect (length + tagLength) (.payload reader))
  | salt {method : Method2017} (kind : client = .classic method) :
      Processed client frame .start
        (.expect (2 + tagLength) (.length (Records.new C client frame)))
  | length {plain : Bytes} {reader reader' : Records C}
      (read : reader.open client frame = .ok (plain, reader')) :
      Processed client frame (.length reader)
        (.expect (ofBe (plain.take 2) + tagLength) (.payload reader'))
  | ended {method : Method2017} {plain : Bytes} {reader reader' : Records C}
      (kind : client = .classic method) (read : reader.open client frame = .ok (plain, reader'))
      (zero : ofBe (plain.take 2) = 0) : Processed client frame (.length reader) .ended
  | payload {plain : Bytes} {reader reader' : Records C}
      (read : reader.open client frame = .ok (plain, reader')) :
      Processed client frame (.payload reader) (.opened plain (.plain reader') none)

variable {client : Client}

lemma processBody_spec {state : State C} {frame : Bytes} {reading : Reading (State C)}
    (h : processBody client state frame = .ok reading) : Processed client frame state reading := by
  rw [processBody.eq_def] at h
  split at h
  · split at h
    · next method requestSalt now =>
      rw [processHeader] at h
      obtain ⟨⟨plain, reader⟩, hopen, h⟩ := bind_eq_ok.mp h
      obtain ⟨length, hlength, h⟩ := bind_eq_ok.mp h
      cases h
      exact .header rfl hopen (readHeader_lt hlength)
    · cases h
      exact .salt rfl
  · rw [processLength] at h
    obtain ⟨⟨plain, reader⟩, hopen, h⟩ := bind_eq_ok.mp h
    dsimp only at h
    rw [Client.afterLength.eq_def] at h
    split at h
    · cases h
      exact .length hopen
    split at h
    · next hzero =>
      cases h
      exact .ended rfl hopen hzero
    · split at h
      · cases h
      · cases h
        exact .length hopen
  · rw [processPayload] at h
    obtain ⟨⟨plain, reader⟩, hopen, h⟩ := bind_eq_ok.mp h
    cases h
    exact .payload hopen
  · cases h

lemma Records.open_eq_ok {records records' : Records C} {sealed plain : Bytes}
    (h : records.open client sealed = .ok (plain, records')) :
    records.exhausted = false ∧ C.aeadOpen records.aead records.nonce sealed = some plain ∧
      records' = { records with
        nonce := (increment records.nonce).1
        exhausted := (increment records.nonce).2 } := by
  rw [Records.open] at h
  obtain ⟨⟨nonce, following⟩, hnext, h⟩ := bind_eq_ok.mp h
  rw [Records.next] at hnext
  split at hnext
  · cases hnext
  next hmore =>
  cases hnext
  dsimp only at h
  split at h
  · next hopen =>
    cases h
    exact ⟨Bool.not_eq_true _ ▸ hmore, hopen, rfl⟩
  · cases h

/-- Where the frames after the first begin. -/
def State.following : State C → State C
  | .plain reader => .length reader
  | state => state

def codec (C : StreamCrypto) (client : Client) : RecordCodec.Codec (State C) IoError maxFrame where
  isPlain := State.isPlain
  boundary := State.isLength
  process := processBody client
  resume state := (2 + tagLength, state.following)
  expect_ok {s frame n t} h := by
    have hfits : ∀ {length : Nat}, length < 2 ^ 16 →
        0 < length + tagLength ∧ length + tagLength ≤ maxFrame := by
      intro length hlength
      unfold maxFrame tagLength
      omega
    cases processBody_spec h with
    | header _ _ small => exact ⟨rfl, hfits small⟩
    | salt _ => exact ⟨rfl, hfits (by decide)⟩
    | length _ => exact ⟨rfl, hfits (ofBe_take_lt 2 _)⟩
  opened_ok h := by
    cases processBody_spec h with
    | payload read =>
      have := C.length_open (Records.open_eq_ok read).2.1
      exact ⟨rfl, by omega⟩
  resume_ok state := by
    refine ⟨?_, show 0 < 2 + tagLength by decide, show 2 + tagLength ≤ maxFrame by decide⟩
    cases state <;> rfl

lemma expect_pos {state next : State C} {frame : Bytes} {n : Nat}
    (h : processBody client state frame = .ok (.expect n next)) : 0 < n :=
  ((codec C client).expect_ok (show (codec C client).process state frame = _ from h)).2.1

/-- A call of `poll_read`: the room it has, whether a write, a flush or a shutdown has failed
since the last one, and the error of `drain`, if it has one. -/
structure ReadCall where
  room : Nat
  writeFailed : Bool
  drain : Option IoError

namespace Client

/-- `poll_read`. After sixteen turns it asks to be called again. -/
def pollRead (client : Client) (this : Reader (State C)) (inner : Inner) (call : ReadCall) :
    ReadAnswer × Reader (State C) × Inner :=
  if this.failed = true then
    (.ready (.error (.invalidData client.streamFailed)), this, inner)
  else if call.room = 0 ∨ this.eof = true then (.ready (.ok []), this, inner)
  else
    match call.drain with
    | some e => (.ready (.error e), { this with failed := true }, inner)
    | none =>
      let (answer, this, inner) :=
        Reader.loop (codec C client) false call.room call.room 16 this inner
      (answer.getD .pending, this, inner)

/-- The writing side has the same flag. -/
def read (client : Client) (this : Reader (State C)) (inner : Inner) (call : ReadCall) :
    ReadAnswer × Reader (State C) × Inner :=
  client.pollRead (if call.writeFailed then { this with failed := true } else this) inner call

/-- The answers to a sequence of reads, and the stream after it. -/
def reads (client : Client) (this : Reader (State C)) (inner : Inner) :
    List ReadCall → List ReadAnswer × Reader (State C) × Inner
  | [] => ([], this, inner)
  | call :: calls =>
    let (answer, this, inner) := client.read this inner call
    let (answers, this, inner) := reads client this inner calls
    (answer :: answers, this, inner)

lemma firstLen_le (client : Client) : client.firstLen ≤ maxFrame := by
  have hkey : ∀ cipher : Cipher, cipher.keyLen ≤ 32 := by
    intro cipher
    cases cipher <;> decide
  have hkey' : ∀ cipher : Cipher2017, cipher.keyLen ≤ 32 := by
    intro cipher
    cases cipher <;> decide
  cases client with
  | edition2022 method =>
    have := hkey method.cipher
    simp only [firstLen, maxFrame, tagLength]
    omega
  | classic method =>
    have := hkey' method.cipher
    simp only [firstLen, maxFrame]
    omega

lemma firstLen_pos (client : Client) : 0 < client.firstLen := by
  cases client with
  | edition2022 method =>
    simp only [firstLen]
    omega
  | classic method =>
    simp only [firstLen, Cipher2017.keyLen]
    split <;> omega

lemma saltLen_le (client : Client) : client.saltLen ≤ client.firstLen := by
  cases client with
  | edition2022 method =>
    simp only [saltLen, firstLen]
    omega
  | classic method => exact Nat.le_refl _

def new (C : StreamCrypto) (client : Client) : Reader (State C) where
  state := .start
  body := RecordBuffer.new client.firstLen (2 + tagLength) client.firstLen_le
  plainLen := 0
  plainPos := 0
  failed := false
  eof := false

end Client

end Xray.Shadowsocks
