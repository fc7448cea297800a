import Xray.Proxy.RecordBuffer

/-!
# VMess records (`xray-proxy/src/vmess/records.rs`, `crypto.rs`)

A record is a length, a sealed payload and some padding. How long the padding is, and what a
length that is not sealed is masked with, comes from a hash of the initialization vector that
both ends read in step. Nonces count records and are never used twice.

The ciphers and hashes are other crates. Of the ciphers is assumed that they open what they
sealed, and that a tag has 16 bytes. They fail to seal only inputs far beyond the sizes that
occur, so sealing is total.
-/

namespace Xray.Vmess

open Bytes
open Xray.Proxy

inductive Cipher where
  | aes128Gcm
  | chacha20Poly1305
deriving DecidableEq

structure Crypto where
  /-- `Aead`: a cipher with its key. -/
  Aead : Type
  /-- `Aead::new`. -/
  aead : Cipher → Bytes → Aead
  /-- `Aead::seal`: nonce, then plaintext. -/
  aeadSeal : Aead → Bytes → Bytes → Bytes
  /-- `Aead::open`: nonce, then ciphertext with its tag. -/
  aeadOpen : Aead → Bytes → Bytes → Option Bytes
  /-- `crypto::kdf`: key, then path. -/
  kdf : Bytes → List String → Bytes
  /-- What SHAKE128 of a byte string gives, byte by byte. -/
  shake : Bytes → Nat → UInt8
  open_seal : ∀ key nonce plain, aeadOpen key nonce (aeadSeal key nonce plain) = some plain
  length_open : ∀ {key nonce sealed plain}, aeadOpen key nonce sealed = some plain →
    sealed.length = plain.length + 16

variable {C : Crypto}

def invalid {α : Type} (message : String) : Except IoError α := .error (.invalidData message)

def openSlice (key : C.Aead) (nonce sealed : Bytes) : Except IoError Bytes :=
  match C.aeadOpen key nonce sealed with
  | some plain => .ok plain
  | none => invalid "AEAD authentication failed"

structure Counter (C : Crypto) where
  aead : C.Aead
  iv : Bytes
  next : Option UInt16

namespace Counter

def new (cipher : Cipher) (key iv : Bytes) : Counter C := ⟨C.aead cipher key, iv.take 12, some 0⟩

/-- `nonce`: the vector with the counter in its first two bytes. -/
def nonce (counter : Counter C) : Except IoError (Bytes × Counter C) :=
  match counter.next with
  | none => invalid "VMess nonce counter exhausted"
  | some next =>
    .ok (toBe 2 next.toNat ++ counter.iv.drop 2,
      { counter with next := if next = 65535 then none else some (next + 1) })

def sealFrom (counter : Counter C) (plain : Bytes) : Except IoError (Bytes × Counter C) := do
  let (nonce, next) ← counter.nonce
  return (C.aeadSeal counter.aead nonce plain, next)

def «open» (counter : Counter C) (sealed : Bytes) : Except IoError (Bytes × Counter C) := do
  let (nonce, next) ← counter.nonce
  let plain ← openSlice counter.aead nonce sealed
  return (plain, next)

end Counter

structure Records (C : Crypto) where
  body : Counter C
  length : Option (Counter C)
  /-- The mask, and how much of it has been read. -/
  mask : Nat → UInt8
  read : Nat

namespace Records

def new (cipher : Cipher) (key iv : Bytes) (authLength : Option (Bytes × Bytes)) : Records C where
  body := Counter.new cipher key iv
  length := authLength.map fun (key, iv) =>
    Counter.new cipher ((C.kdf key ["auth_len"]).take 16) iv
  mask := C.shake iv
  read := 0

def sizeBytes (records : Records C) : Nat := if records.length.isSome then 18 else 2

def maxPayload (records : Records C) : Nat := 8192 - 16 - records.sizeBytes - 64

def nextMask (records : Records C) : Nat × Records C :=
  (ofBe [records.mask records.read, records.mask (records.read + 1)],
    { records with read := records.read + 2 })

/-- The length of a record on the wire. A length that is sealed leaves out the tag. -/
def appendLength (records : Records C) (size : Nat) : Except IoError (Bytes × Records C) :=
  match records.length with
  | some cipher => do
    let (sealed, cipher) ← cipher.sealFrom (toBe 2 (size - 16))
    return (sealed, { records with length := some cipher })
  | none =>
    let (mask, records) := records.nextMask
    return (toBe 2 (size % 65536 ^^^ mask), records)

/-- `append`, with the bytes the padding is filled with. -/
def append (records : Records C) (payload : Bytes) (filler : Nat → UInt8) :
    Except IoError (Bytes × Records C) := do
  let (mask, records) := records.nextMask
  let padding := mask % 64
  let (length, records) ← records.appendLength (payload.length + 16 + padding)
  let (sealed, body) ← records.body.sealFrom payload
  return (length ++ sealed ++ (List.range padding).map filler, { records with body })

def openLength (records : Records C) (bytes : Bytes) : Except IoError (Nat × Records C) :=
  match records.length with
  | some cipher => do
    let (plain, cipher) ← cipher.open bytes
    return (ofBe (plain.take 2) + 16, { records with length := some cipher })
  | none =>
    let (mask, records) := records.nextMask
    return (ofBe (bytes.take 2) ^^^ mask, records)

/-- `decode_length`: the size of what follows, and how much of it is padding. -/
def decodeLength (records : Records C) (bytes : Bytes) :
    Except IoError (Nat × Nat × Records C) := do
  let (mask, records) := records.nextMask
  let padding := mask % 64
  let (size, records) ← records.openLength bytes
  if size < 16 + padding ∨ size > 65535 then invalid "invalid VMess record length"
  else return (size, padding, records)

def openSlice (records : Records C) (bytes : Bytes) (padding : Nat) :
    Except IoError (Bytes × Records C) :=
  if padding > bytes.length then invalid "invalid VMess record padding"
  else do
    let (plain, body) ← records.body.open (bytes.take (bytes.length - padding))
    return (plain, { records with body })

end Records

end Xray.Vmess
