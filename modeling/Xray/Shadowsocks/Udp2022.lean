import Xray.Lib.Bytes
import Xray.Routing.Target

/-!
# Shadowsocks 2022 UDP replies (`xray-proxy/src/shadowsocks2022/udp.rs`, `mod.rs`)

`decodeAt` opens a datagram from the server, checks it, and only then touches
the session: the replay window of the remote session it belongs to, or the
pair of remote sessions that are remembered.

The ciphers are other crates. They enter as a `Crypto` of functions about which
nothing is assumed: what is proved holds for whatever they open. Identifiers
and times are `u64`s in the source; nothing here wraps, so they are numbers.
-/

namespace Xray.Shadowsocks

open Ascii Bytes
open Xray.Routing

/-- An `io::Error` of kind `InvalidData`. -/
structure InvalidData where
  message : String
deriving DecidableEq

def invalid {α : Type} (message : String) : Except InvalidData α := .error ⟨message⟩

/-- `char::is_whitespace`: the characters with the property `White_Space`. -/
def isWhitespace (c : Char) : Bool :=
  let n := c.toNat
  (9 ≤ n && n ≤ 13) || n == 32 || n == 0x85 || n == 0xa0 || n == 0x1680 ||
    (0x2000 ≤ n && n ≤ 0x200a) || n == 0x2028 || n == 0x2029 || n == 0x202f || n == 0x205f ||
    n == 0x3000

/-- `char::is_control`: the general category `Cc`. -/
def isControl (c : Char) : Bool := c.toNat < 0x20 || (0x7f ≤ c.toNat && c.toNat < 0xa0)

/-- The characters of a byte string, if it is UTF-8. -/
def utf8Chars (bytes : Bytes) : Option (List Char) :=
  (String.fromUTF8? ⟨bytes.toArray⟩).map String.toList

def encodeAddress (target : Target) : Except InvalidData Bytes :=
  if target.port = 0 then invalid "Shadowsocks target port is zero"
  else do
    let bytes ← match target.addr with
      | .ip (.v4 ip) => pure (1 :: toBe 4 ip.toNat)
      | .ip (.v6 ip) => pure (4 :: toBe 16 ip.toNat)
      | .domain domain =>
        if domain.isEmpty || domain.length > 255 ||
            ((utf8Chars domain).getD []).any (fun c => isWhitespace c || isControl c) then
          invalid "invalid Shadowsocks target domain"
        else pure (3 :: UInt8.ofNat domain.length :: domain)
    return bytes ++ toBe 2 target.port.toNat

def slice? (bytes : Bytes) (start stop : Nat) : Option Bytes :=
  if stop ≤ bytes.length then some ((bytes.take stop).drop start) else none

def truncated {α : Type} : Except InvalidData α := invalid "truncated Shadowsocks address"

/-- The address and how far it reaches, by its type byte. -/
def decodeHost (bytes : Bytes) : Except InvalidData (TargetAddr × Nat) :=
  match bytes with
  | [] => truncated
  | kind :: _ =>
    if kind = 1 then
      match slice? bytes 1 5 with
      | some ip => .ok (.ip (.v4 (BitVec.ofNat 32 (ofBe ip))), 5)
      | none => truncated
    else if kind = 4 then
      match slice? bytes 1 17 with
      | some ip => .ok (.ip (.v6 (BitVec.ofNat 128 (ofBe ip))), 17)
      | none => truncated
    else if kind = 3 then
      match bytes[1]? with
      | none => truncated
      | some len =>
        match slice? bytes 2 (2 + len.toNat) with
        | none => truncated
        | some domain =>
          if (utf8Chars domain).isSome then .ok (.domain domain, 2 + len.toNat)
          else invalid "invalid Shadowsocks domain"
    else invalid "invalid Shadowsocks address type"

def decodeAddress (bytes : Bytes) : Except InvalidData (Target × Nat) := do
  let (addr, stop) ← decodeHost bytes
  match slice? bytes stop (stop + 2) with
  | none => truncated
  | some port =>
    let target : Target := ⟨addr, UInt16.ofNat (ofBe port), .udp⟩
    let _ ← encodeAddress target
    return (target, stop + 2)

/-! ## The replay window -/

/-- The last 8192 packet identifiers, one bit each. The ring `[u64; 128]` is a
function on its indices. -/
structure Window where
  highest : Nat
  ring : Fin 128 → BitVec 64

/-- `(n & 127) as usize`. The word of an identifier is that of `id >> 6`. -/
def word (n : Nat) : Fin 128 := ⟨n &&& 127, Nat.lt_of_le_of_lt Nat.and_le_right (by decide)⟩

def bit (id : Nat) : BitVec 64 := 1#64 <<< (id &&& 63)

namespace Window

def new : Window := ⟨0, fun _ => 0⟩

def check (window : Window) (id : Nat) : Bool :=
  if id > window.highest then true
  else if window.highest - id > 8128 then false
  else window.ring (word (id >>> 6)) &&& bit id == 0

/-- `self.ring[((old + i) & 127) as usize] = 0` for `i` in `1..=n`. -/
def clear (ring : Fin 128 → BitVec 64) (old : Nat) : Nat → Fin 128 → BitVec 64
  | 0 => ring
  | n + 1 => Function.update (clear ring old n) (word (old + (n + 1))) 0

/-- The first half of `add`: a higher identifier moves the window. -/
def advance (window : Window) (id : Nat) : Window :=
  if id > window.highest then
    let old := window.highest >>> 6
    ⟨id, clear window.ring old (min (id >>> 6 - old) 128)⟩
  else window

def add (window : Window) (id : Nat) : Window :=
  let window := window.advance id
  { window with
    ring := Function.update window.ring (word (id >>> 6))
      (window.ring (word (id >>> 6)) ||| bit id) }

end Window

inductive Cipher where
  | aes128Gcm
  | aes256Gcm
  | chacha20Poly1305
deriving DecidableEq

structure Method where
  cipher : Cipher
  keys : List Bytes
  nonempty : keys ≠ []

def Method.psk (method : Method) : Bytes := method.keys.getLast method.nonempty

structure Crypto where
  Aead : Type
  /-- `Aead::session`, for the session identifier whose bytes salt the key. -/
  session : Method → Nat → Aead
  /-- `Aead::open`: nonce, then ciphertext with its tag. -/
  aeadOpen : Aead → Bytes → Bytes → Option Bytes
  /-- `XChaChaKey::open`: key, nonce, ciphertext with its tag. -/
  xchachaOpen : Bytes → Bytes → Bytes → Option Bytes
  /-- `crypto::block` in its decrypting direction. -/
  blockDecrypt : Bytes → Bytes → Bytes

/-- A remote session. Its cipher is the one its identifier gives. -/
structure Remote (C : Crypto) (method : Method) where
  id : Nat
  aead : C.Aead
  replay : Window
  derived : aead = C.session method id

structure UdpSession (C : Crypto) where
  method : Method
  id : Nat
  next : Option Nat
  localAead : C.Aead
  current : Option (Remote C method)
  previous : Option (Remote C method)
  previousSeen : Nat

def maxUdpWireLength : Nat := 65507

def tagLength : Nat := 16

def checkTime (timestamp now : Nat) : Except InvalidData Unit :=
  if max timestamp now - min timestamp now > 30 then
    invalid "Shadowsocks 2022 timestamp outside window"
  else .ok ()

def take (n : Nat) (bytes : Bytes) : Except InvalidData (Bytes × Bytes) :=
  if n > bytes.length then invalid "truncated Shadowsocks 2022 message"
  else .ok (bytes.splitAt n)

/-- `Cursor::u8`, `u16` and `u64`, by width. -/
def takeBe (n : Nat) (bytes : Bytes) : Except InvalidData (Nat × Bytes) := do
  let (field, rest) ← take n bytes
  return (ofBe field, rest)

/-- The separate header of a datagram and the rest of it. The XChaCha method
opens the whole datagram here; the AES methods encrypt the header as one block
and leave the rest sealed. -/
def splitHeader (C : Crypto) (method : Method) (wire : Bytes) :
    Except InvalidData (Bytes × Bytes) :=
  if method.cipher = .chacha20Poly1305 then
    match C.xchachaOpen method.psk (wire.take 24) (wire.drop 24) with
    | none => invalid "Shadowsocks 2022 authentication failed"
    | some body =>
      if body.length < 16 then invalid "truncated Shadowsocks 2022 packet"
      else .ok (body.take 16, body.drop 16)
  else .ok (C.blockDecrypt method.psk (wire.take 16), wire.drop 16)

/-- The body behind the separate header: sealed under the session's key for the
AES methods, already open for XChaCha. -/
def openBody (C : Crypto) (method : Method) (aead : C.Aead) (separate body : Bytes) :
    Except InvalidData Bytes :=
  if method.cipher ≠ .chacha20Poly1305 then
    match C.aeadOpen aead (separate.drop 4) body with
    | none => invalid "AEAD authentication failed"
    | some body => .ok body
  else .ok body

/-- The main header: packet type, time, the client's session, padding and the
source address. What follows is the payload. -/
def readBody (client now : Nat) (body : Bytes) : Except InvalidData (Target × Bytes) := do
  let (kind, cursor) ← takeBe 1 body
  if kind ≠ 1 then invalid "invalid Shadowsocks 2022 packet type"
  let (timestamp, cursor) ← takeBe 8 cursor
  checkTime timestamp now
  let (session, cursor) ← takeBe 8 cursor
  if session ≠ client then invalid "Shadowsocks 2022 client session mismatch"
  let (padding, cursor) ← takeBe 2 cursor
  let (_, cursor) ← take padding cursor
  let (target, len) ← decodeAddress cursor
  return (target, cursor.drop len)

namespace UdpSession

variable {C : Crypto}

/-- `with_id`; `new` draws the identifier at random. -/
def withId (C : Crypto) (method : Method) (id : Nat) : UdpSession C where
  method
  id
  next := some 0
  localAead := C.session method id
  current := none
  previous := none
  previousSeen := 0

/-- The remembered remote session with this identifier. -/
def remote (session : UdpSession C) (id : Nat) : Option (Remote C session.method) :=
  (session.current.filter (·.id == id)).or (session.previous.filter (·.id == id))

/-- The cipher to open a packet with: the remembered session's, or a candidate's. -/
def aeadFor (session : UdpSession C) (id : Nat) : C.Aead :=
  match session.remote id with
  | some remote => remote.aead
  | none => C.session session.method id

/-- Note an accepted packet in the remembered sessions, the last step of
`decode_at`. -/
def commit (session : UdpSession C) (id packetId timestamp : Nat) (reply : Target × Bytes) :
    Except InvalidData (Target × Bytes) × UdpSession C :=
  match session.current.filter (·.id == id) with
  | some current =>
    (.ok reply,
      { session with current := some { current with replay := current.replay.add packetId } })
  | none =>
  match session.previous.filter (·.id == id) with
  | some previous =>
    (.ok reply, { session with
        previous := some { previous with replay := previous.replay.add packetId }
        previousSeen := timestamp })
  | none =>
    if session.previous.isSome && timestamp - session.previousSeen < 60 then
      (invalid "too many Shadowsocks 2022 remote sessions", session)
    else
      (.ok reply, { session with
          previous := session.current
          previousSeen := timestamp
          current := some ⟨id, C.session session.method id, Window.new.add packetId, rfl⟩ })

def decodeAt (session : UdpSession C) (wire : Bytes) (timestamp : Nat) :
    Except InvalidData (Target × Bytes) × UdpSession C :=
  if wire.length < 16 + 19 + 7 + tagLength || wire.length > maxUdpWireLength then
    (invalid "invalid Shadowsocks 2022 packet length", session)
  else
  match splitHeader C session.method wire with
  | .error e => (.error e, session)
  | .ok (separate, body) =>
  let id := ofBe (separate.take 8)
  let packetId := ofBe (separate.drop 8)
  if id = session.id then (invalid "Shadowsocks 2022 reflected session", session)
  else if (session.remote id).any (fun remote => !remote.replay.check packetId) then
    (invalid "replayed Shadowsocks 2022 packet", session)
  else
  match openBody C session.method (session.aeadFor id) separate body with
  | .error e => (.error e, session)
  | .ok body =>
  match readBody session.id timestamp body with
  | .error e => (.error e, session)
  | .ok reply => session.commit id packetId timestamp reply

end UdpSession

end Xray.Shadowsocks
