import Xray.Lib.Ascii
import Xray.Lib.Bytes
import Xray.Lib.Fallible

/-!
# mKCP masks (`xray-transport/src/kcp/mask.rs`)

A mask wraps a datagram in place: it owns the first bytes of a region of the
buffer and transforms the rest, and the AES mask adds a tag at the end. A group
is a stack of masks over one buffer, and a connection has two groups, before
and after the noise mask.

Sealing works on the tail of a growing buffer and opening on a shrinking range
of a fixed one, as in the source. An index or a slice outside its bounds is a
`Panic`, which is told apart from a datagram that is dropped. What the source
draws at random is an argument, and AES-128-GCM is an `AesGcm` of functions.
-/

namespace Xray.Kcp

open Ascii Bytes Fallible

/-- An `io::Error` of kind `InvalidInput`. -/
structure InvalidInput where
  message : String
deriving DecidableEq

/-- A bounds check that failed: an element, or a range of a slice. -/
inductive Panic where
  | index
  | slice
deriving DecidableEq

def udpSize : Nat := 4096

/-- `NONCE` and `TAG`, the bytes AES-128-GCM puts first and last. -/
def nonceLen : Nat := 12

def tagLen : Nat := 16

/-- `ORIGINAL`: the checksum and length the original mask puts first. -/
def originalLen : Nat := 6

/-- AES-128-GCM with detached tags, keyed by a password. -/
structure AesGcm where
  Key : Type
  /-- `Aes128Gcm::new_from_slice` on the first half of the password's SHA-256. -/
  ofPassword : Str → Key
  /-- `encrypt_inout_detached`: nonce and text, to text and tag. -/
  encrypt : Key → Bytes → Bytes → Bytes × Bytes
  /-- `decrypt_inout_detached`: nonce, text and tag. -/
  decrypt : Key → Bytes → Bytes → Bytes → Option Bytes

inductive KcpHeader where
  | dns (domain : Str)
  | dtls
  | srtp
  | utp
  | wechat
  | wireguard
deriving DecidableEq

inductive KcpMask where
  | original
  | aes128Gcm (password : Str)
  | header (header : KcpHeader)
  | noise
deriving DecidableEq

/-- `NoiseRange`, inclusive at both ends. -/
structure NoiseRange where
  start : Nat
  stop : Nat
deriving DecidableEq

def NoiseRange.valid (range : NoiseRange) (max : Nat) : Bool :=
  decide (range.start ≤ range.stop) && decide (range.stop ≤ max)

structure UdpNoiseItem where
  packet : Bytes
  randomLength : NoiseRange
  randomBytes : NoiseRange
  delayMs : NoiseRange
deriving DecidableEq

def UdpNoiseItem.build (item : UdpNoiseItem) (drawn : Bytes) : Bytes :=
  if item.randomLength.stop = 0 then item.packet else drawn

structure UdpNoiseConfig where
  items : List UdpNoiseItem
  resetSecs : NoiseRange
deriving DecidableEq

def UdpNoiseConfig.validate (config : UdpNoiseConfig) : Except InvalidInput Unit :=
  if config.items.length > 16 || !config.resetSecs.valid (2 ^ 31 - 1) ||
      config.items.any (fun i =>
        decide (i.packet.length > 4096) || !i.randomLength.valid 4096 ||
          !i.randomBytes.valid 255 || !i.delayMs.valid 1000 ||
          (!i.packet.isEmpty && i.randomLength.stop != 0)) ||
      (config.items.map (·.delayMs.stop)).sum > 10000 then
    .error ⟨"UDP noise exceeds bounded configuration"⟩
  else .ok ()

/-- `pack_domain_name` into a buffer of 256 bytes, from the label read so far.
Dots end labels, and a backslash takes the next byte as it is: the source moves
the rest of the name over the backslash and then steps past the byte that came
in its place. -/
def packLabels (label : Bytes) (out : Bytes) : Bytes → Except InvalidInput Bytes
  | [] => if out.length ≥ 256 then .error ⟨"buffer size too small"⟩ else .ok (out ++ [0])
  | b :: rest =>
    if b = 92 then
      if out.length + 1 > 256 then .error ⟨"buffer size too small"⟩
      else
        match rest with
        | [] => packLabels label out []
        | c :: rest => packLabels (label ++ [c]) out rest
    else if b = dot then
      if label.length ≥ 64 then .error ⟨"bad rdata"⟩
      else if out.length + 1 + label.length > 256 then .error ⟨"buffer size too small"⟩
      else packLabels [] (out ++ UInt8.ofNat label.length :: label) rest
    else packLabels (label ++ [b]) out rest

def dnsHeader (domain : Str) : Except InvalidInput Bytes := do
  let name ← packLabels [] [] (domain ++ [dot])
  return [0, 0, 1, 0, 0, 1, 0, 0, 0, 0, 0, 0] ++ name ++ [0, 1, 0, 1]

lemma two_le_of_dnsHeader {domain : Str} {header : Bytes} (h : dnsHeader domain = .ok header) :
    2 ≤ header.length := by
  simp only [dnsHeader, bind_eq_ok, pure_eq_ok] at h
  obtain ⟨name, -, rfl⟩ := h
  simp

/-- One `mkcp-legacy` mask, with what it counts. A DNS query is never shorter
than the transaction ID that is redrawn in it. -/
inductive Legacy (A : AesGcm) where
  | original
  | aes (cipher : A.Key)
  | dns (header : { header : Bytes // 2 ≤ header.length })
  | dtls (epoch length : UInt16) (sequence : UInt32)
  | srtp (number : UInt16)
  | utp
  | wechat (sn : UInt32)
  | wireguard

/-- What a mask may draw for a datagram. -/
structure Draw where
  nonce : { nonce : Bytes // nonce.length = nonceLen }
  id : UInt16

def fnv1a (bytes : Bytes) : UInt32 :=
  bytes.foldl (fun hash byte => (hash ^^^ byte.toUInt32) * 0x01000193) 0x811c9dc5

def xorBack (region : Bytes) (i : Nat) : Bytes :=
  region.set i (region.getD i 0 ^^^ region.getD (i - 4) 0)

def cascade (n : Nat) : List Nat := List.range' 4 (n - 4)

namespace Legacy

variable {A : AesGcm}

/-- `Legacy::new`; `none` for a noise mask. -/
def new : KcpMask → Except InvalidInput (Option (Legacy A))
  | .noise => .ok none
  | .original => .ok (some .original)
  | .aes128Gcm password => .ok (some (.aes (A.ofPassword password)))
  | .header (.dns domain) =>
    match h : dnsHeader domain with
    | .error e => .error e
    | .ok header => .ok (some (.dns ⟨header, two_le_of_dnsHeader h⟩))
  | .header .dtls => .ok (some (.dtls 0 0 0))
  | .header .srtp => .ok (some (.srtp 0))
  | .header .utp => .ok (some .utp)
  | .header .wechat => .ok (some (.wechat 0))
  | .header .wireguard => .ok (some .wireguard)

/-- Bytes reserved ahead of what a mask wraps. -/
def size : Legacy A → Nat
  | .original => originalLen
  | .aes _ => nonceLen
  | .dns header => header.val.length
  | .dtls .. | .wechat _ => 13
  | .srtp _ | .utp | .wireguard => 4

/-- The original mask over a region whose first six bytes are its own: length
and checksum, then each byte combined with the one four before it, from the
front. -/
def sealOriginal (region : Bytes) : Bytes :=
  let tail := toBe 2 (region.length - originalLen) ++ region.drop originalLen
  let region := toBe 4 (fnv1a tail).toNat ++ tail
  (cascade region.length).foldl xorBack region

/-- Wraps a region, whose first `size` bytes are this mask's. -/
def «seal» (mask : Legacy A) (draw : Draw) (region : Bytes) : Legacy A × Bytes :=
  match mask with
  | .original => (.original, sealOriginal region)
  | .aes cipher =>
    let (text, tag) := A.encrypt cipher draw.nonce (region.drop nonceLen)
    (.aes cipher, draw.nonce ++ text ++ tag)
  | .dns header =>
    (.dns header, toBe 2 draw.id.toNat ++ header.val.drop 2 ++ region.drop header.val.length)
  | .dtls epoch length sequence =>
    let length' := length + 17
    (.dtls epoch (if length' > 100 then length' - 50 else length') (sequence + 1),
      [23, 254, 253] ++ toBe 2 epoch.toNat ++ [0, 0] ++ toBe 4 sequence.toNat ++
        toBe 2 length.toNat ++ region.drop 13)
  | .srtp number =>
    let number := number + 1
    (.srtp number, [0, 0] ++ toBe 2 number.toNat ++ region.drop 4)
  | .utp => (.utp, [0, 0, 0, 0] ++ region.drop 4)
  | .wechat sn =>
    let sn := sn + 1
    (.wechat sn,
      [0xa1, 0x08] ++ toBe 4 sn.toNat ++ [0x00, 0x10, 0x11, 0x18, 0x30, 0x22, 0x30] ++
        region.drop 13)
  | .wireguard => (.wireguard, [4, 0, 0, 0] ++ region.drop 4)

/-- The original mask undone, from the back. The checksum and the length are
read before the region is known to be long enough for them. -/
def openOriginal (region : Bytes) : Except Panic (Option (Nat × Nat) × Bytes) :=
  let region := (cascade region.length).reverse.foldl xorBack region
  if region.length < 4 then .error .index
  else if ofBe (region.take 4) ≠ (fnv1a (region.drop 4)).toNat then .ok (none, region)
  else if region.length < originalLen then .error .index
  else if region.length - originalLen = ofBe ((region.drop 4).take 2) then
    .ok (some (originalLen, region.length), region)
  else .ok (none, region)

def openAes (cipher : A.Key) (region : Bytes) : Option (Nat × Nat) × Bytes :=
  if region.length < nonceLen + tagLen then (none, region)
  else
    let nonce := region.take nonceLen
    let rest := region.drop nonceLen
    let text := rest.take (rest.length - tagLen)
    let tag := rest.drop (rest.length - tagLen)
    match A.decrypt cipher nonce text tag with
    | none => (none, region)
    | some text => (some (nonceLen, region.length - tagLen), nonce ++ text ++ tag)

/-- Unwraps a region in place: the range of what this mask wrapped, relative to
the region, or `none` to drop the datagram, and the region as it is then. -/
def «open» (mask : Legacy A) (region : Bytes) : Except Panic (Option (Nat × Nat) × Bytes) :=
  match mask with
  | .original => openOriginal region
  | .aes cipher => .ok (openAes cipher region)
  | mask => .ok (some (mask.size, region.length), region)

end Legacy

/-- Consecutive legacy masks in array order: the first is innermost. -/
abbrev Group (A : AesGcm) := List (Legacy A)

namespace Group

variable {A : AesGcm}

def size (group : Group A) : Nat := (group.map Legacy.size).sum

/-- The loop of `Group::seal` from the mask at position `i` on. Each mask takes
the tail of the buffer from its own first byte. -/
def sealFrom (draws : Nat → Draw) : Nat → Group A → Bytes → Nat → Group A × Bytes
  | _, [], buf, _ => ([], buf)
  | i, mask :: rest, buf, start =>
    let start := start - mask.size
    let (mask, region) := mask.seal (draws i) (buf.drop start)
    let (rest, buf) := sealFrom draws (i + 1) rest (buf.take start ++ region) start
    (mask :: rest, buf)

/-- `payload` wrapped by every mask, and the masks afterwards; no datagram when
it is too large. -/
def «seal» (group : Group A) (draws : Nat → Draw) (payload : Bytes) : Group A × Option Bytes :=
  if group.isEmpty then (group, some payload)
  else if size group + payload.length > udpSize then (group, none)
  else
    let (group, buf) :=
      sealFrom draws 0 group (List.replicate (size group) 0 ++ payload) (size group)
    (group, if buf.length ≤ udpSize then some buf else none)

/-- The loop of `Group::open`, outermost mask first, over a range of the
buffer. `&mut buf[range]` checks the range before the mask sees it. -/
def openFrom : List (Legacy A) → Bytes → Nat → Nat → Except Panic (Option (Nat × Nat) × Bytes)
  | [], buf, start, stop => .ok (some (start, stop), buf)
  | mask :: rest, buf, start, stop =>
    if start > stop ∨ stop > buf.length then .error .slice
    else
      match mask.open ((buf.take stop).drop start) with
      | .error panic => .error panic
      | .ok (none, region) => .ok (none, buf.take start ++ region ++ buf.drop stop)
      | .ok (some (a, b), region) =>
        openFrom rest (buf.take start ++ region ++ buf.drop stop) (start + a) (start + b)

/-- Unwraps a range of the buffer. The length of a range that ends before it
starts is zero. -/
def «open» (group : Group A) (buf : Bytes) (start stop : Nat) :
    Except Panic (Option (Nat × Nat) × Bytes) :=
  if group.isEmpty then .ok (some (start, stop), buf)
  else if stop - start < size group then .ok (none, buf)
  else openFrom group.reverse buf start stop

end Group

/-! ## The masks of a connection -/

structure Noise where
  config : UdpNoiseConfig
  resetAt : Option Nat

structure Masks (A : AesGcm) where
  inner : Group A := []
  noise : Option Noise := none
  outer : Group A := []

/-- What one datagram draws: for the inner masks, for each noise packet its
bytes, its pause and its masks, and for the outer masks. -/
structure WrapDraws where
  inner : Nat → Draw
  noise : Nat → Bytes × Nat × (Nat → Draw)
  outer : Nat → Draw

/-- One datagram on the wire: the noise packets due first, each with the pause
after it, and the datagram, unless the masks after noise dropped them. -/
structure Wrapped where
  noise : List (Option Bytes × Nat)
  datagram : Option Bytes

namespace Masks

variable {A : AesGcm}

/-- One entry of the list `Masks::new` reads. -/
def push (noise : Option UdpNoiseConfig) (masks : Masks A) (mask : KcpMask) :
    Except InvalidInput (Masks A) := do
  match ← Legacy.new mask with
  | some legacy =>
    if masks.noise.isSome then return { masks with outer := masks.outer ++ [legacy] }
    else return { masks with inner := masks.inner ++ [legacy] }
  | none =>
    match noise with
    | none => .error ⟨"an mKCP noise mask without noise settings"⟩
    | some config =>
      if masks.noise.isSome then .error ⟨"mKCP takes one noise mask"⟩
      else
        config.validate
        return { masks with noise := some ⟨config, none⟩ }

def new (A : AesGcm) (masks : List KcpMask) (noise : Option UdpNoiseConfig) :
    Except InvalidInput (Masks A) :=
  masks.foldlM (push noise) {}

/-- Noise packets go out before the first datagram, and again once the
connection has idled past its reset interval. -/
def noiseDue (masks : Masks A) (now : Nat) : List UdpNoiseItem :=
  match masks.noise with
  | some noise =>
    let due := match noise.resetAt with
      | none => true
      | some resetAt => decide (noise.config.resetSecs.stop > 0) && decide (now > resetAt)
    if due then noise.config.items else []
  | none => []

def sealNoise (draws : Nat → Bytes × Nat × (Nat → Draw)) :
    Nat → List UdpNoiseItem → Group A → Group A × List (Option Bytes × Nat)
  | _, [], outer => (outer, [])
  | i, item :: items, outer =>
    let (packet, pause, masks) := draws i
    let (outer, sealed) := Group.seal outer masks (item.build packet)
    let (outer, rest) := sealNoise draws (i + 1) items outer
    (outer, (sealed, pause) :: rest)

/-- What goes on the wire for a datagram; `none` when the masks before noise
drop it. -/
def wrap (masks : Masks A) (draws : WrapDraws) (datagram : Bytes) (now : Nat) :
    Masks A × Option Wrapped :=
  match Group.seal masks.inner draws.inner datagram with
  | (inner, none) => ({ masks with inner }, none)
  | (inner, some datagram) =>
    let (outer, noise) := sealNoise draws.noise 0 (masks.noiseDue now) masks.outer
    let (outer, datagram) := Group.seal outer draws.outer datagram
    ({ masks with inner, outer }, some ⟨noise, datagram⟩)

/-- The noise mask saw a datagram: the next reset is `interval` later. -/
def sent (masks : Masks A) (now interval : Nat) : Masks A :=
  { masks with noise := masks.noise.map fun noise => { noise with resetAt := some (now + interval) } }

/-- Unwraps a received datagram in place, giving the range of the segments. -/
def «open» (masks : Masks A) (buf : Bytes) : Except Panic (Option (Nat × Nat) × Bytes) :=
  match Group.open masks.outer buf 0 buf.length with
  | .error panic => .error panic
  | .ok (none, buf) => .ok (none, buf)
  | .ok (some (start, stop), buf) => Group.open masks.inner buf start stop

end Masks

end Xray.Kcp
