import Xray.Lib.Ranges
import Xray.Sniffing.Quic

/-!
# The QUIC sniffer puts a ClientHello together

Whatever the order of the pieces, the assembler has the ranges that were inserted, merged, and on
them the bytes of the stream. What it says of the ClientHello depends on the part of the stream
before the first gap. No function of the sniffer panics: `Safe` is composed along the steps of each.
-/

namespace Xray.Sniffing

open WireName List
open Fallible (bind_ok)
open Ranges (Covers Separated)
open Xray.Routing (partitionPoint)

/-! ## Functions that do not panic -/

def Safe {α : Type} (result : Try α) : Prop := result ≠ .error .panic

section

variable {α β : Type}

lemma safe_ok (a : α) : Safe (.ok a) := by simp [Safe]

lemma safe_pure (a : α) : Safe (pure a : Try α) := by simp [Safe, pure, Except.pure]

lemma safe_nothing : Safe (.error .nothing : Try α) := by simp [Safe]

lemma safe_ask (value : Option α) : Safe (ask value) := by
  cases value <;> simp [Safe, ask]

lemma safe_index {value : Option α} (h : value ≠ none) : Safe (index value) := by
  cases value with
  | none => exact absurd rfl h
  | some a => simp [Safe, index]

lemma Safe.bind {x : Try α} {f : α → Try β} (h : Safe x) (hf : ∀ a, x = .ok a → Safe (f a)) :
    Safe (x >>= f) := by
  cases x with
  | ok a => exact hf a rfl
  | error stop =>
    intro heq
    cases heq
    exact h rfl

/-- What stops a function that does not panic does not panic elsewhere. -/
lemma Safe.of_error {x : Try α} {stop : Stop} (h : Safe x) (hx : x = .error stop) :
    Safe (.error stop : Try β) := by
  rintro ⟨⟩
  exact h hx

end

lemma slice?_ne_none {bytes : Bytes} {start stop : Nat} (hle : start ≤ stop)
    (hstop : stop ≤ bytes.length) : slice? bytes start stop ≠ none := by
  rw [slice?, if_pos ⟨hle, hstop⟩]
  simp

lemma getElem?_ne_none {bytes : Bytes} {i : Nat} (h : i < bytes.length) : bytes[i]? ≠ none := by
  rw [getElem?_eq_getElem h]
  simp

section

variable (std : Std)

lemma safe_sniNames {extension : Bytes} {listEnd : Nat} (hle : listEnd ≤ extension.length)
    (offset : Nat) : Safe (sniNames std extension listEnd offset) := by
  induction hn : listEnd - offset using Nat.strongRecOn generalizing offset with
  | ind n ih =>
  rw [sniNames]
  split
  · refine (safe_ask _).bind fun nameType _ => (safe_ask _).bind fun nameLen _ => ?_
    dsimp only
    split
    · exact safe_nothing
    next hends =>
    split
    · refine (safe_index (slice?_ne_none (by omega) (by omega))).bind fun bytes _ => ?_
      exact (safe_ask _).bind fun host _ => safe_ask _
    · exact ih _ (by omega) _ rfl
  · exact safe_nothing

lemma safe_parseTlsSniExtension (extension : Bytes) :
    Safe (parseTlsSniExtension std extension) := by
  refine (safe_ask _).bind fun listLen _ => ?_
  split
  · exact safe_nothing
  · exact safe_sniNames std (by omega) 2

lemma safe_sniExtensions {body : Bytes} {extensionsEnd : Nat} (hle : extensionsEnd ≤ body.length)
    (offset : Nat) : Safe (sniExtensions std body extensionsEnd offset) := by
  induction hn : extensionsEnd - offset using Nat.strongRecOn generalizing offset with
  | ind n ih =>
  rw [sniExtensions]
  split
  · refine (safe_ask _).bind fun extensionType _ => (safe_ask _).bind fun extensionLen _ => ?_
    dsimp only
    split
    · exact safe_nothing
    split
    · refine (safe_index (slice?_ne_none (by omega) (by omega))).bind fun extension _ => ?_
      exact safe_parseTlsSniExtension std extension
    · exact ih _ (by omega) _ rfl
  · exact safe_nothing

lemma safe_sniffTlsClientHelloBodySni (body : Bytes) :
    Safe (sniffTlsClientHelloBodySni std body) := by
  refine (safe_ask _).bind fun sessionIdLen _ => (safe_ask _).bind fun cipherSuitesLen _ => ?_
  refine (safe_ask _).bind fun compressionMethodsLen _ => (safe_ask _).bind fun extensionsLen _ => ?_
  dsimp only
  split
  · exact safe_nothing
  · exact safe_sniExtensions std (by omega) _

lemma safe_sniffTlsClientHelloHandshakeSni (handshake : Bytes) :
    Safe (sniffTlsClientHelloHandshakeSni std handshake) := by
  rw [sniffTlsClientHelloHandshakeSni]
  split
  · exact safe_nothing
  refine (safe_index (getElem?_ne_none (by omega))).bind fun kind _ => ?_
  split
  · exact safe_nothing
  refine (safe_ask _).bind fun handshakeLen _ => ?_
  dsimp only
  split
  · exact safe_nothing
  · refine (safe_index (slice?_ne_none (by omega) (by omega))).bind fun body _ => ?_
    exact safe_sniffTlsClientHelloBodySni std body

end

/-! ## Inserting a piece -/

namespace QuicCryptoAssembler

/-- The ranges are merged, and the stream has them. -/
structure Valid (this : QuicCryptoAssembler) : Prop where
  separated : Separated this.received
  within : ∀ r ∈ this.received, r.2 ≤ this.stream.length

lemma length_resize (stream : Bytes) (stop : Nat) :
    stop ≤ (resize stream stop).length ∧ stream.length ≤ (resize stream stop).length := by
  rw [resize, length_append, length_replicate]
  omega

lemma getElem?_resize {stream : Bytes} {stop x : Nat} (h : x < stream.length) :
    (resize stream stop)[x]? = stream[x]? := by
  rw [resize, getElem?_append_left h]

lemma getElem?_written {stream data : Bytes} {start x : Nat}
    (h : start + data.length ≤ stream.length) :
    (stream.take start ++ data ++ stream.drop (start + data.length))[x]? =
      if start ≤ x ∧ x < start + data.length then data[x - start]? else stream[x]? := by
  have hstart : (stream.take start).length = start := by
    rw [length_take]
    omega
  rw [append_assoc, getElem?_append, hstart]
  split
  · next hx => rw [if_neg (by omega), getElem?_take_of_lt hx]
  next hx =>
  rw [getElem?_append]
  split
  · next hdata => rw [if_pos (by omega)]
  next hdata =>
  rw [if_neg (by omega), getElem?_drop]
  congr 1
  omega

/-- What an insertion does: nothing for an empty piece, and otherwise it writes the piece and merges
its range. -/
structure Inserts (old : QuicCryptoAssembler) (start : Nat) (data : Bytes)
    (new : QuicCryptoAssembler) : Prop where
  covers : ∀ x, Covers new.received x ↔
    (start ≤ x ∧ x < start + data.length) ∨ Covers old.received x
  bytes : ∀ x, Covers new.received x → new.stream[x]? =
    if start ≤ x ∧ x < start + data.length then data[x - start]? else old.stream[x]?

lemma insert_spec {self : QuicCryptoAssembler} (h : self.Valid) (start : Nat) (data : Bytes) :
    (self.insert start data).1.Valid ∧ Safe (self.insert start data).2 ∧
      (start + data.length ≤ quicMaxCryptoStreamSize →
        self.Inserts start data (self.insert start data).1 ∧
        ((self.insert start data).1.received.length ≤ quicMaxCryptoRanges →
          (self.insert start data).2 = .ok ())) := by
  rw [insert]
  dsimp only
  split
  · next hlong => exact ⟨h, safe_nothing, fun hshort => absurd hlong (Nat.not_lt.mpr hshort)⟩
  split
  · next hempty =>
    subst hempty
    refine ⟨h, safe_ok _, fun _ => ⟨⟨fun x => ?_, fun x _ => ?_⟩, fun _ => rfl⟩⟩
    · simp only [length_nil]
      constructor
      · exact Or.inr
      rintro (hx | hx)
      · omega
      · exact hx
    · rw [if_neg (by simp only [length_nil]; omega)]
  next hdata =>
  have hpos : 0 < data.length := length_pos_of_ne_nil hdata
  have hlt : start < start + data.length := by omega
  have hlen := length_resize self.stream (start + data.length)
  have hmerge := h.separated.merge hlt
  have hcovers := Ranges.covers_merge h.separated hlt.le
  have hbetween : partitionPoint (fun range => range.2 < start) self.received ≤
        partitionPoint (fun range => range.1 ≤ start + data.length) self.received ∧
      partitionPoint (fun range => range.1 ≤ start + data.length) self.received ≤
        self.received.length :=
    ⟨h.separated.before_le_upTo hlt.le, Ranges.upTo_le_length _ _⟩
  rw [if_neg (not_not.mpr hbetween)]
  have hinserts : self.Inserts start data
      ⟨(resize self.stream (start + data.length)).take start ++ data ++
        (resize self.stream (start + data.length)).drop (start + data.length),
       Ranges.merge self.received start (start + data.length)⟩ := by
    refine ⟨hcovers, fun x hx => ?_⟩
    show (_ ++ _ ++ _)[x]? = _
    rw [getElem?_written hlen.1]
    split
    · rfl
    next hout =>
    obtain ⟨r, hr, hx'⟩ := ((hcovers x).mp hx).resolve_left hout
    have hwithin := h.within r hr
    rw [getElem?_resize (by omega)]
  refine ⟨⟨hmerge, fun r hr => ?_⟩, ?_, fun _ => ⟨hinserts, fun hfew => if_pos hfew⟩⟩
  · -- the last point of a range is one of the piece, or of a range that was there
    have hproper := hmerge.proper r hr
    have hlast := (hcovers (r.2 - 1)).mp ⟨r, hr, by omega, by omega⟩
    have hlength : ((resize self.stream (start + data.length)).take start ++ data ++
        (resize self.stream (start + data.length)).drop (start + data.length)).length =
        (resize self.stream (start + data.length)).length := by
      simp only [length_append, length_take, length_drop]
      omega
    rcases hlast with hin | ⟨old, hold, hin⟩
    · rw [hlength]
      omega
    have hwithin := h.within old hold
    rw [hlength]
    omega
  · split
    · exact safe_ok _
    · exact safe_nothing

lemma short_of_insert {self : QuicCryptoAssembler} {start : Nat} {data : Bytes}
    (h : (self.insert start data).2 = .ok ()) : start + data.length ≤ quicMaxCryptoStreamSize := by
  refine Nat.le_of_not_lt fun hlong => ?_
  rw [insert, if_pos hlong] at h
  cases h

lemma valid_new : Valid new := ⟨⟨by simp [new], by simp [new]⟩, by simp [new]⟩

end QuicCryptoAssembler

lemma safe_readQuicVarint (bytes : Bytes) (offset : Nat) : Safe (readQuicVarint bytes offset) := by
  exact (safe_ask _).bind fun _ _ => (safe_ask _).bind fun _ _ => safe_pure _

lemma safe_skipVarints (plaintext : Bytes) (count offset : Nat) :
    Safe (skipVarints plaintext count offset) := by
  induction count generalizing offset with
  | zero => exact safe_pure _
  | succ count ih => exact (safe_readQuicVarint _ _).bind fun _ _ => ih _

lemma safe_skipFrame (plaintext : Bytes) (frameType : UInt8) (offset : Nat) :
    Safe (skipFrame plaintext frameType offset) := by
  rw [skipFrame]
  split
  · exact safe_pure _
  split
  · refine (safe_skipVarints _ _ _).bind fun _ _ => (safe_readQuicVarint _ _).bind fun _ _ => ?_
    refine (safe_skipVarints _ _ _).bind fun _ _ => (safe_skipVarints _ _ _).bind fun _ _ => ?_
    split
    · exact safe_skipVarints _ _ _
    · exact safe_pure _
  · split
    · refine (safe_skipVarints _ _ _).bind fun _ _ => (safe_readQuicVarint _ _).bind fun _ _ => ?_
      exact (safe_ask _).bind fun _ _ => safe_pure _
    · exact safe_nothing

lemma safe_cryptoFrame (plaintext : Bytes) (offset : Nat) : Safe (cryptoFrame plaintext offset) := by
  refine (safe_readQuicVarint _ _).bind fun _ _ => (safe_readQuicVarint _ _).bind fun _ _ => ?_
  exact (safe_ask _).bind fun _ _ => safe_pure _

lemma safe_readConnectionId (packet : Bytes) (offset : Nat) :
    Safe (readConnectionId packet offset) := by
  exact (safe_ask _).bind fun _ _ => (safe_ask _).bind fun _ _ => safe_pure _

lemma safe_skipToken (packet : Bytes) (initial : Bool) (offset : Nat) :
    Safe (skipToken packet initial offset) := by
  rw [skipToken]
  split
  · exact (safe_readQuicVarint _ _).bind fun _ _ => (safe_ask _).bind fun _ _ => safe_pure _
  · exact safe_pure _

lemma safe_parseQuicLongHeader (packet : Bytes) : Safe (parseQuicLongHeader packet) := by
  rw [parseQuicLongHeader]
  refine (safe_ask _).bind fun first _ => ?_
  split
  · exact safe_nothing
  refine (safe_ask _).bind fun version _ => (safe_ask _).bind fun types _ => ?_
  dsimp only
  split
  · exact safe_nothing
  refine (safe_readConnectionId _ _).bind fun _ _ => (safe_readConnectionId _ _).bind fun _ _ => ?_
  refine (safe_skipToken _ _ _).bind fun _ _ => (safe_readQuicVarint _ _).bind fun _ _ => ?_
  split
  · exact safe_nothing
  · exact (safe_ask _).bind fun _ _ => safe_pure _

variable {packet : Bytes} {header : QuicLongHeader}

lemma safe_packetNumberBytes {mask : Bytes} {offset left i : Nat}
    (hpacket : offset + i + left ≤ packet.length) (hmask : i + left < mask.length) :
    Safe (packetNumberBytes packet mask offset left i) := by
  induction left generalizing i with
  | zero => exact safe_pure _
  | succ left ih =>
    refine (safe_index (getElem?_ne_none (by omega))).bind fun _ _ => ?_
    refine (safe_index (getElem?_ne_none (by omega))).bind fun _ _ => ?_
    exact (ih (by omega) (by omega)).bind fun _ _ => safe_pure _

lemma packetNumberLen_le (first : UInt8) : ((first &&& 0x03) + 1).toNat ≤ 4 := by
  have hand : (first &&& 0x03).toNat ≤ 3 := by
    exact Nat.and_le_right
  refine Nat.le_trans (Nat.mod_le _ _) ?_
  show (first &&& 0x03).toNat + 1 ≤ 4
  omega

lemma safe_unprotectQuicInitialHeader (crypto : QuicCrypto) (h : header.Within packet)
    (hpKey : Array8 16) : Safe (unprotectQuicInitialHeader crypto packet header hpKey) := by
  obtain ⟨hpos, hend, hwithin⟩ := h
  refine (safe_ask _).bind fun whole _ => (safe_ask _).bind fun sample _ => ?_
  have hmask := (crypto.encryptBlock hpKey sample).2
  refine (safe_index (getElem?_ne_none (by omega))).bind fun byte _ => ?_
  refine (safe_index (getElem?_ne_none (by omega))).bind fun masked _ => ?_
  have hlen := packetNumberLen_le (byte ^^^ (masked &&& 0x0f))
  dsimp only
  split
  · exact safe_nothing
  split
  · exact safe_nothing
  refine (safe_index (slice?_ne_none (by omega) (by omega))).bind fun unprotected heq => ?_
  have hunprotected : 0 < unprotected.length := by
    rw [slice?, if_pos ⟨Nat.zero_le _, by omega⟩] at heq
    cases heq
    rw [length_slice (by omega)]
    omega
  refine (safe_index (getElem?_ne_none hunprotected)).bind fun _ _ => ?_
  exact (safe_packetNumberBytes (by omega) (by omega)).bind fun _ _ => safe_pure _

lemma safe_initialPlaintext (crypto : QuicCrypto) (h : header.Within packet) :
    Safe (initialPlaintext crypto packet header) := by
  refine Safe.bind ?_ fun keys _ => ?_
  · refine (safe_ask _).bind fun _ _ => (safe_ask _).bind fun _ _ => (safe_ask _).bind fun _ _ => ?_
    exact (safe_ask _).bind fun _ _ => (safe_ask _).bind fun _ _ => safe_pure _
  · refine (safe_unprotectQuicInitialHeader crypto h keys.hp).bind fun _ _ => ?_
    exact (safe_ask _).bind fun _ _ => safe_ask _

namespace QuicCryptoAssembler

variable {self : QuicCryptoAssembler} {piece : Nat × Bytes} {pieces : List (Nat × Bytes)}

lemma addFramesFrom_spec (plaintext : Bytes) (h : self.Valid) (offset : Nat) :
    (self.addFramesFrom plaintext offset).1.Valid ∧ Safe (self.addFramesFrom plaintext offset).2 := by
  fun_induction addFramesFrom self plaintext offset with
  | case1 => exact ⟨h, safe_ok _⟩
  | case2 self offset stop hframe => exact ⟨h, (safe_cryptoFrame plaintext _).of_error hframe⟩
  | case3 self offset cryptoOffset data next _ self' stop hinsert =>
    obtain ⟨hvalid, hsafe, -⟩ := insert_spec h cryptoOffset data
    rw [hinsert] at hvalid hsafe
    exact ⟨hvalid, hsafe⟩
  | case4 self offset cryptoOffset data next _ self' hinsert _ ih =>
    obtain ⟨hvalid, -⟩ := insert_spec h cryptoOffset data
    rw [hinsert] at hvalid
    exact ih hvalid
  | case5 self offset frameType _ _ stop hframe =>
    exact ⟨h, (safe_skipFrame plaintext frameType _).of_error hframe⟩
  | case6 self offset _ _ _ next _ ih => exact ih h

/-! ## What the assembler says -/

def frontLength (received : List (Nat × Nat)) : Nat :=
  match received.head? with
  | some (0, stop) => stop
  | _ => 0

lemma frontLength_spec {received : List (Nat × Nat)} (h : Separated received) :
    (∀ x < frontLength received, Covers received x) ∧ ¬Covers received (frontLength received) := by
  cases received with
  | nil => exact ⟨by simp [frontLength], by simp [Covers]⟩
  | cons r received =>
    obtain ⟨start, stop⟩ := r
    have hgaps := (pairwise_cons.mp h.gaps).1
    cases start with
    | zero =>
      refine ⟨fun x hx => ⟨(0, stop), mem_cons_self, Nat.zero_le x, hx⟩, ?_⟩
      rintro ⟨s, hs, hle, hlt⟩
      change s.1 ≤ stop at hle
      change stop < s.2 at hlt
      rcases mem_cons.mp hs with rfl | hs
      · exact Nat.lt_irrefl _ hlt
      · exact Nat.lt_irrefl _ (Nat.lt_of_lt_of_le (hgaps s hs) hle)
    | succ start =>
      refine ⟨fun x hx => absurd hx (Nat.not_lt_zero x), ?_⟩
      rintro ⟨s, hs, hle, hlt⟩
      change s.1 ≤ 0 at hle
      rcases mem_cons.mp hs with rfl | hs
      · exact absurd hle (Nat.not_succ_le_zero start)
      have hgap := hgaps s hs
      change stop < s.1 at hgap
      omega

/-- The ClientHello of a stream of which this much has come. -/
def helloOf (std : Std) (front : Bytes) : ClientHelloState :=
  if front.length < 4 then .incomplete
  else if front[0]? ≠ some 1 then .complete none
  else
    let total := 4 + Bytes.ofBe ((front.take 4).drop 1)
    if total > quicMaxCryptoStreamSize then .complete none
    else if front.length < total then .incomplete
    else .complete (sniffTlsClientHelloHandshakeSni std (front.take total)).toOption

lemma found_eq_ok {α : Type} {x : Try α} (h : Safe x) : found x = .ok x.toOption := by
  cases x with
  | ok a => rfl
  | error stop =>
    cases stop with
    | nothing => rfl
    | panic => exact absurd rfl h

lemma clientHello_spec (std : Std) (h : self.Valid) :
    self.clientHello std = .ok (helloOf std (self.stream.take (frontLength self.received))) := by
  rw [clientHello]
  split
  · next stop hhead =>
    have hlength : frontLength self.received = stop := by
      rw [frontLength, hhead]
      rfl
    have hstop : stop ≤ self.stream.length := h.within _ (mem_of_mem_head? hhead)
    have hslice : slice? self.stream 0 stop = some (self.stream.take stop) := by
      rw [slice?, if_pos ⟨Nat.zero_le _, hstop⟩, drop_zero]
    rw [hlength, hslice, index, bind_ok]
    generalize self.stream.take stop = front
    rw [helloOf]
    split
    · rfl
    next hlong =>
    have hfirst : front[0]? = some front[0] := getElem?_eq_getElem (by omega)
    rw [hfirst, index, bind_ok]
    by_cases hkind : front[0] = 1
    · have hlen : u24? front 1 = some (Bytes.ofBe ((front.take 4).drop 1)) := by
        rw [u24?, slice?, if_pos ⟨by omega, by omega⟩]
        rfl
      rw [if_neg (not_not.mpr hkind), hlen, hkind]
      dsimp only
      split
      · rfl
      split
      · rfl
      next hcovered =>
      have hwhole : slice? front 0 (4 + Bytes.ofBe ((front.take 4).drop 1)) =
          some (front.take (4 + Bytes.ofBe ((front.take 4).drop 1))) := by
        rw [slice?, if_pos ⟨Nat.zero_le _, by omega⟩, drop_zero]
      rw [hwhole, index, bind_ok, found_eq_ok (safe_sniffTlsClientHelloHandshakeSni std _)]
      rfl
    · rw [if_pos hkind, if_pos (by simpa using hkind)]
      rfl
  next hnot =>
  have hlength : frontLength self.received = 0 := by
    rw [frontLength]
    split
    · next stop hhead => exact absurd hhead (hnot stop)
    · rfl
  rw [hlength]
  rfl

variable {stream : Bytes}

/-- What was said of a ClientHello that is complete is not taken back. -/
lemma helloOf_final {std : Std} {n m : Nat} {domain : Option Text}
    (h : helloOf std (stream.take n) = .complete domain) (hle : n ≤ m) :
    helloOf std (stream.take m) = .complete domain := by
  have hfront : stream.take n = (stream.take m).take n := by
    rw [take_take, Nat.min_eq_left hle]
  rw [hfront] at h
  generalize stream.take m = front at h
  rw [helloOf] at h ⊢
  split at h
  · cases h
  next hlong =>
  rw [length_take] at hlong
  have hhead : (front.take n)[0]? = front[0]? := getElem?_take_of_lt (by omega)
  have hfour : (front.take n).take 4 = front.take 4 := by
    rw [take_take, Nat.min_eq_left (by omega)]
  rw [hhead, hfour] at h
  rw [if_neg (by omega)]
  split at h
  · next hkind =>
    rw [if_pos hkind]
    exact h
  next hkind =>
  rw [if_neg hkind]
  dsimp only at h ⊢
  split at h
  · next hbig =>
    rw [if_pos hbig]
    exact h
  next hsmall =>
  rw [if_neg hsmall]
  split at h
  · cases h
  next hcovered =>
  rw [length_take] at hcovered
  rw [take_take, Nat.min_eq_left (by omega)] at h
  rw [if_neg (by omega)]
  exact h

lemma feedInitial_spec (crypto : QuicCrypto) (std : Std) (h : self.Valid)
    (hheader : header.Within packet) :
    (self.feedInitial crypto std packet header).1.Valid ∧
      Safe (self.feedInitial crypto std packet header).2 := by
  rw [feedInitial]
  have hsafe := safe_initialPlaintext crypto hheader
  split
  · next stop hplain => exact ⟨h, hsafe.of_error hplain⟩
  next plaintext _ =>
  obtain ⟨hvalid, hsafe⟩ := addFramesFrom_spec plaintext h 0
  rw [addFrames]
  split
  · next self' stop hadd =>
    rw [hadd] at hvalid hsafe
    exact ⟨hvalid, hsafe.of_error rfl⟩
  next self' hadd =>
  rw [hadd] at hvalid
  have hsafe : Safe (self'.clientHello std) := by
    rw [clientHello_spec std hvalid]
    exact safe_ok _
  split
  · next stop hhello => exact ⟨hvalid, hsafe.of_error hhello⟩
  all_goals exact ⟨hvalid, safe_ok _⟩

lemma feedPackets_spec (crypto : QuicCrypto) (std : Std) (rest : Bytes) (h : self.Valid) :
    (self.feedPackets crypto std rest).1.Valid ∧ Safe (self.feedPackets crypto std rest).2 := by
  induction hn : rest.length using Nat.strongRecOn generalizing rest self with
  | ind n ih =>
  rw [feedPackets]
  split
  · refine ⟨h, ?_⟩
    split
    · exact safe_nothing
    · exact safe_ok _
  split
  · next stop hheader => exact ⟨h, (safe_parseQuicLongHeader rest).of_error hheader⟩
  next header hheader =>
  have hwithin := parseQuicLongHeader_within hheader
  have hfed : ∀ fed, (if header.initial then self.feedInitial crypto std rest header
      else (self, .ok none)) = fed → fed.1.Valid ∧ Safe fed.2 := by
    rintro fed rfl
    split
    · exact feedInitial_spec crypto std h hwithin
    · exact ⟨h, safe_ok _⟩
  split
  · next self' stop hresult =>
    obtain ⟨hvalid, hsafe⟩ := hfed _ hresult
    exact ⟨hvalid, hsafe.of_error rfl⟩
  · next self' sniff hresult => exact ⟨(hfed _ hresult).1, safe_ok _⟩
  next self' hresult =>
  have hvalid := (hfed _ hresult).1
  split
  · next stop hindex =>
    have hsafe := safe_index (slice?_ne_none hwithin.within (Nat.le_refl rest.length))
    exact ⟨hvalid, hsafe.of_error hindex⟩
  · exact ih _ (hn ▸ length_lt_of_within hwithin) _ hvalid rfl

lemma feed_spec (crypto : QuicCrypto) (std : Std) (h : self.Valid) (datagram : Bytes) :
    (self.feed crypto std datagram).1.Valid ∧ ∃ sniff, (self.feed crypto std datagram).2 = .ok sniff := by
  obtain ⟨hvalid, hsafe⟩ := feedPackets_spec crypto std datagram h
  rw [feed]
  split
  · next self' hresult =>
    rw [hresult] at hvalid
    exact ⟨hvalid, .noDomain, rfl⟩
  next self' result hnot hresult =>
  rw [hresult] at hvalid hsafe
  refine ⟨hvalid, ?_⟩
  cases result with
  | ok sniff => exact ⟨sniff, rfl⟩
  | error stop =>
    cases stop with
    | nothing => exact (hnot rfl).elim
    | panic => exact absurd rfl hsafe

/-- Pieces are inserted one after the other, as long as no call returns nothing. -/
def insertAll (self : QuicCryptoAssembler) : List (Nat × Bytes) → QuicCryptoAssembler × Try Unit
  | [] => (self, .ok ())
  | (start, data) :: pieces =>
    match self.insert start data with
    | (self, .ok ()) => insertAll self pieces
    | (self, .error stop) => (self, .error stop)

/-- Datagrams are fed one after the other, whatever is found in them. -/
def feedAll (crypto : QuicCrypto) (std : Std) (self : QuicCryptoAssembler) :
    List Bytes → Try (List QuicSniff)
  | [] => .ok []
  | datagram :: datagrams =>
    match self.feed crypto std datagram with
    | (self, .ok sniff) => (feedAll crypto std self datagrams).map (sniff :: ·)
    | (_, .error stop) => .error stop

def IsPiece (stream : Bytes) (piece : Nat × Bytes) : Prop :=
  slice? stream piece.1 (piece.1 + piece.2.length) = some piece.2

def Inserted (pieces : List (Nat × Bytes)) (x : Nat) : Prop :=
  ∃ piece ∈ pieces, piece.1 ≤ x ∧ x < piece.1 + piece.2.length

/-- The limits that the pieces are to stay in: they end within the buffer, and at no time do they
make more than 64 ranges. -/
structure Fits (pieces : List (Nat × Bytes)) : Prop where
  short : ∀ piece ∈ pieces, piece.1 + piece.2.length ≤ 32767
  few : ∀ front, front <+: pieces →
    ∃ ranges, ranges.length ≤ 64 ∧ ∀ x, Covers ranges x ↔ Inserted front x

/-- What the assembler has after pieces of a stream: their places as merged ranges, the bytes of the
stream there, and the ClientHello of the stream before its first gap. -/
structure Reassembled (std : Std) (stream : Bytes) (pieces : List (Nat × Bytes))
    (this : QuicCryptoAssembler) : Prop where
  separated : Separated this.received
  covers : ∀ x, Covers this.received x ↔ Inserted pieces x
  bytes : ∀ x, Inserted pieces x → this.stream[x]? = stream[x]?
  hello : ∃ n, (∀ x < n, Inserted pieces x) ∧ ¬Inserted pieces n ∧
    this.clientHello std = .ok (helloOf std (stream.take n))

lemma getElem?_of_isPiece (h : IsPiece stream piece) {x : Nat} (hle : piece.1 ≤ x)
    (hlt : x < piece.1 + piece.2.length) : piece.2[x - piece.1]? = stream[x]? := by
  obtain ⟨-, hlength, heq⟩ := slice?_eq_some h
  have hget : ((stream.take (piece.1 + piece.2.length)).drop piece.1)[x - piece.1]? = stream[x]? := by
    rw [getElem?_drop, Nat.add_sub_cancel' hle, getElem?_take_of_lt hlt]
  rw [← heq] at hget
  exact hget

/-- The step of a run: what holds of the pieces so far holds with one more. -/
structure Holds (stream : Bytes) (pieces : List (Nat × Bytes)) (this : QuicCryptoAssembler) : Prop
    where
  valid : this.Valid
  covers : ∀ x, Covers this.received x ↔ Inserted pieces x
  bytes : ∀ x, Covers this.received x → this.stream[x]? = stream[x]?

lemma Holds.insert (h : Holds stream pieces self) (hpiece : IsPiece stream piece)
    (hshort : piece.1 + piece.2.length ≤ quicMaxCryptoStreamSize) :
    Holds stream (pieces ++ [piece]) (self.insert piece.1 piece.2).1 := by
  obtain ⟨hvalid, -, hinserts⟩ := insert_spec h.valid piece.1 piece.2
  have hinserts := (hinserts hshort).1
  refine ⟨hvalid, fun x => ?_, fun x hx => ?_⟩
  · rw [hinserts.covers x, h.covers x]
    simp only [Inserted, mem_append, mem_singleton, or_and_right, exists_or, exists_eq_left]
    exact or_comm
  · rw [hinserts.bytes x hx]
    split
    · next hin => exact getElem?_of_isPiece hpiece hin.1 hin.2
    · next hout => exact h.bytes x (((hinserts.covers x).mp hx).resolve_left hout)

lemma Holds.insertAll {before : List (Nat × Bytes)} {self' : QuicCryptoAssembler}
    (h : Holds stream before self) (hpieces : ∀ piece ∈ pieces, IsPiece stream piece)
    (hrun : self.insertAll pieces = (self', .ok ())) : Holds stream (before ++ pieces) self' := by
  induction pieces generalizing self before with
  | nil =>
    cases hrun
    rwa [append_nil]
  | cons piece pieces ih =>
    rw [QuicCryptoAssembler.insertAll] at hrun
    split at hrun
    · next self₁ hinsert =>
      have hnext := h.insert (hpieces piece mem_cons_self) (short_of_insert (by rw [hinsert]))
      rw [hinsert] at hnext
      have hlast := ih hnext (fun p hp => hpieces p (mem_cons_of_mem piece hp)) hrun
      rwa [append_assoc] at hlast
    · cases hrun

/-- Within the limits no insertion fails: the merged ranges are as few as any with these points. -/
lemma Holds.insertAll_ok {before : List (Nat × Bytes)} (h : Holds stream before self)
    (hpieces : ∀ piece ∈ pieces, IsPiece stream piece) (hfits : Fits (before ++ pieces)) :
    ∃ self', self.insertAll pieces = (self', .ok ()) := by
  induction pieces generalizing self before with
  | nil => exact ⟨self, rfl⟩
  | cons piece pieces ih =>
    have hshort := hfits.short piece (mem_append_right before mem_cons_self)
    have hnext := h.insert (hpieces piece mem_cons_self) hshort
    rw [append_cons] at hfits
    obtain ⟨ranges, hlength, hranges⟩ := hfits.few (before ++ [piece]) (prefix_append _ _)
    have hfewer := hnext.valid.separated.length_le
      fun x => (hnext.covers x).trans (hranges x).symm
    have hok := ((insert_spec h.valid piece.1 piece.2).2.2 hshort).2 (hfewer.trans hlength)
    have hrest := ih hnext (fun p hp => hpieces p (mem_cons_of_mem piece hp)) hfits
    rw [QuicCryptoAssembler.insertAll]
    rcases hinsert : self.insert piece.1 piece.2 with ⟨self₁, result⟩
    rw [hinsert] at hok hrest
    cases hok
    exact hrest

lemma Holds.reassembled (h : Holds stream pieces self) (std : Std) :
    Reassembled std stream pieces self := by
  refine ⟨h.valid.separated, h.covers, fun x hx => h.bytes x ((h.covers x).mpr hx),
    frontLength self.received, ?_, ?_, ?_⟩
  · intro x hx
    exact (h.covers x).mp ((frontLength_spec h.valid.separated).1 x hx)
  · intro hgap
    exact (frontLength_spec h.valid.separated).2 ((h.covers _).mpr hgap)
  rw [clientHello_spec std h.valid]
  congr 2
  -- before the first gap the two streams have the same bytes
  apply ext_getElem?
  intro x
  by_cases hx : x < frontLength self.received
  · rw [getElem?_take_of_lt hx, getElem?_take_of_lt hx]
    exact h.bytes x ((frontLength_spec h.valid.separated).1 x hx)
  · rw [getElem?_take_eq_none (by omega), getElem?_take_eq_none (by omega)]

lemma feedAll_spec (crypto : QuicCrypto) (std : Std) (h : self.Valid) (datagrams : List Bytes) :
    ∃ sniffs, self.feedAll crypto std datagrams = .ok sniffs := by
  induction datagrams generalizing self with
  | nil => exact ⟨[], rfl⟩
  | cons datagram datagrams ih =>
    obtain ⟨hvalid, sniff, hsniff⟩ := feed_spec crypto std h datagram
    obtain ⟨sniffs, hsniffs⟩ := ih hvalid
    refine ⟨sniff :: sniffs, ?_⟩
    rw [feedAll]
    generalize self.feed crypto std datagram = fed at hsniff hsniffs
    obtain ⟨self', result⟩ := fed
    cases hsniff
    dsimp only at hsniffs ⊢
    rw [hsniffs]
    rfl

/-- Pieces of a stream within the limits, in any order and however they overlap, are all taken and
put together: the assembler has their places and bytes, and what it says of the ClientHello depends on the stream before its first
gap. Two orders in which the ClientHello gets complete give the same name. Datagrams never make it
panic. -/
theorem quic_sniffer_reassembles (crypto : QuicCrypto) (std : Std) :
    (∀ stream pieces, (∀ piece ∈ pieces, IsPiece stream piece) → Fits pieces →
      ∃ self, new.insertAll pieces = (self, .ok ()) ∧ Reassembled std stream pieces self) ∧
    (∀ stream pieces pieces' self self' domain domain',
      (∀ piece ∈ pieces ++ pieces', IsPiece stream piece) →
      new.insertAll pieces = (self, .ok ()) → new.insertAll pieces' = (self', .ok ()) →
      self.clientHello std = .ok (.complete domain) →
      self'.clientHello std = .ok (.complete domain') → domain = domain') ∧
    ∀ datagrams, ∃ sniffs, new.feedAll crypto std datagrams = .ok sniffs := by
  have hstart : ∀ stream, Holds stream [] new := fun stream =>
    ⟨valid_new, by simp [new, Covers, Inserted], by simp [new, Covers]⟩
  have hfirst : ∀ stream pieces self, (∀ piece ∈ pieces, IsPiece stream piece) →
      new.insertAll pieces = (self, .ok ()) → Reassembled std stream pieces self := by
    intro stream pieces self hpieces hrun
    exact ((hstart stream).insertAll hpieces hrun).reassembled std
  refine ⟨?_, ?_, feedAll_spec crypto std valid_new⟩
  · intro stream pieces hpieces hfits
    obtain ⟨self, hrun⟩ := (hstart stream).insertAll_ok hpieces hfits
    exact ⟨self, hrun, hfirst stream pieces self hpieces hrun⟩
  intro stream pieces pieces' self self' domain domain' hpieces hrun hrun' hhello hhello'
  obtain ⟨n, -, -, hn⟩ := (hfirst stream pieces self
    (fun piece h => hpieces piece (mem_append_left _ h)) hrun).hello
  obtain ⟨m, -, -, hm⟩ := (hfirst stream pieces' self'
    (fun piece h => hpieces piece (mem_append_right _ h)) hrun').hello
  have hn := Except.ok.inj (hn.symm.trans hhello)
  have hm := Except.ok.inj (hm.symm.trans hhello')
  rcases Nat.le_total n m with hle | hle
  · rw [helloOf_final hn hle] at hm
    exact ClientHelloState.complete.inj hm
  · rw [helloOf_final hm hle] at hn
    exact (ClientHelloState.complete.inj hn).symm

def sampleStream : Bytes := [1, 0, 0, 2, 3, 3, 7]

/-- The end comes first, then the start, an empty piece, and one that reaches into both. -/
def scattered : List (Nat × Bytes) := [(4, [3, 3]), (0, [1, 0]), (7, []), (1, [0, 0, 2, 3])]

lemma scattered_fits : Fits scattered := by
  refine ⟨by decide, fun front hfront => ?_⟩
  simp only [scattered, prefix_cons_iff, prefix_nil] at hfront
  rcases hfront with rfl | ⟨_, rfl, rfl | ⟨_, rfl, rfl | ⟨_, rfl, rfl | ⟨_, rfl, rfl⟩⟩⟩⟩
  · exact ⟨[], by decide, by simp [Covers, Inserted]⟩
  · exact ⟨[(4, 6)], by decide, by simp [Covers, Inserted]⟩
  · exact ⟨[(4, 6), (0, 2)], by decide, by simp [Covers, Inserted]⟩
  · exact ⟨[(4, 6), (0, 2), (7, 7)], by decide, by simp [Covers, Inserted]⟩
  · exact ⟨[(4, 6), (0, 2), (7, 7), (1, 5)], by decide, by simp [Covers, Inserted]⟩

def sampleCrypto : QuicCrypto :=
  ⟨fun _ _ => ⟨replicate 32 0, rfl⟩, fun _ _ _ => none, fun _ _ => ⟨replicate 16 0, rfl⟩,
    fun _ _ _ _ => none⟩

theorem scattered_is_reassembled :
    ∃ self, new.insertAll scattered = (self, .ok ()) ∧
      Reassembled ⟨fun _ => false, fun c => [c]⟩ sampleStream scattered self :=
  (quic_sniffer_reassembles sampleCrypto _).1 sampleStream scattered
    (by unfold IsPiece; decide) scattered_fits

/-- Four bytes announce more than the sniffer reads. It does not wait for them. -/
theorem longHello_is_complete :
    ∃ self, new.insertAll [(0, [1, 0xff, 0xff, 0xff])] = (self, .ok ()) ∧
      self.clientHello ⟨fun _ => false, fun c => [c]⟩ = .ok (.complete none) :=
  ⟨⟨[1, 0xff, 0xff, 0xff], [(0, 4)]⟩, by decide +kernel, by decide +kernel⟩

end QuicCryptoAssembler

end Xray.Sniffing
