import Mathlib.Data.Vector.Defs
import Xray.Proofs.Vision

/-!
# Whether Vision framing is lossless

`Yields` says what a stream reads from a wire; here it is compared with what was
written. The first block means what was written. A later one does unless its frame
begins with the sixteen bytes of the user's ID, for `unpad_vision_block` looks for
the ID in every block, and takes the header from behind it.

Which IDs a frame can begin with is `UserId.ambiguous`, a condition on the bytes of
the ID. For each of them `exists_imitation` builds a frame that goes wrong: it
cannot be read, or is read as an empty frame that says `continue`. One ID has a
frame that begins with it and does no harm (`Frame.Harmless`), because the padding
it ends in is read as the same frame.
-/

namespace Xray.Vless

open List hiding Vector
open Bytes Fallible Frame VisionPadding VisionStream

/-! ## What is written -/

/-- One call of the writer: a payload it takes, and what decides its padding. -/
structure Write where
  payload : { payload : Bytes // payload.length ≤ maxContentLen }
  longPadding : Bool
  extraPadding : UInt16
  draw : Nat

namespace VisionPadding

def padAll (padding : VisionPadding) :
    List (VisionCommand × Write) → Bytes → Except VisionError Bytes
  | [], output => .ok output
  | (command, write) :: writes, output => do
    let (padding, output) ← padding.padInto write.payload command write.longPadding
      write.extraPadding write.draw output
    padding.padAll writes output

lemma paddingLen_le (padding : VisionPadding) (contentLen : Nat) (longPadding : Bool)
    (extra : UInt16) (draw : Nat) :
    padding.paddingLen contentLen longPadding extra draw ≤ maxContentLen := by
  rw [paddingLen]
  split
  · exact Nat.le_of_lt_succ extra.toNat_lt
  · split <;> exact Nat.min_le_right _ _

def frame (padding : VisionPadding) (command : VisionCommand) (write : Write) : Frame :=
  ⟨command, write.payload,
    padding.paddingLen write.payload.val.length write.longPadding write.extraPadding write.draw,
    write.payload.property, padding.paddingLen_le ..⟩

lemma padInto_eq (padding : VisionPadding) (command : VisionCommand) (write : Write)
    (output : Bytes) :
    padding.padInto write.payload command write.longPadding write.extraPadding write.draw output =
      .ok ({ padding with userIdEmitted := true },
        output ++ (idBefore padding.userId padding.userIdEmitted ++
          (padding.frame command write).bytes)) := by
  rw [padInto, if_neg (by have := write.payload.property; omega)]
  cases hemitted : padding.userIdEmitted <;>
    simp [idBefore, frame, bytes, header]

lemma padAll_emitted {padding : VisionPadding} (h : padding.userIdEmitted)
    (writes : List (VisionCommand × Write)) (output : Bytes) :
    padding.padAll writes output =
      .ok (output ++ (writes.map fun write => padding.frame write.1 write.2).flatMap bytes) := by
  have hsame : { padding with userIdEmitted := true } = padding := by rw [← h]
  induction writes generalizing output with
  | nil => simp [padAll]
  | cons write writes ih =>
    rw [padAll, padInto_eq]
    show padAll { padding with userIdEmitted := true } writes _ = _
    rw [hsame, ih, h]
    simp [idBefore]

lemma padAll_eq (userId : UserId) (seed : Vector UInt32 4) (write : VisionCommand × Write)
    (writes : List (VisionCommand × Write)) :
    padAll ⟨userId, seed, false⟩ (write :: writes) [] = .ok (userId.val ++
      ((write :: writes).map fun write => frame ⟨userId, seed, true⟩ write.1 write.2).flatMap
        bytes) := by
  rw [padAll, padInto_eq]
  show padAll ⟨userId, seed, true⟩ writes _ = _
  rw [padAll_emitted rfl, nil_append, append_assoc]
  rfl

end VisionPadding

variable {userId : UserId} {frame : Frame} {command : VisionCommand} {seed : Vector UInt32 4}
  {writes : List Write}

/-- A frame is read as it was written if it is the first, or is not misread. -/
lemma unpadVisionBlock_written {seen : Bool} (h : seen → ¬ frame.Misread userId) :
    unpadVisionBlock (idBefore userId seen ++ frame.bytes) userId =
      .ok ⟨frame.command, frame.payload⟩ := by
  cases seen with
  | false => exact unpadVisionBlock_first userId frame
  | true => exact unpadVisionBlock_later (h rfl)

/-- Frames none of which is misread after the first yield their payloads, and what
follows the last of them. -/
lemma Yields.of_frames {seen : Bool} {frames : List Frame} {last : Frame}
    (hcont : ∀ frame ∈ frames, frame.command = .«continue») (hlast : last.command ≠ .«continue»)
    (hclear : ∀ frame ∈ if seen then frames ++ [last] else (frames ++ [last]).tail,
      ¬ frame.Misread userId) (raw : Bytes) :
    Yields userId seen (idBefore userId seen ++ ((frames ++ [last]).flatMap bytes ++ raw))
      ((frames ++ [last]).flatMap payload ++ raw) none := by
  induction frames generalizing seen with
  | nil =>
    have hblock : unpadVisionBlock (idBefore userId seen ++ last.bytes) userId = .ok _ :=
      unpadVisionBlock_written fun hseen => hclear last (by simp [hseen])
    simpa using Yields.last last raw hblock hlast
  | cons frame frames ih =>
    have hblock : unpadVisionBlock (idBefore userId seen ++ frame.bytes) userId = .ok _ :=
      unpadVisionBlock_written fun hseen => hclear frame (by simp [hseen])
    have hrest := @ih true (fun f hf => hcont f (mem_cons_of_mem _ hf))
      (fun f hf => hclear f (by cases seen <;> simp_all))
    have hnext := Yields.next frame hblock (hcont frame mem_cons_self) hrest
    simpa [idBefore] using hnext

/-! ## Which user IDs a payload can imitate -/

/-- The bytes of a user's ID as a header would read them: some frame begins with
the ID if its first byte is a command, what it says of lengths makes a frame of
at least sixteen bytes, and the bytes beyond the content are zero. -/
def UserId.ambiguous (userId : UserId) : Bool :=
  match userId.val with
  | command :: c₁ :: c₂ :: p₁ :: p₂ :: rest =>
    let contentLen := ofBe [c₁, c₂]
    let paddingLen := ofBe [p₁, p₂]
    decide (command ≤ 2) && decide (11 ≤ contentLen + paddingLen) &&
      (rest.drop contentLen).all (· == 0) &&
      !(command == 0 && contentLen == 0 && paddingLen == 16)
  | _ => false

lemma Frame.bytes_eq (frame : Frame) :
    ∃ c₁ c₂ p₁ p₂, ofBe [c₁, c₂] = frame.payload.length ∧ ofBe [p₁, p₂] = frame.padding ∧
      frame.bytes = frame.command.toByte :: c₁ :: c₂ :: p₁ :: p₂ ::
        (frame.payload ++ List.replicate frame.padding 0) :=
  ⟨_, _, _, _, ofBe_toBe_of_lt (n := 2) (Nat.lt_succ_of_le frame.payload_le),
    ofBe_toBe_of_lt (n := 2) (Nat.lt_succ_of_le frame.padding_le), rfl⟩

lemma VisionCommand.toByte_le (command : VisionCommand) : command.toByte ≤ 2 := by
  cases command <;> decide

lemma VisionCommand.toByte_eq_zero : command.toByte = 0 ↔ command = .«continue» := by
  cases command <;> decide

lemma Frame.Misread.ambiguous (h : frame.Misread userId) : userId.ambiguous := by
  obtain ⟨hid, hharm⟩ := h
  obtain ⟨c₁, c₂, p₁, p₂, hc, hp, hbytes⟩ := frame.bytes_eq
  have hlen := congrArg List.length hid
  rw [hbytes] at hid
  rw [length_take, userId.property, frame.length_bytes] at hlen
  have hlong : 11 ≤ frame.payload.length + frame.padding := by
    simp only [headerLen, userIdLen] at hlen
    omega
  have hzero : ((((frame.payload ++ List.replicate frame.padding 0).take 11).drop
      frame.payload.length).all (· == 0)) = true := by
    rw [drop_take, drop_left, all_eq_true]
    intro b hb
    simpa using (mem_replicate.mp (mem_of_mem_take hb)).2
  have hexcept : ¬ (frame.command.toByte = 0 ∧ frame.payload.length = 0 ∧ frame.padding = 16) :=
    fun h => hharm ⟨VisionCommand.toByte_eq_zero.mp h.1, eq_nil_of_length_eq_zero h.2.1, h.2.2⟩
  have hval : userId.val = frame.command.toByte :: c₁ :: c₂ :: p₁ :: p₂ ::
      (frame.payload ++ List.replicate frame.padding 0).take 11 := hid.symm
  rw [UserId.ambiguous, hval]
  simp only [hc, hp, frame.command.toByte_le, hlong, hzero, decide_true, Bool.true_and]
  rw [Bool.not_eq_true']
  simpa [and_assoc] using hexcept

/-- A frame that begins with the ID: as much of the ID as is content, and after
it a byte that no command has. -/
def imitation (command : VisionCommand) (rest : Bytes) (contentLen paddingLen : Nat)
    (hcontent : contentLen ≤ maxContentLen) (hpadding : paddingLen ≤ maxContentLen) : Frame :=
  ⟨command, (rest ++ 3 :: List.replicate contentLen 0).take contentLen, paddingLen,
    Nat.le_trans (length_take_le ..) hcontent, hpadding⟩

lemma length_imitation_payload (rest : Bytes) (contentLen : Nat) :
    ((rest ++ 3 :: List.replicate contentLen (0 : UInt8)).take contentLen).length =
      contentLen := by
  simp only [length_take, length_append, length_cons, length_replicate]
  omega

lemma imitation_body {rest : Bytes} {contentLen paddingLen : Nat} (hrest : rest.length = 11)
    (hlong : 11 ≤ contentLen + paddingLen) (hzero : ∀ b ∈ rest.drop contentLen, b = 0) :
    ((rest ++ 3 :: List.replicate contentLen 0).take contentLen ++
      List.replicate paddingLen 0).take 11 = rest := by
  rcases Nat.lt_or_ge contentLen 11 with hlt | hge
  · have hdrop : rest.drop contentLen = List.replicate (11 - contentLen) 0 := by
      rw [← hrest, ← length_drop]
      exact eq_replicate_of_mem hzero
    have hpayload : (rest ++ 3 :: List.replicate contentLen 0).take contentLen =
        rest.take contentLen := take_append_of_le_length (by omega)
    have hlen : (rest.take contentLen).length = contentLen := by
      rw [length_take]
      omega
    rw [hpayload, take_append, take_of_length_le (by omega), hlen, take_replicate,
      Nat.min_eq_left (by omega), ← hdrop, take_append_drop]
  · rw [take_append_of_le_length (by rw [length_imitation_payload]; omega), take_take,
      Nat.min_eq_left hge, ← hrest, take_left]

lemma unpadVisionBlock_behind_id (userId : UserId) (tail : Bytes) :
    unpadVisionBlock (userId.val ++ tail) userId =
      (parseHeader (userId.val ++ tail) userIdLen >>= fun header =>
        if header.totalLen = tail.length then
          .ok ⟨header.command, (tail.drop headerLen).take header.contentLen⟩
        else .error .lengthMismatch) := by
  have hid := userId.property
  have hoffset : blockOffset (userId.val ++ tail) userId = .ok userIdLen := if_pos (take_left' hid)
  have hlen : ¬ (userId.val ++ tail).length < headerLen := by
    simp only [length_append, hid, userIdLen, headerLen]
    omega
  have hdrop : (userId.val ++ tail).drop (userIdLen + headerLen) = tail.drop headerLen := by
    rw [← drop_drop, drop_left' hid]
  rw [unpadVisionBlock, if_neg hlen, hoffset]
  show (parseHeader _ _ >>= _) = _
  simp only [length_append, hid, Nat.add_sub_cancel_left, hdrop]
  rfl

lemma unpadVisionBlock_zeros (userId : UserId) {k : Nat} (hk : k ≠ 5) :
    ∃ e, unpadVisionBlock (userId.val ++ List.replicate k 0) userId = .error e := by
  rw [unpadVisionBlock_behind_id]
  by_cases hshort : k < 5
  · refine ⟨.shortBlock, ?_⟩
    rw [parseHeader, if_pos (by
      rw [length_append, length_replicate, userId.property, headerLen]
      omega)]
    rfl
  have hzeros : List.replicate k (0 : UInt8) =
      (empty .«continue»).header ++ List.replicate (k - 5) 0 := by
    show _ = List.replicate 5 0 ++ _
    rw [replicate_append_replicate]
    congr 1
    omega
  have hparse := parseHeader_at (empty .«continue») userId.val (List.replicate (k - 5) 0)
  rw [append_assoc, ← hzeros, userId.property] at hparse
  refine ⟨.lengthMismatch, ?_⟩
  rw [hparse]
  show (if 5 = (List.replicate k (0 : UInt8)).length then _ else _) = _
  rw [if_neg (by rw [length_replicate]; omega)]

lemma unpadVisionBlock_no_command (userId : UserId) (more : Bytes) :
    ∃ e, unpadVisionBlock (userId.val ++ 3 :: more) userId = .error e := by
  rw [unpadVisionBlock_behind_id, parseHeader]
  split
  · exact ⟨.shortBlock, rfl⟩
  have hbyte : (userId.val ++ 3 :: more).getD userIdLen 0 = 3 := by
    rw [getD_eq_getElem?_getD, getElem?_append_right (by rw [userId.property]), userId.property]
    rfl
  rw [hbyte]
  exact ⟨.unknownCommand 3, rfl⟩

lemma exists_toByte_eq {b : UInt8} (h : b ≤ 2) : ∃ command : VisionCommand, command.toByte = b := by
  have hle : b.toNat ≤ 2 := h
  have hcases : b.toNat = 0 ∨ b.toNat = 1 ∨ b.toNat = 2 := by omega
  rcases hcases with h | h | h
  · exact ⟨.«continue», UInt8.toNat_inj.mp h.symm⟩
  · exact ⟨.«end», UInt8.toNat_inj.mp h.symm⟩
  · exact ⟨.direct, UInt8.toNat_inj.mp h.symm⟩

lemma ofBe_pair_le (a b : UInt8) : ofBe [a, b] ≤ maxContentLen := by
  have h := ofBe_lt [a, b]
  simp only [length_cons, length_nil] at h
  rw [maxContentLen]
  omega

lemma imitation_bytes {c₁ c₂ p₁ p₂ : UInt8} {rest : Bytes}
    (hval : userId.val = command.toByte :: c₁ :: c₂ :: p₁ :: p₂ :: rest)
    (hlong : 11 ≤ ofBe [c₁, c₂] + ofBe [p₁, p₂]) (hzero : ∀ b ∈ rest.drop (ofBe [c₁, c₂]), b = 0) :
    (imitation command rest (ofBe [c₁, c₂]) (ofBe [p₁, p₂]) (ofBe_pair_le c₁ c₂)
        (ofBe_pair_le p₁ p₂)).bytes =
      userId.val ++ ((rest ++ 3 :: List.replicate (ofBe [c₁, c₂]) 0).take (ofBe [c₁, c₂]) ++
        List.replicate (ofBe [p₁, p₂]) 0).drop 11 := by
  have hrest : rest.length = 11 := by
    have hlen := userId.property
    rw [hval] at hlen
    simpa [userIdLen] using hlen
  have hbody := imitation_body hrest hlong hzero
  have hheader : (imitation command rest (ofBe [c₁, c₂]) (ofBe [p₁, p₂]) (ofBe_pair_le c₁ c₂)
      (ofBe_pair_le p₁ p₂)).header = [command.toByte, c₁, c₂, p₁, p₂] := by
    rw [header, imitation]
    rw [length_imitation_payload]
    exact congrArg (command.toByte :: ·)
      (congrArg₂ (· ++ ·) (toBe_ofBe [c₁, c₂]) (toBe_ofBe [p₁, p₂]))
  rw [bytes, hheader, hval]
  show [command.toByte, c₁, c₂, p₁, p₂] ++ _ = [command.toByte, c₁, c₂, p₁, p₂] ++ (rest ++ _)
  have hsplit := take_append_drop 11 ((rest ++ 3 :: List.replicate (ofBe [c₁, c₂]) 0).take
    (ofBe [c₁, c₂]) ++ List.replicate (ofBe [p₁, p₂]) 0)
  rw [hbody] at hsplit
  exact congrArg ([command.toByte, c₁, c₂, p₁, p₂] ++ ·) hsplit.symm

lemma exists_imitation (h : userId.ambiguous) :
    ∃ frame : Frame, (∃ e, unpadVisionBlock frame.bytes userId = .error e) ∨
      (unpadVisionBlock frame.bytes userId = .ok ⟨.«continue», []⟩ ∧
        (frame.payload ≠ [] ∨ frame.command ≠ .«continue»)) := by
  rw [UserId.ambiguous] at h
  split at h
  · next command c₁ c₂ p₁ p₂ rest hval =>
    simp only [Bool.and_eq_true, decide_eq_true_eq, all_eq_true, beq_iff_eq,
      Bool.not_eq_true', Bool.eq_false_iff, ne_eq] at h
    obtain ⟨⟨⟨hcommand, hlong⟩, hzero⟩, hexcept⟩ := h
    obtain ⟨command, rfl⟩ := exists_toByte_eq hcommand
    have hrest : rest.length = 11 := by
      have hlen := userId.property
      rw [hval] at hlen
      simpa [userIdLen] using hlen
    have hpayload := length_imitation_payload rest (ofBe [c₁, c₂])
    refine ⟨imitation command rest _ _ (ofBe_pair_le c₁ c₂) (ofBe_pair_le p₁ p₂), ?_⟩
    rw [imitation_bytes hval hlong hzero]
    rcases Nat.lt_or_ge 11 (ofBe [c₁, c₂]) with hlt | hge
    · -- The byte behind the ID is content, and no command.
      have htail : ((rest ++ 3 :: List.replicate (ofBe [c₁, c₂]) 0).take (ofBe [c₁, c₂]) ++
          List.replicate (ofBe [p₁, p₂]) 0).drop 11 =
          3 :: ((List.replicate (ofBe [c₁, c₂]) 0).take (ofBe [c₁, c₂] - 12) ++
            List.replicate (ofBe [p₁, p₂]) 0) := by
        rw [take_append, take_of_length_le (by omega), hrest, append_assoc,
          drop_left' hrest, show ofBe [c₁, c₂] - 11 = ofBe [c₁, c₂] - 12 + 1 by omega,
          take_succ_cons, cons_append]
      rw [htail]
      exact .inl (unpadVisionBlock_no_command userId _)
    · -- All that is behind the ID is padding.
      rw [drop_append, hpayload, drop_of_length_le (by omega), drop_replicate]
      by_cases hk : ofBe [p₁, p₂] - (11 - ofBe [c₁, c₂]) = 5
      · refine .inr ⟨?_, ?_⟩
        · rw [hk]
          exact unpadVisionBlock_first userId (empty .«continue»)
        by_contra hnot
        rw [not_or, not_not, not_not] at hnot
        refine hexcept ⟨⟨VisionCommand.toByte_eq_zero.mpr hnot.2, ?_⟩, ?_⟩
        · rw [← hpayload]
          exact congrArg List.length hnot.1
        have hnil := congrArg List.length hnot.1
        rw [show (imitation command rest _ _ _ _).payload.length = _ from hpayload] at hnil
        simp only [length_nil] at hnil
        omega
      · exact .inl (unpadVisionBlock_zeros userId hk)
  · simp at h

/-! ## Whether what is written is read -/

/-- What the writer makes of some payloads, the last of them sent with another
command, followed by raw bytes, is read back: however the bytes arrive and
whatever room each poll has, the reader never fails, has read a front of the
payloads and the raw bytes, and all of it once each byte and each pause had a poll
with room. -/
def Lossless (userId : UserId) (seed : Vector UInt32 4) (writes : List Write)
    (command : VisionCommand) (last : Write) (raw : Bytes) : Prop :=
  let content := writes.flatMap (·.payload.val) ++ last.payload ++ raw
  ∃ wire, padAll ⟨userId, seed, false⟩
      (writes.map (.«continue», ·) ++ [(command, last)]) [] = .ok wire ∧
    ∀ (inner : Carrier) (sizes : List Nat), inner.bytes = wire ++ raw →
      ∃ out stream rest, readAll sizes (.new userId) inner = .ok (out, stream, rest) ∧
        out <+: content ∧
        (content.length + inner.pauses ≤ roomy sizes → out = content)

def framesOf (userId : UserId) (seed : Vector UInt32 4) (writes : List Write)
    (command : VisionCommand) (last : Write) : List Frame :=
  writes.map (VisionPadding.frame ⟨userId, seed, true⟩ .«continue») ++
    [VisionPadding.frame ⟨userId, seed, true⟩ command last]

lemma padAll_framesOf (userId : UserId) (seed : Vector UInt32 4) (writes : List Write)
    (command : VisionCommand) (last : Write) :
    padAll ⟨userId, seed, false⟩ (writes.map (.«continue», ·) ++ [(command, last)]) [] =
      .ok (userId.val ++ (framesOf userId seed writes command last).flatMap bytes) := by
  cases writes with
  | nil => exact VisionPadding.padAll_eq userId seed (command, last) []
  | cons write writes =>
    rw [map_cons, cons_append, padAll_eq]
    simp [framesOf, Function.comp_def]

lemma payloads_framesOf (userId : UserId) (seed : Vector UInt32 4) (writes : List Write)
    (command : VisionCommand) (last : Write) :
    (framesOf userId seed writes command last).flatMap payload =
      writes.flatMap (·.payload.val) ++ last.payload := by
  simp [framesOf, frame, flatMap_map]

lemma lossless_of_clear {last : Write} (hcommand : command ≠ .«continue»)
    (hclear : ∀ frame ∈ (framesOf userId seed writes command last).tail, ¬ frame.Misread userId)
    (raw : Bytes) : Lossless userId seed writes command last raw := by
  refine ⟨_, padAll_framesOf userId seed writes command last, fun inner sizes hinner => ?_⟩
  have hcont : ∀ frame ∈ writes.map (VisionPadding.frame ⟨userId, seed, true⟩ .«continue»),
      frame.command = .«continue» := by
    simp only [mem_map]
    rintro _ ⟨write, -, rfl⟩
    rfl
  have hyields := @Yields.of_frames userId false _ _ hcont hcommand hclear raw
  rw [← framesOf, payloads_framesOf] at hyields
  have howes : (new userId).Owes inner _ none := .framed ⟨rfl, rfl, rfl, by
    show Yields userId false ([] ++ inner.bytes) _ _
    rw [hinner, append_assoc]
    exact hyields⟩
  have hread := readAll_delivers howes sizes
  generalize readAll sizes (.new userId) inner = result at hread ⊢
  rcases result with e | ⟨out, stream, rest⟩
  · obtain ⟨error, hnone, -⟩ := hread
    simp at hnone
  obtain ⟨left, hout, hall, -⟩ := hread
  refine ⟨out, stream, rest, rfl, ⟨left, hout.symm⟩, fun hle => ?_⟩
  have hnil := hall hle
  rw [hnil, append_nil] at hout
  exact hout.symm

/-- A wire that yields something else, or fails, is not read back. -/
lemma not_lossless {last : Write} {raw content : Bytes} {failure : Option VisionError}
    (hyields : Yields userId false (userId.val ++
      ((framesOf userId seed writes command last).flatMap bytes ++ raw)) content failure)
    (hbad : failure ≠ none ∨ content ≠ writes.flatMap (·.payload.val) ++ last.payload ++ raw) :
    ¬ Lossless userId seed writes command last raw := by
  rintro ⟨wire, hpad, hread⟩
  rw [padAll_framesOf] at hpad
  cases hpad
  rw [← append_assoc] at hyields
  generalize (framesOf userId seed writes command last).flatMap bytes = frames at hyields hread
  have hne : userId.val ++ frames ++ raw ≠ [] := by
    intro hnil
    have hlen := congrArg List.length hnil
    rw [length_append, length_append, userId.property, userIdLen, length_nil] at hlen
    omega
  let inner : Carrier := [.piece ⟨userId.val ++ frames ++ raw, hne⟩]
  have hbytes : inner.bytes = userId.val ++ frames ++ raw := append_nil _
  have howes : (new userId).Owes inner content failure := .framed ⟨rfl, rfl, rfl, by
    show Yields userId false ([] ++ inner.bytes) _ _
    rw [nil_append, hbytes]
    exact hyields⟩
  generalize hexpected : writes.flatMap (·.payload.val) ++ last.payload ++ raw = expected at hbad hread
  let sizes := List.replicate (expected.length + content.length + 1) 1
  have hroomy : roomy sizes = expected.length + content.length + 1 := by
    simp [roomy, sizes, countP_replicate]
  obtain ⟨out, stream, rest, hok, -, hall⟩ := hread inner sizes hbytes
  have hdelivers := readAll_delivers howes sizes
  rw [hok] at hdelivers
  obtain ⟨left, hout, hleft, hfail⟩ := hdelivers
  have hpauses : inner.pauses = 0 := rfl
  rcases hbad with hbad | hbad
  · have := hfail hbad
    omega
  · rw [hleft (by omega), append_nil] at hout
    exact hbad (hout.trans (hall (by omega)))

/-- The call that writes a frame, with a seed of zeros. -/
def Frame.write (frame : Frame) : Write :=
  ⟨⟨frame.payload, frame.payload_le⟩, false, UInt16.ofNat frame.padding, 0⟩

lemma frame_write (userId : UserId) (frame : Frame) :
    VisionPadding.frame ⟨userId, Vector.replicate 4 0, true⟩ frame.command frame.write = frame := by
  have hlt : frame.padding < 65536 := Nat.lt_succ_of_le frame.padding_le
  have hpadding : paddingLen ⟨userId, Vector.replicate 4 0, true⟩
      frame.payload.length false (UInt16.ofNat frame.padding) 0 = frame.padding := by
    have hto : (UInt16.ofNat frame.padding).toNat = frame.padding := by
      rw [UInt16.toNat_ofNat', Nat.mod_eq_of_lt hlt]
    rw [paddingLen]
    split
    · exact hto
    next hzero =>
    rw [not_not] at hzero
    rw [hzero] at hto
    simpa [randomPaddingLen] using hto
  obtain ⟨command, payload, padding, hpayload, hle⟩ := frame
  simp only [frame, write] at hpadding ⊢
  simp only [hpadding]

/-- An empty frame, an imitation of the ID and a last empty frame are read as
nothing, or fail. -/
lemma exists_yields_nothing (h : (∃ e, unpadVisionBlock frame.bytes userId = .error e) ∨
      (unpadVisionBlock frame.bytes userId = .ok ⟨.«continue», []⟩ ∧
        (frame.payload ≠ [] ∨ frame.command ≠ .«continue»))) :
    ∃ failure, Yields userId false (userId.val ++ ((empty .«continue»).bytes ++
        (frame.bytes ++ ((empty .«end»).bytes ++ [])))) [] failure ∧
      (failure ≠ none ∨ frame.payload ≠ [] ∨ frame.command ≠ .«continue») := by
  have hfirst : unpadVisionBlock (idBefore userId false ++ (empty .«continue»).bytes)
      userId = .ok ⟨.«continue», []⟩ := unpadVisionBlock_first userId _
  rw [show frame.bytes = idBefore userId true ++ frame.bytes from rfl] at h
  rcases h with ⟨e, h⟩ | ⟨h, hbad⟩
  · have hrest : Yields userId true (frame.bytes ++ ((empty .«end»).bytes ++ [])) []
        (some e) := .fails frame _ h
    exact ⟨some e, .next _ hfirst rfl hrest, .inl (by simp)⟩
  have hlast : unpadVisionBlock (idBefore userId true ++ (empty .«end»).bytes) userId =
      .ok ⟨.«end», []⟩ := by
    refine unpadVisionBlock_written fun _ hmis => ?_
    have hlen := congrArg List.length hmis.1
    rw [userId.property] at hlen
    cases hlen
  have hend : Yields userId true ((empty .«end»).bytes ++ []) [] none :=
    .last (empty .«end») [] hlast (by simp)
  have hrest : Yields userId true (frame.bytes ++ ((empty .«end»).bytes ++ [])) [] none :=
    .next frame h rfl hend
  exact ⟨none, .next _ hfirst rfl hrest, .inr hbad⟩

/-- What imitates the ID is not read back, be it among the frames or the last. -/
lemma exists_not_lossless (h : userId.ambiguous) :
    ∃ seed writes command last raw, command ≠ .«continue» ∧
      ¬ Lossless userId seed writes command last raw := by
  obtain ⟨frame, hframe⟩ := exists_imitation h
  obtain ⟨failure, hyields, hbad⟩ := exists_yields_nothing hframe
  have hempty : VisionPadding.frame ⟨userId, Vector.replicate 4 0, true⟩ .«continue»
      (Frame.empty .«continue»).write = .empty .«continue» :=
    frame_write userId (.empty .«continue»)
  have hend : VisionPadding.frame ⟨userId, Vector.replicate 4 0, true⟩ .«end»
      (Frame.empty .«end»).write = .empty .«end» := frame_write userId (.empty .«end»)
  have hwritten := frame_write userId frame
  have hnot : ∀ writes command last raw,
      (framesOf userId (Vector.replicate 4 0) writes command last).flatMap bytes ++ raw =
        (empty .«continue»).bytes ++ (frame.bytes ++ ((empty .«end»).bytes ++ [])) →
      (failure ≠ none ∨ [] ≠ writes.flatMap (·.payload.val) ++ last.payload.val ++ raw) →
      ¬ Lossless userId (Vector.replicate 4 0) writes command last raw :=
    fun writes command last raw hwire hbad => not_lossless (by rw [hwire]; exact hyields) hbad
  by_cases hcommand : frame.command = .«continue»
  · rw [hcommand] at hwritten
    refine ⟨_, [(empty .«continue»).write, frame.write], .«end», (empty .«end»).write,
      [], by simp, hnot _ _ _ _ ?_ ?_⟩
    · simp [framesOf, hempty, hend, hwritten]
    · simpa [write, empty, hcommand, eq_comm] using hbad
  · refine ⟨_, [(empty .«continue»).write], frame.command, frame.write,
      (empty .«end»).bytes, hcommand, hnot _ _ _ _ ?_ (.inr ?_)⟩
    · simp [framesOf, hempty, hwritten]
    · simp [bytes, header]

/-- Vision framing loses nothing as long as no frame after the first is taken for
one with the user's ID in front; and no payloads can make it so exactly when the
ID does not look like the beginning of a frame. -/
theorem vision_framing_lossless_iff (userId : UserId) :
    (∀ (seed : Vector UInt32 4) (writes : List Write) (command : VisionCommand) (last : Write)
        (raw : Bytes), command ≠ .«continue» →
      (∀ frame ∈ (framesOf userId seed writes command last).tail, ¬ frame.Misread userId) →
        Lossless userId seed writes command last raw) ∧
      ((∀ (seed : Vector UInt32 4) (writes : List Write) (command : VisionCommand) (last : Write)
          (raw : Bytes), command ≠ .«continue» → Lossless userId seed writes command last raw) ↔
        userId.ambiguous = false) := by
  refine ⟨fun seed writes command last raw hcommand hclear =>
    lossless_of_clear hcommand hclear raw, fun hall => ?_, fun hclear => ?_⟩
  · by_contra hamb
    obtain ⟨seed, writes, command, last, raw, hcommand, hnot⟩ :=
      exists_not_lossless (by simpa using hamb)
    exact hnot (hall seed writes command last raw hcommand)
  · intro seed writes command last raw hcommand
    refine lossless_of_clear hcommand (fun frame _ hmis => ?_) raw
    rw [hmis.ambiguous] at hclear
    exact absurd hclear (by decide)

theorem vision_framing_lossless_plain_id :
    Lossless ⟨List.replicate 16 7, rfl⟩ #v[900, 500, 900, 256]
      [⟨⟨[0, 1, 2], by decide⟩, true, 0, 44⟩] .direct ⟨⟨[], by decide⟩, false, 9, 0⟩ [7, 7] :=
  (vision_framing_lossless_iff ⟨List.replicate 16 7, rfl⟩).2.mpr (by decide) _ _ _ _ _ (by decide)

/-- An ID that reads as the header of eleven bytes of content without padding. -/
def elevenBytesId : UserId := ⟨[0, 0, 11, 0, 0, 1, 2, 3, 4, 5, 6, 7, 8, 9, 10, 11], rfl⟩

/-- Its last eleven bytes as the second payload: the reader takes the frame for an
ID with nothing behind it. -/
theorem vision_framing_fails_on_imitated_id :
    ∃ wire, padAll ⟨elevenBytesId, Vector.replicate 4 0, false⟩
        [(.«continue», ⟨⟨[], by decide⟩, false, 0, 0⟩),
          (.«continue», ⟨⟨[1, 2, 3, 4, 5, 6, 7, 8, 9, 10, 11], by decide⟩, false, 0, 0⟩),
          (.«end», ⟨⟨[], by decide⟩, false, 0, 0⟩)] [] = .ok wire ∧
      ∃ inner : Carrier, inner.bytes = wire ∧
        readAll [1] (.new elevenBytesId) inner = .error (.invalidData .shortBlock) := by
  refine ⟨_, rfl, [.piece ⟨elevenBytesId.val ++ [0, 0, 0, 0, 0] ++ elevenBytesId.val ++
    [1, 0, 0, 0, 0], by decide⟩], rfl, ?_⟩
  generalize hresult : readAll [1] (.new elevenBytesId) _ = result
  have herror : (match result with | .error e => some e | .ok _ => none) =
      some (.invalidData .shortBlock) := by
    rw [← hresult]
    decide +kernel
  cases result with
  | error e => exact congrArg Except.error (Option.some.inj herror)
  | ok answer => exact absurd herror (by simp)

end Xray.Vless
