import Xray.Vless.Vision

/-!
# What a Vision stream reads

The reader is compared with the meaning of a wire, `Yields`: one block after the
other as `unpad_vision_block` reads it, up to one that says it is the last, and
then the bytes as they are; or up to one that cannot be read. `Owes` says how much
of that is still to come from a stream that has read a part of the wire and given
a part of what it decoded. Decoding a frame keeps it (`Framed.decodeNextFrame`), a
poll takes what it gives off the front (`pollRead_answers`), and a run of polls
follows by induction (`readAll_delivers`), wherever the reads are cut.
-/

namespace Xray.Vless

open Bytes Fallible List

/-- A frame: what is said of it, and what it holds. Both lengths are written in
sixteen bits. -/
structure Frame where
  command : VisionCommand
  payload : Bytes
  padding : Nat
  payload_le : payload.length ≤ maxContentLen
  padding_le : padding ≤ maxContentLen

namespace Frame

def header (frame : Frame) : Bytes :=
  frame.command.toByte :: (toBe 2 frame.payload.length ++ toBe 2 frame.padding)

def bytes (frame : Frame) : Bytes :=
  frame.header ++ (frame.payload ++ List.replicate frame.padding 0)

@[simp] lemma length_header (frame : Frame) : frame.header.length = headerLen := by
  simp [header, headerLen]

lemma length_bytes (frame : Frame) :
    frame.bytes.length = headerLen + frame.payload.length + frame.padding := by
  simp only [bytes, length_append, length_header, length_replicate]
  omega

end Frame

lemma VisionCommand.tryFrom_toByte (command : VisionCommand) :
    VisionCommand.tryFrom command.toByte = .ok command := by
  cases command <;> rfl

lemma Frame.fields_at (frame : Frame) (pre more : Bytes) :
    VisionCommand.tryFrom ((pre ++ frame.header ++ more).getD pre.length 0) = .ok frame.command ∧
      ofBe (((pre ++ frame.header ++ more).drop (pre.length + 1)).take 2) = frame.payload.length ∧
      ofBe (((pre ++ frame.header ++ more).drop (pre.length + 3)).take 2) = frame.padding := by
  have hpayload : frame.payload.length < 256 ^ 2 := Nat.lt_succ_of_le frame.payload_le
  have hpadding : frame.padding < 256 ^ 2 := Nat.lt_succ_of_le frame.padding_le
  refine ⟨?_, ?_, ?_⟩
  · rw [append_assoc, getD_eq_getElem?_getD, getElem?_append_right (Nat.le_refl _), Nat.sub_self]
    exact frame.command.tryFrom_toByte
  · rw [append_assoc, ← drop_drop, drop_left]
    simp only [header, cons_append, drop_succ_cons, drop_zero, append_assoc]
    rw [take_left' (length_toBe 2 _), ofBe_toBe_of_lt hpayload]
  · rw [append_assoc, ← drop_drop, drop_left]
    simp only [header, cons_append, drop_succ_cons, append_assoc]
    rw [drop_left' (length_toBe 2 _), take_left' (length_toBe 2 _), ofBe_toBe_of_lt hpadding]

lemma parseHeader_at (frame : Frame) (pre more : Bytes) :
    parseHeader (pre ++ frame.header ++ more) pre.length =
      .ok ⟨frame.command, frame.payload.length, frame.bytes.length⟩ := by
  obtain ⟨hcommand, hpayload, hpadding⟩ := frame.fields_at pre more
  have hlen : ¬ (pre ++ frame.header ++ more).length < pre.length + headerLen := by
    simp only [length_append, Frame.length_header]
    omega
  rw [parseHeader, if_neg hlen, hcommand, hpayload, hpadding, frame.length_bytes]
  rfl

def idBefore (userId : UserId) (seen : Bool) : Bytes := if seen then [] else userId

variable {frame : Frame} {userId : UserId}

/-- A block behind the user's ID or in front of which none is found, as the whole
of `unpad_vision_block` sees it. -/
lemma unpadVisionBlock_of_offset {pre : Bytes}
    (hoffset : blockOffset (pre ++ frame.bytes) userId = .ok pre.length) :
    unpadVisionBlock (pre ++ frame.bytes) userId = .ok ⟨frame.command, frame.payload⟩ := by
  have hframe := frame.length_bytes
  have hlen : ¬ (pre ++ frame.bytes).length < headerLen := by
    rw [length_append]
    omega
  have hparse : parseHeader (pre ++ frame.bytes) pre.length =
      .ok ⟨frame.command, frame.payload.length, frame.bytes.length⟩ := by
    rw [Frame.bytes, ← append_assoc]
    exact parseHeader_at frame pre _
  have hpayload : ((pre ++ frame.bytes).drop (pre.length + headerLen)).take frame.payload.length =
      frame.payload := by
    rw [← drop_drop, drop_left, Frame.bytes, drop_left' frame.length_header, take_left]
  rw [unpadVisionBlock, if_neg hlen, hoffset]
  show (parseHeader _ _ >>= _) = _
  rw [hparse]
  show (if _ then _ else _) = _
  rw [if_pos (by rw [length_append, Nat.add_sub_cancel_left])]
  rw [hpayload]
  rfl

lemma unpadVisionBlock_first (userId : UserId) (frame : Frame) :
    unpadVisionBlock (userId.val ++ frame.bytes) userId = .ok ⟨frame.command, frame.payload⟩ := by
  refine unpadVisionBlock_of_offset ?_
  rw [blockOffset, if_pos (take_left' userId.property), userId.property]

/-- The one frame that begins with a user's ID and is read right all the same: it
is empty, and its padding is what a header of an empty frame looks like. -/
def Frame.Harmless (frame : Frame) : Prop :=
  frame.command = .«continue» ∧ frame.payload = [] ∧ frame.padding = 16

/-- A frame that the stream takes for one with the user's ID in front of it. -/
def Frame.Misread (userId : UserId) (frame : Frame) : Prop :=
  frame.bytes.take userIdLen = userId ∧ ¬ frame.Harmless

/-- The shortest frame: nothing in it and no padding. -/
def Frame.empty (command : VisionCommand) : Frame :=
  ⟨command, [], 0, Nat.zero_le _, Nat.zero_le _⟩

lemma unpadVisionBlock_harmless (hid : frame.bytes.take userIdLen = userId) (h : frame.Harmless) :
    unpadVisionBlock frame.bytes userId = .ok ⟨frame.command, frame.payload⟩ := by
  obtain ⟨hcommand, hpayload, hpadding⟩ := h
  have hbytes : frame.bytes = [0, 0, 0, 0, 16] ++ List.replicate 16 0 := by
    rw [Frame.bytes, Frame.header, hcommand, hpayload, hpadding]
    rfl
  have hsplit : frame.bytes = userId.val ++ (Frame.empty .«continue»).bytes := by
    rw [← hid, hbytes]
    rfl
  rw [hsplit, unpadVisionBlock_first, hcommand, hpayload]
  rfl

lemma unpadVisionBlock_later (h : ¬ frame.Misread userId) :
    unpadVisionBlock frame.bytes userId = .ok ⟨frame.command, frame.payload⟩ := by
  by_cases hid : frame.bytes.take userIdLen = userId
  · exact unpadVisionBlock_harmless hid (not_not.mp fun hharm => h ⟨hid, hharm⟩)
  have hparse := parseHeader_at frame [] (frame.payload ++ List.replicate frame.padding 0)
  rw [nil_append, length_nil] at hparse
  show unpadVisionBlock ([] ++ frame.bytes) userId = _
  refine unpadVisionBlock_of_offset ?_
  rw [nil_append, blockOffset, if_neg hid, Frame.bytes, hparse]
  exact if_pos rfl

/-! ## The next frame of a stream -/

namespace VisionStream

variable {later rest : Bytes} {stream : VisionStream}

lemma eq_append_of_append_eq {raw a b : Bytes} (h : raw ++ later = a ++ b)
    (hlen : a.length ≤ raw.length) : raw = a ++ raw.drop a.length := by
  have htake := congrArg (List.take a.length) h
  rw [take_left, take_append_of_le_length hlen] at htake
  conv_lhs => rw [← take_append_drop a.length raw, htake]

lemma nextFrameOffset_eq (hwire : stream.rawRead ++ later =
      idBefore stream.userId stream.inboundUserIdSeen ++ rest) :
    stream.nextFrameOffset =
      if stream.rawRead = [] ∨
          stream.rawRead.length < (idBefore stream.userId stream.inboundUserIdSeen).length then
        none
      else some (idBefore stream.userId stream.inboundUserIdSeen).length := by
  rw [nextFrameOffset]
  by_cases hnil : stream.rawRead = []
  · rw [if_pos hnil, if_pos (.inl hnil)]
  rw [if_neg hnil]
  cases hseen : stream.inboundUserIdSeen with
  | true => simp [idBefore, hnil]
  | false =>
    have hid : (idBefore stream.userId false).length = userIdLen := stream.userId.property
    rw [hseen] at hwire
    rw [hid]
    by_cases hshort : stream.rawRead.length < userIdLen
    · have hpre : stream.rawRead <+: stream.userId.val :=
        prefix_of_prefix_length_le ⟨later, hwire⟩ ⟨rest, rfl⟩
          (by rw [stream.userId.property]; omega)
      rw [if_neg (by simp), if_pos hshort, if_pos (List.isPrefixOf_iff_prefix.mpr hpre),
        if_pos (.inr hshort)]
    · have heq := eq_append_of_append_eq hwire (by omega)
      have htake : stream.rawRead.take userIdLen = stream.userId.val := by
        rw [heq, take_left' hid]
        rfl
      rw [if_neg (by simp), if_neg hshort, if_pos htake, if_neg (by tauto)]

lemma nextFrameLen_eq {frame : Frame} (hwire : stream.rawRead ++ later =
      idBefore stream.userId stream.inboundUserIdSeen ++ (frame.bytes ++ rest)) :
    stream.nextFrameLen = .ok (if stream.rawRead.length <
        (idBefore stream.userId stream.inboundUserIdSeen ++ frame.bytes).length then none
      else some (idBefore stream.userId stream.inboundUserIdSeen ++ frame.bytes).length) := by
  rw [nextFrameLen, nextFrameOffset_eq hwire]
  generalize idBefore stream.userId stream.inboundUserIdSeen = pre at hwire ⊢
  have hframe := frame.length_bytes
  have hlen : (pre ++ frame.bytes).length = pre.length + frame.bytes.length := length_append
  by_cases hoffset : stream.rawRead = [] ∨ stream.rawRead.length < pre.length
  · have hpos : 0 < headerLen := by decide
    have hshort : stream.rawRead.length < (pre ++ frame.bytes).length := by
      rcases hoffset with h | h
      · rw [h, length_nil]
        omega
      · omega
    rw [if_pos hoffset, if_pos hshort]
  rw [if_neg hoffset]
  dsimp only
  by_cases hheader : stream.rawRead.length < pre.length + headerLen
  · rw [if_pos hheader, if_pos (by omega)]
  have hraw : stream.rawRead = pre ++ frame.header ++
      stream.rawRead.drop (pre ++ frame.header).length := by
    refine eq_append_of_append_eq (b := frame.payload ++ List.replicate frame.padding 0 ++ rest)
      (hwire.trans ?_) ?_
    · rw [Frame.bytes]
      simp only [append_assoc]
    · rw [length_append, Frame.length_header]
      omega
  obtain ⟨hcommand, hpayload, hpadding⟩ :=
    frame.fields_at pre (stream.rawRead.drop (pre ++ frame.header).length)
  rw [← hraw] at hcommand hpayload hpadding
  rw [if_neg hheader, hcommand]
  show (if stream.rawRead.length < _ then _ else _) = _
  rw [hpayload, hpadding, hlen, hframe, ← Nat.add_assoc, ← Nat.add_assoc]
  split
  · rfl
  · rfl

/-- A stream that has the front of its wire takes the next frame once all of it is
there, and makes of it what `unpad_vision_block` does. -/
lemma decodeNextFrame_eq {frame : Frame} (hwire : stream.rawRead ++ later =
      idBefore stream.userId stream.inboundUserIdSeen ++ (frame.bytes ++ rest)) :
    stream.decodeNextFrame =
      if stream.rawRead.length <
          (idBefore stream.userId stream.inboundUserIdSeen ++ frame.bytes).length then .ok none
      else
        match unpadVisionBlock (idBefore stream.userId stream.inboundUserIdSeen ++ frame.bytes)
            stream.userId with
        | .ok block => .ok (some (stream.takeBlock block (stream.rawRead.drop
            (idBefore stream.userId stream.inboundUserIdSeen ++ frame.bytes).length)))
        | .error e => .error e := by
  rw [decodeNextFrame, nextFrameLen_eq hwire]
  generalize idBefore stream.userId stream.inboundUserIdSeen = pre at hwire ⊢
  split
  · rfl
  next hlen =>
  have htake : stream.rawRead.take (pre ++ frame.bytes).length = pre ++ frame.bytes := by
    rw [eq_append_of_append_eq (hwire.trans (append_assoc ..).symm) (Nat.le_of_not_lt hlen),
      take_left]
  show (unpadVisionBlock _ _ >>= _) = _
  rw [htake]
  cases unpadVisionBlock (pre ++ frame.bytes) stream.userId with
  | ok block => rfl
  | error e => rfl

end VisionStream

/-! ## What a wire holds -/

/-- What a stream reads from a wire, frame by frame: the content, and the error it
ends in if one of the blocks cannot be read. The bytes after the last frame are
content as they are. -/
inductive Yields (userId : UserId) : Bool → Bytes → Bytes → Option VisionError → Prop where
  | next {seen : Bool} (frame : Frame) {block : UnpaddedVisionBlock} {wire content : Bytes}
      {failure : Option VisionError}
      (hblock : unpadVisionBlock (idBefore userId seen ++ frame.bytes) userId = .ok block)
      (hcommand : block.command = .«continue»)
      (hrest : Yields userId true wire content failure) :
      Yields userId seen (idBefore userId seen ++ (frame.bytes ++ wire))
        (block.payload ++ content) failure
  | last {seen : Bool} (frame : Frame) {block : UnpaddedVisionBlock} (rest : Bytes)
      (hblock : unpadVisionBlock (idBefore userId seen ++ frame.bytes) userId = .ok block)
      (hcommand : block.command ≠ .«continue») :
      Yields userId seen (idBefore userId seen ++ (frame.bytes ++ rest))
        (block.payload ++ rest) none
  | fails {seen : Bool} (frame : Frame) {e : VisionError} (rest : Bytes)
      (hblock : unpadVisionBlock (idBefore userId seen ++ frame.bytes) userId = .error e) :
      Yields userId seen (idBefore userId seen ++ (frame.bytes ++ rest)) [] (some e)

/-- The frame a wire begins with, and what its block says of the rest. -/
lemma Yields.split {seen : Bool} {wire content : Bytes} {failure : Option VisionError}
    (h : Yields userId seen wire content failure) :
    ∃ (frame : Frame) (rest : Bytes), wire = idBefore userId seen ++ (frame.bytes ++ rest) ∧
      ((∃ block content', unpadVisionBlock (idBefore userId seen ++ frame.bytes) userId =
          .ok block ∧ content = block.payload ++ content' ∧
          ((block.command = .«continue» ∧ Yields userId true rest content' failure) ∨
            (block.command ≠ .«continue» ∧ content' = rest ∧ failure = none))) ∨
        ∃ e, unpadVisionBlock (idBefore userId seen ++ frame.bytes) userId = .error e ∧
          content = [] ∧ failure = some e) := by
  cases h with
  | next frame hblock hcommand hrest =>
    exact ⟨frame, _, rfl, .inl ⟨_, _, hblock, rfl, .inl ⟨hcommand, hrest⟩⟩⟩
  | last frame rest hblock hcommand =>
    exact ⟨frame, rest, rfl, .inl ⟨_, _, hblock, rfl, .inr ⟨hcommand, rfl, rfl⟩⟩⟩
  | fails frame rest hblock => exact ⟨frame, rest, rfl, .inr ⟨_, hblock, rfl, rfl⟩⟩

namespace VisionStream

/-- The stream is among the frames of a wire, a part of which it has read. -/
structure Framed (stream : VisionStream) (inner : Carrier) (content : Bytes)
    (failure : Option VisionError) : Prop where
  padding : stream.paddingReadMode
  direct : stream.directReadMode = false
  eof : stream.innerEof = false
  wire : Yields stream.userId stream.inboundUserIdSeen (stream.rawRead ++ inner.bytes) content
    failure

/-- The stream still has `content` to give, and ends in `failure`: it has decoded a
part of it, and the rest is on the wire, in frames or plain. -/
inductive Owes (stream : VisionStream) (inner : Carrier) :
    Bytes → Option VisionError → Prop where
  | framed {content : Bytes} {failure : Option VisionError}
      (h : Framed stream inner content failure) :
      Owes stream inner (stream.decodedRead ++ content) failure
  | plain (h : stream.paddingReadMode = false) :
      Owes stream inner (stream.decodedRead ++ inner.bytes) none

variable {stream : VisionStream} {inner : Carrier} {content : Bytes} {failure : Option VisionError}
  {size : Nat}

lemma Owes.framed_of_nil (h : Owes stream inner content failure)
    (hpadding : stream.paddingReadMode) (hdecoded : stream.decodedRead = []) :
    Framed stream inner content failure := by
  cases h with
  | framed h => rwa [hdecoded, nil_append]
  | plain h => exact absurd (h.symm.trans hpadding) (by decide)

/-- Taking out the next frame leaves what the stream owes as it is. A frame that
is not all there leaves something to read. -/
lemma Framed.decodeNextFrame (h : Framed stream inner content failure) :
    match stream.decodeNextFrame with
    | .ok none => inner.bytes ≠ []
    | .ok (some stream') => Owes stream' inner (stream.decodedRead ++ content) failure
    | .error e => content = [] ∧ failure = some e := by
  obtain ⟨frame, rest, heq, hblock⟩ := h.wire.split
  rw [decodeNextFrame_eq heq]
  rw [← append_assoc] at heq
  generalize idBefore stream.userId stream.inboundUserIdSeen ++ frame.bytes = front at heq hblock ⊢
  by_cases hlen : stream.rawRead.length < front.length
  · rw [if_pos hlen]
    intro hnil
    have := congrArg List.length heq
    rw [hnil, append_nil, length_append] at this
    omega
  rw [if_neg hlen]
  have hrest : stream.rawRead.drop front.length ++ inner.bytes = rest := by
    have := congrArg (List.drop front.length) heq
    rwa [drop_left, drop_append_of_le_length (Nat.le_of_not_lt hlen)] at this
  rcases hblock with ⟨block, content', hblock, rfl, hcommand⟩ | ⟨e, hblock, hnil, hfailure⟩
  · rw [hblock]
    show Owes (stream.takeBlock block _) _ _ _
    rw [takeBlock]
    rcases hcommand with ⟨hcont, hyields⟩ | ⟨hlast, rfl, rfl⟩
    · rw [if_pos hcont, ← append_assoc]
      rw [← hrest] at hyields
      exact .framed ⟨h.padding, h.direct, h.eof, hyields⟩
    · rw [if_neg hlast, ← hrest, ← append_assoc, ← append_assoc]
      exact .plain rfl
  · rw [hblock]
    exact ⟨hnil, hfailure⟩

/-- What an answer leaves the stream to give. A pause uses up one of the carrier's,
and an empty answer to a reader with room is the end. -/
def Serves (size : Nat) (inner : Carrier) (content : Bytes) (failure : Option VisionError) :
    Answer → Prop
  | (.pending, stream', inner') =>
    Owes stream' inner' content failure ∧ inner'.pauses < inner.pauses
  | (.ready got, stream', inner') =>
    ∃ content', content = got ++ content' ∧ Owes stream' inner' content' failure ∧
      inner'.pauses ≤ inner.pauses ∧ (0 < size → got = [] → content = [] ∧ failure = none)

lemma fillOutput_serves (h : Owes stream inner content failure)
    (hsome : stream.decodedRead ≠ [] ∨ size = 0) :
    Serves size inner content failure (stream.fillOutput size inner) := by
  have hgot : 0 < size → stream.decodedRead.take size = [] →
      content = [] ∧ failure = none := fun hsize hnil => by
    rcases hsome with hne | hzero
    · exact absurd hnil (by simp [hne]; omega)
    · omega
  cases h with
  | framed h =>
    refine ⟨stream.decodedRead.drop size ++ _, ?_, .framed ⟨h.padding, h.direct, h.eof, h.wire⟩,
      Nat.le_refl _, hgot⟩
    rw [← append_assoc, take_append_drop]
  | plain hpadding =>
    refine ⟨stream.decodedRead.drop size ++ _, ?_, .plain hpadding, Nat.le_refl _, hgot⟩
    rw [← append_assoc, take_append_drop]

/-- A stream past its frames that has given all it decoded gives what it reads. -/
lemma pollInner_serves (h : Owes stream inner content failure)
    (hmode : stream.directReadMode ∨ stream.paddingReadMode = false)
    (hdecoded : stream.decodedRead = []) (hsize : 0 < size) :
    Serves size inner content failure (stream.pollInner size inner) := by
  cases h with
  | framed h => rcases hmode with hmode | hmode <;> simp [h.direct, h.padding] at hmode
  | plain hpadding =>
    have howes : ∀ inner : Carrier, Owes stream inner inner.bytes none := fun inner => by
      have h : Owes stream inner (stream.decodedRead ++ inner.bytes) none := .plain hpadding
      rwa [hdecoded] at h
    rw [pollInner, hdecoded]
    rcases hread : inner.pollRead size with ⟨got | _, rest⟩
    · obtain ⟨hbytes, hpauses, hend⟩ := Carrier.pollRead_ready hsize hread
      exact ⟨rest.bytes, hbytes.symm, howes rest, Nat.le_of_eq hpauses,
        fun _ hnil => ⟨by rw [hend hnil]; rfl, rfl⟩⟩
    · obtain ⟨hbytes, hpauses⟩ := Carrier.pollRead_pending hread
      rw [← hbytes]
      exact ⟨howes rest, by omega⟩

/-- An answer that keeps what is owed, or the failure once all before it was given. -/
def Answers (size : Nat) (inner : Carrier) (content : Bytes) (failure : Option VisionError) :
    Except ReadError Answer → Prop
  | .ok answer => Serves size inner content failure answer
  | .error e => content = [] ∧ ∃ error, failure = some error ∧ e = .invalidData error

lemma Answers.mono {inner' : Carrier} (hpauses : inner'.pauses ≤ inner.pauses)
    {result : Except ReadError Answer} (h : Answers size inner' content failure result) :
    Answers size inner content failure result := by
  rcases result with e | ⟨_ | _, stream, rest⟩
  · exact h
  · obtain ⟨content', heq, howes, hle, hnil⟩ := h
    exact ⟨content', heq, howes, by omega, hnil⟩
  · exact ⟨h.1, Nat.lt_of_lt_of_le h.2 hpauses⟩

lemma readFrames_answers (hsize : 0 < size) (stream : VisionStream) (inner : Carrier)
    (h : Framed stream inner content failure) (hdecoded : stream.decodedRead = []) :
    Answers size inner content failure (readFrames size stream inner) := by
  fun_induction readFrames size stream inner generalizing content with
  | case1 stream inner e hdecode =>
    have hframe := h.decodeNextFrame
    rw [hdecode] at hframe
    exact ⟨hframe.1, e, hframe.2, rfl⟩
  | case2 stream inner stream' hdecode hsome =>
    have hframe := h.decodeNextFrame
    rw [hdecode, hdecoded] at hframe
    exact fillOutput_serves hframe hsome
  | case3 stream inner stream' hdecode hnone hdirect =>
    have hframe := h.decodeNextFrame
    rw [hdecode, hdecoded] at hframe
    exact pollInner_serves hframe (.inl hdirect) (not_not.mp fun hne => hnone (.inl hne)) hsize
  | case4 stream inner stream' hdecode hnone _ hpadding =>
    have hframe := h.decodeNextFrame
    rw [hdecode, hdecoded] at hframe
    exact pollInner_serves hframe (.inr (by simpa using hpadding))
      (not_not.mp fun hne => hnone (.inl hne)) hsize
  | case5 stream inner stream' hdecode hnone _ hpadding ih =>
    have hframe := h.decodeNextFrame
    have hnil : stream'.decodedRead = [] := not_not.mp fun hne => hnone (.inl hne)
    rw [hdecode, hdecoded] at hframe
    exact ih (hframe.framed_of_nil (by simpa using hpadding) hnil) hnil
  | case6 stream inner hdecode heof => exact absurd (h.eof.symm.trans heof) (by decide)
  | case7 stream inner hdecode _ rest hread | case8 stream inner hdecode _ rest hread =>
    -- The carrier cannot end inside a frame.
    have hframe := h.decodeNextFrame
    rw [hdecode, (Carrier.pollRead_ready (by decide) hread).2.2 rfl] at hframe
    exact absurd rfl hframe
  | case9 stream inner hdecode _ b filled rest hread ih =>
    obtain ⟨hbytes, hpauses, -⟩ := Carrier.pollRead_ready (by decide) hread
    refine (ih ⟨h.padding, h.direct, h.eof, ?_⟩ hdecoded).mono (Nat.le_of_eq hpauses)
    show Yields _ _ (stream.rawRead ++ b :: filled ++ rest.bytes) _ _
    rw [append_assoc, hbytes]
    exact h.wire
  | case10 stream inner hdecode _ rest hread =>
    obtain ⟨hbytes, hpauses⟩ := Carrier.pollRead_pending hread
    refine ⟨?_, by omega⟩
    have howes : Owes stream rest (stream.decodedRead ++ content) failure :=
      .framed ⟨h.padding, h.direct, h.eof, by rw [hbytes]; exact h.wire⟩
    rwa [hdecoded] at howes

lemma pollRead_answers (h : Owes stream inner content failure) (size : Nat) :
    Answers size inner content failure (stream.pollRead size inner) := by
  rw [pollRead]
  by_cases hsome : stream.decodedRead ≠ [] ∨ size = 0
  · rw [if_pos hsome]
    exact fillOutput_serves h hsome
  obtain ⟨hdecoded, hsize⟩ : stream.decodedRead = [] ∧ 0 < size := by
    rw [not_or, not_not] at hsome
    exact ⟨hsome.1, Nat.pos_of_ne_zero hsome.2⟩
  rw [if_neg hsome]
  by_cases hdirect : stream.directReadMode = true
  · rw [if_pos hdirect]
    exact pollInner_serves h (.inl hdirect) hdecoded hsize
  rw [if_neg hdirect]
  by_cases hpadding : stream.paddingReadMode = true
  · rw [if_neg (by simp [hpadding])]
    exact readFrames_answers hsize stream inner (h.framed_of_nil hpadding hdecoded) hdecoded
  · rw [if_pos (by simpa using hpadding)]
    exact pollInner_serves h (.inr (by simpa using hpadding)) hdecoded hsize

def roomy (sizes : List Nat) : Nat := sizes.countP (0 < ·)

/-- What a number of polls with room makes of `content` and the failure behind it:
a front of the content, and all of it once each byte and each pause had its poll;
and the failure by the poll after that. -/
def Delivers (content : Bytes) (failure : Option VisionError) (pauses polls : Nat) :
    Except ReadError (Bytes × VisionStream × Carrier) → Prop
  | .ok (out, _, _) => ∃ content', content = out ++ content' ∧
      (content.length + pauses ≤ polls → content' = []) ∧
      (failure ≠ none → polls ≤ content.length + pauses)
  | .error e => ∃ error, failure = some error ∧ e = .invalidData error

lemma readAll_delivers (h : Owes stream inner content failure) (sizes : List Nat) :
    Delivers content failure inner.pauses (roomy sizes) (readAll sizes stream inner) := by
  induction sizes generalizing stream inner content with
  | nil =>
    refine ⟨content, rfl, fun hle => ?_, fun _ => Nat.zero_le _⟩
    exact eq_nil_of_length_eq_zero (Nat.eq_zero_of_add_eq_zero_right (Nat.le_zero.mp hle))
  | cons size sizes ih =>
    have hpoll := pollRead_answers h size
    have hroomy : roomy (size :: sizes) = roomy sizes + if 0 < size then 1 else 0 := by
      simp [roomy, countP_cons]
    rw [readAll]
    generalize stream.pollRead size inner = result at hpoll ⊢
    rcases result with e | ⟨got | _, stream', inner'⟩
    · exact hpoll.2
    · obtain ⟨content', rfl, howes, hpauses, hend⟩ := hpoll
      have hrest := ih howes
      show Delivers _ _ _ _ (readAll sizes stream' inner' >>= _)
      generalize readAll sizes stream' inner' = result at hrest ⊢
      rcases result with e | ⟨out, stream'', inner''⟩
      · exact hrest
      obtain ⟨left, rfl, hall, hfail⟩ := hrest
      have hgot : 0 < size → 0 < got.length ∨ (left = [] ∧ failure = none) := fun hsize => by
        by_cases hnil : got = []
        · obtain ⟨hcontent, hfailure⟩ := hend hsize hnil
          simp only [append_eq_nil_iff] at hcontent
          exact .inr ⟨hcontent.2.2, hfailure⟩
        · exact .inl (length_pos_iff.mpr hnil)
      refine ⟨left, (append_assoc ..).symm, fun hle => ?_, fun hne => ?_⟩
      · rw [hroomy, length_append] at hle
        split at hle
        · next hsize =>
          rcases hgot hsize with hpos | hdone
          · exact hall (by omega)
          · exact hdone.1
        · exact hall (by omega)
      · have := hfail hne
        rw [hroomy, length_append]
        split
        · next hsize =>
          rcases hgot hsize with hpos | hdone
          · omega
          · exact absurd hdone.2 hne
        · omega
    · obtain ⟨howes, hpauses⟩ := hpoll
      have hrest := ih howes
      show Delivers _ _ _ _ (readAll sizes stream' inner' >>= _)
      generalize readAll sizes stream' inner' = result at hrest ⊢
      rcases result with e | ⟨out, stream'', inner''⟩
      · exact hrest
      obtain ⟨left, rfl, hall, hfail⟩ := hrest
      refine ⟨left, rfl, fun hle => hall ?_, fun hne => ?_⟩
      · rw [hroomy] at hle
        split at hle <;> omega
      · have := hfail hne
        rw [hroomy]
        split <;> omega

end VisionStream

end Xray.Vless
