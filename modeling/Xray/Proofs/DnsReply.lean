import Xray.Proofs.DnsName
import Xray.Tun.DnsWire

/-!
# Which replies to a client's DNS query are recognised

Three readers of names meet here: one that validates a message (`validate_dns_wire_name`), one that
finds the end of its question (`skip_dns_wire_name`), and the resolver's, which compares questions
(`read_dns_name`). All three follow the walk of `WireName`, so they can differ in two ways only.

* **Bounds.** The resolver's reader takes 32 turns, where a name may have 127 labels, and wants
  every label to be UTF-8. `Readable` says that the name of a question is within these bounds.

* **Bytes.** A pointer of a question may lead through bytes behind the question. These are not
  repeated by a reply, so `Readable` wants the name to be there when the message ends with its
  question.

A query is recognised in its replies exactly if its question is `Readable`. A name of 32 labels is
not, and an address of IPv6 has 34 in its reverse name.
-/

namespace Xray.Tun

open Ascii Bytes Fallible WireName List
open Xray.Dns

/-! ## The readers of the device -/

variable {message : Bytes} {turns offset nameStart n start : Nat} {replyFlags : UInt16} {stop : Nat}

/-- The runs of `validate_dns_wire_name` that accept a name and give `stop`. -/
inductive Validates (message : Bytes) (stop : Nat) : Nat → Nat → Option Nat → Nat → Prop
  | root {turns cursor expandedLen : Nat} {encodedEnd : Option Nat}
      (hbyte : message[cursor]? = some 0) (hfits : expandedLen < 255)
      (hstop : encodedEnd.getD (cursor + 1) = stop) :
      Validates message stop (turns + 1) cursor encodedEnd expandedLen
  | label {turns cursor expandedLen : Nat} {encodedEnd : Option Nat} {labelLen : UInt8}
      {bytes : Bytes} (hbyte : message[cursor]? = some labelLen) (hplain : labelLen &&& 0xc0 = 0)
      (hpointer : ¬labelLen &&& 0xc0 = 0xc0) (hzero : ¬labelLen = 0)
      (hbytes : slice? message (cursor + 1) (cursor + 1 + labelLen.toNat) = some bytes)
      (hfits : expandedLen + (labelLen.toNat + 1) ≤ 255)
      (hrest : Validates message stop turns (cursor + 1 + labelLen.toNat) encodedEnd
        (expandedLen + (labelLen.toNat + 1))) :
      Validates message stop (turns + 1) cursor encodedEnd expandedLen
  | pointer {turns cursor expandedLen : Nat} {encodedEnd : Option Nat} {labelLen low : UInt8}
      (hbyte : message[cursor]? = some labelLen) (hplain : ¬labelLen &&& 0xc0 = 0)
      (hpointer : labelLen &&& 0xc0 = 0xc0) (hlow : message[cursor + 1]? = some low)
      (hback : ¬(pointerTo labelLen low < 12 ∨ cursor ≤ pointerTo labelLen low))
      (hrest : Validates message stop turns (pointerTo labelLen low)
        (encodedEnd.or (some (cursor + 2))) expandedLen) :
      Validates message stop (turns + 1) cursor encodedEnd expandedLen

variable {cursor expandedLen : Nat} {encodedEnd : Option Nat}

lemma validates_of_loop
    (h : validateDnsWireNameLoop message turns cursor encodedEnd expandedLen = some stop) :
    Validates message stop turns cursor encodedEnd expandedLen := by
  fun_induction validateDnsWireNameLoop message turns cursor encodedEnd expandedLen with
  | case4 turns cursor encodedEnd expandedLen hlong hbyte =>
    exact .root hbyte (by omega) (Option.some.inj h)
  | case8 turns cursor encodedEnd expandedLen labelLen hbyte hplain hzero _ _ bytes hbytes _
      hfits ih =>
    have hpointer : ¬labelLen &&& 0xc0 = 0xc0 := by
      rw [hplain]
      decide
    exact .label hbyte hplain hpointer hzero hbytes (by omega) (ih h)
  | case11 turns cursor encodedEnd expandedLen labelLen hbyte hplain hpointer low hlow _ hback ih =>
    exact .pointer hbyte hplain hpointer hlow hback (ih h)
  | _ => cases h

lemma Validates.walk (h : Validates message stop turns cursor encodedEnd expandedLen) :
    ∃ steps stop', Walk message cursor steps stop' ∧ Above 12 steps ∧
      stop = encodedEnd.getD stop' := by
  induction h with
  | root hbyte _ hstop =>
    exact ⟨[], _, .root (element_root hbyte), fun _ hmem => absurd hmem (by simp), hstop.symm⟩
  | label hbyte hplain hpointer hzero hbytes _ _ ih =>
    obtain ⟨steps, stop', hwalk, habove, hstop⟩ := ih
    obtain ⟨helement, hlen⟩ := element_label hbyte hpointer hzero (fun hne => hne hplain) hbytes
    rw [← hlen] at hwalk
    refine ⟨_, _, .label helement hwalk, ?_, hstop⟩
    intro target hmem
    rcases mem_cons.mp hmem with heq | hmem
    · cases heq
    · exact habove target hmem
  | @pointer _ _ _ encodedEnd _ _ hbyte _ hpointer hlow hback _ ih =>
    obtain ⟨steps, stop', hwalk, habove, hstop⟩ := ih
    refine ⟨_, _, .pointer (element_pointer hbyte hpointer hlow) hwalk, ?_, ?_⟩
    · intro target hmem
      rcases mem_cons.mp hmem with heq | hmem
      · cases heq
        omega
      · exact habove target hmem
    · rw [hstop]
      cases encodedEnd <;> rfl

lemma walk_of_validate (h : validateDnsWireName message offset = some stop) :
    ∃ steps, Walk message offset steps stop ∧ Above 12 steps := by
  obtain ⟨steps, stop', hwalk, habove, hstop⟩ := (validates_of_loop h).walk
  exact ⟨steps, hstop ▸ hwalk, habove⟩

/-- A validated name is passed, with the same end. Its bytes are at most 255, or 257 with a
pointer. -/
lemma Validates.skipLoop {fuel : Nat}
    (h : Validates message stop turns cursor encodedEnd expandedLen) (hnone : encodedEnd = none)
    (hcursor : cursor = nameStart + expandedLen) (hfuel : message.length < cursor + fuel)
    (hle : expandedLen ≤ 255) :
    skipDnsWireNameLoop message nameStart fuel cursor = some stop ∧ stop ≤ nameStart + 257 := by
  -- A turn of the other loop begins with the same byte, so there is fuel for it.
  have hturn {cursor fuel : Nat} {labelLen : UInt8} (hbyte : message[cursor]? = some labelLen)
      (hfuel : message.length < cursor + fuel) : ∃ fuel', fuel = fuel' + 1 :=
    Nat.exists_eq_add_one.mpr (by have := (List.getElem_of_getElem? hbyte).1; omega)
  induction h generalizing fuel with
  | root hbyte hfits hstop =>
    obtain ⟨fuel, rfl⟩ := hturn hbyte hfuel
    subst hnone hstop
    simp only [skipDnsWireNameLoop, hbyte]
    rw [if_pos (by decide), if_pos trivial, if_pos (by omega)]
    exact ⟨rfl, by simp only [Option.getD_none]; omega⟩
  | @label _ cursor _ _ labelLen _ hbyte hplain _ hzero hbytes hfits _ ih =>
    obtain ⟨fuel, rfl⟩ := hturn hbyte hfuel
    obtain ⟨-, hend, -⟩ := slice?_eq_some hbytes
    have hlast : message[cursor + 1 + labelLen.toNat - 1]?.isNone = false := by
      rw [getElem?_eq_getElem (by omega)]
      rfl
    simp only [skipDnsWireNameLoop, hbyte]
    rw [if_pos hplain, if_neg hzero,
      if_neg (by rw [hlast]; simp only [Bool.false_eq_true, false_or]; omega)]
    exact ih hnone (by omega) (by omega) (by omega)
  | pointer hbyte hplain hpointer hlow hback hrest _ =>
    obtain ⟨fuel, rfl⟩ := hturn hbyte hfuel
    obtain ⟨steps, stop', -, -, rfl⟩ := hrest.walk
    subst hnone
    simp only [skipDnsWireNameLoop, hbyte, hlow]
    rw [if_neg hplain, if_pos hpointer, if_neg hback]
    exact ⟨rfl, by simp only [Option.none_or, Option.getD_some]; omega⟩

lemma skip_of_validate (h : validateDnsWireName message offset = some stop) :
    skipDnsWireName message offset = some stop ∧ stop ≤ offset + 257 :=
  (validates_of_loop h).skipLoop rfl rfl (by omega) (Nat.zero_le _)

/-! ## A client's query -/

/-- A query of one question, whose name is a walk that ends at `stop`. -/
structure Asks (message : Bytes) (flags : UInt16) (steps : List Step) (stop : Nat) : Prop where
  header : u16? message 2 = some flags
  query : flags &&& 0x8000 = 0
  count : u16? message 4 = some 1
  walk : Walk message 12 steps stop
  above : Above 12 steps
  questionEnd : dnsQuestionSectionEnd message = some (stop + 4)
  stop_le : stop ≤ 12 + 257
  length : stop + 4 ≤ message.length

lemma validateQuestions_one {behind : Nat} (h : validateQuestions message 1 12 = some behind) :
    ∃ steps stop, Walk message 12 steps stop ∧ Above 12 steps ∧ stop + 4 ≤ message.length ∧
      validateDnsWireName message 12 = some stop := by
  obtain ⟨stop, hvalidate, h⟩ := Option.bind_eq_some_iff.mp h
  obtain ⟨bytes, hbytes, -⟩ := Option.bind_eq_some_iff.mp h
  obtain ⟨steps, hwalk, habove⟩ := walk_of_validate hvalidate
  exact ⟨steps, stop, hwalk, habove, (slice?_eq_some hbytes).2.1, hvalidate⟩

lemma questionEnd_eq (hend : dnsQuestionSectionEnd message = some n)
    (hcount : u16? message 4 = some 1) (hvalidate : validateDnsWireName message 12 = some stop) :
    n = stop + 4 ∧ stop ≤ 12 + 257 := by
  obtain ⟨count, hcount', hend⟩ := Option.bind_eq_some_iff.mp hend
  cases hcount.symm.trans hcount'
  obtain ⟨stop', hskip, hend⟩ := Option.bind_eq_some_iff.mp hend
  obtain ⟨byte, -, hend⟩ := Option.bind_eq_some_iff.mp hend
  obtain ⟨hsame, hle⟩ := skip_of_validate hvalidate
  cases hsame.symm.trans hskip
  exact ⟨(Option.some.inj hend).symm, hle⟩

lemma asks_of_kind (h : rawDnsTcpClientFrameKind message = .query) :
    ∃ flags steps stop, Asks message flags steps stop := by
  rw [rawDnsTcpClientFrameKind] at h
  by_cases hwell : dnsWireEnvelopeIsWellFormed message = true
  · rw [hwell, if_neg (by decide)] at h
    cases hflags : u16? message 2 with
    | none =>
      rw [hflags] at h
      cases h
    | some flags =>
      rw [hflags] at h
      dsimp only at h
      split at h
      · cases h
      next hheader =>
      simp only [not_or, Classical.not_not] at hheader
      obtain ⟨hquery, -, hcount⟩ := hheader
      cases hend : dnsQuestionSectionEnd message with
      | none =>
        rw [hend] at h
        cases h
      | some n =>
        have hwell : envelopeEnd message = some message.length := of_decide_eq_true hwell
        obtain ⟨count, hcount', hwell⟩ := Option.bind_eq_some_iff.mp hwell
        cases hcount.symm.trans hcount'
        obtain ⟨answerCount, -, hwell⟩ := Option.bind_eq_some_iff.mp hwell
        obtain ⟨authorityCount, -, hwell⟩ := Option.bind_eq_some_iff.mp hwell
        obtain ⟨additionalCount, -, hwell⟩ := Option.bind_eq_some_iff.mp hwell
        obtain ⟨offset, hquestions, -⟩ := Option.bind_eq_some_iff.mp hwell
        obtain ⟨steps, stop, hwalk, habove, hlen, hvalidate⟩ := validateQuestions_one hquestions
        obtain ⟨rfl, hle⟩ := questionEnd_eq hend hcount hvalidate
        exact ⟨flags, steps, stop, hflags, hquery, hcount, hwalk, habove, hend, hle, hlen⟩
  · rw [Bool.not_eq_true] at hwell
    rw [hwell] at h
    cases h

/-- The message repeats the id, the opcode and the question of the query, and is a response. -/
structure Repeats (query response : Bytes) : Prop where
  id : response.take 2 = query.take 2
  flags : ∃ queryFlags flags, u16? query 2 = some queryFlags ∧ u16? response 2 = some flags ∧
    flags &&& 0x8000 ≠ 0 ∧ queryFlags &&& 0x7800 = flags &&& 0x7800
  count : u16? response 4 = some 1
  question : ∀ questionEnd, dnsQuestionSectionEnd query = some questionEnd →
    questionEnd ≤ response.length ∧
    (response.take questionEnd).drop 12 = (query.take questionEnd).drop 12

/-- The name of the question can be read when the message ends with the question: it takes at most
31 labels and pointers, and the labels are UTF-8. -/
def Readable (query : Bytes) : Prop :=
  ∃ steps stop, dnsQuestionSectionEnd query = some (stop + 4) ∧
    Walk (query.take (stop + 4)) 12 steps stop ∧ steps.length ≤ 31 ∧
    ∀ label ∈ labels steps, isUtf8 label = true

variable {query response : Bytes} {flags : UInt16} {steps : List Step} {stop : Nat}

lemma extends_take (query : Bytes) (n : Nat) : Extends 12 (query.take n) query := by
  intro i byte _ hget
  have hi := (List.getElem_of_getElem? hget).1
  rw [length_take] at hi
  rwa [getElem?_take_of_lt (by omega)] at hget

lemma Repeats.extends (h : Repeats query response) (hend : dnsQuestionSectionEnd query = some n) :
    Extends 12 (query.take n) response := by
  obtain ⟨hlen, hsame⟩ := h.question n hend
  intro i byte hi hget
  have hlt := (List.getElem_of_getElem? hget).1
  rw [length_take] at hlt
  have hdrop : ((query.take n).drop 12)[i - 12]? = some byte := by
    rw [getElem?_drop, Nat.add_sub_cancel' hi, hget]
  rw [← hsame, getElem?_drop, Nat.add_sub_cancel' hi, getElem?_take_of_lt (by omega)] at hdrop
  exact hdrop

lemma u16?_take (query : Bytes) (hn : offset + 2 ≤ n) (hlen : offset + 2 ≤ query.length) :
    ∃ value, u16? (query.take n) offset = some value := by
  rw [u16?, slice?, if_pos ⟨by omega, by rw [length_take]; omega⟩]
  exact ⟨_, rfl⟩

/-- What the readers find in the question of a readable query, in every message that repeats it. -/
lemma Readable.reads (h : Readable query) (hasks : Asks query flags steps stop) :
    ∃ question behind, ∀ message, Extends 12 (query.take (stop + 4)) message →
      readDnsQuestion message 12 = .ok (question, behind) := by
  obtain ⟨steps', stop', hend, hwalk, hturns, hutf8⟩ := h
  rw [hasks.questionEnd] at hend
  have hstop : stop' = stop := by
    have := Option.some.inj hend
    omega
  subst hstop
  have hlen := hasks.length
  obtain ⟨rfl, -⟩ := hwalk.eq_of_extends (extends_take query _) hasks.walk (Nat.le_refl _)
    hasks.above
  obtain ⟨recordType, htype⟩ : ∃ value, u16? (query.take (stop' + 4)) stop' = some value :=
    u16?_take query (by omega) (by omega)
  obtain ⟨recordClass, hclass⟩ : ∃ value, u16? (query.take (stop' + 4)) (stop' + 2) = some value :=
    u16?_take query (by omega) (by omega)
  have hlt := hwalk.lt_stop
  refine ⟨⟨joinLabels ((labels steps').map lower), recordType, recordClass⟩, stop' + 4, ?_⟩
  intro message hextends
  refine readDnsQuestion_eq_ok.mpr ⟨stop', readDnsName_eq_ok.mpr ⟨steps', ?_, hturns, hutf8, rfl⟩,
    hextends.u16? (by omega) htype, hextends.u16? (by omega) hclass, rfl⟩
  exact hwalk.extend hextends (Nat.le_refl _) hasks.above

lemma matches_eq (hasks : Asks query flags steps stop) (h : Repeats query response) :
    dnsResponseMatchesQuery query response ↔
      ∃ question behind behind', readDnsQuestion query 12 = .ok (question, behind) ∧
        readDnsQuestion response 12 = .ok (question, behind') := by
  obtain ⟨queryFlags, responseFlags, hquery, hresponse, hset, hopcode⟩ := h.flags
  rw [hasks.header] at hquery
  cases hquery
  have hlength := hasks.length
  have hlt := hasks.walk.lt_stop
  have hlength' := (h.question _ hasks.questionEnd).1
  have hparse : parseDnsQuestion query = (readDnsQuestion query 12).map Prod.fst := by
    rw [parseDnsQuestion, readU16_eq_ok.mpr hasks.count]
    cases readDnsQuestion query 12 <;> rfl
  rw [dnsResponseMatchesQuery, if_neg (by
    rw [h.id]
    simp only [ne_eq, not_true, or_false]
    omega), hasks.header, hresponse]
  dsimp only
  rw [if_neg (by simp [hasks.query, hset, hopcode]), hparse]
  cases readDnsQuestion query 12 with
  | error e => simp [Except.map]
  | ok question =>
    show (if u16? response 4 ≠ some 1 then false else _) = true ↔ _
    rw [if_neg (by simp [h.count])]
    cases readDnsQuestion response 12 with
    | error e => simp
    | ok question' => simp [eq_comm, Prod.ext_iff]

/-- A message with other flags, counts and records. -/
def reply (query : Bytes) (n : Nat) (flags : UInt16) (counts tail : Bytes) : Bytes :=
  query.take 2 ++ toBe 2 flags.toNat ++ (query.take 6).drop 4 ++ counts ++
    (query.take n).drop 12 ++ tail

lemma length_part (h : stop ≤ query.length) :
    ((query.take stop).drop start).length = stop - start := length_slice h

lemma repeats_reply (hasks : Asks query flags steps stop) (hset : replyFlags &&& 0x8000 ≠ 0)
    (hopcode : flags &&& 0x7800 = replyFlags &&& 0x7800) {counts : Bytes}
    (hcounts : counts.length = 6) (tail : Bytes) :
    Repeats query (reply query (stop + 4) replyFlags counts tail) := by
  have hlength := hasks.length
  have hlt := hasks.walk.lt_stop
  have htwo : (query.take 2).length = 2 := by
    rw [length_take]
    omega
  have hpart : ((query.take 6).drop 4).length = 2 := length_part (by omega)
  have hquestion : ((query.take (stop + 4)).drop 12).length = stop + 4 - 12 :=
    length_part (by omega)
  refine ⟨?_, ⟨flags, replyFlags, hasks.header, ?_, hset, hopcode⟩, ?_, ?_⟩
  · simp only [reply, append_assoc]
    exact take_left' htwo
  · have hslice := slice?_append (query.take 2) (toBe 2 replyFlags.toNat)
      ((query.take 6).drop 4 ++ counts ++ (query.take (stop + 4)).drop 12 ++ tail)
    rw [htwo, length_toBe] at hslice
    rw [u16?, reply]
    simp only [append_assoc] at hslice ⊢
    rw [hslice, Option.map_some, ofBe_toBe_of_lt replyFlags.toNat_lt, UInt16.ofNat_toNat]
  · have hslice := slice?_append (query.take 2 ++ toBe 2 replyFlags.toNat) ((query.take 6).drop 4)
      (counts ++ (query.take (stop + 4)).drop 12 ++ tail)
    rw [length_append, htwo, length_toBe, hpart] at hslice
    rw [u16?, reply]
    simp only [append_assoc] at hslice ⊢
    rw [hslice, ← hasks.count, u16?, slice?, if_pos ⟨by omega, by omega⟩]
  intro n hend
  rw [hasks.questionEnd] at hend
  cases hend
  have hslice := slice?_append
    (query.take 2 ++ toBe 2 replyFlags.toNat ++ (query.take 6).drop 4 ++ counts)
    ((query.take (stop + 4)).drop 12) tail
  have hheader : (query.take 2 ++ toBe 2 replyFlags.toNat ++ (query.take 6).drop 4 ++
      counts).length = 12 := by
    simp only [length_append, htwo, length_toBe, hpart, hcounts]
  rw [hheader, hquestion, show 12 + (stop + 4 - 12) = stop + 4 by omega] at hslice
  obtain ⟨-, hle, heq⟩ := slice?_eq_some hslice
  exact ⟨hle, heq.symm⟩

lemma overwrite_append {before old new : Bytes} (after : Bytes) (hstart : before.length = start)
    (h : old.length = new.length) :
    overwrite (before ++ (old ++ after)) start new = before ++ (new ++ after) := by
  have hlen : start + new.length = (before ++ old).length := by
    rw [length_append, h, hstart]
  rw [overwrite, hlen, ← append_assoc before old, drop_left, append_assoc before old,
    ← hstart, take_left, append_assoc]

lemma take_parts (hn : 12 ≤ n) :
    query.take n = query.take 2 ++ (query.take 4).drop 2 ++ (query.take 6).drop 4 ++
      (query.take 12).drop 6 ++ (query.take n).drop 12 := by
  have hjoin : ∀ {a b : Nat}, a ≤ b → query.take a ++ (query.take b).drop a = query.take b := by
    intro a b hab
    conv_rhs => rw [← take_append_drop a (query.take b)]
    rw [take_take, Nat.min_eq_left hab]
  rw [hjoin (by omega), hjoin (by omega), hjoin (by omega), hjoin hn]

lemma dnsErrorResponse_eq (hasks : Asks query flags steps stop) (rcode : UInt16) :
    ∃ counts tail, counts.length = 6 ∧ tail.length ≤ 11 ∧
      dnsErrorResponse query rcode false = some (reply query (stop + 4)
        (0x8000 ||| (flags &&& 0x7910) ||| 0x0080 ||| (rcode &&& 0x000f)) counts tail) := by
  have hlength := hasks.length
  have hlt := hasks.walk.lt_stop
  have htwo : (query.take 2).length = 2 := by
    rw [length_take]
    omega
  have hflags : UInt16.ofNat (ofBe ((query.take 4).drop 2)) = flags := by
    have hheader := hasks.header
    rw [u16?, slice?, if_pos ⟨by omega, by omega⟩] at hheader
    exact Option.some.inj hheader
  have hold : ((query.take 4).drop 2).length = 2 := length_part (by omega)
  have hpart : ((query.take 6).drop 4).length = 2 := length_part (by omega)
  have hcounts : ((query.take 12).drop 6).length = 6 := length_part (by omega)
  have hflagged : ∀ word : Bytes, word.length = 2 → overwrite (query.take (stop + 4)) 2 word =
        (query.take 2 ++ word ++ (query.take 6).drop 4) ++
          ((query.take 12).drop 6 ++ (query.take (stop + 4)).drop 12) := by
    intro word hword
    have hover := overwrite_append ((query.take 6).drop 4 ++ ((query.take 12).drop 6 ++
      (query.take (stop + 4)).drop 12)) htwo (hold.trans hword.symm)
    conv_lhs => rw [take_parts (show 12 ≤ stop + 4 by omega)]
    simp only [append_assoc] at hover ⊢
    rw [hover]
  have hcleared : ∀ word : Bytes, word.length = 2 →
      overwrite (overwrite (query.take (stop + 4)) 2 word) 6 (List.replicate 6 0) =
        (query.take 2 ++ word ++ (query.take 6).drop 4 ++ List.replicate 4 0) ++
          ([0, 0] ++ (query.take (stop + 4)).drop 12) := by
    intro word hword
    have hsix : (query.take 2 ++ word ++ (query.take 6).drop 4).length = 6 := by
      simp only [length_append, htwo, hword, hpart]
    rw [hflagged word hword, overwrite_append _ hsix (by rw [hcounts, length_replicate])]
    simp only [append_assoc]
    rfl
  rw [dnsErrorResponse, dnsErrorResponseWithPayloadSize, if_neg (by omega), hasks.questionEnd,
    Option.getD_some, hflags]
  dsimp only
  rw [if_neg (show ¬stop + 4 = 12 by omega)]
  rw [hcleared _ (length_toBe 2 _)]
  cases validatedEdnsRequest query with
  | none =>
    refine ⟨List.replicate 6 0, [], rfl, Nat.zero_le _, ?_⟩
    rw [reply, append_nil]
    simp only [append_assoc]
    rfl
  | some edns =>
    refine ⟨List.replicate 4 0 ++ toBe 2 1, ednsResponse edns edns.udpPayloadSize, rfl,
      Nat.le_of_eq ?_, ?_⟩
    · rfl
    have hten : ∀ word : Bytes, word.length = 2 →
        (query.take 2 ++ word ++ (query.take 6).drop 4 ++ List.replicate 4 0).length = 10 := by
      intro word hword
      simp only [length_append, htwo, hword, hpart, length_replicate]
    have htwo' : ([0, 0] : Bytes).length = (toBe 2 1).length := rfl
    rw [overwrite_append _ (hten _ (length_toBe 2 _)) htwo', reply]
    simp only [append_assoc]
    rfl

lemma or_and (a b mask : UInt16) : (a ||| b) &&& mask = (a &&& mask) ||| (b &&& mask) := by
  apply UInt16.eq_of_toBitVec_eq
  ext i hi
  simp [Bool.and_or_distrib_right]

lemma errorFlags_and (flags rcode mask : UInt16) :
    (0x8000 ||| (flags &&& 0x7910) ||| 0x0080 ||| (rcode &&& 0x000f)) &&& mask =
      (0x8000 &&& mask) ||| (flags &&& (0x7910 &&& mask)) ||| (0x0080 &&& mask) |||
        (rcode &&& (0x000f &&& mask)) := by
  rw [or_and, or_and, or_and, UInt16.and_assoc, UInt16.and_assoc]

lemma errorFlags_response (flags rcode : UInt16) :
    (0x8000 ||| (flags &&& 0x7910) ||| 0x0080 ||| (rcode &&& 0x000f)) &&& 0x8000 ≠ 0 := by
  rw [errorFlags_and]
  show 0x8000 ||| (flags &&& 0) ||| 0 ||| (rcode &&& 0) ≠ 0
  simp

lemma errorFlags_opcode (flags rcode : UInt16) : flags &&& 0x7800 =
      (0x8000 ||| (flags &&& 0x7910) ||| 0x0080 ||| (rcode &&& 0x000f)) &&& 0x7800 := by
  rw [errorFlags_and]
  show _ = 0 ||| (flags &&& 0x7800) ||| 0 ||| (rcode &&& 0)
  simp

lemma extends_reply (hasks : Asks query flags steps stop) {counts : Bytes}
    (hcounts : counts.length = 6) (h : Repeats query (reply query (stop + 4) replyFlags counts [])) :
    Extends 12 (reply query (stop + 4) replyFlags counts []) (query.take (stop + 4)) := by
  have hlength := hasks.length
  have hlt := hasks.walk.lt_stop
  have hsame := (h.question _ hasks.questionEnd).2
  have hlen : (reply query (stop + 4) replyFlags counts []).length = stop + 4 := by
    simp only [reply, length_append, length_take, length_drop, length_toBe, length_nil]
    omega
  intro i byte hi hget
  have htake : (reply query (stop + 4) replyFlags counts []).take (stop + 4) =
      reply query (stop + 4) replyFlags counts [] := take_of_length_le (Nat.le_of_eq hlen)
  rw [htake] at hsame
  have hdrop : ((reply query (stop + 4) replyFlags counts []).drop 12)[i - 12]? = some byte := by
    rw [getElem?_drop, Nat.add_sub_cancel' hi, hget]
  rwa [hsame, getElem?_drop, Nat.add_sub_cancel' hi] at hdrop

lemma readable_of_matches (hasks : Asks query flags steps stop)
    (h : ∀ response, Repeats query response → dnsResponseMatchesQuery query response) :
    Readable query := by
  have hrepeats := repeats_reply hasks (errorFlags_response flags 0) (errorFlags_opcode flags 0)
    (show (List.replicate 6 (0 : UInt8)).length = 6 from rfl) []
  obtain ⟨question, behind, behind', -, hread⟩ := (matches_eq hasks hrepeats).mp (h _ hrepeats)
  obtain ⟨stop', hname, -⟩ := readDnsQuestion_eq_ok.mp hread
  obtain ⟨steps', hwalk, hturns, hutf8, -⟩ := readDnsName_eq_ok.mp hname
  have hshort := extends_reply hasks length_replicate hrepeats
  have hlong : Extends 12 (reply query (stop + 4) _ (List.replicate 6 0) []) query :=
    fun i byte hi hget => extends_take query _ i byte hi (hshort i byte hi hget)
  obtain ⟨rfl, heq⟩ := hwalk.eq_of_extends hlong hasks.walk (Nat.le_refl _) hasks.above
  have hstop : stop' = stop := heq
  rw [hstop] at hwalk
  exact ⟨steps', stop, hasks.questionEnd, hwalk.extend hshort (Nat.le_refl _) hasks.above, hturns,
    hutf8⟩

lemma Readable.matches (h : Readable query) (hasks : Asks query flags steps stop)
    (hrepeats : Repeats query response) : dnsResponseMatchesQuery query response := by
  obtain ⟨question, behind, hreads⟩ := h.reads hasks
  exact (matches_eq hasks hrepeats).mpr ⟨question, behind, behind,
    hreads query (extends_take query _), hreads response (hrepeats.extends hasks.questionEnd)⟩

lemma Readable.framed (h : Readable query) (hasks : Asks query flags steps stop)
    (rcode : UInt16) : (framedDnsErrorResponse query rcode).isSome := by
  obtain ⟨counts, tail, hcounts, htail, heq⟩ := dnsErrorResponse_eq hasks rcode
  have hrepeats := repeats_reply hasks (errorFlags_response flags rcode)
    (errorFlags_opcode flags rcode) hcounts tail
  have hmatches := h.matches hasks hrepeats
  have hstop := hasks.stop_le
  have hlen : ∀ replyFlags, 8 ≤ (reply query (stop + 4) replyFlags counts tail).length ∧
      (reply query (stop + 4) replyFlags counts tail).length ≤ 65535 := by
    intro replyFlags
    simp only [reply, length_append, length_take, length_drop, length_toBe]
    omega
  rw [framedDnsErrorResponse, heq]
  show Option.isSome (if _ then none else framedDnsPayload _) = true
  rw [hmatches, if_neg (by decide), framedDnsPayload, if_neg]
  · rfl
  rw [not_or]
  refine ⟨fun hnil => ?_, ?_⟩
  · have hle := (hlen (0x8000 ||| (flags &&& 0x7910) ||| 0x0080 ||| (rcode &&& 0x000f))).1
    rw [hnil] at hle
    cases hle
  · exact Nat.not_lt.mpr (hlen _).2

/-- The replies to a client's query are recognised, those among them that the device makes for an
error, exactly if the name of its question is readable. -/
theorem replies_are_recognised (query : Bytes) (h : rawDnsTcpClientFrameKind query = .query) :
    ((∀ response, Repeats query response → dnsResponseMatchesQuery query response = true) ∧
      ∀ rcode, (framedDnsErrorResponse query rcode).isSome = true) ↔ Readable query := by
  obtain ⟨flags, steps, stop, hasks⟩ := asks_of_kind h
  constructor
  · rintro ⟨hmatches, -⟩
    exact readable_of_matches hasks hmatches
  intro hreadable
  exact ⟨fun response hrepeats => hreadable.matches hasks hrepeats,
    fun rcode => hreadable.framed hasks rcode⟩

def shortQuery : Bytes :=
  [0x12, 0x34, 1, 0, 0, 1, 0, 0, 0, 0, 0, 0, 1, 97, 0, 0, 1, 0, 1]

theorem replies_to_shortQuery :
    (∀ response, Repeats shortQuery response →
      dnsResponseMatchesQuery shortQuery response = true) ∧
    ∀ rcode, (framedDnsErrorResponse shortQuery rcode).isSome = true :=
  (replies_are_recognised shortQuery (by decide +kernel)).mpr
    ⟨[.label [97]], 15, by decide +kernel, .label (by decide +kernel) (.root (by decide +kernel)),
      by decide, by decide +kernel⟩

def longQuery : Bytes :=
  [0x12, 0x34, 1, 0, 0, 1, 0, 0, 0, 0, 0, 0] ++ (List.replicate 32 [1, 97]).flatten ++
    [0, 0, 12, 0, 1]

/-- The same question with the header of a server's failure. -/
def longReply : Bytes :=
  [0x12, 0x34, 0x81, 0x82, 0, 1, 0, 0, 0, 0, 0, 0] ++ (List.replicate 32 [1, 97]).flatten ++
    [0, 0, 12, 0, 1]

theorem longReply_is_not_recognised :
    rawDnsTcpClientFrameKind longQuery = .query ∧ Repeats longQuery longReply ∧
    dnsResponseMatchesQuery longQuery longReply = false ∧
    framedDnsErrorResponse longQuery 2 = none := by
  refine ⟨by decide +kernel, ⟨rfl, ⟨0x0100, 0x8182, by decide +kernel, by decide +kernel,
    by decide, by decide⟩, by decide +kernel, ?_⟩, by decide +kernel, by decide +kernel⟩
  intro n hend
  have hn : dnsQuestionSectionEnd longQuery = some 81 := by decide +kernel
  rw [hn] at hend
  cases hend
  decide +kernel

end Xray.Tun
