import Xray.Outbound.DnsName
import Xray.Proofs.DnsReply

/-!
# The readers of names end at the same place

A name that the TUN device has validated is accepted by the other two readers, which find the
same end. The loops run side by side, turn by turn.
-/

namespace Xray.Outbound

open Bytes WireName Xray.Tun

variable {message : Bytes} {fromUtf8Lossy : Bytes → Bytes}

namespace NameReader

variable {this : NameReader}

/-- What bounds the turns of the loop. -/
structure Bounded (message : Bytes) (this : NameReader) : Prop where
  pointers : this.pointerCount ≤ 128
  labels : 1 + 2 * this.labelCount ≤ this.expandedLen
  expanded : this.expandedLen ≤ 255
  offset : this.jumped → this.offset ≤ message.length

lemma Bounded.loop (h : Bounded message this) :
    ∃ this' result, loop fromUtf8Lossy message this = (this', result) ∧
      this'.pointerCount ≤ 128 ∧ this'.labelCount ≤ 127 ∧
      (result = .ok () → this'.offset ≤ message.length) := by
  obtain ⟨hpointers, hlabels, hexpanded, hoffset⟩ := h
  have hcount : this.labelCount ≤ 127 := by omega
  fun_induction NameReader.loop fromUtf8Lossy message this with
  | case1 | case2 | case3 | case4 | case7 | case8 | case9 =>
    exact ⟨_, _, rfl, hpointers, hcount, fun hok => (by cases hok)⟩
  | case5 this labelLen hbyte hpointer next hnext pointer hback hless ih =>
    have hin := (List.getElem_of_getElem? hnext).1
    refine ih (by simp only [jump]; omega) hlabels hexpanded (fun _ => ?_) hcount
    simp only [jump]
    split
    next hjumped => exact hoffset hjumped
    next => exact hin
  | case6 this hbyte =>
    have hin := (List.getElem_of_getElem? hbyte).1
    refine ⟨_, _, rfl, hpointers, hcount, fun _ => ?_⟩
    split
    next hjumped => exact hoffset hjumped
    next => exact hin
  | case10 this labelLen hbyte hpointer hzero hplain label hlabel hfits ih =>
    have hpos : labelLen.toNat ≠ 0 := fun h0 => hzero (UInt8.toNat_inj.mp h0)
    refine ih hpointers ?_ ?_ (fun hjumped => ?_) ?_
    · simp only [passLabel]
      omega
    · simp only [passLabel]
      omega
    · simp only [passLabel] at hjumped ⊢
      rw [if_pos hjumped]
      exact hoffset hjumped
    · simp only [passLabel]
      omega

/-- The reader stands where the validation stands. -/
structure At (cursor : Nat) (encodedEnd : Option Nat) (expandedLen turns : Nat)
    (this : NameReader) : Prop where
  cursor : this.cursor = cursor
  jumped : this.jumped = encodedEnd.isSome
  offset : ∀ e, encodedEnd = some e → this.offset = e
  expanded : this.expandedLen = expandedLen + 1
  pointers : this.pointerCount + turns ≤ 128

lemma loop_of_validates {turns cursor expandedLen stop : Nat} {encodedEnd : Option Nat}
    (h : Validates message stop turns cursor encodedEnd expandedLen)
    (hat : At cursor encodedEnd expandedLen turns this) :
    expandedLen < 255 ∧
      ∃ this', loop fromUtf8Lossy message this = (this', .ok ()) ∧ this'.offset = stop := by
  induction h generalizing this with
  | @root _ _ _ encodedEnd hbyte hfits hstop =>
    obtain ⟨rfl, hjumped, hoffset, hexpanded, hpointers⟩ := hat
    rw [loop]
    simp only [hbyte]
    refine ⟨hfits, _, rfl, ?_⟩
    rw [hjumped, ← hstop]
    cases encodedEnd with
    | none => rfl
    | some e => exact hoffset e rfl
  | @label turns _ expandedLen encodedEnd labelLen bytes hbyte hplain hpointer hzero hbytes _ _
      ih =>
    obtain ⟨rfl, hjumped, hoffset, hexpanded, hpointers⟩ := hat
    have hnext : At (this.cursor + 1 + labelLen.toNat) encodedEnd
        (expandedLen + (labelLen.toNat + 1)) turns
        (this.passLabel fromUtf8Lossy bytes labelLen.toNat) := by
      refine ⟨rfl, hjumped, fun e he => ?_, ?_, ?_⟩
      · simp only [passLabel]
        rw [hjumped, he]
        exact hoffset e he
      all_goals
        simp only [passLabel]
        omega
    -- The empty label at the end has to fit too.
    obtain ⟨hfits, hrest⟩ := ih hnext
    rw [loop]
    simp only [hbyte, hbytes]
    rw [if_neg hpointer, if_neg hzero, if_neg (not_not_intro hplain), if_neg (by omega)]
    exact ⟨by omega, hrest⟩
  | @pointer _ _ _ encodedEnd _ _ hbyte _ hpointer hlow hback _ ih =>
    obtain ⟨rfl, hjumped, hoffset, hexpanded, hpointers⟩ := hat
    rw [loop]
    simp only [hbyte, hlow]
    rw [if_pos hpointer, if_neg hback, if_neg (by omega)]
    refine ih ⟨rfl, ?_, fun e he => ?_, hexpanded, ?_⟩
    · cases encodedEnd <;> rfl
    · simp only [jump]
      rw [hjumped]
      cases encodedEnd with
      | none => exact Option.some.inj he
      | some e' => exact (hoffset e' rfl).trans (Option.some.inj he)
    · simp only [jump]
      omega

end NameReader

lemma skipQuestions_of_validate {message : Bytes} {count offset stop : Nat}
    (h : validateQuestions message count offset = some stop) :
    skipQuestions message count offset = some stop := by
  induction count generalizing offset with
  | zero => exact h
  | succ count ih =>
    obtain ⟨behind, hname, h⟩ := Option.bind_eq_some_iff.mp h
    obtain ⟨_, hfields, h⟩ := Option.bind_eq_some_iff.mp h
    have hthere : behind + 4 - 1 < message.length := by
      have := (slice?_eq_some hfields).2.1
      omega
    rw [skipQuestions, (skip_of_validate hname).1, Option.bind_eq_bind, Option.bind_some,
      List.getElem?_eq_getElem hthere]
    exact ih h

/-- For every message and offset, `read_dns_name` returns after at most 128 jumps and 127
labels, with an offset inside the message if it succeeds; and where `validate_dns_wire_name`
accepts a name, it and `skip_dns_wire_name` accept the name with the same end, and so for questions
that are validated. -/
theorem dns_name_walkers_agree (fromUtf8Lossy : Bytes → Bytes) (message : Bytes) (offset : Nat)
    (domain : Option Bytes) :
    ∃ this result, readDnsName fromUtf8Lossy message offset domain = (this, result) ∧
      this.pointerCount ≤ 128 ∧ this.labelCount ≤ 127 ∧
      (result = .ok () → this.offset ≤ message.length) ∧
      (∀ stop, validateDnsWireName message offset = some stop →
        result = .ok () ∧ this.offset = stop ∧ skipDnsWireName message offset = some stop) ∧
      ∀ count stop, validateQuestions message count offset = some stop →
        skipQuestions message count offset = some stop := by
  have hbounded : NameReader.Bounded message { cursor := offset, offset, domain } :=
    ⟨Nat.zero_le _, Nat.le_refl _, by simp, fun hjumped => (by cases hjumped)⟩
  have hat : NameReader.At offset none 0 128 { cursor := offset, offset, domain } :=
    ⟨rfl, rfl, fun e he => (by cases he), rfl, Nat.le_refl _⟩
  obtain ⟨this, result, hread, hpointers, hlabels, hoffset⟩ := hbounded.loop
  refine ⟨this, result, hread, hpointers, hlabels, hoffset, fun stop hstop => ?_,
    fun _ _ => skipQuestions_of_validate⟩
  obtain ⟨-, this', hok, hend⟩ := NameReader.loop_of_validates (validates_of_loop hstop) hat
  cases hread.symm.trans hok
  exact ⟨rfl, hend, (skip_of_validate hstop).1⟩

/-- A pointer to a name of one label. -/
theorem dns_name_walkers_agree_pointer :
    ∃ this, readDnsName id (List.replicate 12 0 ++ [1, 97, 0, 192, 12]) 15 none = (this, .ok ()) ∧
      this.offset = 17 := by
  obtain ⟨this, result, hread, -, -, -, hagrees, -⟩ :=
    dns_name_walkers_agree id (List.replicate 12 0 ++ [1, 97, 0, 192, 12]) 15 none
  obtain ⟨rfl, hoffset, -⟩ := hagrees 17 rfl
  exact ⟨this, hread, hoffset⟩

end Xray.Outbound
