import Xray.Lib.Fallible
import Xray.Dns.Message

/-!
# What the resolver reads as a name

`read_dns_name` follows the walk of `WireName` from its offset, and reads the name of the walk if
it takes at most 31 labels and pointers and the labels are UTF-8 (`readDnsName_eq_ok`).
-/

namespace Xray.Dns

open Ascii Bytes Fallible WireName List

variable {packet : Bytes} {limit : Nat}

/-- What the resolver's reader makes of a walk. -/
structure Reads (packet : Bytes) (limit turns : Nat) (before : List Str) (cursor : Nat)
    (jumped : Option Nat) (result : Str × Nat) (steps : List Step) (stop : Nat) : Prop where
  walk : Walk packet cursor steps stop
  turns : steps.length < turns
  utf8 : ∀ label ∈ labels steps, isUtf8 label
  within : jumped = none → stop ≤ limit
  name : result.1 = joinLabels (before ++ (labels steps).map lower)
  offset : result.2 = jumped.getD stop

variable {turns cursor offset : Nat} {jumped : Option Nat} {result : Str × Nat}

lemma reads_of_loop {before : List Str}
    (h : readDnsNameLoop packet limit turns before cursor jumped = .ok result) :
    ∃ steps stop, Reads packet limit turns before cursor jumped result steps stop := by
  fun_induction readDnsNameLoop packet limit turns before cursor jumped with
  | case6 turns before cursor jumped _ length hbyte hpointer hroom low hlow ih =>
    obtain ⟨steps, stop, hreads⟩ := ih h
    refine ⟨_, _, .pointer (element_pointer hbyte hpointer hlow) hreads.walk,
      Nat.succ_lt_succ hreads.turns, hreads.utf8, fun hnone => ?_, hreads.name, ?_⟩
    · have : ¬limit < cursor + 2 := fun hlt => hroom ⟨hnone, hlt⟩
      omega
    · rw [hreads.offset]
      cases jumped <;> rfl
  | case7 turns before cursor jumped hlimit hbyte =>
    cases h
    refine ⟨[], _, .root (element_root hbyte), Nat.succ_pos _,
      fun _ hmem => absurd hmem (by simp [labels]), fun hnone => ?_, ?_, rfl⟩
    · have : ¬limit ≤ cursor := fun hle => hlimit ⟨hnone, hle⟩
      omega
    · rw [labels, map_nil, append_nil]
  | case11 turns before cursor jumped _ length hbyte hpointer hzero hplain stop _ label hlabel
      hutf8 ih =>
    obtain ⟨steps, stop', hreads⟩ := ih h
    obtain ⟨helement, hlen⟩ := element_label hbyte hpointer hzero hplain hlabel
    rw [show stop = cursor + 1 + label.length by rw [hlen]] at hreads
    refine ⟨_, _, .label helement hreads.walk, Nat.succ_lt_succ hreads.turns, ?_, hreads.within, ?_,
      hreads.offset⟩
    · intro l hl
      rcases mem_cons.mp hl with rfl | hl
      · exact hutf8
      · exact hreads.utf8 l hl
    · rw [hreads.name, labels, map_cons, append_assoc, singleton_append]
  | _ => cases h

lemma loop_of_reads {before : List Str} {steps : List Step} {stop : Nat}
    (h : Reads packet limit turns before cursor jumped result steps stop) :
    readDnsNameLoop packet limit turns before cursor jumped = .ok result := by
  induction turns generalizing before cursor jumped steps stop with
  | zero => exact absurd h.turns (Nat.not_lt_zero _)
  | succ turns ih =>
    have hlt := h.walk.lt_stop
    have hlimit : ¬(jumped = none ∧ limit ≤ cursor) := by
      intro hboth
      have := h.within hboth.1
      omega
    rw [readDnsNameLoop, if_neg hlimit]
    cases h.walk with
    | root helement =>
      rcases element_cases helement with ⟨-, hbyte⟩ | ⟨_, _, heq, -⟩ | ⟨_, _, heq, -⟩
      · rw [hbyte]
        have hname := h.name
        rw [labels, map_nil, append_nil] at hname
        exact congrArg Except.ok (Prod.ext hname.symm h.offset.symm)
      all_goals cases heq
    | pointer helement hrest =>
      rcases element_cases helement with ⟨heq, -⟩ |
        ⟨length, low, heq, hbyte, hpointer, hlow⟩ | ⟨_, _, heq, -⟩
      · cases heq
      · cases heq
        have hroom : ¬(jumped = none ∧ limit < cursor + 2) := by
          intro hboth
          have := h.within hboth.1
          omega
        rw [hbyte]
        dsimp only
        rw [if_pos hpointer, if_neg hroom, hlow]
        refine ih ⟨hrest, Nat.lt_of_succ_lt_succ h.turns, h.utf8, ?_, h.name, ?_⟩
        · intro hnone
          cases jumped <;> cases hnone
        · rw [h.offset]
          cases jumped <;> rfl
      · cases heq
    | label helement hrest =>
      rcases element_cases helement with ⟨heq, -⟩ | ⟨_, _, heq, -⟩ |
        ⟨length, bytes, heq, hbyte, hlen, hpointer, hzero, hplain, hbytes⟩
      · cases heq
      · cases heq
      cases heq
      have hnext := hrest.lt_stop
      have hroom : ¬(jumped = none ∧ limit < cursor + 1 + length.toNat) := by
        intro hboth
        have := h.within hboth.1
        omega
      rw [hbyte]
      dsimp only
      rw [if_neg hpointer, if_neg hzero, if_neg hplain, if_neg hroom, hbytes]
      dsimp only
      rw [if_pos (h.utf8 _ mem_cons_self)]
      rw [hlen] at hrest
      refine ih ⟨hrest, Nat.lt_of_succ_lt_succ h.turns,
        fun l hl => h.utf8 l (mem_cons_of_mem _ hl), h.within, ?_, h.offset⟩
      rw [h.name, labels, map_cons, append_assoc, singleton_append]

/-- `read_dns_name` reads the name of the walk, if it has at most 31 steps and its labels are
UTF-8. -/
lemma readDnsName_eq_ok : readDnsName packet offset = .ok result ↔
      ∃ steps, Walk packet offset steps result.2 ∧ steps.length ≤ 31 ∧
        (∀ label ∈ labels steps, isUtf8 label) ∧
        result.1 = joinLabels ((labels steps).map lower) := by
  rw [readDnsName, readDnsNameLimited]
  constructor
  · intro h
    split at h
    · cases h
    · obtain ⟨steps, stop, hreads⟩ := reads_of_loop h
      have hstop : result.2 = stop := hreads.offset
      exact ⟨steps, hstop ▸ hreads.walk, Nat.le_of_lt_succ hreads.turns, hreads.utf8, hreads.name⟩
  · rintro ⟨steps, hwalk, hturns, hutf8, hname⟩
    have hlt := hwalk.lt_stop
    have hle := hwalk.stop_le
    rw [if_neg (by omega)]
    exact loop_of_reads ⟨hwalk, Nat.lt_succ_of_le hturns, hutf8, fun _ => hle, hname, rfl⟩

lemma readU16_eq_ok {value : UInt16} :
    readU16 packet offset = .ok value ↔ u16? packet offset = some value := by
  rw [readU16]
  cases u16? packet offset <;> simp [orError]

lemma readDnsQuestion_eq_ok {question : Question} {behind : Nat} :
    readDnsQuestion packet offset = .ok (question, behind) ↔
      ∃ stop, readDnsName packet offset = .ok (question.name, stop) ∧
        u16? packet stop = some question.recordType ∧
        u16? packet (stop + 2) = some question.recordClass ∧ behind = stop + 4 := by
  constructor
  · intro h
    obtain ⟨⟨name, stop⟩, hname, h⟩ := bind_eq_ok.mp h
    obtain ⟨recordType, htype, h⟩ := bind_eq_ok.mp h
    obtain ⟨recordClass, hclass, h⟩ := bind_eq_ok.mp h
    split at h
    · cases h
    cases h
    refine ⟨stop, hname, ?_, ?_, rfl⟩
    · exact readU16_eq_ok.mp htype
    · exact readU16_eq_ok.mp hclass
  · rintro ⟨stop, hname, htype, hclass, rfl⟩
    obtain ⟨bytes, hbytes, -⟩ := Option.map_eq_some_iff.mp hclass
    have hle := (slice?_eq_some hbytes).2.1
    refine bind_eq_ok.mpr ⟨_, hname, bind_eq_ok.mpr ⟨_, readU16_eq_ok.mpr htype,
      bind_eq_ok.mpr ⟨_, readU16_eq_ok.mpr hclass, ?_⟩⟩⟩
    rw [if_neg (by omega)]
    rfl

end Xray.Dns
