import Xray.Kcp.Engine

/-!
# What the two workers of an mKCP engine do

Delivery depends on little of what the workers do: which segments leave the
sending window and why, and which payloads enter the receiving window. `Sheds`
and `Loses` say the first, `Grows` the second, and each function of a worker has
one lemma of the one or the other kind. Of the ack list it matters only that it
acks what it was told to.
-/

namespace Xray.Kcp

open Bytes AList AckSegment List

/-! ## The sending window -/

/-- Nothing enters the window or changes its number or payload, and what leaves it
satisfies `lost`. -/
structure Sheds (lost : UInt32 → Prop) (window window' : List Unacked) : Prop where
  kept_from : ∀ u' ∈ window', ∃ u ∈ window, u.number = u'.number ∧ u.payload = u'.payload
  kept_or_lost : ∀ u ∈ window, (∃ u' ∈ window', u'.number = u.number) ∨ lost u.number

namespace Sheds

variable {lost lost' : UInt32 → Prop} {window window' window'' : List Unacked}

lemma refl (window : List Unacked) : Sheds lost window window :=
  ⟨fun u hu => ⟨u, hu, rfl, rfl⟩, fun u hu => .inl ⟨u, hu, rfl⟩⟩

lemma trans (h : Sheds lost window window') (h' : Sheds lost window' window'') :
    Sheds lost window window'' where
  kept_from u'' hu'' := by
    obtain ⟨u', hu', hnumber', hpayload'⟩ := h'.kept_from u'' hu''
    obtain ⟨u, hu, hnumber, hpayload⟩ := h.kept_from u' hu'
    exact ⟨u, hu, hnumber.trans hnumber', hpayload.trans hpayload'⟩
  kept_or_lost u hu := by
    rcases h.kept_or_lost u hu with ⟨u', hu', hnumber⟩ | hlost
    · rw [← hnumber]
      exact h'.kept_or_lost u' hu'
    · exact .inr hlost

lemma mono (h : Sheds lost window window') (hle : ∀ n, lost n → lost' n) :
    Sheds lost' window window' :=
  ⟨h.kept_from, fun u hu => (h.kept_or_lost u hu).imp_right (hle _)⟩

lemma cons {u u' : Unacked} (hnumber : u'.number = u.number) (hpayload : u'.payload = u.payload)
    (h : Sheds lost window window') : Sheds lost (u :: window) (u' :: window') where
  kept_from v hv := by
    rcases mem_cons.mp hv with rfl | hv
    · exact ⟨u, .head _, hnumber.symm, hpayload.symm⟩
    · obtain ⟨w, hw, heq⟩ := h.kept_from v hv
      exact ⟨w, .tail _ hw, heq⟩
  kept_or_lost v hv := by
    rcases mem_cons.mp hv with rfl | hv
    · exact .inl ⟨u', .head _, hnumber⟩
    · exact (h.kept_or_lost v hv).imp_left fun ⟨w, hw, heq⟩ => ⟨w, .tail _ hw, heq⟩

lemma tail {u : Unacked} (hlost : lost u.number) (h : Sheds lost window window') :
    Sheds lost (u :: window) window' where
  kept_from v hv := by
    obtain ⟨w, hw, heq⟩ := h.kept_from v hv
    exact ⟨w, .tail _ hw, heq⟩
  kept_or_lost v hv := by
    rcases mem_cons.mp hv with rfl | hv
    · exact .inr hlost
    · exact h.kept_or_lost v hv

end Sheds

namespace SendingWorker

lemma sheds_dropWhile (una : UInt32) (window : List Unacked) :
    Sheds (· < una) window (window.dropWhile fun u => decide (u.number < una)) := by
  induction window with
  | nil => exact .refl _
  | cons u window ih =>
    rw [dropWhile_cons]
    split
    · next hlt => exact ih.tail (of_decide_eq_true hlt)
    · exact .refl _

lemma sheds_removeFrom {number : UInt32} {window window' : List Unacked}
    (h : removeFrom number window = some window') : Sheds (· = number) window window' := by
  induction window generalizing window' with
  | nil => exact absurd h (by simp [removeFrom])
  | cons u window ih =>
    rw [removeFrom] at h
    split at h
    · simp at h
    split at h
    · next heq =>
      cases h
      exact (Sheds.refl _).tail heq
    · obtain ⟨rest, hrest, rfl⟩ := Option.map_eq_some_iff.mp h
      exact (ih hrest).cons rfl rfl

lemma sheds_hasten (number rto : UInt32) (window : List Unacked) :
    Sheds (fun _ => False) window (hasten number rto window) := by
  induction window with
  | nil => exact .refl _
  | cons u window ih =>
    rw [hasten]
    split
    · exact .refl _
    · refine ih.cons ?_ ?_ <;> split <;> rfl

/-- `Sheds` on the worker, which hands out no number. -/
structure Loses (lost : UInt32 → Prop) (sending sending' : SendingWorker) : Prop where
  window : Sheds lost sending.window sending'.window
  nextNumber : sending'.nextNumber = sending.nextNumber

namespace Loses

variable {lost lost' : UInt32 → Prop} {sending sending' sending'' : SendingWorker}

lemma refl (sending : SendingWorker) : Loses lost sending sending := ⟨.refl _, rfl⟩

lemma trans (h : Loses lost sending sending') (h' : Loses lost sending' sending'') :
    Loses lost sending sending'' :=
  ⟨h.window.trans h'.window, h'.nextNumber.trans h.nextNumber⟩

lemma mono (h : Loses lost sending sending') (hle : ∀ n, lost n → lost' n) :
    Loses lost' sending sending' := ⟨h.window.mono hle, h.nextNumber⟩

end Loses

section

variable (sending : SendingWorker)

lemma loses_clear (una : UInt32) :
    Loses (· < una) sending (sending.clear una) := ⟨sheds_dropWhile _ _, rfl⟩

lemma loses_processReceivingNext (una : UInt32) :
    Loses (· < una) sending (sending.processReceivingNext una) := ⟨sheds_dropWhile _ _, rfl⟩

lemma loses_release : Loses (fun _ => True) sending sending.release :=
  ⟨⟨fun _ h => absurd h (by simp [release]), fun _ _ => .inr trivial⟩, rfl⟩

lemma loses_remove (number : UInt32) : Loses (· = number) sending (sending.remove number).1 := by
  rw [remove]
  split
  · exact .refl _
  · next hremove => exact ⟨sheds_removeFrom hremove, rfl⟩

lemma loses_processAck (number : UInt32) :
    Loses (· = number) sending (sending.processAck number).1 := by
  have hremove := sending.loses_remove number
  rw [processAck]
  split
  · exact .refl _
  split
  · next heq =>
    rw [heq] at hremove
    exact ⟨hremove.window, hremove.nextNumber⟩
  · next heq =>
    rw [heq] at hremove
    exact hremove

end

lemma loses_processAcks (numbers : List UInt32) (sending : SendingWorker) (maxAck : UInt32)
    (removed : Bool) :
    Loses (· ∈ numbers) sending (processAcks numbers sending maxAck removed).1 := by
  induction numbers generalizing sending maxAck removed with
  | nil => exact .refl _
  | cons number numbers ih =>
    have hhead : Loses (· ∈ number :: numbers) sending (sending.processAck number).1 :=
      (sending.loses_processAck number).mono fun n hn => hn ▸ .head _
    rw [processAcks]
    dsimp only
    split <;> exact hhead.trans ((ih _ _ _).mono fun n hn => .tail _ hn)

lemma loses_processSegment (sending : SendingWorker) (current : UInt32) (segment : AckSegment)
    (rto : UInt32) (roundTrip : RoundTrip) :
    Loses (fun n => n < segment.receivingNext ∨ n ∈ segment.numbers) sending
      (sending.processSegment current segment rto roundTrip).1 := by
  rw [processSegment]
  split
  · exact .refl _
  dsimp only
  generalize hfirst : SendingWorker.processReceivingNext _ _ = cleared
  have hcleared : Loses (fun n => n < segment.receivingNext ∨ n ∈ segment.numbers)
      sending cleared := by
    rw [← hfirst]
    exact ⟨(sheds_dropWhile _ _).mono fun n hn => .inl hn, rfl⟩
  have hacks := (loses_processAcks segment.numbers cleared 0 false).mono
    fun n hn => (.inr hn : n < segment.receivingNext ∨ n ∈ segment.numbers)
  split
  · exact hcleared
  · split
    · exact (hcleared.trans hacks).trans ⟨(sheds_hasten _ _ _).mono fun n hn => hn.elim, rfl⟩
    · exact hcleared.trans hacks

end SendingWorker

/-! ## The ack list -/

namespace AckList

def Names (acks : AckList) (number : UInt32) : Prop :=
  ∃ entry ∈ acks.entries, entry.number = number

lemma names_of_clear {acks : AckList} {una number : UInt32}
    (h : (acks.clear una).Names number) : acks.Names number := by
  obtain ⟨entry, hentry, hnumber⟩ := h
  exact ⟨entry, (mem_filter.mp hentry).1, hnumber⟩

lemma names_of_add {acks : AckList} {number timestamp number' : UInt32}
    (h : (acks.add number timestamp).Names number') :
    acks.Names number' ∨ number' = number := by
  obtain ⟨entry, hentry, hnumber⟩ := h
  rcases mem_append.mp hentry with hold | hnew
  · exact .inl ⟨entry, hold, hnumber⟩
  · rw [mem_singleton.mp hnew] at hnumber
    exact .inr hnumber.symm

/-- An ack segment a peer reads whole, about numbers that satisfy `P`. -/
def Acks (P : UInt32 → Prop) (segment : AckSegment) : Prop :=
  segment.numbers.length ≤ ackNumberLimit ∧ ∀ n ∈ segment.numbers, P n

/-- What the loop of `flush` has gathered is about numbers that satisfy `P`, and
its segment has room. -/
structure Flushing.Within (P : UInt32 → Prop) (flushing : Flushing) : Prop where
  passed : ∀ entry ∈ flushing.passed, P entry.number
  numbers : ∀ n ∈ flushing.segment.numbers, P n
  candidates : ∀ n ∈ flushing.candidates, P n
  room : flushing.segment.numbers.length < flushing.segment.limit
  limit : flushing.segment.limit ≤ ackNumberLimit
  written : ∀ segment ∈ flushing.written, Acks P segment

variable {P : UInt32 → Prop}

lemma forall_mem_concat {α : Type*} {Q : α → Prop} {l : List α} {a : α} (h : ∀ b ∈ l, Q b)
    (ha : Q a) : ∀ b ∈ l ++ [a], Q b :=
  forall_mem_append.mpr ⟨h, forall_mem_singleton.mpr ha⟩

lemma newSegment_room (acks : AckList) :
    acks.newSegment.numbers = [] ∧ 0 < acks.newSegment.limit ∧
      acks.newSegment.limit ≤ ackNumberLimit := by
  refine ⟨rfl, ?_, ?_⟩
  · simp only [newSegment, new]
    omega
  · simp only [newSegment, new, ackNumberLimit]
    omega

lemma within_flushEntry (acks : AckList) (current rto : UInt32) {flushing : Flushing}
    {entry : AckEntry} (h : flushing.Within P) (hentry : P entry.number) :
    (acks.flushEntry current rto flushing entry).Within P := by
  obtain ⟨hnil, hpos, hlimit⟩ := acks.newSegment_room
  have hput : ∀ (segment : AckSegment) (timestamp : UInt32),
      (segment.putTimestamp timestamp).numbers = segment.numbers ∧
        (segment.putTimestamp timestamp).limit = segment.limit := by
    intro segment timestamp
    rw [putTimestamp]
    split <;> exact ⟨rfl, rfl⟩
  rw [flushEntry]
  split
  · refine ⟨forall_mem_concat h.passed hentry, h.numbers, ?_, h.room, h.limit, h.written⟩
    split
    · exact forall_mem_concat h.candidates hentry
    · exact h.candidates
  dsimp only
  generalize hsegment : putTimestamp _ _ = segment
  obtain ⟨hnumbers, hbound⟩ := hput { flushing.segment with
    numbers := flushing.segment.numbers ++ [entry.number] } entry.timestamp
  rw [hsegment] at hnumbers hbound
  dsimp only at hnumbers hbound
  have hroom := h.room
  have hflushing := h.limit
  have hlength : segment.numbers.length = flushing.segment.numbers.length + 1 := by
    rw [hnumbers, length_append]
    rfl
  have hP : ∀ n ∈ segment.numbers, P n := hnumbers ▸ forall_mem_concat h.numbers hentry
  split
  · refine ⟨forall_mem_concat h.passed hentry, ?_, h.candidates, ?_, hlimit,
      forall_mem_concat h.written ⟨by omega, hP⟩⟩
    · intro n hn
      rw [hnil] at hn
      simp at hn
    · exact hpos
  · next hfull =>
    have hne : segment.numbers.length ≠ segment.limit := by
      intro heq
      exact hfull (beq_iff_eq.mpr heq)
    exact ⟨forall_mem_concat h.passed hentry, hP, h.candidates, by dsimp only; omega,
      by dsimp only; omega, h.written⟩

lemma within_foldl (acks : AckList) (current rto : UInt32) (entries : List AckEntry)
    {flushing : Flushing} (h : flushing.Within P) (hentries : ∀ entry ∈ entries, P entry.number) :
    (entries.foldl (acks.flushEntry current rto) flushing).Within P := by
  induction entries generalizing flushing with
  | nil => exact h
  | cons entry entries ih =>
    exact ih (acks.within_flushEntry current rto h (hentries entry (.head _)))
      fun e he => hentries e (.tail _ he)

lemma acks_repeatInto {segment : AckSegment} {numbers : List UInt32}
    (h : Acks P segment) (hlimit : segment.limit ≤ ackNumberLimit)
    (hroom : segment.numbers.length ≤ segment.limit) (hnumbers : ∀ n ∈ numbers, P n) :
    Acks P (repeatInto segment numbers) := by
  induction numbers generalizing segment with
  | nil => exact h
  | cons number numbers ih =>
    rw [repeatInto]
    split
    · exact h
    next hfull =>
    have hne : segment.numbers.length ≠ segment.limit := by
      intro heq
      exact hfull (beq_iff_eq.mpr heq)
    have hlength : (segment.numbers ++ [number]).length = segment.numbers.length + 1 := by
      rw [length_append]
      rfl
    refine ih ⟨?_, forall_mem_concat h.2 (hnumbers number (.head _))⟩ hlimit ?_
      fun n hn => hnumbers n (.tail _ hn)
    all_goals
      dsimp only
      omega

/-- Flushing acks numbers of the list, and drops none from it. -/
lemma flush_names (acks : AckList) (current rto : UInt32) :
    (∀ n, (acks.flush current rto).1.Names n → acks.Names n) ∧
      ∀ segment ∈ (acks.flush current rto).2, Acks acks.Names segment := by
  obtain ⟨hnil, hpos, hlimit⟩ := acks.newSegment_room
  have hinit : Flushing.Within acks.Names { segment := acks.newSegment, dirty := acks.dirty } :=
    ⟨by simp, by simp [hnil], by simp, by rw [hnil]; exact hpos, hlimit, by simp⟩
  have hloop := acks.within_foldl current rto acks.entries hinit fun e he => ⟨e, he, rfl⟩
  rw [flush]
  generalize acks.entries.foldl _ _ = flushing at hloop
  have hnames : ∀ n, (∃ entry ∈ flushing.passed, entry.number = n) → acks.Names n := by
    rintro n ⟨entry, hentry, rfl⟩
    exact hloop.passed entry hentry
  have hroom := hloop.room
  have hbound := hloop.limit
  split
  · exact ⟨hnames, forall_mem_concat hloop.written
      (acks_repeatInto ⟨by omega, hloop.numbers⟩ hloop.limit hroom.le hloop.candidates)⟩
  · exact ⟨hnames, hloop.written⟩

end AckList

/-! ## The receiving worker -/

namespace ReceivingWorker

/-- In order already, or waiting in the window. -/
def Has (receiving : ReceivingWorker) (number : UInt32) : Prop :=
  number < receiving.nextNumber ∨ number ∈ receiving.window

lemma mem_window_iff {receiving : ReceivingWorker} {number : UInt32} :
    number ∈ receiving.window ↔ ∃ payload, receiving.window.lookup number = some payload := by
  rw [← lookup_isSome, Option.isSome_iff_exists]

/-- Nothing leaves the window, what enters it satisfies `sent`, and only numbers in
it come into the ack list. -/
structure Grows (sent : UInt32 → Bytes → Prop) (receiving receiving' : ReceivingWorker) :
    Prop where
  nextNumber : receiving'.nextNumber = receiving.nextNumber
  keeps : ∀ n payload, receiving.window.lookup n = some payload →
    receiving'.window.lookup n = some payload
  arrives : ∀ n payload, receiving'.window.lookup n = some payload →
    receiving.window.lookup n = some payload ∨ sent n payload
  names : ∀ n, receiving'.acks.Names n → receiving.acks.Names n ∨ n ∈ receiving'.window

namespace Grows

variable {sent : UInt32 → Bytes → Prop} {receiving receiving' receiving'' : ReceivingWorker}

lemma of_acks (hnext : receiving'.nextNumber = receiving.nextNumber)
    (hwindow : receiving'.window = receiving.window)
    (hnames : ∀ n, receiving'.acks.Names n → receiving.acks.Names n) :
    Grows sent receiving receiving' :=
  ⟨hnext, fun _ _ h => hwindow ▸ h, fun _ _ h => .inl (hwindow ▸ h), fun n h => .inl (hnames n h)⟩

lemma refl (receiving : ReceivingWorker) : Grows sent receiving receiving :=
  of_acks rfl rfl fun _ h => h

variable (h : Grows sent receiving receiving')

include h

lemma mem {n : UInt32} (hn : n ∈ receiving.window) : n ∈ receiving'.window := by
  obtain ⟨payload, hpayload⟩ := mem_window_iff.mp hn
  exact mem_window_iff.mpr ⟨payload, h.keeps n payload hpayload⟩

lemma has {n : UInt32} (hn : receiving.Has n) : receiving'.Has n := by
  rcases hn with hlt | hmem
  · exact .inl (h.nextNumber ▸ hlt)
  · exact .inr (h.mem hmem)

lemma trans (h' : Grows sent receiving' receiving'') : Grows sent receiving receiving'' where
  nextNumber := h'.nextNumber.trans h.nextNumber
  keeps n payload hn := h'.keeps n payload (h.keeps n payload hn)
  arrives n payload hn := by
    rcases h'.arrives n payload hn with hold | hsent
    · exact h.arrives n payload hold
    · exact .inr hsent
  names n hn := by
    rcases h'.names n hn with hold | hmem
    · exact (h.names n hold).imp_right h'.mem
    · exact .inr hmem

end Grows

lemma grows_processSegment {sent : UInt32 → Bytes → Prop} (receiving : ReceivingWorker)
    (segment : DataSegment) (hsent : sent segment.number segment.payload) :
    Grows sent receiving (receiving.processSegment segment) := by
  rw [processSegment]
  split
  · exact .refl _
  refine ⟨rfl, ?_, ?_, ?_⟩
  · intro n payload hn
    split
    · exact hn
    next hnew =>
    have hne : n ≠ segment.number := by
      rintro rfl
      exact hnew (mem_window_iff.mpr ⟨payload, hn⟩)
    rw [lookup_insert_ne hne]
    exact hn
  · intro n payload hn
    split at hn
    · exact .inl hn
    by_cases heq : n = segment.number
    · subst heq
      rw [lookup_insert] at hn
      cases hn
      exact .inr hsent
    · rw [lookup_insert_ne heq] at hn
      exact .inl hn
  · intro n hn
    rcases AckList.names_of_add hn with hold | rfl
    · exact .inl (AckList.names_of_clear hold)
    refine .inr ?_
    split
    · next hmem => exact hmem
    · exact (mem_insert _).mpr (.inl rfl)

end ReceivingWorker

end Xray.Kcp
