import Mathlib.Data.List.TakeDrop

/-!
# Numbered items over an unreliable network

A sender numbers the items it sends from zero and repeats those it waits for; a
receiver keeps what arrives out of order and passes on what is in order. Neither
the order nor the number of the messages between them matters to the two facts
here.

* `Faithful`: what the receiver keeps under a number is what was sent under it, and
  it has not passed on more than was sent. So what it passed on is the front of
  what was sent.
* `Covered`: each item sent is one the sender still waits for or one the receiver
  has, be it kept or passed on.

Both survive whatever the two sides do, as long as a receiver never loses what it
has (`Receiver.Le`) and a sender stops waiting only for what the receiver has.
-/

namespace Arq

variable {α : Type*}

/-- What a receiver has of the items sent to it: those it keeps under their numbers,
and all below `next`, which it passed on. -/
structure Receiver (α : Type*) where
  keeps : Nat → α → Prop
  next : Nat

namespace Receiver

def Has (r : Receiver α) (i : Nat) : Prop := i < r.next ∨ ∃ a, r.keeps i a

/-- The second receiver has all that the first has, and passed on as much. -/
structure Le (r r' : Receiver α) : Prop where
  next_le : r.next ≤ r'.next
  has : ∀ i, r.Has i → r'.Has i

lemma Le.refl (r : Receiver α) : r.Le r := ⟨Nat.le_refl _, fun _ h => h⟩

lemma Le.trans {r r' r'' : Receiver α} (h : r.Le r') (h' : r'.Le r'') : r.Le r'' :=
  ⟨Nat.le_trans h.next_le h'.next_le, fun i hi => h'.has i (h.has i hi)⟩

lemma Le.of_keeps {r r' : Receiver α} (hnext : r'.next = r.next)
    (h : ∀ i a, r.keeps i a → r'.keeps i a) : r.Le r' :=
  ⟨Nat.le_of_eq hnext.symm, fun i hi => hi.imp (fun hlt => hnext ▸ hlt) fun ⟨a, ha⟩ => ⟨a, h i a ha⟩⟩

lemma Le.of_pass {r r' : Receiver α} (hnext : r'.next = r.next + 1)
    (h : ∀ i a, r.keeps i a → i ≠ r.next → r'.keeps i a) : r.Le r' := by
  refine ⟨by omega, fun i hi => ?_⟩
  by_cases heq : i = r.next
  · exact .inl (by omega)
  · exact hi.imp (fun hlt => by omega) fun ⟨a, ha⟩ => ⟨a, h i a ha heq⟩

end Receiver

/-- The receiver keeps and passed on what was sent. -/
structure Faithful (sent : List α) (r : Receiver α) : Prop where
  keeps : ∀ i a, r.keeps i a → sent[i]? = some a
  next_le : r.next ≤ sent.length

namespace Faithful

variable {sent : List α} {r r' : Receiver α}

lemma extend (h : Faithful sent r) (more : List α) : Faithful (sent ++ more) r where
  keeps i a ha := by
    have hsent := h.keeps i a ha
    rw [List.getElem?_append_left (List.getElem_of_getElem? hsent).1]
    exact hsent
  next_le := by
    have := h.next_le
    rw [List.length_append]
    omega

lemma of_keeps (h : Faithful sent r) (hnext : r'.next = r.next)
    (hkeeps : ∀ i a, r'.keeps i a → r.keeps i a ∨ sent[i]? = some a) : Faithful sent r' where
  keeps i a ha := (hkeeps i a ha).elim (h.keeps i a) id
  next_le := hnext ▸ h.next_le

lemma pass (h : Faithful sent r) {a : α} (ha : r.keeps r.next a)
    (hnext : r'.next = r.next + 1) (hkeeps : ∀ i b, r'.keeps i b → r.keeps i b) :
    Faithful sent r' ∧ sent.take r'.next = sent.take r.next ++ [a] := by
  have hsent := h.keeps _ _ ha
  obtain ⟨hlt, hget⟩ := List.getElem_of_getElem? hsent
  refine ⟨⟨fun i b hb => h.keeps i b (hkeeps i b hb), by omega⟩, ?_⟩
  rw [hnext, List.take_succ_eq_append_getElem hlt, hget]

end Faithful

/-- Each item sent is still waited for, or had by the receiver. -/
def Covered (sent : List α) (waits : Nat → Prop) (r : Receiver α) : Prop :=
  ∀ i < sent.length, waits i ∨ r.Has i

namespace Covered

variable {sent : List α} {waits waits' : Nat → Prop} {r r' : Receiver α}

/-- Waiting stops only for what the receiver has, which it does not lose. -/
lemma step (h : Covered sent waits r) (hle : r.Le r')
    (hwaits : ∀ i, waits i → waits' i ∨ r'.Has i) : Covered sent waits' r' := by
  intro i hi
  rcases h i hi with hwait | hhas
  · exact hwaits i hwait
  · exact .inr (hle.has i hhas)

lemma extend (h : Covered sent waits r) (more : List α) (hwaits : ∀ i, waits i → waits' i)
    (hmore : ∀ i, sent.length ≤ i → i < sent.length + more.length → waits' i) :
    Covered (sent ++ more) waits' r := by
  intro i hi
  rw [List.length_append] at hi
  rcases Nat.lt_or_ge i sent.length with hlt | hge
  · exact (h i hlt).imp_left (hwaits i)
  · exact .inl (hmore i hge hi)

end Covered

end Arq
