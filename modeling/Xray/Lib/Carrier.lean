import Xray.Lib.Bytes

/-!
# A byte stream that arrives in pieces

A carrier is the script of what a polled stream has in store: pieces of at least
one byte, with moments between them at which nothing is there yet, and the end of
the stream after the last. A reader asks for up to `n` bytes and is given the
front of the next piece, so every way to split a byte string into reads is some
carrier read with some sizes.

`Carrier.pollRead_pending` and `Carrier.pollRead_ready` are all a reader needs to
know: a pause leaves what is to come, and what a read gives followed by what is
left is what there was. A read gives no more than it was asked for
(`Carrier.length_pollRead_le`).
-/

/-- What a stream has in store next. -/
inductive Arrival where
  | pause
  | piece (bytes : { bytes : Bytes // bytes ≠ [] })

abbrev Carrier := List Arrival

inductive Poll (α : Type) where
  | ready (value : α)
  | pending
deriving DecidableEq

namespace Carrier

def bytes : Carrier → Bytes
  | [] => []
  | .pause :: rest => bytes rest
  | .piece b :: rest => b ++ bytes rest

/-- How often a read still finds nothing. -/
def pauses : Carrier → Nat
  | [] => 0
  | .pause :: rest => pauses rest + 1
  | .piece _ :: rest => pauses rest

/-- A read of up to `n` bytes; an empty answer to `n > 0` is the end. -/
def pollRead (n : Nat) : Carrier → Poll Bytes × Carrier
  | [] => (.ready [], [])
  | .pause :: rest => (.pending, rest)
  | .piece b :: rest =>
    if h : b.val.drop n = [] then (.ready b, rest)
    else (.ready (b.val.take n), .piece ⟨b.val.drop n, h⟩ :: rest)

variable {c rest : Carrier}

lemma pollRead_pending {n : Nat} (h : c.pollRead n = (.pending, rest)) :
    bytes rest = bytes c ∧ pauses rest + 1 = pauses c := by
  rcases c with _ | ⟨_ | b, c⟩
  · cases h
  · cases h
    exact ⟨rfl, rfl⟩
  · rw [pollRead] at h
    split at h <;> cases h

/-- What a read gives is the front of what there was; it gives nothing only at the
end. -/
lemma pollRead_ready {n : Nat} (hn : 0 < n) {got : Bytes} (h : c.pollRead n = (.ready got, rest)) :
    got ++ bytes rest = bytes c ∧ pauses rest = pauses c ∧ (got = [] → c = []) := by
  rcases c with _ | ⟨_ | ⟨b, hb⟩, c⟩
  · cases h
    exact ⟨rfl, rfl, fun _ => rfl⟩
  · cases h
  rw [pollRead] at h
  split at h
  · cases h
    exact ⟨rfl, rfl, fun hnil => absurd hnil hb⟩
  cases h
  refine ⟨?_, rfl, fun hnil => absurd hnil ?_⟩
  · show b.take n ++ (b.drop n ++ bytes c) = b ++ bytes c
    rw [← List.append_assoc, List.take_append_drop]
  · simpa [Nat.ne_of_gt hn] using hb

lemma length_pollRead_le {n : Nat} {got : Bytes} (h : c.pollRead n = (.ready got, rest)) :
    got.length ≤ n := by
  rcases c with _ | ⟨_ | ⟨b, hb⟩, c⟩
  · cases h
    exact Nat.zero_le _
  · cases h
  rw [pollRead] at h
  split at h
  · next hdrop =>
    cases h
    exact List.drop_eq_nil_iff.mp hdrop
  · cases h
    exact List.length_take_le _ _

end Carrier
