import Xray.Lib.Fallible
import Xray.Shadowsocks.Send

/-!
# Shadowsocks 2022 replies are delivered at most once

A packet that was accepted is known to the window of its session for as long
as the session is remembered, and a window that knows a packet refuses it. What
has to be shown is that forgetting is safe. A session is forgotten no sooner
than a minute after its last packet, and a forgotten session is let in again no
sooner than a minute after that, while a datagram is only taken within half a
minute of the time it was sealed with: by the time the session is back, nothing
sealed before is young enough to be taken (`Fate`, `Fate.stamp_le`).

The clock is the caller's, and only has to be non-decreasing. Nothing is assumed
of the ciphers; the packet and the time of a datagram are what they open to.
-/

namespace Xray.Shadowsocks

open Bytes Fallible List
open Xray.Routing

/-! ## The replay window -/

lemma val_word (n : Nat) : (word n).val = n % 128 := Nat.and_two_pow_sub_one_eq_mod n 7

lemma getLsbD_bit (id i : Nat) : (bit id).getLsbD i = decide (i = id % 64) := by
  have hid : id &&& 63 = id % 64 := Nat.and_two_pow_sub_one_eq_mod id 6
  have hlt : id % 64 < 64 := Nat.mod_lt _ (by omega)
  rw [bit, hid]
  by_cases hi : i = id % 64
  · subst hi
    simp [hlt]
  simp only [hi]
  simp
  omega

def Window.marked (window : Window) (id : Nat) : Bool :=
  (window.ring (word (id >>> 6))).getLsbD (id % 64)

lemma and_bit_eq_zero_iff (x : BitVec 64) (id : Nat) :
    (x &&& bit id) = 0 ↔ x.getLsbD (id % 64) = false := by
  constructor
  · intro h
    have hbit := congrArg (fun y => y.getLsbD (id % 64)) h
    simpa [getLsbD_bit] using hbit
  intro h
  refine BitVec.eq_of_getLsbD_eq fun i hi => ?_
  rw [BitVec.getLsbD_and, getLsbD_bit]
  by_cases heq : i = id % 64
  · subst heq
    simp [h]
  · simp [heq]

/-- The window knows the identifier: it is too old to be asked about, or marked. -/
def Window.Knows (window : Window) (id : Nat) : Prop :=
  id ≤ window.highest ∧ (window.highest - id ≤ 8128 → window.marked id = true)

variable {window : Window} {id : Nat}

lemma Window.Knows.check (h : window.Knows id) : window.check id = false := by
  rw [Window.check, if_neg (by have := h.1; omega)]
  split
  · rfl
  next hrecent =>
  have hmarked := h.2 (by omega)
  rw [beq_eq_false_iff_ne, ne_eq, and_bit_eq_zero_iff]
  simpa [Window.marked] using hmarked

variable {m : Nat}

lemma clear_apply (ring : Fin 128 → BitVec 64) {old n : Nat}
    (h : ∀ i, 1 ≤ i → i ≤ n → (old + i) % 128 ≠ m % 128) :
    Window.clear ring old n (word m) = ring (word m) := by
  induction n with
  | zero => rfl
  | succ n ih =>
    have hne := h (n + 1) (by omega) (Nat.le_refl _)
    have hother : word m ≠ word (old + (n + 1)) := by
      intro heq
      have hval := congrArg Fin.val heq
      rw [val_word, val_word] at hval
      exact hne hval.symm
    rw [Window.clear, Function.update_of_ne hother, ih fun i hi hle => h i hi (by omega)]

lemma Window.marked_add (window : Window) (id m : Nat) : (window.add id).marked m =
      ((window.advance id).marked m ||
        decide (word (m >>> 6) = word (id >>> 6) ∧ m % 64 = id % 64)) := by
  rw [Window.marked, Window.add, Window.marked]
  dsimp only
  rw [Function.update_apply]
  split
  · next heq => simp [heq, getLsbD_bit]
  · next hne => simp [hne]

lemma Window.knows_add_self (window : Window) (id : Nat) : (window.add id).Knows id := by
  refine ⟨?_, fun _ => ?_⟩
  · show id ≤ (window.advance id).highest
    rw [Window.advance]
    split
    · exact Nat.le_refl id
    · omega
  · rw [Window.marked_add]
    simp

/-- Moving the window forgets only what has fallen out of it: a word is cleared
when all its identifiers are too old to be asked about. -/
lemma Window.Knows.advance (h : window.Knows m) (id : Nat) : (window.advance id).Knows m := by
  obtain ⟨hle, hmarked⟩ := h
  rw [Window.advance]
  split
  · refine ⟨by dsimp only; omega, fun hrecent => ?_⟩
    dsimp only at hrecent
    rw [Window.marked]
    dsimp only
    rw [clear_apply]
    · exact hmarked (by omega)
    · intro i hi hn
      omega
  · exact ⟨hle, hmarked⟩

lemma Window.Knows.add (h : window.Knows m) (id : Nat) : (window.add id).Knows m := by
  obtain ⟨hle, hmarked⟩ := h.advance id
  refine ⟨hle, fun hrecent => ?_⟩
  rw [Window.marked_add, hmarked hrecent]
  rfl

/-- Every word that is a multiple of 128 away from one of them is cleared. -/
lemma clear_apply_zero (ring : Fin 128 → BitVec 64) {old n i : Nat} (hi : 1 ≤ i) (hn : i ≤ n)
    (h : (old + i) % 128 = m % 128) : Window.clear ring old n (word m) = 0 := by
  induction n with
  | zero => omega
  | succ n ih =>
    rw [Window.clear, Function.update_apply]
    split
    · rfl
    next hne =>
    refine ih (Nat.le_of_lt_succ (Nat.lt_of_le_of_ne hn fun heq => hne ?_))
    subst heq
    exact Fin.ext (by rw [val_word, val_word, h])

/-- A window and the identifiers that were added to it, the last one first, while it let them in. -/
inductive Window.Added : Window → List Nat → Prop
  | new : Added .new []
  | add {ids : List Nat} {window : Window} {id : Nat} (h : Added window ids)
      (hcheck : window.check id = true) : Added (window.add id) (id :: ids)

/-- In the 128 words up to the highest identifier, what is marked is what was added. -/
structure Window.Exact (ids : List Nat) (window : Window) : Prop where
  highest : window.highest = ids.foldr max 0
  marked : ∀ m, m / 64 ≤ window.highest / 64 → window.highest / 64 < m / 64 + 128 →
    (window.marked m ↔ m ∈ ids)

variable {ids : List Nat}

lemma Window.Exact.le (h : window.Exact ids) (hid : id ∈ ids) : id ≤ window.highest := by
  rw [h.highest]
  clear h
  induction ids with
  | nil => cases hid
  | cons other ids ih =>
    rcases mem_cons.mp hid with rfl | hid
    · exact Nat.le_max_left _ _
    · exact Nat.le_trans (ih hid) (Nat.le_max_right _ _)

/-- Moving the window clears the words it moves over, where nothing was added, and keeps the rest
of those it still has. -/
lemma Window.Exact.advance (h : window.Exact ids) (id m : Nat)
    (hle : m / 64 ≤ (window.advance id).highest / 64)
    (hlt : (window.advance id).highest / 64 < m / 64 + 128) :
    (window.advance id).marked m ↔ m ∈ ids := by
  rw [Window.advance] at hle hlt ⊢
  split at hle
  · next hid =>
    rw [if_pos hid] at hlt ⊢
    dsimp only at hle hlt
    simp only [Window.marked, Nat.shiftRight_eq_div_pow]
    by_cases hold : m / 64 ≤ window.highest / 64
    · rw [clear_apply]
      · have hkept := h.marked m hold (by omega)
        rwa [Window.marked, Nat.shiftRight_eq_div_pow] at hkept
      · intro i hi hn
        omega
    · have hm : m ∉ ids := fun hmem => by
        have := h.le hmem
        omega
      rw [clear_apply_zero _ (i := (m / 64 - window.highest / 64 - 1) % 128 + 1) (by omega)
        (by omega) (by omega)]
      simp [hm]
  · next hid =>
    rw [if_neg hid] at hlt ⊢
    exact h.marked m hle hlt

lemma Window.Exact.add (h : window.Exact ids) (hcheck : window.check id) :
    (window.add id).Exact (id :: ids) := by
  have hrecent : window.highest ≤ id + 8128 := by
    by_contra hold
    rw [Window.check, if_neg (by omega), if_pos (by omega)] at hcheck
    cases hcheck
  have hhighest : (window.advance id).highest = max id window.highest := by
    rw [Window.advance]
    split
    · next hid => exact (Nat.max_eq_left (Nat.le_of_lt hid)).symm
    · omega
  refine ⟨hhighest.trans (by rw [h.highest]; rfl), fun m hle hlt => ?_⟩
  have hadvance := h.advance id m hle hlt
  change m / 64 ≤ (window.advance id).highest / 64 at hle
  change (window.advance id).highest / 64 < m / 64 + 128 at hlt
  rw [Window.marked_add, Bool.or_eq_true, hadvance, decide_eq_true_iff, mem_cons, or_comm,
    Fin.ext_iff, val_word, val_word]
  refine or_congr_left ⟨fun hsame => ?_, fun heq => by rw [heq]; exact ⟨rfl, rfl⟩⟩
  omega

lemma Window.Added.exact (h : window.Added ids) : window.Exact ids := by
  induction h with
  | new => exact ⟨rfl, fun m _ _ => by simp [Window.marked, Window.new]⟩
  | add _ hcheck ih => exact ih.add hcheck

/-- **The window is exact.** It lets an identifier in exactly if it was never added and is above
the highest one or at most 8128 below it. -/
theorem window_check_iff {ids : List Nat} {window : Window} (h : window.Added ids) (id : Nat) :
    window.check id = true ↔
      id ∉ ids ∧ (ids.foldr max 0 < id ∨ ids.foldr max 0 - id ≤ 8128) := by
  have hexact := h.exact
  rw [← hexact.highest, Window.check]
  split
  · next hnew =>
    have hid : id ∉ ids := fun hmem => Nat.not_lt.mpr (hexact.le hmem) hnew
    simp [hid, hnew]
  next hnew =>
  split
  · simp only [Bool.false_eq_true, false_iff]
    omega
  next hrecent =>
  have hmarked := hexact.marked id (by omega) (by omega)
  rw [beq_iff_eq, and_bit_eq_zero_iff, ← hmarked, Bool.not_eq_true]
  exact ⟨fun hfree => ⟨hfree, .inr (by omega)⟩, And.left⟩

/-- A window that has moved by more than its length, and then taken an older identifier. -/
theorem window_check_far : ((((Window.new.add 5).add 9000).add 872).check 873) = true ∧
      ((((Window.new.add 5).add 9000).add 872).check 871) = false := by
  have hadded : (((Window.new.add 5).add 9000).add 872).Added [872, 9000, 5] :=
    ((Window.Added.new.add (by decide +kernel)).add (by decide +kernel)).add (by decide +kernel)
  refine ⟨(window_check_iff hadded 873).mpr (by decide), ?_⟩
  decide

section Call

variable {C : Crypto}

/-- The remote session and the packet a datagram names. -/
def packetOf (C : Crypto) (method : Method) (wire : Bytes) : Option (Nat × Nat) :=
  match splitHeader C method wire with
  | .ok (separate, _) => some (ofBe (separate.take 8), ofBe (separate.drop 8))
  | .error _ => none

def sealedAt (C : Crypto) (method : Method) (wire : Bytes) : Option Nat :=
  match splitHeader C method wire with
  | .ok (separate, body) =>
    match openBody C method (C.session method (ofBe (separate.take 8))) separate body with
    | .ok body => some (ofBe ((body.drop 1).take 8))
    | .error _ => none
  | .error _ => none

variable {n now id : Nat}

lemma take_eq_ok {bytes field rest : Bytes} (h : take n bytes = .ok (field, rest)) :
    field = bytes.take n ∧ rest = bytes.drop n := by
  unfold take at h
  split at h
  · cases h
  rw [splitAt_eq] at h
  cases h
  exact ⟨rfl, rfl⟩

lemma takeBe_eq_ok {x : Nat} {bytes rest : Bytes} (h : takeBe n bytes = .ok (x, rest)) :
    x = ofBe (bytes.take n) ∧ rest = bytes.drop n := by
  simp only [takeBe, bind_eq_ok, pure_eq_ok] at h
  obtain ⟨⟨field, tail⟩, htake, h⟩ := h
  obtain ⟨rfl, rfl⟩ := Prod.mk.inj h
  obtain ⟨rfl, rfl⟩ := take_eq_ok htake
  exact ⟨rfl, rfl⟩

lemma checkTime_eq_ok {timestamp : Nat} (h : checkTime timestamp now = .ok ()) :
    now ≤ timestamp + 30 ∧ timestamp ≤ now + 30 := by
  unfold checkTime at h
  split at h
  · cases h
  · omega

lemma readBody_time {client : Nat} {body : Bytes} {reply : Target × Bytes}
    (h : readBody client now body = .ok reply) :
    now ≤ ofBe ((body.drop 1).take 8) + 30 ∧ ofBe ((body.drop 1).take 8) ≤ now + 30 := by
  simp only [readBody, bind_eq_ok] at h
  obtain ⟨⟨kind, afterKind⟩, hkind, h⟩ := h
  obtain ⟨-, rfl⟩ := takeBe_eq_ok hkind
  split at h
  · cases h
  simp only [bind_eq_ok] at h
  obtain ⟨⟨time, afterTime⟩, htime, _, hclose, -⟩ := h
  obtain ⟨rfl, -⟩ := takeBe_eq_ok htime
  exact checkTime_eq_ok hclose

/-- The session is not one of the remembered ones. -/
def UdpSession.Unknown (session : UdpSession C) (id : Nat) : Prop :=
  (∀ r, session.current = some r → r.id ≠ id) ∧ ∀ r, session.previous = some r → r.id ≠ id

inductive Committed (session : UdpSession C) (id packetId timestamp : Nat) :
    UdpSession C → Prop
  | current {r : Remote C session.method} (known : session.current = some r) (same : r.id = id) :
      Committed session id packetId timestamp
        { session with current := some { r with replay := r.replay.add packetId } }
  | previous {r : Remote C session.method} (other : ∀ q, session.current = some q → q.id ≠ id)
      (known : session.previous = some r) (same : r.id = id) :
      Committed session id packetId timestamp
        { session with
          previous := some { r with replay := r.replay.add packetId }
          previousSeen := timestamp }
  | fresh (unknown : session.Unknown id)
      (gate : session.previous.isSome = true → session.previousSeen + 60 ≤ timestamp) :
      Committed session id packetId timestamp
        { session with
          previous := session.current
          previousSeen := timestamp
          current := some ⟨id, C.session session.method id, Window.new.add packetId, rfl⟩ }

lemma filter_id_eq_some {x : Option (Remote C method)} {r : Remote C method} :
    x.filter (·.id == id) = some r ↔ x = some r ∧ r.id = id := by
  simp [Option.filter_eq_some_iff]

lemma filter_id_eq_none {x : Option (Remote C method)} :
    x.filter (·.id == id) = none ↔ ∀ r, x = some r → r.id ≠ id := by
  simp [Option.filter_eq_none_iff]

lemma commit_cases (session : UdpSession C) (id packetId timestamp : Nat)
    (reply : Target × Bytes) :
    (∃ e, session.commit id packetId timestamp reply = (.error e, session)) ∨
      ∃ session', session.commit id packetId timestamp reply = (.ok reply, session') ∧
        Committed session id packetId timestamp session' := by
  unfold UdpSession.commit
  split
  · next r hr =>
    obtain ⟨hknown, hsame⟩ := filter_id_eq_some.mp hr
    exact .inr ⟨_, rfl, .current hknown hsame⟩
  next hcurrent =>
  rw [filter_id_eq_none] at hcurrent
  split
  · next r hr =>
    obtain ⟨hknown, hsame⟩ := filter_id_eq_some.mp hr
    exact .inr ⟨_, rfl, .previous hcurrent hknown hsame⟩
  next hprevious =>
  rw [filter_id_eq_none] at hprevious
  split
  · exact .inl ⟨_, rfl⟩
  next hgate =>
  refine .inr ⟨_, rfl, .fresh ⟨hcurrent, hprevious⟩ fun hsome => ?_⟩
  rw [hsome, Bool.true_and, decide_eq_true_eq] at hgate
  omega

/-- The window asked about a packet is that of the remembered session it names,
the current one first. -/
lemma remote_eq {session : UdpSession C} :
    (∀ r, session.current = some r → r.id = id → session.remote id = some r) ∧
      (∀ r, (∀ q, session.current = some q → q.id ≠ id) → session.previous = some r → r.id = id →
        session.remote id = some r) := by
  constructor
  · intro r hr hid
    rw [UdpSession.remote, filter_id_eq_some.mpr ⟨hr, hid⟩]
    rfl
  · intro r hother hr hid
    rw [UdpSession.remote, filter_id_eq_none.mpr hother, filter_id_eq_some.mpr ⟨hr, hid⟩]
    rfl

lemma aeadFor_eq (session : UdpSession C) (id : Nat) :
    session.aeadFor id = C.session session.method id := by
  rw [UdpSession.aeadFor]
  cases h : session.remote id with
  | none => rfl
  | some r =>
    have hid : r.id = id := by
      rw [UdpSession.remote, Option.or_eq_some_iff] at h
      rcases h with h | ⟨-, h⟩ <;> exact (filter_id_eq_some.mp h).2
    dsimp only
    rw [r.derived, hid]

/-- A call fails and leaves the session as it was, or commits a packet that was
sealed within half a minute and that the window had not seen. -/
lemma decodeAt_cases (session : UdpSession C) (wire : Bytes) (timestamp : Nat) :
    (∃ e, session.decodeAt wire timestamp = (.error e, session)) ∨
      ∃ id packetId a reply session', session.decodeAt wire timestamp = (.ok reply, session') ∧
        packetOf C session.method wire = some (id, packetId) ∧
        sealedAt C session.method wire = some a ∧ timestamp ≤ a + 30 ∧ a ≤ timestamp + 30 ∧
        (∀ r, session.remote id = some r → r.replay.check packetId) ∧
        Committed session id packetId timestamp session' := by
  unfold UdpSession.decodeAt packetOf sealedAt
  split
  · exact .inl ⟨_, rfl⟩
  cases hheader : splitHeader C session.method wire with
  | error e => exact .inl ⟨_, rfl⟩
  | ok header =>
  obtain ⟨separate, body⟩ := header
  dsimp only
  split
  · exact .inl ⟨_, rfl⟩
  split
  · exact .inl ⟨_, rfl⟩
  next hcheck =>
  rw [aeadFor_eq]
  cases hopen : openBody C session.method (C.session session.method (ofBe (separate.take 8)))
      separate body with
  | error e => exact .inl ⟨_, rfl⟩
  | ok body =>
  dsimp only
  cases hread : readBody session.id timestamp body with
  | error e => exact .inl ⟨_, rfl⟩
  | ok reply =>
  rcases commit_cases session (ofBe (separate.take 8)) (ofBe (separate.drop 8)) timestamp reply with
    ⟨e, he⟩ | ⟨session', hok, hcommitted⟩
  · exact .inl ⟨e, he⟩
  obtain ⟨hlow, hhigh⟩ := readBody_time hread
  refine .inr ⟨_, _, _, reply, session', hok, rfl, rfl, hlow, hhigh, fun r hr => ?_, hcommitted⟩
  simpa [hr] using hcheck

end Call

/-! ## What becomes of an accepted packet -/

section Fate

variable {C : Crypto} {session session' : UdpSession C}

/-- An accepted packet: its session and number, when it was sealed, and when it
was accepted. -/
structure Packet where
  id : Nat
  packetId : Nat
  stamp : Nat
  time : Nat

def Packet.Fresh (p : Packet) : Prop := p.time ≤ p.stamp + 30 ∧ p.stamp ≤ p.time + 30

/-- Where an accepted packet stands. While its session is remembered the window
knows it. A session is forgotten a minute after its last packet at the
earliest, and comes back a minute after that at the earliest. -/
inductive Fate (session : UdpSession C) (p : Packet) : Prop
  | current {r : Remote C session.method} (known : session.current = some r) (same : r.id = p.id)
      (knows : r.replay.Knows p.packetId)
  | previous {r : Remote C session.method} (known : session.previous = some r) (same : r.id = p.id)
      (knows : r.replay.Knows p.packetId) (seen : p.time ≤ session.previousSeen)
  | forgotten (unknown : session.Unknown p.id) (full : session.previous.isSome = true)
      (seen : p.time + 60 ≤ session.previousSeen)
  | old (seen : p.time + 120 ≤ session.previousSeen)

/-- The two remembered sessions differ, and there is a current one if there is
a previous one. -/
structure Remembering (session : UdpSession C) (now : Nat) : Prop where
  distinct : ∀ r q, session.current = some r → session.previous = some q → r.id ≠ q.id
  filled : session.previous.isSome → session.current.isSome
  seen : session.previousSeen ≤ now

variable {id packetId now timestamp : Nat}

lemma Remembering.committed (h : Remembering session now) (hnow : now ≤ timestamp)
    (hc : Committed session id packetId timestamp session') : Remembering session' timestamp := by
  have hseen := h.seen
  cases hc with
  | @current r known same =>
    refine ⟨fun r' q hr hq => ?_, fun _ => rfl, by dsimp only; omega⟩
    obtain rfl := Option.some.inj hr
    exact h.distinct r q known hq
  | @previous r other known same =>
    refine ⟨fun q r' hq hr => ?_, fun _ => h.filled (by rw [known]; rfl), Nat.le_refl _⟩
    obtain rfl := Option.some.inj hr
    exact h.distinct q r hq known
  | fresh unknown gate =>
    refine ⟨fun r q hr hq => ?_, fun _ => rfl, Nat.le_refl _⟩
    obtain rfl := Option.some.inj hr
    exact fun heq => unknown.1 q hq heq.symm

lemma fate_committed (hc : Committed session id packetId timestamp session') (stamp : Nat) :
    Fate session' ⟨id, packetId, stamp, timestamp⟩ := by
  cases hc with
  | current known same => exact .current rfl same (Window.knows_add_self _ _)
  | previous other known same => exact .previous rfl same (Window.knows_add_self _ _) (Nat.le_refl _)
  | fresh unknown gate => exact .current rfl rfl (Window.knows_add_self _ _)

/-- A commit keeps account of every packet accepted before it. -/
lemma Fate.committed {p : Packet} (hp : Fate session p) (h : Remembering session now)
    (htime : p.time ≤ now) (hnow : now ≤ timestamp)
    (hc : Committed session id packetId timestamp session') : Fate session' p := by
  have hseen := h.seen
  cases hc with
  | @current r known same =>
    cases hp with
    | @current q hq hid hknows =>
      obtain rfl := Option.some.inj (known.symm.trans hq)
      exact .current rfl hid (hknows.add packetId)
    | previous hq hid hknows hpseen => exact .previous hq hid hknows hpseen
    | forgotten unknown full hpseen =>
      refine .forgotten ⟨fun q hq => ?_, unknown.2⟩ full hpseen
      obtain rfl := Option.some.inj hq
      exact unknown.1 r known
    | old hpseen => exact .old hpseen
  | @previous r other known same =>
    cases hp with
    | current hq hid hknows => exact .current hq hid hknows
    | @previous q hq hid hknows hpseen =>
      obtain rfl := Option.some.inj (known.symm.trans hq)
      exact .previous rfl hid (hknows.add packetId) (by dsimp only; omega)
    | forgotten unknown full hpseen =>
      refine .forgotten ⟨unknown.1, fun q hq => ?_⟩ rfl (by dsimp only; omega)
      obtain rfl := Option.some.inj hq
      exact unknown.2 r known
    | old hpseen => exact .old (by dsimp only; omega)
  | fresh unknown gate =>
    cases hp with
    | current hq hid hknows => exact .previous hq hid hknows (by dsimp only; omega)
    | @previous q hq hid hknows hpseen =>
      have hfull : session.previous.isSome = true := by rw [hq]; rfl
      have hgate := gate hfull
      refine .forgotten ⟨fun r hr heq => ?_, fun r hr heq => ?_⟩ (h.filled hfull)
        (by dsimp only; omega)
      · obtain rfl := Option.some.inj hr
        exact unknown.2 q hq (hid.trans heq.symm)
      · exact h.distinct r q hr hq (heq.trans hid.symm)
    | forgotten _ full hpseen =>
      have hgate := gate full
      exact .old (by dsimp only; omega)
    | old hpseen => exact .old (by dsimp only; omega)

/-- A packet that names an earlier one's session and number was sealed at least
a minute after it. -/
lemma Fate.stamp_le {p : Packet} (hp : Fate session p) (h : Remembering session now)
    (hfresh : p.Fresh) (hnow : now ≤ timestamp)
    (hc : Committed session p.id p.packetId timestamp session')
    (hcheck : ∀ r, session.remote p.id = some r → r.replay.check p.packetId) {stamp : Nat}
    (hstamp : timestamp ≤ stamp + 30) : p.stamp + 60 ≤ stamp := by
  have hseen := h.seen
  obtain ⟨-, hhigh⟩ := hfresh
  -- a window that knows the packet refuses it
  have hrefuse : ∀ r : Remote C session.method, r.replay.Knows p.packetId →
      session.remote p.id = some r → p.stamp + 60 ≤ stamp := by
    intro r hknows hr
    exact absurd (hknows.check.symm.trans (hcheck r hr)) (by simp)
  cases hp with
  | current hq hid hknows => exact hrefuse _ hknows (remote_eq.1 _ hq hid)
  | previous hq hid hknows hpseen =>
    refine hrefuse _ hknows (remote_eq.2 _ (fun r hr => ?_) hq hid)
    exact hid ▸ h.distinct r _ hr hq
  | forgotten unknown full hpseen =>
    cases hc with
    | current known same => exact absurd same (unknown.1 _ known)
    | previous _ known same => exact absurd same (unknown.2 _ known)
    | fresh _ gate =>
      have hgate := gate full
      omega
  | old hpseen => omega

end Fate

section Run

variable {C : Crypto}

def accepted : UdpSession C → List (Bytes × Nat) → List (Bytes × Nat)
  | _, [] => []
  | session, call :: calls =>
    match session.decodeAt call.1 call.2 with
    | (.ok _, session) => call :: accepted session calls
    | (.error _, session) => accepted session calls

variable {session : UdpSession C} {calls : List (Bytes × Nat)}

lemma Committed.method {session' : UdpSession C} {id packetId timestamp : Nat}
    (hc : Committed session id packetId timestamp session') : session'.method = session.method := by
  cases hc <;> rfl

/-- Two calls name the same packet only if it was sealed a minute later. -/
def SealedLater (C : Crypto) (method : Method) (call call' : Bytes × Nat) : Prop :=
  packetOf C method call.1 = packetOf C method call'.1 →
    ∃ a b, sealedAt C method call.1 = some a ∧ sealedAt C method call'.1 = some b ∧ a + 60 ≤ b

/-- After a packet was accepted, whatever names it again was sealed later. -/
lemma Fate.accepted {now : Nat} {p : Packet} (hp : Fate session p) (h : Remembering session now)
    (hfresh : p.Fresh) (htime : p.time ≤ now)
    (hcalls : (now :: calls.map Prod.snd).Pairwise (· ≤ ·)) :
    ∀ call ∈ accepted session calls, packetOf C session.method call.1 = some (p.id, p.packetId) →
      ∃ b, sealedAt C session.method call.1 = some b ∧ p.stamp + 60 ≤ b := by
  induction calls generalizing session now with
  | nil => exact fun call hcall => absurd hcall not_mem_nil
  | cons head calls ih =>
    obtain ⟨hnow, hrest⟩ := pairwise_cons.mp hcalls
    have hle : now ≤ head.2 := hnow _ mem_cons_self
    rcases decodeAt_cases session head.1 head.2 with
      ⟨e, he⟩ | ⟨id, packetId, a, reply, session', hok, hpacket, hsealed, hlow, -, hcheck, hc⟩
    · rw [Xray.Shadowsocks.accepted, he]
      exact ih hp h htime (pairwise_cons.mpr
        ⟨fun t ht => hnow t (mem_cons_of_mem _ ht), hrest.tail⟩)
    rw [Xray.Shadowsocks.accepted, hok]
    intro call hcall hname
    rcases mem_cons.mp hcall with rfl | hlater
    · obtain ⟨rfl, rfl⟩ := Prod.mk.inj (Option.some.inj (hpacket.symm.trans hname))
      exact ⟨a, hsealed, hp.stamp_le h hfresh hle hc hcheck hlow⟩
    have hih := ih (hp.committed h htime hle hc) (h.committed hle hc) (by omega) hrest call hlater
    rw [hc.method] at hih
    exact hih hname

lemma accepted_pairwise {now : Nat} (h : Remembering session now)
    (hcalls : (now :: calls.map Prod.snd).Pairwise (· ≤ ·)) :
    (accepted session calls).Pairwise (SealedLater C session.method) := by
  induction calls generalizing session now with
  | nil => exact .nil
  | cons head calls ih =>
    obtain ⟨hnow, hrest⟩ := pairwise_cons.mp hcalls
    have hle : now ≤ head.2 := hnow _ mem_cons_self
    rcases decodeAt_cases session head.1 head.2 with
      ⟨e, he⟩ | ⟨id, packetId, a, reply, session', hok, hpacket, hsealed, hlow, hhigh, -, hc⟩
    · rw [accepted, he]
      exact ih h (pairwise_cons.mpr ⟨fun t ht => hnow t (mem_cons_of_mem _ ht), hrest.tail⟩)
    rw [accepted, hok]
    have hkeep := h.committed hle hc
    have hlater := (fate_committed hc a).accepted hkeep ⟨hlow, hhigh⟩ (Nat.le_refl _) hrest
    rw [hc.method] at hlater
    refine pairwise_cons.mpr ⟨fun call hcall hname => ?_, hc.method ▸ ih hkeep hrest⟩
    obtain ⟨b, hb, hab⟩ := hlater call hcall (hname.symm.trans hpacket)
    exact ⟨a, b, hsealed, hb, hab⟩

lemma accepted_sublist (session : UdpSession C) (calls : List (Bytes × Nat)) :
    (accepted session calls).Sublist calls := by
  induction calls generalizing session with
  | nil => exact .slnil
  | cons head calls ih =>
    rw [accepted]
    split
    · exact .cons_cons head (ih _)
    · exact .cons head (ih _)

lemma SealedLater.ne {method : Method} {call call' : Bytes × Nat}
    (h : SealedLater C method call call')
    (hstamp : sealedAt C method call.1 = sealedAt C method call'.1) :
    packetOf C method call.1 ≠ packetOf C method call'.1 := by
  intro hname
  obtain ⟨a, b, ha, hb, hab⟩ := h hname
  obtain rfl := Option.some.inj (ha.symm.trans (hstamp.trans hb))
  omega

end Run

/-- Replies are delivered at most once. In a run of calls with non-decreasing
times, two accepted datagrams that name the same packet of the same remote
session were sealed at least a minute apart. So no datagram is accepted twice,
and no packet is, if every datagram that names it was sealed with one time. A
call that fails leaves the whole session as it was. -/
theorem udpSession_delivers_at_most_once (C : Crypto) (method : Method) (id : Nat)
    (calls : List (Bytes × Nat)) (htimes : (calls.map Prod.snd).Pairwise (· ≤ ·)) :
    (accepted (.withId C method id) calls).Pairwise (SealedLater C method) ∧
    ((accepted (.withId C method id) calls).map Prod.fst).Nodup ∧
    ((∀ call ∈ calls, ∀ call' ∈ calls, packetOf C method call.1 = packetOf C method call'.1 →
        sealedAt C method call.1 = sealedAt C method call'.1) →
      ((accepted (.withId C method id) calls).map fun call => packetOf C method call.1).Nodup) ∧
    ∀ (session : UdpSession C) (wire : Bytes) (timestamp : Nat) (e : InvalidData),
      (session.decodeAt wire timestamp).1 = .error e →
      (session.decodeAt wire timestamp).2 = session := by
  have hfresh : Remembering (UdpSession.withId C method id) 0 :=
    ⟨(fun r q hr => nomatch hr), (fun hsome => nomatch hsome), Nat.le_refl 0⟩
  have hcalls : (0 :: calls.map Prod.snd).Pairwise (· ≤ ·) :=
    pairwise_cons.mpr ⟨fun t _ => Nat.zero_le t, htimes⟩
  have hpairs := accepted_pairwise hfresh hcalls
  refine ⟨hpairs, ?_, fun hone => ?_, fun session wire timestamp e he => ?_⟩
  · rw [List.Nodup, pairwise_map]
    refine hpairs.imp fun hlater heq => ?_
    exact hlater.ne (congrArg _ heq) (congrArg _ heq)
  · rw [List.Nodup, pairwise_map]
    have hsub := (accepted_sublist (UdpSession.withId C method id) calls).subset
    refine hpairs.imp_of_mem fun hcall hcall' hlater heq => ?_
    exact hlater.ne (hone _ (hsub hcall) _ (hsub hcall') heq) heq
  · rcases decodeAt_cases session wire timestamp with ⟨e', he'⟩ | ⟨_, _, _, reply, session', hok, -⟩
    · rw [he']
    · rw [hok] at he
      cases he

/-! A cipher that only appends a tag, to run the codec with: it opens exactly
what it sealed, and nothing it opens is secret. -/

def sealTag (plain : Bytes) : Bytes := plain ++ List.replicate 16 0

def openTag (wire : Bytes) : Option Bytes :=
  if wire.drop (wire.length - 16) = List.replicate 16 0 then some (wire.take (wire.length - 16))
  else none

lemma openTag_eq_some {wire plain : Bytes} : openTag wire = some plain ↔ wire = sealTag plain := by
  rw [openTag, sealTag]
  constructor
  · intro h
    split at h
    · next htag =>
      obtain rfl := Option.some.inj h
      rw [← htag, take_append_drop]
    · cases h
  · intro h
    subst h
    simp

def tagCrypto : Crypto where
  Aead := Unit
  session _ _ := ()
  aeadOpen _ _ := openTag
  xchachaOpen _ _ := openTag
  blockDecrypt _ block := block

def tagMethod : Method := ⟨.chacha20Poly1305, [List.replicate 32 7], by simp⟩

/-- A reply of remote session `remote` to client 10, from `192.0.2.8:53`. -/
def tagReply (remote packetId stamp : Nat) : Bytes :=
  List.replicate 24 0 ++ sealTag (toBe 8 remote ++ toBe 8 packetId ++ [1] ++ toBe 8 stamp ++
    toBe 8 10 ++ [0, 0] ++ [1, 192, 0, 2, 8, 0, 53])

/-- A reply is taken once, its replay a second later is not, and neither is its
replay after the session was forgotten. -/
theorem udpSession_takes_a_reply_once : (accepted (.withId tagCrypto tagMethod 10)
      [(tagReply 20 0 1000, 1000), (tagReply 20 0 1000, 1001), (tagReply 21 0 1001, 1001),
        (tagReply 22 0 1061, 1061), (tagReply 20 0 1000, 1121)]).map Prod.fst =
      [tagReply 20 0 1000, tagReply 21 0 1001, tagReply 22 0 1061] ∧
    [tagReply 20 0 1000, tagReply 21 0 1001, tagReply 22 0 1061].Nodup := by
  have hrun : (accepted (.withId tagCrypto tagMethod 10)
      [(tagReply 20 0 1000, 1000), (tagReply 20 0 1000, 1001), (tagReply 21 0 1001, 1001),
        (tagReply 22 0 1061, 1061), (tagReply 20 0 1000, 1121)]).map Prod.fst =
      [tagReply 20 0 1000, tagReply 21 0 1001, tagReply 22 0 1061] := by decide +kernel
  have honce := (udpSession_delivers_at_most_once tagCrypto tagMethod 10
    [(tagReply 20 0 1000, 1000), (tagReply 20 0 1000, 1001), (tagReply 21 0 1001, 1001),
      (tagReply 22 0 1061, 1061), (tagReply 20 0 1000, 1121)] (by decide)).2.1
  rw [hrun] at honce
  exact ⟨hrun, honce⟩

/-- A server that seals the same packet number of the same session again, two
minutes later, is heard twice: by then the session has been forgotten. -/
theorem udpSession_hears_a_resealed_packet : (∀ key nonce wire plain,
      tagCrypto.xchachaOpen key nonce wire = some plain ↔ wire = sealTag plain) ∧
    ∃ calls : List (Bytes × Nat), (calls.map Prod.snd).Pairwise (· ≤ ·) ∧
      ¬ ((accepted (.withId tagCrypto tagMethod 10) calls).map
        fun call => packetOf tagCrypto tagMethod call.1).Nodup := by
  refine ⟨fun _ _ _ _ => openTag_eq_some, [(tagReply 20 0 1000, 1000), (tagReply 21 0 1000, 1000),
    (tagReply 22 0 1060, 1060), (tagReply 20 0 1120, 1120)], by decide, ?_⟩
  decide +kernel

/-! ## What a session sends -/

section Send

variable {C : Crypto} (S : Sealing C)

inductive UdpCall where
  | encode (target : Target) (payload : Bytes) (timestamp : Nat) (nonce : Bytes)
  | decode (wire : Bytes) (timestamp : Nat)

/-- The packets of a session's calls, and the session after them. -/
def UdpSession.run (session : UdpSession C) : List UdpCall → List Bytes × UdpSession C
  | [] => ([], session)
  | .encode target payload timestamp nonce :: calls =>
    match session.encodeAt S target payload timestamp nonce with
    | .error _ => session.run calls
    | .ok (packet, session) =>
      let (packets, last) := session.run calls
      (packet :: packets, last)
  | .decode wire timestamp :: calls => (session.decodeAt wire timestamp).2.run calls

def UdpSession.IsPacket (session : UdpSession C) (packetId : Nat) (bytes : Bytes) : Prop :=
  ∃ address payload timestamp nonce,
    bytes = session.packet S packetId address payload timestamp nonce

def nonceOf (id packetId : Nat) : Bytes := (toBe 8 id ++ toBe 8 packetId).drop 4

def counter (n : Nat) : Option Nat := if n < 2 ^ 64 then some n else none

variable {S} {session session' : UdpSession C} {n : Nat}

lemma encodeAt_eq_ok {target : Target} {payload nonce bytes : Bytes} {timestamp : Nat}
    (h : session.encodeAt S target payload timestamp nonce = .ok (bytes, session')) :
    ∃ n, session.next = some n ∧ session.IsPacket S n bytes ∧
      session' = { session with next := counter (n + 1) } := by
  obtain ⟨address, -, h⟩ := bind_eq_ok.mp h
  split at h
  · cases h
  split at h
  · cases h
  next n hnext =>
  cases h
  exact ⟨n, hnext, ⟨address, payload, timestamp, nonce, rfl⟩, rfl⟩

lemma decodeAt_sending (session : UdpSession C) (wire : Bytes) (timestamp : Nat) :
    (session.decodeAt wire timestamp).2.packet S = session.packet S ∧
      (session.decodeAt wire timestamp).2.next = session.next := by
  rcases decodeAt_cases session wire timestamp with ⟨e, he⟩ | ⟨_, _, _, _, _, hok, -, -, -, -, -, hc⟩
  · rw [he]
    exact ⟨rfl, rfl⟩
  · rw [hok]
    cases hc <;> exact ⟨rfl, rfl⟩

/-- The packets are numbered from where the counter stands. -/
lemma run_spec (calls : List UdpCall) (hle : n ≤ 2 ^ 64) (hnext : session.next = counter n) :
    (∀ i bytes, (session.run S calls).1[i]? = some bytes → session.IsPacket S (n + i) bytes) ∧
      n + (session.run S calls).1.length ≤ 2 ^ 64 ∧
      (session.run S calls).2.next = counter (n + (session.run S calls).1.length) := by
  fun_induction UdpSession.run S session calls generalizing n with
  | case1 => exact ⟨by simp, hle, hnext⟩
  | case2 session target payload timestamp nonce calls e _ ih => exact ih hle hnext
  | case3 session target payload timestamp nonce calls bytes session' hok packets last hrun ih =>
    obtain ⟨m, hm, hpacket, rfl⟩ := encodeAt_eq_ok hok
    rw [hm, counter] at hnext
    split at hnext
    · next hlt =>
      cases hnext
      obtain ⟨hpackets, hbound, hlast⟩ := ih hlt rfl
      rw [hrun] at hpackets hbound hlast
      rw [length_cons, Nat.add_comm packets.length, ← Nat.add_assoc]
      refine ⟨fun i bytes hi => ?_, hbound, hlast⟩
      cases i with
      | zero => exact Option.some.inj hi ▸ hpacket
      | succ i =>
        rw [Nat.add_comm i, ← Nat.add_assoc]
        exact hpackets i bytes hi
    · cases hnext
  | case4 session wire timestamp calls ih =>
    obtain ⟨hpacket, hsame⟩ := decodeAt_sending (S := S) session wire timestamp
    obtain ⟨hpackets, hbound⟩ := ih hle (hsame.trans hnext)
    refine ⟨fun i bytes hi => ?_, hbound⟩
    rw [UdpSession.IsPacket, ← hpacket]
    exact hpackets i bytes hi

end Send

/-- However sending and receiving alternate, the packets of a session are numbered from zero on
without a gap, no two of them are sealed with one nonce, and behind the last number nothing is
sent. -/
theorem udpSession_never_repeats_a_nonce (C : Crypto) (S : Sealing C) (method : Method) (id : Nat)
    (calls : List UdpCall) :
    let session := UdpSession.withId C method id
    let sent := (session.run S calls).1
    (∀ i bytes, sent[i]? = some bytes → session.IsPacket S i bytes) ∧
      (method.cipher ≠ .chacha20Poly1305 → ∀ i bytes, sent[i]? = some bytes → ∃ header body,
        bytes = header ++ S.aeadSeal session.localAead (nonceOf id i) body) ∧
      (∀ i < sent.length, ∀ j < sent.length, nonceOf id i = nonceOf id j → i = j) ∧
      (sent.length = 2 ^ 64 → ∀ target payload timestamp nonce, ∃ e,
        (session.run S calls).2.encodeAt S target payload timestamp nonce = .error e) := by
  intro session sent
  obtain ⟨hpackets, hbound, hlast⟩ := @run_spec C S session 0 calls (Nat.zero_le _) rfl
  simp only [Nat.zero_add] at hpackets hbound hlast
  refine ⟨hpackets, fun hcipher i bytes hi => ?_, fun i hi j hj heq => ?_,
    fun hfull target payload timestamp nonce => ?_⟩
  · obtain ⟨address, payload, timestamp, nonce, rfl⟩ := hpackets i bytes hi
    exact ⟨_, _, if_neg hcipher⟩
  · rw [nonceOf, nonceOf, drop_append_of_le_length (by simp),
      drop_append_of_le_length (by simp)] at heq
    have hbytes := congrArg ofBe (append_cancel_left heq)
    rwa [ofBe_toBe_of_lt (hi.trans_le hbound), ofBe_toBe_of_lt (hj.trans_le hbound)] at hbytes
  · cases hencode : (session.run S calls).2.encodeAt S target payload timestamp nonce with
    | error e => exact ⟨e, rfl⟩
    | ok result =>
      obtain ⟨n, hn, -⟩ := encodeAt_eq_ok hencode
      rw [hlast, hfull] at hn
      cases hn

end Xray.Shadowsocks
