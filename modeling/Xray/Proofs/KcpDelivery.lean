import Xray.Lib.Arq
import Xray.Proofs.KcpEngine

/-!
# mKCP delivers

Two engines and a network that may lose, repeat, delay and reorder what they send.
The invariant of a connection has four parts:

* either side is honest (`Party.Honest`): every datagram it ever sent says what is
  so, of what it pushed and of what it has;
* in either direction (`Delivers`) the receiver is faithful to what was pushed, what
  its reads returned is the front of it, and what was pushed is waited for or had.

A call that neither writes nor reads has an `Effect`, from which all four parts
follow at once; writing and reading are the two steps that are left.
-/

namespace Xray.Kcp

open Bytes List

/-- One side of a connection, and its history. -/
structure Party where
  engine : Engine
  /-- Every datagram it gave to the network. -/
  network : List Bytes := []
  accepted : Bytes := []
  pushed : List Unacked := []
  returned : Bytes := []

namespace Party

def new (conv : UInt16) (config : Config) : Party := { engine := .new conv config }

def write (party : Party) (data : Bytes) : Party :=
  let (engine, result) := party.engine.write data
  { party with
    engine
    accepted := party.accepted ++ data.take (Engine.taken result)
    -- A push adds to the end of the sending window.
    pushed := party.pushed ++ engine.sending.window.drop party.engine.sending.window.length }

def read (party : Party) (size : Nat) : Party :=
  let (engine, got) := party.engine.read size
  { party with engine, returned := party.returned ++ got.getD [] }

def flush (party : Party) (current : UInt32) : Party :=
  { party with engine := party.engine.flush current }

def close (party : Party) (current : UInt32) : Party :=
  { party with engine := (party.engine.close current).1 }

def send (party : Party) : Party :=
  { party with
    engine := { party.engine with out := [] }
    network := party.network ++ party.engine.out }

def input (party : Party) (datagram : Bytes) (current : UInt32) : Party :=
  { party with engine := party.engine.input (readSegments datagram) current }

end Party

/-- What a party may do. Any datagram its peer ever sent may arrive: late, out of
order, many times or never. -/
inductive Act (peer party : Party) : Party → Prop where
  | write (data : Bytes) : Act peer party (party.write data)
  | read (size : Nat) : Act peer party (party.read size)
  | flush (current : UInt32) : Act peer party (party.flush current)
  | close (current : UInt32) : Act peer party (party.close current)
  | send : Act peer party party.send
  | input {datagram : Bytes} (h : datagram ∈ peer.network) (current : UInt32) :
      Act peer party (party.input datagram current)

/-- The two parties after any interleaving of what either may do. -/
inductive Reachable (conv : UInt16) : Party → Party → Prop where
  | start {settings settings' : KcpConfig} {config config' : Config}
      (h : settings.engineConfig = .ok config) (h' : settings'.engineConfig = .ok config') :
      Reachable conv (.new conv config) (.new conv config')
  | left {a a' b : Party} : Reachable conv a b → Act b a a' → Reachable conv a' b
  | right {a b b' : Party} : Reachable conv a b → Act a b b' → Reachable conv a b'

def ReceivingWorker.view (receiving : ReceivingWorker) : Arq.Receiver Bytes where
  keeps i payload := ∃ n : UInt32, n.toNat = i ∧ receiving.window.lookup n = some payload
  next := receiving.nextNumber.toNat

lemma ReceivingWorker.view_has {receiving : ReceivingWorker} {n : UInt32} :
    receiving.view.Has n.toNat ↔ receiving.Has n := by
  refine or_congr UInt32.lt_iff_toNat_lt.symm ?_
  rw [mem_window_iff]
  refine ⟨fun ⟨payload, m, hm, hpayload⟩ => ⟨payload, ?_⟩, fun ⟨payload, hpayload⟩ =>
    ⟨payload, n, rfl, hpayload⟩⟩
  rw [← UInt32.toNat_inj.mp hm]
  exact hpayload

namespace Party

def sent (party : Party) (number : UInt32) (payload : Bytes) : Prop :=
  ∃ u ∈ party.pushed, u.number = number ∧ u.payload = payload

def payloads (party : Party) : List Bytes := party.pushed.map Unacked.payload

def Waits (party : Party) (i : Nat) : Prop :=
  ∃ u ∈ party.engine.sending.window, u.number.toNat = i

structure Honest (party : Party) : Prop where
  valid : party.engine.Valid party.sent
  network : ∀ datagram ∈ party.network, Sound party.sent party.engine.receiving.Has datagram
  numbers : ∀ (i : Nat) (u : Unacked), party.pushed[i]? = some u → u.number.toNat = i
  nextNumber : party.engine.sending.nextNumber.toNat = party.pushed.length
  accepted : party.payloads.flatten = party.accepted

/-- Of the bytes in order, the reads returned the front, and the rest is left over
until the connection is terminated. -/
structure HandsOver (party : Party) (inOrder : Bytes) : Prop where
  returned : party.returned <+: inOrder
  leftOver : party.engine.state ≠ .terminated →
    party.returned ++ party.engine.receiving.leftOver = inOrder

lemma Honest.payloads_of_sent {party : Party} (h : party.Honest) {n : UInt32} {payload : Bytes}
    (hsent : party.sent n payload) : party.payloads[n.toNat]? = some payload := by
  obtain ⟨u, hu, rfl, rfl⟩ := hsent
  obtain ⟨i, hi⟩ := mem_iff_getElem?.mp hu
  rw [h.numbers i u hi, payloads, getElem?_map, hi]
  rfl

end Party

structure Delivers (a b : Party) : Prop where
  faithful : Arq.Faithful a.payloads b.engine.receiving.view
  handsOver : b.HandsOver (a.payloads.take b.engine.receiving.view.next).flatten
  covered : a.engine.state.Open → Arq.Covered a.payloads a.Waits b.engine.receiving.view

structure Invariant (a b : Party) : Prop where
  left : a.Honest
  right : b.Honest
  forth : Delivers a b
  back : Delivers b a

variable {a b : Party}

lemma Invariant.symm (h : Invariant a b) : Invariant b a := ⟨h.right, h.left, h.back, h.forth⟩

lemma Party.honest_new (conv : UInt16) (config : Config) : (Party.new conv config).Honest where
  valid := ⟨by simp [new, Engine.new, SendingWorker.new], by simp [new, Engine.new, SendingWorker.new],
    by simp [new, Engine.new, ReceivingWorker.new, AckList.Names], by simp [new, Engine.new]⟩
  network := by simp [new]
  numbers := by simp [new]
  nextNumber := rfl
  accepted := rfl

lemma delivers_new (conv : UInt16) (config config' : Config) :
    Delivers (.new conv config) (.new conv config') where
  faithful := ⟨by simp [Party.new, Engine.new, ReceivingWorker.new, ReceivingWorker.view],
    Nat.le_refl _⟩
  handsOver := ⟨List.nil_prefix, fun _ => rfl⟩
  covered := fun _ i hi => absurd hi (by simp [Party.payloads, Party.new])

/-! ## Calls that neither write nor read -/

section Effect

variable {a b : Party} {engine : Engine}

lemma Party.Honest.effect {sent : UInt32 → Bytes → Prop} {has : UInt32 → Prop} (h : a.Honest)
    (he : a.engine.Effect sent has engine) : { a with engine }.Honest where
  valid := he.valid _ h.valid
  network datagram hdatagram := (h.network datagram hdatagram).mono (fun _ _ hsent => hsent)
    fun _ hn => he.receiving.has hn
  numbers := h.numbers
  nextNumber := by
    rw [he.sending.nextNumber]
    exact h.nextNumber
  accepted := h.accepted

lemma Engine.Effect.view_le {sent : UInt32 → Bytes → Prop} {has : UInt32 → Prop}
    (he : a.engine.Effect sent has engine) : a.engine.receiving.view.Le engine.receiving.view :=
  .of_keeps (congrArg UInt32.toNat he.receiving.nextNumber) fun _ _ ⟨n, hn, hpayload⟩ =>
    ⟨n, hn, he.receiving.keeps n _ hpayload⟩

lemma Invariant.effect (h : Invariant a b)
    (he : a.engine.Effect b.sent b.engine.receiving.Has engine) :
    Invariant { a with engine } b where
  left := h.left.effect he
  right := h.right
  forth :=
    { faithful := h.forth.faithful
      handsOver := h.forth.handsOver
      covered := fun hopen => by
        refine (h.forth.covered (he.opened hopen)).step (.refl _) ?_
        rintro i ⟨u, hu, rfl⟩
        rcases he.sending.window.kept_or_lost u hu with ⟨v, hv, hnumber⟩ | hhas | hshut
        · exact .inl ⟨v, hv, congrArg _ hnumber⟩
        · exact .inr (ReceivingWorker.view_has.mpr hhas)
        · exact absurd hopen hshut }
  back := by
    have hnext : engine.receiving.view.next = a.engine.receiving.view.next :=
      congrArg UInt32.toNat he.receiving.nextNumber
    refine ⟨h.back.faithful.of_keeps hnext ?_, ?_, fun hopen =>
      (h.back.covered hopen).step he.view_le fun i hi => .inl hi⟩
    · rintro i payload ⟨n, rfl, hpayload⟩
      rcases he.receiving.arrives n payload hpayload with hold | hsent
      · exact .inl ⟨n, rfl, hold⟩
      · exact .inr (h.right.payloads_of_sent hsent)
    · refine ⟨hnext ▸ h.back.handsOver.returned, fun hne => ?_⟩
      rcases he.leftOver with hleft | hend
      · rw [hnext, ← h.back.handsOver.leftOver fun hend => hne (he.terminated hend)]
        exact congrArg _ hleft
      · exact absurd hend hne

end Effect

lemma map_payload_numbered (number : UInt32) (pieces : List Bytes) :
    (numbered number pieces).map Unacked.payload = pieces := by
  induction pieces generalizing number with
  | nil => rfl
  | cons piece pieces ih => rw [numbered, map_cons, ih]

lemma number_of_numbered {number : UInt32} {pieces : List Bytes} {i : Nat} {u : Unacked}
    (h : (numbered number pieces)[i]? = some u) : u.number = number + UInt32.ofNat i := by
  induction pieces generalizing number i with
  | nil => exact absurd h (by simp [numbered])
  | cons piece pieces ih =>
    cases i with
    | zero =>
      cases h
      simp
    | succ i =>
      rw [ih h, UInt32.ofNat_add]
      ac_rfl

lemma length_numbered (number : UInt32) (pieces : List Bytes) :
    (numbered number pieces).length = pieces.length := by
  rw [← length_map Unacked.payload, map_payload_numbered]

section Write

variable {a b : Party}

/-- A party that wrote: its new segments are numbered on from those it pushed
before. -/
structure Party.Wrote (a a' : Party) (pieces : List Bytes) : Prop where
  pushes : a.engine.Pushes pieces a'.engine
  bounds : ∀ piece ∈ pieces, piece ≠ [] ∧ piece.length ≤ maxSegmentPayload
  pushed : a'.pushed = a.pushed ++ numbered a.engine.sending.nextNumber pieces
  accepted : a'.accepted = a.accepted ++ pieces.flatten
  network : a'.network = a.network
  returned : a'.returned = a.returned

lemma Party.wrote_write (a : Party) (data : Bytes) : ∃ pieces, a.Wrote (a.write data) pieces := by
  obtain ⟨pieces, hpushes, hbounds, hflatten⟩ := a.engine.write_pushes data
  refine ⟨pieces, hpushes, hbounds, ?_, congrArg _ hflatten.symm, rfl, rfl⟩
  show a.pushed ++ (a.engine.write data).1.sending.window.drop _ = _
  rw [hpushes.window, drop_left]

namespace Party.Wrote

variable {a' : Party} {pieces : List Bytes}

variable (h : a.Wrote a' pieces)

include h

lemma payloads_eq : a'.payloads = a.payloads ++ pieces := by
  rw [payloads, h.pushed, map_append, map_payload_numbered]
  rfl

lemma number_new (ha : a.Honest) (hbound : a'.pushed.length < 2 ^ 32 - 1) {i : Nat} {u : Unacked}
    (hu : (numbered a.engine.sending.nextNumber pieces)[i]? = some u) :
    u.number.toNat = a.pushed.length + i := by
  have hi := (List.getElem_of_getElem? hu).1
  rw [h.pushed, length_append] at hbound
  rw [number_of_numbered hu, UInt32.toNat_add, UInt32.toNat_ofNat', ha.nextNumber]
  omega

lemma sent_mono {n : UInt32} {payload : Bytes} (hsent : a.sent n payload) :
    a'.sent n payload := by
  obtain ⟨u, hu, heq⟩ := hsent
  exact ⟨u, h.pushed ▸ mem_append_left _ hu, heq⟩

lemma honest (ha : a.Honest) (hbound : a'.pushed.length < 2 ^ 32 - 1) : a'.Honest where
  valid := by
    have hnew : ∀ u ∈ numbered a.engine.sending.nextNumber pieces, u.payload ∈ pieces := by
      intro u hu
      rw [← map_payload_numbered a.engine.sending.nextNumber pieces]
      exact mem_map_of_mem hu
    refine ⟨?_, ?_, ?_, ?_⟩
    · rw [h.pushes.window]
      refine forall_mem_append.mpr ⟨fun u hu => h.sent_mono (ha.valid.waits u hu), fun u hu => ?_⟩
      exact ⟨u, h.pushed ▸ mem_append_right _ hu, rfl, rfl⟩
    · rw [h.pushes.window]
      exact forall_mem_append.mpr ⟨ha.valid.fits, fun u hu => h.bounds _ (hnew u hu)⟩
    · rw [h.pushes.receiving]
      exact ha.valid.names
    · rw [h.pushes.out, h.pushes.receiving]
      exact fun datagram hdatagram => (ha.valid.out datagram hdatagram).mono
        (fun _ _ hsent => h.sent_mono hsent) fun _ hn => hn
  network := by
    rw [h.network, h.pushes.receiving]
    exact fun datagram hdatagram => (ha.network datagram hdatagram).mono
      (fun _ _ hsent => h.sent_mono hsent) fun _ hn => hn
  numbers i u hu := by
    rw [h.pushed] at hu
    rcases Nat.lt_or_ge i a.pushed.length with hlt | hge
    · rw [getElem?_append_left hlt] at hu
      exact ha.numbers i u hu
    rw [getElem?_append_right hge] at hu
    rw [h.number_new ha hbound hu]
    omega
  nextNumber := by
    have hlength : a'.pushed.length = a.pushed.length + pieces.length := by
      rw [h.pushed, length_append, length_numbered]
    rw [h.pushes.nextNumber, UInt32.toNat_add, UInt32.toNat_ofNat', ha.nextNumber, hlength]
    omega
  accepted := by
    rw [h.payloads_eq, h.accepted, flatten_append, ha.accepted]

end Party.Wrote

lemma Invariant.write {a' : Party} {pieces : List Bytes} (h : Invariant a b)
    (hwrote : a.Wrote a' pieces) (hbound : a'.pushed.length < 2 ^ 32 - 1) : Invariant a' b where
  left := hwrote.honest h.left hbound
  right := h.right
  forth := by
    have hnext := h.forth.faithful.next_le
    refine ⟨?_, ?_, fun hopen => ?_⟩
    · rw [hwrote.payloads_eq]
      exact h.forth.faithful.extend pieces
    · rw [hwrote.payloads_eq, take_append_of_le_length hnext]
      exact h.forth.handsOver
    rw [hwrote.payloads_eq]
    refine (h.forth.covered (hwrote.pushes.state ▸ hopen)).extend pieces ?_ ?_
    · rintro i ⟨u, hu, hi⟩
      exact ⟨u, hwrote.pushes.window ▸ mem_append_left _ hu, hi⟩
    intro i hge hlt
    rw [Party.payloads, length_map] at hge hlt
    obtain ⟨u, hu⟩ : ∃ u, (numbered a.engine.sending.nextNumber pieces)[i - a.pushed.length]? =
        some u := ⟨_, getElem?_eq_getElem (by rw [length_numbered]; omega)⟩
    refine ⟨u, hwrote.pushes.window ▸ mem_append_right _ (mem_of_getElem? hu), ?_⟩
    rw [hwrote.number_new h.left hbound hu]
    omega
  back := by
    have hreceiving := hwrote.pushes.receiving
    refine ⟨hreceiving ▸ h.back.faithful, ?_, fun hopen => hreceiving ▸ h.back.covered hopen⟩
    rw [hreceiving]
    refine ⟨hwrote.returned ▸ h.back.handsOver.returned, fun hne => ?_⟩
    rw [hwrote.returned, hreceiving]
    exact h.back.handsOver.leftOver (hwrote.pushes.state ▸ hne)

end Write

section Read

variable {a b : Party}

/-- What the loop of `read` keeps of a receiving worker: all it had, its faith, and
that what it passed on is what was handed over before and what is left over. -/
structure Collected (pushed : List Bytes) (before : Bytes) (receiving₀ receiving : ReceivingWorker) :
    Prop where
  le : receiving₀.view.Le receiving.view
  faithful : Arq.Faithful pushed receiving.view
  inOrder : before ++ receiving.leftOver = (pushed.take receiving.view.next).flatten
  acks : receiving.acks = receiving₀.acks

lemma collected_collect {pushed : List Bytes} {before : Bytes} {receiving : ReceivingWorker}
    (h : Collected pushed before receiving receiving) (hbound : pushed.length < 2 ^ 32 - 1) :
    Collected pushed before receiving receiving.collect := by
  refine ReceivingWorker.collect_keeps (P := Collected pushed before receiving) ?_ receiving h
  intro r payload hlookup hr
  have hkeeps : r.view.keeps r.view.next payload := ⟨_, rfl, hlookup⟩
  have hlt := (List.getElem_of_getElem? (hr.faithful.keeps _ _ hkeeps)).1
  have hnext : (r.nextNumber + 1).toNat = r.nextNumber.toNat + 1 := by
    have : r.nextNumber.toNat < pushed.length := hlt
    rw [UInt32.toNat_add]
    simp only [UInt32.reduceToNat]
    omega
  have hview : ∀ i p, (ReceivingWorker.view { r with
      window := r.window.erase r.nextNumber
      nextNumber := r.nextNumber + 1
      leftOver := r.leftOver ++ payload }).keeps i p ↔ r.view.keeps i p ∧ i ≠ r.view.next := by
    intro i p
    refine ⟨fun ⟨n, hn, hp⟩ => ?_, fun ⟨⟨n, hn, hp⟩, hne⟩ => ⟨n, hn, ?_⟩⟩
    · have hne : n ≠ r.nextNumber := by
        rintro rfl
        simp at hp
      rw [AList.lookup_erase_ne hne] at hp
      exact ⟨⟨n, hn, hp⟩, fun heq => hne (UInt32.toNat_inj.mp (hn.trans heq))⟩
    · rw [AList.lookup_erase_ne fun heq => hne (by rw [← hn, heq]; rfl)]
      exact hp
  obtain ⟨hfaithful, htake⟩ := hr.faithful.pass hkeeps hnext fun i p hp => ((hview i p).mp hp).1
  refine ⟨hr.le.trans (.of_pass hnext fun i p hp hne => (hview i p).mpr ⟨hp, hne⟩), hfaithful,
    ?_, hr.acks⟩
  rw [htake, flatten_append, ← hr.inOrder]
  simp

lemma Invariant.collected (h : Invariant a b) {receiving : ReceivingWorker}
    (hend : a.engine.state ≠ .terminated)
    (hreceiving : receiving = a.engine.receiving ∨ receiving = a.engine.receiving.collect)
    (hbound : b.pushed.length < 2 ^ 32 - 1) :
    Collected b.payloads a.returned a.engine.receiving receiving := by
  have hstart : Collected b.payloads a.returned a.engine.receiving a.engine.receiving :=
    ⟨.refl _, h.back.faithful, h.back.handsOver.leftOver hend, rfl⟩
  rcases hreceiving with rfl | rfl
  · exact hstart
  · exact collected_collect hstart (by rw [Party.payloads, length_map]; exact hbound)

lemma Invariant.reads (h : Invariant a b) {size : Nat} {result : Engine × Option Bytes}
    (hend : a.engine.state ≠ .terminated) (hreads : a.engine.Reads size result)
    (hbound : b.pushed.length < 2 ^ 32 - 1) :
    Invariant { a with engine := result.1, returned := a.returned ++ result.2.getD [] } b := by
  obtain ⟨⟨receiving, hreceiving, hresult, hgot⟩, hsending, hout, hstate⟩ := hreads
  obtain ⟨hle, hfaithful, hinOrder, hacks⟩ := h.collected hend hreceiving hbound
  have hview : result.1.receiving.view = receiving.view := by rw [hresult]; rfl
  have hhas : ∀ n, a.engine.receiving.Has n → result.1.receiving.Has n := by
    intro n hn
    rw [← ReceivingWorker.view_has, hview]
    exact hle.has _ (ReceivingWorker.view_has.mpr hn)
  refine ⟨⟨⟨?_, ?_, ?_, ?_⟩, ?_, h.left.numbers, ?_, h.left.accepted⟩, h.right, ?_, ?_⟩
  · rw [hsending]
    exact h.left.valid.waits
  · rw [hsending]
    exact h.left.valid.fits
  · intro n hn
    rw [hresult] at hn
    exact hhas n (h.left.valid.names n (hacks ▸ hn))
  · rw [hout]
    exact fun datagram hdatagram => (h.left.valid.out datagram hdatagram).mono
      (fun _ _ hsent => hsent) hhas
  · exact fun datagram hdatagram => (h.left.network datagram hdatagram).mono
      (fun _ _ hsent => hsent) hhas
  · rw [hsending]
    exact h.left.nextNumber
  · refine ⟨h.forth.faithful, h.forth.handsOver, fun hopen => ?_⟩
    refine (h.forth.covered (hstate ▸ hopen)).step (.refl _) fun i ⟨u, hu, hi⟩ => .inl ⟨u, ?_, hi⟩
    rw [hsending]
    exact hu
  have hparts : a.returned ++ result.2.getD [] ++ result.1.receiving.leftOver =
      (b.payloads.take result.1.receiving.view.next).flatten := by
    rw [hview, ← hinOrder, hgot, hresult, append_assoc, take_append_drop]
  refine ⟨?_, ⟨⟨_, hparts⟩, fun _ => hparts⟩, fun hopen => ?_⟩
  · rw [hview]
    exact hfaithful
  · rw [hview]
    exact (h.back.covered hopen).step hle fun i hi => .inl hi

lemma Invariant.read (h : Invariant a b) (size : Nat) (hbound : b.pushed.length < 2 ^ 32 - 1) :
    Invariant (a.read size) b := by
  rcases a.engine.read_collects size with hnone | ⟨hend, hreads⟩
  · have hsame : a.read size = a := by
      rw [Party.read, hnone]
      simp
    rw [hsame]
    exact h
  · exact h.reads hend hreads hbound

end Read

lemma Invariant.send (h : Invariant a b) : Invariant a.send b where
  left :=
    { valid := ⟨h.left.valid.waits, h.left.valid.fits, h.left.valid.names, by simp [Party.send]⟩
      network := forall_mem_append.mpr ⟨h.left.network, h.left.valid.out⟩
      numbers := h.left.numbers
      nextNumber := h.left.nextNumber
      accepted := h.left.accepted }
  right := h.right
  forth := ⟨h.forth.faithful, h.forth.handsOver, h.forth.covered⟩
  back := ⟨h.back.faithful, ⟨h.back.handsOver.returned, h.back.handsOver.leftOver⟩, h.back.covered⟩

lemma Act.pushed_le {a' : Party} (hact : Act b a a') : a.pushed.length ≤ a'.pushed.length := by
  cases hact with
  | write data =>
    obtain ⟨pieces, hwrote⟩ := a.wrote_write data
    rw [hwrote.pushed, length_append]
    omega
  | read | flush | close | send | input => exact Nat.le_refl _

lemma Invariant.act {a' : Party} (h : Invariant a b) (hact : Act b a a')
    (ha : a'.pushed.length < 2 ^ 32 - 1) (hb : b.pushed.length < 2 ^ 32 - 1) : Invariant a' b := by
  cases hact with
  | write data =>
    obtain ⟨pieces, hwrote⟩ := a.wrote_write data
    exact h.write hwrote ha
  | read size => exact h.read size hb
  | flush current => exact h.effect (a.engine.effect_flush current)
  | close current => exact h.effect (a.engine.effect_close current)
  | send => exact h.send
  | input hdatagram current =>
    exact h.effect (a.engine.effect_input current (h.right.network _ hdatagram))

lemma Reachable.invariant {conv : UInt16} (h : Reachable conv a b)
    (ha : a.pushed.length < 2 ^ 32 - 1) (hb : b.pushed.length < 2 ^ 32 - 1) : Invariant a b := by
  induction h with
  | start => exact ⟨Party.honest_new _ _, Party.honest_new _ _, delivers_new _ _ _, delivers_new _ _ _⟩
  | left _ hact ih => exact (ih (Nat.lt_of_le_of_lt hact.pushed_le ha) hb).act hact ha hb
  | right _ hact ih =>
    exact ((ih ha (Nat.lt_of_le_of_lt hact.pushed_le hb)).symm.act hact hb ha).symm

lemma Delivers.returned_prefix (h : Delivers a b) (ha : a.Honest) :
    b.returned <+: a.accepted := by
  refine h.handsOver.returned.trans ?_
  rw [← ha.accepted]
  exact (List.take_prefix _ _).flatten

/-- Of the segments `a` pushed, `b` has those `a` does not keep. -/
lemma Delivers.has_forgotten (h : Delivers a b) (ha : a.Honest) (hopen : a.engine.state.Open)
    {u : Unacked} (hu : u ∈ a.pushed) (hgone : ∀ v ∈ a.engine.sending.window, v.number ≠ u.number) :
    u.number ∈ b.engine.receiving.window ∨ u.number < b.engine.receiving.nextNumber := by
  obtain ⟨i, hi⟩ := mem_iff_getElem?.mp hu
  have hnumber := ha.numbers i u hi
  have hlt : i < a.payloads.length := by
    rw [Party.payloads, length_map]
    exact (List.getElem_of_getElem? hi).1
  rcases h.covered hopen i hlt with ⟨v, hv, heq⟩ | hhas
  · exact absurd (UInt32.toNat_inj.mp (heq.trans hnumber.symm)) (hgone v hv)
  · rw [← hnumber] at hhas
    exact (ReceivingWorker.view_has.mp hhas).symm

/-- What mKCP owes the bytes written on one side: the other side's reads return them
in order from the first, and while the writing side is open it keeps every segment
that the other side has not got. -/
structure ReliablyDelivers (a b : Party) : Prop where
  returned : b.returned <+: a.accepted
  kept : a.engine.state = .active ∨ a.engine.state = .readyToClose →
    ∀ u ∈ a.pushed, (∀ v ∈ a.engine.sending.window, v.number ≠ u.number) →
      u.number ∈ b.engine.receiving.window ∨ u.number < b.engine.receiving.nextNumber

/-- mKCP delivers in both directions, whatever the two sides do and whatever the
network does to their datagrams, as long as the segment numbers do not run out. -/
theorem mkcp_delivers_reliably (conv : UInt16) (a b : Party) (h : Reachable conv a b)
    (ha : a.pushed.length < 2 ^ 32 - 1) (hb : b.pushed.length < 2 ^ 32 - 1) :
    ReliablyDelivers a b ∧ ReliablyDelivers b a := by
  have hinv := h.invariant ha hb
  refine ⟨⟨hinv.forth.returned_prefix hinv.left, fun hopen u hu hgone => ?_⟩,
    ⟨hinv.back.returned_prefix hinv.right, fun hopen u hu hgone => ?_⟩⟩
  · exact hinv.forth.has_forgotten hinv.left hopen hu hgone
  · exact hinv.back.has_forgotten hinv.right hopen hu hgone

def plainSettings : KcpConfig := ⟨1350, 50, 5, 20, 1, 2097152⟩

def plainConfig : Config := ⟨plainSettings, by decide, by decide, by decide, by decide⟩

def writer : Party := (((Party.new 7 plainConfig).write [1, 2, 3]).flush 10).send

def firstDatagram (party : Party) : Bytes := party.network.headD []

/-- Its peer after it got the data twice, read two bytes and sent its acks. -/
def reader : Party :=
  (((((Party.new 7 plainConfig).input (firstDatagram writer) 20).input (firstDatagram writer) 30).read
    2).flush 40).send

/-- The bytes and their ack arrive: the reader has returned two bytes of three, and
the writer has forgotten the segment. -/
theorem mkcp_delivers_acked_bytes :
    (ReliablyDelivers (writer.input (firstDatagram reader) 50) reader ∧
      ReliablyDelivers reader (writer.input (firstDatagram reader) 50)) ∧
    (writer.input (firstDatagram reader) 50).engine.sending.window.length = 0 ∧
    writer.accepted = [1, 2, 3] ∧ reader.returned = [1, 2] := by
  have hdata : firstDatagram writer ∈ writer.network := by decide +kernel
  have hack : firstDatagram reader ∈ reader.network := by decide +kernel
  have hconfig : plainSettings.engineConfig = .ok plainConfig := rfl
  have hwriter : Reachable 7 writer (.new 7 plainConfig) :=
    (((Reachable.start hconfig hconfig).left (.write _)).left (.flush _)).left .send
  have hreader : Reachable 7 writer reader :=
    ((((hwriter.right (.input hdata _)).right (.input hdata _)).right (.read _)).right
      (.flush _)).right .send
  exact ⟨mkcp_delivers_reliably 7 _ _ (hreader.left (.input hack _)) (by decide +kernel)
    (by decide +kernel), by decide +kernel, by decide +kernel, by decide +kernel⟩

end Xray.Kcp
