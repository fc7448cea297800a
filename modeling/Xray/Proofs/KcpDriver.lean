import Xray.Proofs.KcpDelivery
import Xray.Proofs.Mask

/-!
# mKCP behind its masks

A stream and its `Driver` share an engine. The driver wraps what the engine leaves in `out`, and
opens what arrives before the engine sees it. Its timers choose only when the engine is flushed:
here that is at any time. Without a noise mask two such connections are two parties on a network
that also loses what the masks drop. A noise packet would be opened like any datagram, and might
be read as segments.
-/

namespace Xray.Kcp

open List Legacy Masks

/-- A stream with its driver, and their history. -/
structure Connection (A : AesGcm) where
  party : Party
  masks : Masks A
  /-- What `send` took and has not wrapped yet. -/
  datagrams : List Bytes := []
  /-- Every datagram it gave to the socket. -/
  wire : List Bytes := []

def receiveBuffer : Nat := 8192

namespace Connection

variable {A : AesGcm}

def take (c : Connection A) : Connection A :=
  { c with party := c.party.send, datagrams := c.party.engine.out }

/-- A turn of the loop of `send`. -/
def wrapNext (c : Connection A) (draws : WrapDraws) (now sentAt interval : Nat) : Connection A :=
  match c.datagrams with
  | [] => c
  | datagram :: datagrams =>
    match c.masks.wrap draws datagram now with
    | (masks, none) => { c with masks, datagrams }
    | (masks, some wrapped) =>
      { c with
        masks := masks.sent sentAt interval
        datagrams
        wire := c.wire ++ (wrapped.noise.filterMap Prod.fst ++ wrapped.datagram.toList) }

def receive (c : Connection A) (datagram : Bytes) (current : UInt32) :
    Except Panic (Connection A) :=
  match c.masks.open datagram with
  | .error panic => .error panic
  | .ok (none, _) => .ok c
  | .ok (some (start, stop), buf) =>
    let segments := (buf.take stop).drop start
    .ok (if readSegments segments = [] then c
      else { c with party := c.party.input segments current })

/-- What a stream and its driver may do. Any datagram that the peer's driver sent may arrive,
if it fits the buffer. -/
inductive Moves (peer c : Connection A) : Connection A → Prop where
  | write (data : Bytes) : Moves peer c { c with party := c.party.write data }
  | read (size : Nat) : Moves peer c { c with party := c.party.read size }
  | close (current : UInt32) : Moves peer c { c with party := c.party.close current }
  | flush (current : UInt32) : Moves peer c { c with party := c.party.flush current }
  | take (h : c.datagrams = []) : Moves peer c c.take
  | wrapNext (draws : WrapDraws) (now sentAt interval : Nat) :
      Moves peer c (c.wrapNext draws now sentAt interval)
  | receive {datagram : Bytes} {current : UInt32} {c' : Connection A} (hmem : datagram ∈ peer.wire)
      (hfits : datagram.length ≤ receiveBuffer) (h : c.receive datagram current = .ok c') :
      Moves peer c c'

/-- Two connections that started with the same masks. -/
inductive Joined (conv : UInt16) (masks : Masks A) : Connection A → Connection A → Prop where
  | start {settings settings' : KcpConfig} {config config' : Config}
      (h : settings.engineConfig = .ok config) (h' : settings'.engineConfig = .ok config') :
      Joined conv masks { party := .new conv config, masks } { party := .new conv config', masks }
  | left {a a' b : Connection A} : Joined conv masks a b → Moves b a a' → Joined conv masks a' b
  | right {a b b' : Connection A} : Joined conv masks a b → Moves a b b' → Joined conv masks a b'

/-- The masks have only counted, and what is on the wire opens to what the engine sent. -/
structure Backed (base : Masks A) (c : Connection A) : Prop where
  inner : c.masks.inner.map reset = base.inner.map reset
  outer : c.masks.outer.map reset = base.outer.map reset
  noise : c.masks.noise = none
  datagrams : ∀ datagram ∈ c.datagrams, datagram ∈ c.party.network
  wire : ∀ bytes ∈ c.wire, ∃ datagram ∈ c.party.network, ∃ start stop buf,
    base.open bytes = .ok (some (start, stop), buf) ∧ (buf.take stop).drop start = datagram

variable {base : Masks A} {c c' peer : Connection A}

lemma Backed.wrapNext (hA : A.Lawful) (h : Backed base c) (draws : WrapDraws)
    (now sentAt interval : Nat) : Backed base (c.wrapNext draws now sentAt interval) := by
  have hquiet : c.masks.noiseDue now = [] := by rw [noiseDue, h.noise]
  cases hdatagrams : c.datagrams with
  | nil =>
    rw [Connection.wrapNext, hdatagrams]
    exact h
  | cons datagram datagrams =>
    have hleft : ∀ d ∈ datagrams, d ∈ c.party.network := fun d hd =>
      h.datagrams d (hdatagrams ▸ mem_cons_of_mem _ hd)
    have hinner := (Group.reset_seal c.masks.inner draws.inner datagram).trans h.inner
    rw [Connection.wrapNext, hdatagrams]
    simp only [Masks.wrap, hquiet, sealNoise]
    rcases hseal : Group.seal c.masks.inner draws.inner datagram with ⟨inner, _ | sealed⟩ <;>
      rw [hseal] at hinner
    · exact { h with inner := hinner, datagrams := hleft }
    refine { h with
      inner := hinner
      outer := (Group.reset_seal c.masks.outer draws.outer sealed).trans h.outer
      noise := by simp [Masks.sent, h.noise]
      datagrams := hleft
      wire := fun bytes hbytes => ?_ }
    rcases mem_append.mp hbytes with hold | hnew
    · exact h.wire bytes hold
    · obtain ⟨pre₁, post₁, hopen₁⟩ := Group.open_seal hA (Option.mem_toList.mp hnew) [] []
      obtain ⟨pre₂, post₂, hopen₂⟩ := Group.open_seal hA (congrArg Prod.snd hseal) pre₁ post₁
      rw [nil_append, append_nil, length_nil, Nat.zero_add, Group.open_congr h.outer] at hopen₁
      rw [Group.open_congr h.inner] at hopen₂
      refine ⟨datagram, h.datagrams _ (hdatagrams ▸ mem_cons_self), _, _, _, ?_,
        Group.drop_take_window pre₂ datagram post₂⟩
      rw [Masks.open, hopen₁]
      exact hopen₂

lemma Backed.receive (h : Backed base c) (hpeer : Backed base peer) {bytes : Bytes}
    (hbytes : bytes ∈ peer.wire) (current : UInt32) :
    ∃ datagram ∈ peer.party.network, c.receive bytes current =
      .ok (if readSegments datagram = [] then c
        else { c with party := c.party.input datagram current }) := by
  obtain ⟨datagram, hmem, start, stop, buf, hopen, rfl⟩ := hpeer.wire bytes hbytes
  have hreads : c.masks.open bytes = .ok (some (start, stop), buf) := by
    rw [← hopen, Masks.open, Masks.open, Group.open_congr h.outer]
    simp only [Group.open_congr h.inner]
  refine ⟨_, hmem, ?_⟩
  rw [Connection.receive, hreads]

lemma Backed.move (hA : A.Lawful) (h : Backed base c) (hpeer : Backed base peer)
    (hmove : Moves peer c c') :
    Backed base c' ∧ (c'.party = c.party ∨ Act peer.party c.party c'.party) := by
  cases hmove with
  | write data => exact ⟨{ h with }, .inr (.write data)⟩
  | read size => exact ⟨{ h with }, .inr (.read size)⟩
  | close current => exact ⟨{ h with }, .inr (.close current)⟩
  | flush current => exact ⟨{ h with }, .inr (.flush current)⟩
  | take =>
    refine ⟨{ h with datagrams := fun d hd => mem_append_right _ hd, wire := ?_ }, .inr .send⟩
    intro bytes hbytes
    obtain ⟨datagram, hmem, hopens⟩ := h.wire bytes hbytes
    exact ⟨datagram, mem_append_left _ hmem, hopens⟩
  | wrapNext draws now sentAt interval =>
    refine ⟨h.wrapNext hA draws now sentAt interval, .inl ?_⟩
    rw [Connection.wrapNext]
    repeat' split
    all_goals rfl
  | @receive bytes current _ hmem hfits hok =>
    obtain ⟨datagram, hsent, heq⟩ := h.receive hpeer hmem current
    cases heq.symm.trans hok
    split
    · exact ⟨h, .inl rfl⟩
    · exact ⟨{ h with }, .inr (.input hsent current)⟩

variable {conv : UInt16} {a b : Connection A}

lemma Joined.reachable (hA : A.Lawful) (hquiet : base.noise = none) (h : Joined conv base a b) :
    Reachable conv a.party b.party ∧ Backed base a ∧ Backed base b := by
  induction h with
  | start h h' =>
    exact ⟨.start h h', ⟨rfl, rfl, hquiet, by simp, by simp⟩, ⟨rfl, rfl, hquiet, by simp, by simp⟩⟩
  | left _ hmove ih =>
    obtain ⟨hreach, ha, hb⟩ := ih
    obtain ⟨ha', heq | hact⟩ := ha.move hA hb hmove
    · exact ⟨heq ▸ hreach, ha', hb⟩
    · exact ⟨hreach.left hact, ha', hb⟩
  | right _ hmove ih =>
    obtain ⟨hreach, ha, hb⟩ := ih
    obtain ⟨hb', heq | hact⟩ := hb.move hA ha hmove
    · exact ⟨heq ▸ hreach, ha, hb'⟩
    · exact ⟨hreach.right hact, ha, hb'⟩

/-- A connection behind a DTLS header and a cipher. -/
def fresh : Connection .constantTag :=
  { party := .new 7 plainConfig, masks := { inner := [.dtls 0 0 0, .aes ()] } }

def sender : Connection .constantTag :=
  { fresh with party := (fresh.party.write [1, 2, 3]).flush 10 }.take.wrapNext zeroDraws 0 0 0

def receiver : Connection .constantTag :=
  (fresh.receive (sender.wire.headD []) 10).toOption.getD fresh

end Connection

end Xray.Kcp
