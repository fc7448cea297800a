import Xray.Lib.Custody
import Xray.Tun.Admission

/-!
# UDP admission keeps its budget and lets through what was allowed

Every call is described once, by what it does to the entries (`prune_spec` to `popReady_spec`), and
what a step does follows (`step_spec`). From there the argument has three parts.

* **Budget.** `Accounts` holds in every state, so what a call subtracts is always there and the
  calls have results.

* **Custody.** Seen as packets that wait under a flow and an id, a step is one move of
  `Custody.Moves`. So what `pop_ready` gives is traced to the call that buffered it.

* **Ids.** As long as the counter has not wrapped, an id is completed once. So a decision that let
  packets through is never taken back.

A packet in `ready` has left its entry, which may become stale and be replaced before the packet is
taken (`popped_after_denial`). The entry that let it through is then not the flow's current one;
`process_tun_packet` asks `allow` again for every packet it takes.
-/

namespace Xray.Tun

open Bytes List

def UdpAdmission.pendingBytes (this : UdpAdmission) : Nat :=
  Assoc.weight (fun entry : Entry => bytesOf entry.decision.packets) this.entries

structure UdpAdmission.Accounts (limit : Nat) (this : UdpAdmission) : Prop where
  distinct : (this.entries.map Prod.fst).Nodup
  fixed : this.limit = limit
  held : this.bufferedBytes = this.pendingBytes + bytesOf this.ready
  budget : this.bufferedBytes ≤ maxBufferedBytes
  room : this.entries.length ≤ limit
  outstanding : this.tasks.length ≤ maxPending

lemma bytesOf_append (first second : List Bytes) :
    bytesOf (first ++ second) = bytesOf first + bytesOf second := by
  rw [bytesOf, map_append, sum_append, bytesOf, bytesOf]

lemma bytesOf_cons (packet : Bytes) (packets : List Bytes) :
    bytesOf (packet :: packets) = packet.length + bytesOf packets := by
  rw [bytesOf, map_cons, sum_cons, bytesOf]

namespace UdpAdmission

variable {limit : Nat} {this this' : UdpAdmission} {key : UdpFlowKey} {entry : Entry}

lemma unbuffer_eq {bytes : Nat} (h : bytes ≤ this.bufferedBytes) :
    this.unbuffer bytes = some { this with bufferedBytes := this.bufferedBytes - bytes } := if_pos h

lemma Accounts.packets_le (h : Accounts limit this) (hget : this.get key = some entry) :
    bytesOf entry.decision.packets + bytesOf this.ready ≤ this.bufferedBytes := by
  have := Assoc.weight_remove (fun entry : Entry => bytesOf entry.decision.packets) h.distinct hget
  have hheld := h.held
  rw [pendingBytes] at hheld
  omega

lemma Accounts.modify (h : Accounts limit this) (hget : this.get key = some entry)
    (f : Entry → Entry) (bytes : Nat) (ready : List Bytes)
    (hbytes : bytes + bytesOf entry.decision.packets + bytesOf this.ready =
      this.bufferedBytes + bytesOf (f entry).decision.packets + bytesOf ready)
    (hbudget : bytes ≤ maxBufferedBytes) :
    Accounts limit { this with
      entries := Assoc.modify key f this.entries, bufferedBytes := bytes, ready } := by
  refine ⟨?_, h.fixed, ?_, hbudget, ?_, h.outstanding⟩
  · show ((Assoc.modify key f this.entries).map Prod.fst).Nodup
    rw [Assoc.keys_modify]
    exact h.distinct
  · have hweight := Assoc.weight_modify (fun entry : Entry => bytesOf entry.decision.packets) f
      h.distinct hget
    have hheld := h.held
    rw [pendingBytes] at hheld
    show bytes = Assoc.weight _ (Assoc.modify key f this.entries) + bytesOf ready
    omega
  · show (this.entries.map _).length ≤ limit
    rw [length_map]
    exact h.room

/-! ## What the calls do -/

structure Trimmed (this this' : UdpAdmission) : Prop where
  get : ∀ key, this'.get key = this.get key ∨ this'.get key = none
  ready : this'.ready = this.ready
  tasks : this'.tasks = this.tasks

lemma Trimmed.trans {this'' : UdpAdmission} (h : Trimmed this this') (h' : Trimmed this' this'') :
    Trimmed this this'' := by
  refine ⟨fun key => ?_, h'.ready.trans h.ready, h'.tasks.trans h.tasks⟩
  rcases h'.get key with hkey | hkey
  · rw [hkey]
    exact h.get key
  · exact .inr hkey

lemma prune_spec (h : Accounts limit this) (now : Instant) :
    Accounts limit (this.prune now) ∧ Trimmed this (this.prune now) := by
  rw [prune]
  split
  · have hweight : Assoc.weight (fun entry : Entry => bytesOf entry.decision.packets)
        (this.entries.filter fun e => e.2.keeps now) = this.pendingBytes := by
      refine Assoc.weight_filter_of_zero _ _ fun e _ hgone => ?_
      rw [Entry.keeps] at hgone
      cases hdecision : e.2.decision with
      | pending packets =>
        rw [hdecision] at hgone
        cases hgone
      | allowed generation => rfl
      | denied => rfl
    refine ⟨⟨?_, h.fixed, ?_, h.budget, ?_, h.outstanding⟩, ?_, rfl, rfl⟩
    · exact h.distinct.sublist (filter_sublist.map Prod.fst)
    · show this.bufferedBytes = Assoc.weight _ (this.entries.filter _) + bytesOf this.ready
      rw [hweight, h.held]
    · exact (length_filter_le _ _).trans h.room
    intro key
    have hfilter := Assoc.get_filter (k := key) (fun e => e.2.keeps now) h.distinct
    cases hget : Assoc.get key this.entries with
    | none =>
      rw [hget] at hfilter
      exact .inr hfilter
    | some entry =>
      rw [hget, Option.filter_some] at hfilter
      split at hfilter
      · exact .inl (hfilter.trans hget.symm)
      · exact .inr hfilter
  · exact ⟨h, fun _ => .inl rfl, rfl, rfl⟩

lemma removeStale_spec (h : Accounts limit this) (now : Instant) (key : UdpFlowKey)
    (flows : Generations) :
    ∃ this', this.removeStale now key flows = some this' ∧ Accounts limit this' ∧
      Trimmed this this' := by
  rw [removeStale]
  split
  · exact ⟨this, rfl, h, fun _ => .inl rfl, rfl, rfl⟩
  next entry hentry =>
  obtain ⟨hget, -⟩ := Option.filter_eq_some_iff.mp hentry
  have hweight := Assoc.weight_remove (fun entry : Entry => bytesOf entry.decision.packets)
    h.distinct hget
  have hheld := h.held
  have hbudget := h.budget
  rw [pendingBytes] at hheld
  refine ⟨_, unbuffer_eq (by show _ ≤ this.bufferedBytes; omega), ?_, ?_, rfl, rfl⟩
  · refine ⟨h.distinct.sublist (filter_sublist.map Prod.fst), h.fixed, ?_, ?_, ?_, h.outstanding⟩
    · show this.bufferedBytes - _ =
        Assoc.weight _ (Assoc.remove key this.entries) + bytesOf this.ready
      omega
    · show this.bufferedBytes - _ ≤ _
      omega
    · exact (length_filter_le _ _).trans h.room
  · intro k
    have hremove := Assoc.get_remove key k this.entries
    split at hremove
    · exact .inr hremove
    · exact .inl hremove

/-- What a packet makes of its flow's entry. -/
inductive Seen (packet : Bytes) : Decision → Decision → Bool → Prop where
  | allowed (generation : Option UInt64) :
      Seen packet (.allowed generation) (.allowed generation) true
  | denied : Seen packet .denied .denied false
  | buffered (packets : List Bytes) :
      Seen packet (.pending packets) (.pending (packets ++ [packet])) false
  | dropped (packets : List Bytes) : Seen packet (.pending packets) (.pending packets) false

structure Changed (this : UdpAdmission) (key : UdpFlowKey) (entry : Entry) (this' : UdpAdmission) :
    Prop where
  get : this'.get key = some entry
  others : ∀ k, k ≠ key → this'.get k = this.get k
  ready : this'.ready = this.ready
  tasks : this'.tasks = this.tasks

lemma get_modify_self (f : Entry → Entry) (hget : this.get key = some entry)
    (hentries : this'.entries = Assoc.modify key f this.entries) :
    this'.get key = some (f entry) := by
  rw [UdpAdmission.get, hentries, Assoc.get_modify, if_pos rfl, ← UdpAdmission.get, hget]
  rfl

lemma get_modify_other (f : Entry → Entry) {k : UdpFlowKey} (hk : k ≠ key)
    (hentries : this'.entries = Assoc.modify key f this.entries) : this'.get k = this.get k := by
  rw [UdpAdmission.get, hentries, Assoc.get_modify, if_neg hk, UdpAdmission.get]

lemma seen_spec (h : Accounts limit this) (hget : this.get key = some entry) (now : Instant)
    (packet : Bytes) :
    ∃ this' decision answer, this.seen now key entry packet = (this', answer) ∧
      Accounts limit this' ∧ Changed this key { entry with lastSeen := now, decision } this' ∧
      Seen packet entry.decision decision answer := by
  have hbudget := h.budget
  have htouch : ∀ (decision : Decision) (bytes : Nat),
      bytes + bytesOf entry.decision.packets = this.bufferedBytes + bytesOf decision.packets →
      bytes ≤ maxBufferedBytes →
      let this' := { this with
        entries := Assoc.modify key
          (fun entry => { entry with lastSeen := now, decision }) this.entries
        bufferedBytes := bytes }
      Accounts limit this' ∧ Changed this key { entry with lastSeen := now, decision } this' := by
    intro decision bytes hbytes hle
    let touch : Entry → Entry := fun entry => { entry with lastSeen := now, decision }
    refine ⟨h.modify hget touch bytes this.ready ?_ hle, get_modify_self touch hget rfl,
      fun k hk => get_modify_other touch hk rfl, rfl, rfl⟩
    show _ + bytesOf this.ready = _ + bytesOf decision.packets + bytesOf this.ready
    omega
  rw [seen]
  cases hdecision : entry.decision with
  | allowed generation =>
    rw [hdecision] at htouch
    obtain ⟨haccounts, hchanged⟩ := htouch _ this.bufferedBytes rfl hbudget
    exact ⟨_, _, _, rfl, haccounts, hchanged, .allowed generation⟩
  | denied =>
    rw [hdecision] at htouch
    obtain ⟨haccounts, hchanged⟩ := htouch _ this.bufferedBytes rfl hbudget
    exact ⟨_, _, _, rfl, haccounts, hchanged, .denied⟩
  | pending packets =>
    rw [hdecision] at htouch
    dsimp only
    split
    · next hroom =>
      obtain ⟨haccounts, hchanged⟩ := htouch (.pending (packets ++ [packet]))
        (this.bufferedBytes + packet.length)
        (by
          show _ + bytesOf packets = _ + bytesOf (packets ++ [packet])
          rw [bytesOf_append]
          show _ = _ + (_ + (_ + 0))
          omega) hroom.2
      exact ⟨_, _, _, rfl, haccounts, hchanged, .buffered packets⟩
    · obtain ⟨haccounts, hchanged⟩ := htouch _ this.bufferedBytes rfl hbudget
      exact ⟨_, _, _, rfl, haccounts, hchanged, .dropped packets⟩

lemma get_concat_self (hget : this.get key = none)
    (hentries : this'.entries = this.entries ++ [(key, entry)]) : this'.get key = some entry := by
  rw [UdpAdmission.get, hentries, Assoc.get_concat, ← UdpAdmission.get, hget, if_pos rfl]
  rfl

lemma get_concat_other {k : UdpFlowKey} (hk : k ≠ key)
    (hentries : this'.entries = this.entries ++ [(key, entry)]) : this'.get k = this.get k := by
  rw [UdpAdmission.get, hentries, Assoc.get_concat, if_neg (Ne.symm hk), Option.or_none,
    UdpAdmission.get]

structure Started (this : UdpAdmission) (key : UdpFlowKey) (entry : Entry) (this' : UdpAdmission) :
    Prop where
  get : this'.get key = some entry
  others : ∀ k, k ≠ key → this'.get k = this.get k
  ready : this'.ready = this.ready
  tasks : this'.tasks = this.tasks ++ [(key, entry.id)]

lemma start_spec (h : Accounts limit this) (hget : this.get key = none) (now : Instant)
    (packet : Bytes) (nextId : UInt64) :
    this.start now key packet nextId = (this, nextId) ∨
    ∃ this', this.start now key packet nextId = (this', nextId + 1) ∧ Accounts limit this' ∧
      Started this key ⟨nextId, now, .pending [packet]⟩ this' := by
  rw [start]
  split
  · exact .inl rfl
  next hroom =>
  simp only [not_or, Nat.not_lt, h.fixed] at hroom
  obtain ⟨hentries, htasks, hbudget⟩ := hroom
  refine .inr ⟨_, rfl, ⟨?_, h.fixed, ?_, hbudget, ?_, ?_⟩, get_concat_self hget rfl,
    fun k hk => get_concat_other hk rfl, rfl, rfl⟩
  · have hnot : key ∉ this.entries.map Prod.fst := by
      intro hmem
      obtain ⟨entry, hentry⟩ := Assoc.exists_get_of_mem hmem
      cases hentry.symm.trans hget
    show ((this.entries ++ [_]).map Prod.fst).Nodup
    rw [map_append]
    refine nodup_append.mpr ⟨h.distinct, nodup_singleton _, fun a ha b hb hab => ?_⟩
    rw [hab, mem_singleton.mp hb] at ha
    exact hnot ha
  · have hheld := h.held
    rw [pendingBytes] at hheld
    show this.bufferedBytes + packet.length =
      Assoc.weight _ (this.entries ++ [_]) + bytesOf this.ready
    rw [Assoc.weight_concat]
    show _ = _ + (packet.length + 0) + _
    omega
  · show (this.entries ++ [_]).length ≤ limit
    rw [length_append, length_singleton]
    omega
  · show (this.tasks ++ [_]).length ≤ maxPending
    rw [length_append, length_singleton]
    omega

end UdpAdmission

/-! ## Packets in custody -/

def Entry.waits (entry : Entry) : Option (UInt64 × List Bytes) :=
  match entry.decision with
  | .pending packets => some (entry.id, packets)
  | _ => none

/-- The id of an entry whose decision let its flow through. -/
def Entry.admitted (entry : Entry) : Option UInt64 :=
  match entry.decision with
  | .allowed _ => some entry.id
  | _ => none

namespace UdpAdmission

variable {limit : Nat} {this this' : UdpAdmission} {key : UdpFlowKey} {entry : Entry}

def waitingAt (this : UdpAdmission) (key : UdpFlowKey) : Option (UInt64 × List Bytes) :=
  (this.get key).bind Entry.waits

def allowedAt (this : UdpAdmission) (key : UdpFlowKey) : Option UInt64 :=
  (this.get key).bind Entry.admitted

def view (this : UdpAdmission) : Custody.View UdpFlowKey UInt64 Bytes :=
  ⟨this.waitingAt, this.ready⟩

/-- No flow is let through that was not. -/
def AllowsNoMore (this this' : UdpAdmission) : Prop :=
  ∀ key id, this'.allowedAt key = some id → this.allowedAt key = some id

lemma Trimmed.drops (h : Trimmed this this') : Custody.Drops this.waitingAt this'.waitingAt := by
  intro key
  rcases h.get key with hkey | hkey
  · exact .inl (by rw [waitingAt, waitingAt, hkey])
  · exact .inr (by rw [waitingAt, hkey]; rfl)

lemma Trimmed.allowsNoMore (h : Trimmed this this') : AllowsNoMore this this' := by
  intro key id hid
  rcases h.get key with hkey | hkey
  · rwa [allowedAt, hkey] at hid
  · rw [allowedAt, hkey] at hid
    simp at hid

inductive Allowed (key : UdpFlowKey) (packet : Bytes) (this : UdpAdmission) (nextId : UInt64) :
    UdpAdmission → UInt64 → Bool → Custody.Event UdpFlowKey UInt64 Bytes → Prop where
  | through {this' : UdpAdmission} {id : UInt64} (hbefore : this.allowedAt key = some id)
      (htasks : this'.tasks = this.tasks) : Allowed key packet this nextId this' nextId true .drop
  | refused {this' : UdpAdmission} (htasks : this'.tasks = this.tasks) :
      Allowed key packet this nextId this' nextId false .drop
  | buffered {this' : UdpAdmission} {id : UInt64} (htasks : this'.tasks = this.tasks) :
      Allowed key packet this nextId this' nextId false (.push key id packet)
  | started {this' : UdpAdmission} (htasks : this'.tasks = this.tasks ++ [(key, nextId)]) :
      Allowed key packet this nextId this' (nextId + 1) false (.push key nextId packet)

lemma waitingAt_of_get {k : UdpFlowKey} (h : this'.get k = this.get k) :
    this'.waitingAt k = this.waitingAt k := by
  rw [waitingAt, waitingAt, h]

lemma Changed.allowsNoMore {entry' : Entry} (h : Changed this key entry' this')
    (hget : this.get key = some entry)
    (hsame : ∀ id, entry'.admitted = some id → entry.admitted = some id) :
    AllowsNoMore this this' := by
  intro k id hid
  by_cases hk : k = key
  · subst hk
    rw [allowedAt, h.get] at hid
    rw [allowedAt, hget]
    exact hsame id hid
  · rwa [allowedAt, h.others k hk] at hid

lemma Changed.waitingAt {entry' : Entry} (h : Changed this key entry' this')
    (hget : this.get key = some entry) (hsame : entry'.waits = entry.waits) :
    this'.waitingAt = this.waitingAt := by
  funext k
  by_cases hk : k = key
  · subst hk
    rw [UdpAdmission.waitingAt, UdpAdmission.waitingAt, h.get, hget]
    exact hsame
  · exact waitingAt_of_get (h.others k hk)

lemma allow_spec (h : Accounts limit this) (now : Instant) (udp : UdpTunPacket) (packet : Bytes)
    (flows : Generations) (nextId : UInt64) :
    ∃ this' nextId' answer e,
      this.allow now udp packet flows nextId = some (this', nextId', answer) ∧
      Accounts limit this' ∧ Custody.Moves this.view e this'.view ∧ AllowsNoMore this this' ∧
      Allowed (UdpFlowKey.new udp.client udp.target) packet this nextId this' nextId' answer e := by
  obtain ⟨hpruned, htrimmed₁⟩ := prune_spec h now
  obtain ⟨mid, hmid, hswept, htrimmed₂⟩ :=
    removeStale_spec hpruned now (UdpFlowKey.new udp.client udp.target) flows
  have htrimmed := htrimmed₁.trans htrimmed₂
  have hdrops := htrimmed.drops
  have hnomore := htrimmed.allowsNoMore
  rw [allow]
  rw [hmid, Option.map_some]
  generalize UdpFlowKey.new udp.client udp.target = key at *
  cases hget : mid.get key with
  | none =>
    rcases start_spec hswept hget now packet nextId with hsame | ⟨this', hstart, haccounts, hstarted⟩
    · rw [hsame]
      exact ⟨mid, nextId, false, .drop, rfl, hswept, ⟨hdrops, htrimmed.ready⟩, hnomore,
        .refused htrimmed.tasks⟩
    rw [hstart]
    refine ⟨this', nextId + 1, false, .push key nextId packet, rfl, haccounts,
      ⟨mid.waitingAt, hdrops, ⟨⟨[], .inr ⟨?_, rfl⟩, ?_⟩, ?_⟩, ?_⟩, ?_, .started ?_⟩
    · rw [waitingAt, hget]
      rfl
    · show this'.waitingAt key = _
      rw [waitingAt, hstarted.get]
      rfl
    · intro k hk
      exact waitingAt_of_get (hstarted.others k hk)
    · exact hstarted.ready.trans htrimmed.ready
    · intro k id hid
      by_cases hk : k = key
      · rw [hk, allowedAt, hstarted.get] at hid
        cases hid
      · rw [allowedAt, hstarted.others k hk] at hid
        exact hnomore k id hid
    · rw [hstarted.tasks, htrimmed.tasks]
  | some entry =>
    obtain ⟨this', decision, answer, hseen, haccounts, hchanged, hsees⟩ :=
      seen_spec hswept hget now packet
    dsimp only
    rw [hseen]
    have hready : this'.ready = this.ready := hchanged.ready.trans htrimmed.ready
    have htasks : this'.tasks = this.tasks := hchanged.tasks.trans htrimmed.tasks
    have hkeep : ({ entry with lastSeen := now, decision } : Entry).waits = entry.waits →
        Custody.Drops this.waitingAt this'.waitingAt := by
      intro hsame k
      rw [hchanged.waitingAt hget hsame]
      exact hdrops k
    have hmore : (∀ id, ({ entry with lastSeen := now, decision } : Entry).admitted = some id →
        entry.admitted = some id) → AllowsNoMore this this' :=
      fun hsame k id hid => hnomore k id (hchanged.allowsNoMore hget hsame k id hid)
    generalize hbefore : entry.decision = before at hsees
    cases hsees with
    | allowed generation =>
      have hsame : ({ entry with lastSeen := now, decision := .allowed generation } :
          Entry).admitted = entry.admitted := by
        rw [Entry.admitted, Entry.admitted, hbefore]
      refine ⟨this', nextId, true, .drop, rfl, haccounts, ⟨hkeep ?_, hready⟩,
        hmore fun id hid => hsame ▸ hid, .through (hnomore key entry.id ?_) htasks⟩
      · rw [Entry.waits, Entry.waits, hbefore]
      · rw [allowedAt, hget, Option.bind_some, Entry.admitted, hbefore]
    | denied | dropped packets =>
      refine ⟨this', nextId, false, .drop, rfl, haccounts, ⟨hkeep ?_, hready⟩,
        hmore fun id hid => ?_, .refused htasks⟩
      · rw [Entry.waits, Entry.waits, hbefore]
      · exact absurd hid (by simp [Entry.admitted])
    | buffered packets =>
      refine ⟨this', nextId, false, .push key entry.id packet, rfl, haccounts,
        ⟨mid.waitingAt, hdrops, ⟨⟨packets, .inl ?_, ?_⟩, ?_⟩, hready⟩,
        hmore fun id hid => ?_, .buffered htasks⟩
      · rw [waitingAt, hget, Option.bind_some, Entry.waits, hbefore]
      · show this'.waitingAt key = _
        rw [waitingAt, hchanged.get, Option.bind_some, Entry.waits]
      · intro k hk
        exact waitingAt_of_get (hchanged.others k hk)
      · exact absurd hid (by simp [Entry.admitted])

/-- The only flow let through that was not is the one of the completion. -/
def AllowsOnly (key : UdpFlowKey) (id : UInt64) (allowed : Bool) (this this' : UdpAdmission) :
    Prop :=
  ∀ k i, this'.allowedAt k = some i →
    this.allowedAt k = some i ∨ allowed = true ∧ k = key ∧ i = id

variable (h : Accounts limit this)

include h

lemma settle_spec (hget : this.get key = some entry) (allowed : Bool) :
    ∃ this' e, this.settle key entry allowed = some this' ∧ Accounts limit this' ∧
      this'.tasks = this.tasks ∧ Custody.Moves this.view e this'.view ∧
      AllowsOnly key entry.id allowed this this' ∧
      (e = .drop ∨ allowed ∧ e = .settle key entry.id) := by
  have hle := h.packets_le hget
  have hbudget := h.budget
  let next : Decision := if allowed then .allowed none else .denied
  let f : Entry → Entry := fun entry => { entry with decision := next }
  have hothers : ∀ this' : UdpAdmission, this'.entries = Assoc.modify key f this.entries →
      ∀ k, k ≠ key → this'.waitingAt k = this.waitingAt k :=
    fun this' hentries k hk => waitingAt_of_get (get_modify_other f hk hentries)
  have hnone : ∀ this' : UdpAdmission, this'.entries = Assoc.modify key f this.entries →
      this'.waitingAt key = none := by
    intro this' hentries
    rw [waitingAt, get_modify_self f hget hentries]
    cases allowed <;> rfl
  have honly : ∀ this' : UdpAdmission, this'.entries = Assoc.modify key f this.entries →
      AllowsOnly key entry.id allowed this this' := by
    intro this' hentries k i hi
    by_cases hk : k = key
    · subst hk
      rw [allowedAt, get_modify_self f hget hentries] at hi
      cases allowed with
      | true =>
        cases hi
        exact .inr ⟨rfl, rfl, rfl⟩
      | false => cases hi
    · rw [allowedAt, get_modify_other f hk hentries] at hi
      exact .inl hi
  have hdrops : ∀ this' : UdpAdmission, this'.entries = Assoc.modify key f this.entries →
      Custody.Drops this.waitingAt this'.waitingAt := by
    intro this' hentries k
    by_cases hk : k = key
    · exact .inr (hk ▸ hnone this' hentries)
    · exact .inl (hothers this' hentries k hk)
  cases allowed with
  | true =>
    have haccounts := h.modify hget f this.bufferedBytes (this.ready ++ entry.decision.packets) (by
        show _ = _ + bytesOf next.packets + _
        rw [bytesOf_append]
        show _ = _ + 0 + _
        omega) hbudget
    refine ⟨_, if entry.waits = none then .drop else .settle key entry.id, rfl, haccounts, rfl,
      ?_, honly _ rfl, ?_⟩
    · split
      · next hwaits =>
        refine ⟨hdrops _ rfl, ?_⟩
        show this.ready ++ entry.decision.packets = this.ready
        rw [Entry.waits] at hwaits
        cases hdecision : entry.decision with
        | pending packets => exact absurd hwaits (by simp [hdecision])
        | allowed generation => exact append_nil _
        | denied => exact append_nil _
      next hwaits =>
      refine ⟨entry.decision.packets, ?_, hnone _ rfl, hothers _ rfl, rfl⟩
      show this.waitingAt key = _
      rw [waitingAt, hget, Option.bind_some]
      rw [Entry.waits] at hwaits ⊢
      cases hdecision : entry.decision with
      | pending packets => rfl
      | allowed generation | denied => exact absurd rfl (hdecision ▸ hwaits)
    · split
      · exact .inl rfl
      · exact .inr ⟨rfl, rfl⟩
  | false =>
    have haccounts := h.modify hget f (this.bufferedBytes - bytesOf entry.decision.packets)
      this.ready
      (by
        show _ = _ + bytesOf next.packets + _
        show _ = _ + 0 + _
        omega) (by omega)
    refine ⟨_, .drop, ?_, haccounts, rfl, ⟨hdrops _ rfl, rfl⟩, honly _ rfl, .inl rfl⟩
    exact unbuffer_eq (by show _ ≤ this.bufferedBytes; omega)

lemma complete_spec (key : UdpFlowKey) (id : UInt64) (allowed : Bool) :
    ∃ this' e, this.complete (.ok (key, id, allowed)) = some this' ∧ Accounts limit this' ∧
      this'.tasks = this.tasks ∧ Custody.Moves this.view e this'.view ∧
      AllowsOnly key id allowed this this' ∧
      (e = .drop ∨ allowed ∧ e = .settle key id) := by
  rw [complete]
  split
  · exact ⟨this, .drop, rfl, h, rfl, ⟨fun _ => .inl rfl, rfl⟩, fun _ _ hi => .inl hi, .inl rfl⟩
  next entry hentry =>
  obtain ⟨hget, hid⟩ := Option.filter_eq_some_iff.mp hentry
  rw [← of_decide_eq_true hid]
  exact settle_spec h hget allowed

lemma bind_spec (key : UdpFlowKey) (flows : Generations) :
    Accounts limit (this.bind key flows) ∧ (this.bind key flows).tasks = this.tasks ∧
      Custody.Moves this.view .drop (this.bind key flows).view ∧
      AllowsNoMore this (this.bind key flows) := by
  rw [bind]
  split
  · next generation hallowed =>
    obtain ⟨entry, hget, hdecision⟩ := Option.map_eq_some_iff.mp hallowed
    let f : Entry → Entry := fun entry => { entry with decision := .allowed (flows key) }
    have hchanged : Changed this key (f entry)
        { this with entries := Assoc.modify key f this.entries } :=
      ⟨get_modify_self f hget rfl, fun k hk => get_modify_other f hk rfl, rfl, rfl⟩
    refine ⟨h.modify hget f this.bufferedBytes this.ready ?_ h.budget, rfl, ⟨fun k => .inl ?_, rfl⟩, ?_⟩
    · rw [hdecision]
      rfl
    · refine congrFun (hchanged.waitingAt hget ?_) k
      rw [Entry.waits, Entry.waits, hdecision]
    · refine hchanged.allowsNoMore hget fun id hid => ?_
      rw [Entry.admitted, hdecision]
      exact hid
  · exact ⟨h, rfl, ⟨fun _ => .inl rfl, rfl⟩, fun _ _ hid => hid⟩

lemma popReady_spec :
    ∃ this' packet, this.popReady = some (this', packet) ∧ Accounts limit this' ∧
      this'.tasks = this.tasks ∧ AllowsNoMore this this' ∧
      Custody.Moves this.view (packet.elim .drop .pop) this'.view := by
  rw [popReady]
  split
  · exact ⟨this, none, rfl, h, rfl, fun _ _ hid => hid, fun _ => .inl rfl, rfl⟩
  next packet rest hready =>
  have hheld := h.held
  have hbudget := h.budget
  rw [hready, bytesOf_cons] at hheld
  rw [unbuffer_eq (by show _ ≤ this.bufferedBytes; omega)]
  refine ⟨_, some packet, rfl, ⟨h.distinct, h.fixed, ?_, ?_, h.room, h.outstanding⟩, rfl,
    fun _ _ hid => hid, rfl, hready⟩
  · show this.bufferedBytes - packet.length = this.pendingBytes + bytesOf rest
    omega
  · show this.bufferedBytes - packet.length ≤ _
    omega

end UdpAdmission

namespace Admission

open Custody (Event View)

abbrev flowOf (udp : UdpTunPacket) : UdpFlowKey := UdpFlowKey.new udp.client udp.target

def Explains (call : Call) (m : Moment) : Event UdpFlowKey UInt64 Bytes → Prop
  | .drop => ∀ packet, m.answer ≠ .popped (some packet)
  | .push key _ packet =>
    (∃ now udp flows, call = .allow now udp packet flows ∧ key = flowOf udp) ∧
    m.answer = .allowed false
  | .settle key id =>
    (∃ index, call = .complete index (.ok true) ∧
      m.before.admission.tasks[index]? = some (key, id)) ∧
    m.answer = .done
  | .pop packet => call = .popReady ∧ m.answer = .popped (some packet)

def verdictOn (call : Call) (s : System) : Option (UdpFlowKey × UInt64) :=
  match call with
  | .complete index (.ok _) => s.admission.tasks[index]?
  | _ => none

inductive Ids (call : Call) (s s' : System) : Prop where
  | same (hnone : verdictOn call s = none) (htasks : s'.admission.tasks = s.admission.tasks)
      (hnext : s'.nextId = s.nextId ∨ s'.nextId = s.nextId + 1)
  | started (key : UdpFlowKey) (hnone : verdictOn call s = none)
      (htasks : s'.admission.tasks = s.admission.tasks ++ [(key, s.nextId)])
      (hnext : s'.nextId = s.nextId + 1)
  | joined (index : Nat) (task : UdpFlowKey × UInt64) (hget : s.admission.tasks[index]? = some task)
      (hverdict : verdictOn call s = none ∨ verdictOn call s = some task)
      (htasks : s'.admission.tasks = s.admission.tasks.eraseIdx index) (hnext : s'.nextId = s.nextId)

/-- A flow that is let through was before, or is by the completion of its decision. -/
def LetsIn (call : Call) (s s' : System) : Prop :=
  ∀ key id, s'.admission.allowedAt key = some id →
    s.admission.allowedAt key = some id ∨
    ∃ index, call = .complete index (.ok true) ∧ s.admission.tasks[index]? = some (key, id)

structure Steps (limit : Nat) (call : Call) (m : Moment) : Prop where
  accounts : m.after.admission.Accounts limit
  moves : ∃ e, Explains call m e ∧ Custody.Moves m.before.admission.view e m.after.admission.view
  ids : Ids call m.before m.after
  lets : LetsIn call m.before m.after
  through : ∀ now udp packet flows, call = .allow now udp packet flows →
    m.answer = .allowed true → ∃ id, m.before.admission.allowedAt (flowOf udp) = some id

variable {limit : Nat} {s : System}

section

variable (h : s.admission.Accounts limit)

include h

lemma step_allow (now : Instant) (udp : UdpTunPacket) (packet : Bytes) (flows : Generations) :
    ∃ s' answer, step s (.allow now udp packet flows) = some (s', answer) ∧
      Steps limit (.allow now udp packet flows) ⟨s, answer, s'⟩ := by
  obtain ⟨this', nextId', answer, e, hallow, haccounts, hmoves, hnomore, hallowed⟩ :=
    UdpAdmission.allow_spec h now udp packet flows s.nextId
  refine ⟨⟨this', nextId'⟩, .allowed answer, by rw [step, hallow]; rfl, haccounts,
    ⟨e, ?_, hmoves⟩, ?_, fun key id hid => .inl (hnomore key id hid), ?_⟩
  · cases hallowed with
    | through hbefore htasks | refused htasks => exact fun _ => by simp
    | buffered htasks | started htasks => exact ⟨⟨now, udp, flows, rfl, rfl⟩, rfl⟩
  · cases hallowed with
    | through hbefore htasks | refused htasks | buffered htasks =>
      exact .same rfl htasks (.inl rfl)
    | started htasks => exact .started (flowOf udp) rfl htasks rfl
  · intro now' udp' packet' flows' hcall hanswer
    cases hcall
    cases hallowed with
    | through hbefore htasks => exact ⟨_, hbefore⟩
    | refused htasks | buffered htasks | started htasks => cases hanswer

lemma step_complete (index : Nat) (result : Except JoinError Bool) :
    ∃ s' answer, step s (.complete index result) = some (s', answer) ∧
      Steps limit (.complete index result) ⟨s, answer, s'⟩ := by
  rw [step]
  cases hget : s.admission.tasks[index]? with
  | none =>
    refine ⟨s, .done, rfl, h, ⟨.drop, fun _ => by simp, fun _ => .inl rfl, rfl⟩,
      .same ?_ rfl (.inl rfl), fun _ _ hid => .inl hid, fun _ _ _ _ hcall => by cases hcall⟩
    cases result with
    | error e => rfl
    | ok allowed => exact hget
  | some task =>
    obtain ⟨key, id⟩ := task
    have hjoined : ({ s.admission with tasks := s.admission.tasks.eraseIdx index } :
        UdpAdmission).Accounts limit := by
      refine ⟨h.distinct, h.fixed, h.held, h.budget, h.room, ?_⟩
      exact (length_eraseIdx_le _ _).trans h.outstanding
    cases result with
    | error e =>
      exact ⟨_, .done, rfl, hjoined, ⟨.drop, fun _ => by simp, fun _ => .inl rfl, rfl⟩,
        .joined index (key, id) hget (.inl rfl) rfl rfl, fun _ _ hid => .inl hid,
        fun _ _ _ _ hcall => by cases hcall⟩
    | ok allowed =>
      obtain ⟨this', e, hcomplete, haccounts, htasks, hmoves, honly, he⟩ :=
        UdpAdmission.complete_spec hjoined key id allowed
      have hok : completion (key, id) (.ok allowed) = .ok (key, id, allowed) := rfl
      refine ⟨⟨this', s.nextId⟩, .done, by dsimp only; rw [hok, hcomplete]; rfl, haccounts,
        ⟨e, ?_, hmoves⟩, .joined index (key, id) hget (.inr hget) htasks rfl, ?_,
        fun _ _ _ _ hcall => by cases hcall⟩
      · rcases he with rfl | ⟨rfl, rfl⟩
        · exact fun _ => by simp
        · exact ⟨⟨index, rfl, hget⟩, rfl⟩
      · intro k i hi
        rcases honly k i hi with hbefore | ⟨rfl, rfl, rfl⟩
        · exact .inl hbefore
        · exact .inr ⟨index, rfl, hget⟩

lemma step_spec (call : Call) :
    ∃ s' answer, step s call = some (s', answer) ∧ Steps limit call ⟨s, answer, s'⟩ := by
  cases call with
  | allow now udp packet flows => exact step_allow h now udp packet flows
  | complete index result => exact step_complete h index result
  | bind key flows =>
    obtain ⟨haccounts, htasks, hmoves, hnomore⟩ := UdpAdmission.bind_spec h key flows
    exact ⟨_, .done, rfl, haccounts, ⟨.drop, fun _ => by simp, hmoves⟩,
      .same rfl htasks (.inl rfl), fun key id hid => .inl (hnomore key id hid),
      fun _ _ _ _ hcall => by cases hcall⟩
  | popReady =>
    obtain ⟨this', packet, hpop, haccounts, htasks, hnomore, hmoves⟩ := UdpAdmission.popReady_spec h
    refine ⟨⟨this', s.nextId⟩, .popped packet, by rw [step, hpop]; rfl, haccounts, ⟨_, ?_, hmoves⟩,
      .same rfl htasks (.inl rfl), fun key id hid => .inl (hnomore key id hid),
      fun _ _ _ _ hcall => by cases hcall⟩
    cases packet with
    | none => exact fun _ => by simp
    | some packet => exact ⟨rfl, rfl⟩
  | fetchId =>
    exact ⟨_, .done, rfl, h, ⟨.drop, fun _ => by simp, fun _ => .inl rfl, rfl⟩,
      .same rfl rfl (.inr rfl), fun _ _ hid => .inl hid, fun _ _ _ _ hcall => by cases hcall⟩

end

/-- At place `n` a decision on the flow and id ended with the verdict. -/
def Completes (log : List (Call × Moment)) (n : Nat) (key : UdpFlowKey) (id : UInt64)
    (allowed : Bool) : Prop :=
  ∃ index m, log[n]? = some (.complete index (.ok allowed), m) ∧
    m.before.admission.tasks[index]? = some (key, id)

/-- At place `n` the packet was kept back, and waits in the flow's entry. -/
def Buffers (log : List (Call × Moment)) (n : Nat) (key : UdpFlowKey) (id : UInt64)
    (packet : Bytes) : Prop :=
  ∃ now udp flows m packets, log[n]? = some (.allow now udp packet flows, m) ∧ key = flowOf udp ∧
    m.answer = .allowed false ∧ m.after.admission.waitingAt key = some (id, packets) ∧
    packet ∈ packets

/-- From after place `first` up to place `last`, the packet waits in the flow's entry. -/
def WaitsFrom (log : List (Call × Moment)) (first last : Nat) (key : UdpFlowKey) (id : UInt64)
    (packet : Bytes) : Prop :=
  ∀ n call m, first < n → n ≤ last → log[n]? = some (call, m) →
    ∃ packets, m.before.admission.waitingAt key = some (id, packets) ∧ packet ∈ packets

/-- From after place `first` up to place `last`, the flow's entry lets it through. -/
def AllowedFrom (log : List (Call × Moment)) (first last : Nat) (key : UdpFlowKey) (id : UInt64) :
    Prop :=
  ∀ n call m, first < n → n ≤ last → log[n]? = some (call, m) →
    m.before.admission.allowedAt key = some id

/-- An entry of the log and what it is in terms of custody. -/
def Recorded (entry : Call × Moment)
    (event : View UdpFlowKey UInt64 Bytes × Event UdpFlowKey UInt64 Bytes) : Prop :=
  event.1 = entry.2.before.admission.view ∧ Explains entry.1 entry.2 event.2 ∧
  Custody.Moves event.1 event.2 entry.2.after.admission.view

def verdicts (log : List (Call × Moment)) : List (UdpFlowKey × UInt64) :=
  log.filterMap fun entry => verdictOn entry.1 entry.2.before

/-- The ids of decisions that are outstanding or have ended with a verdict, before the counter has
wrapped. -/
structure Fresh (log : List (Call × Moment)) (s : System) : Prop where
  next : s.nextId.toNat ≤ log.length
  below : ∀ task ∈ s.admission.tasks ++ verdicts log, task.2.toNat < s.nextId.toNat
  distinct : ((s.admission.tasks ++ verdicts log).map Prod.snd).Nodup

structure Inv (limit : Nat) (s : System) (log : List (Call × Moment)) : Prop where
  accounts : s.admission.Accounts limit
  custody : ∃ past, Custody.Chain past s.admission.view ∧ List.Forall₂ Recorded log past
  allowed : ∀ key id, s.admission.allowedAt key = some id →
    ∃ c, Completes log c key id true ∧ AllowedFrom log c log.length key id
  through : ∀ j now udp packet flows m, log[j]? = some (.allow now udp packet flows, m) →
    m.answer = .allowed true →
    ∃ id c, c < j ∧ Completes log c (flowOf udp) id true ∧ AllowedFrom log c j (flowOf udp) id
  fresh : log.length < 2 ^ 64 → Fresh log s

lemma Inv.new (limit : Nat) (now : Instant) : Inv limit (System.new limit now) [] := by
  refine ⟨⟨nodup_nil, rfl, rfl, Nat.zero_le _, Nat.zero_le _, Nat.zero_le _⟩,
    ⟨[], .start, .nil⟩, ?_, ?_, fun _ => ⟨Nat.le_refl _, ?_, nodup_nil⟩⟩
  · intro key id hid
    cases hid
  · intro j now udp packet flows m hget
    simp at hget
  · intro task htask
    exact absurd htask (by simp [System.new, UdpAdmission.new, verdicts])

variable {log : List (Call × Moment)} {call : Call} {m : Moment} {n c d : Nat} {allowed : Bool}
  {key : UdpFlowKey} {id : UInt64}
  {past : List (View UdpFlowKey UInt64 Bytes × Event UdpFlowKey UInt64 Bytes)}

lemma Completes.snoc (h : Completes log n key id allowed)
    (entry : Call × Moment) : Completes (log ++ [entry]) n key id allowed := by
  obtain ⟨index, m, hget, htask⟩ := h
  exact ⟨index, m, Custody.getElem?_snoc_of_some hget, htask⟩

lemma Completes.lt (h : Completes log n key id allowed) : n < log.length := by
  obtain ⟨index, m, hget, -⟩ := h
  exact (List.getElem_of_getElem? hget).1

lemma AllowedFrom.snoc {last : Nat}
    (h : AllowedFrom log c log.length key id) (hnow : m.before.admission.allowedAt key = some id) :
    AllowedFrom (log ++ [(call, m)]) c last key id := by
  intro n call' m' hn _ hget
  rcases Custody.getElem?_snoc hget with hget | ⟨-, heq⟩
  · exact h n call' m' hn (Nat.le_of_lt (List.getElem_of_getElem? hget).1) hget
  · cases heq
    exact hnow

lemma Inv.allowed_snoc (h : Inv limit m.before log) (hlets : LetsIn call m.before m.after)
    (hid : m.after.admission.allowedAt key = some id) :
    ∃ c, Completes (log ++ [(call, m)]) c key id true ∧
      AllowedFrom (log ++ [(call, m)]) c (log ++ [(call, m)]).length key id := by
  rcases hlets key id hid with hbefore | ⟨index, rfl, htask⟩
  · obtain ⟨c, hc, hfrom⟩ := h.allowed key id hbefore
    exact ⟨c, hc.snoc _, hfrom.snoc hbefore⟩
  refine ⟨log.length, ⟨index, m, by simp, htask⟩, fun n call' m' hn _ hget => ?_⟩
  have hlen := (List.getElem_of_getElem? hget).1
  rw [length_append, length_singleton] at hlen
  omega

lemma Inv.through_snoc (h : Inv limit m.before log) (hstep : Steps limit call m) {j : Nat}
    {now : Instant} {udp : UdpTunPacket} {packet : Bytes} {flows : Generations} {m' : Moment}
    (hget : (log ++ [(call, m)])[j]? = some (.allow now udp packet flows, m'))
    (hanswer : m'.answer = .allowed true) :
    ∃ id c, c < j ∧ Completes (log ++ [(call, m)]) c (flowOf udp) id true ∧
      AllowedFrom (log ++ [(call, m)]) c j (flowOf udp) id := by
  rcases Custody.getElem?_snoc hget with hget | ⟨rfl, heq⟩
  · obtain ⟨id, c, hlt, hc, hfrom⟩ := h.through j now udp packet flows m' hget hanswer
    refine ⟨id, c, hlt, hc.snoc _, fun n call' m'' hn hle hget' => ?_⟩
    have hj := (List.getElem_of_getElem? hget).1
    rcases Custody.getElem?_snoc hget' with hget' | ⟨hn', -⟩
    · exact hfrom n call' m'' hn hle hget'
    · omega
  · cases heq
    obtain ⟨id, hid⟩ := hstep.through now udp packet flows rfl hanswer
    obtain ⟨c, hc, hfrom⟩ := h.allowed (flowOf udp) id hid
    exact ⟨id, c, hc.lt, hc.snoc _, hfrom.snoc hid⟩

lemma verdicts_snoc (log : List (Call × Moment)) (call : Call) (m : Moment) :
    verdicts (log ++ [(call, m)]) = verdicts log ++ (verdictOn call m.before).toList := by
  rw [verdicts, filterMap_append]
  congr 1

lemma toNat_succ (id : UInt64) (h : id.toNat + 1 < 2 ^ 64) : (id + 1).toNat = id.toNat + 1 := by
  exact Nat.mod_eq_of_lt h

lemma Fresh.snoc (h : Fresh log m.before) (hlen : log.length + 1 < 2 ^ 64)
    (hids : Ids call m.before m.after) : Fresh (log ++ [(call, m)]) m.after := by
  have hnext := h.next
  have hsucc := toNat_succ m.before.nextId (by omega)
  have hlength : (log ++ [(call, m)]).length = log.length + 1 := by simp
  cases hids with
  | same hnone htasks hstep =>
    have hsame : m.after.admission.tasks ++ verdicts (log ++ [(call, m)]) =
        m.before.admission.tasks ++ verdicts log := by
      rw [verdicts_snoc, hnone, htasks]
      simp
    have hle : m.before.nextId.toNat ≤ m.after.nextId.toNat ∧
        m.after.nextId.toNat ≤ log.length + 1 := by
      rcases hstep with hstep | hstep <;> rw [hstep] <;> omega
    refine ⟨by omega, fun task htask => ?_, by rw [hsame]; exact h.distinct⟩
    have := h.below task (hsame ▸ htask)
    omega
  | started key hnone htasks hstep =>
    have hperm : (m.after.admission.tasks ++ verdicts (log ++ [(call, m)])).Perm
        ((key, m.before.nextId) :: (m.before.admission.tasks ++ verdicts log)) := by
      rw [verdicts_snoc, hnone, htasks]
      rw [Option.toList_none, append_nil, append_assoc, singleton_append]
      exact perm_middle
    refine ⟨by rw [hstep]; omega, fun task htask => ?_, ?_⟩
    · rw [hstep, hsucc]
      rcases mem_cons.mp (hperm.subset htask) with rfl | htask
      · exact Nat.lt_succ_self _
      · have := h.below task htask
        omega
    · rw [(hperm.map Prod.snd).nodup_iff, map_cons, nodup_cons]
      refine ⟨fun hmem => ?_, h.distinct⟩
      obtain ⟨task, htask, heq⟩ := mem_map.mp hmem
      have hbelow := h.below task htask
      rw [heq] at hbelow
      exact Nat.lt_irrefl _ hbelow
  | joined index task hget hverdict htasks hstep =>
    have hperm : m.before.admission.tasks.Perm
        (task :: m.before.admission.tasks.eraseIdx index) := by
      obtain ⟨hindex, rfl⟩ := List.getElem_of_getElem? hget
      exact (getElem_cons_eraseIdx_perm hindex).symm
    have hsub : (m.after.admission.tasks ++ verdicts (log ++ [(call, m)])).Subperm
        (m.before.admission.tasks ++ verdicts log) := by
      rw [verdicts_snoc, htasks]
      refine List.Subperm.trans ?_ (hperm.append_right _).symm.subperm
      rcases hverdict with hverdict | hverdict
      · rw [hverdict]
        simpa using (sublist_cons_self task _).subperm
      · rw [hverdict, ← append_assoc]
        exact perm_append_comm.subperm
    refine ⟨by rw [hstep]; omega, fun x hx => ?_, ?_⟩
    · rw [hstep]
      exact h.below x (hsub.subset hx)
    · obtain ⟨rest, hrest, hsublist⟩ := hsub
      rw [← (hrest.map Prod.snd).nodup_iff]
      exact h.distinct.sublist (hsublist.map Prod.snd)

lemma Inv.snoc (h : Inv limit m.before log) (hstep : Steps limit call m) :
    Inv limit m.after (log ++ [(call, m)]) := by
  refine ⟨hstep.accounts, ?_, fun key id hid => h.allowed_snoc hstep.lets hid,
    fun j now udp packet flows m' hget hanswer => h.through_snoc hstep hget hanswer,
    fun hlen => ?_⟩
  · obtain ⟨past, hchain, hrecorded⟩ := h.custody
    obtain ⟨e, hexplains, hmoves⟩ := hstep.moves
    refine ⟨past ++ [(m.before.admission.view, e)], .step hchain hmoves, ?_⟩
    exact rel_append hrecorded (.cons ⟨rfl, hexplains, hmoves⟩ .nil)
  · rw [length_append] at hlen
    exact (h.fresh (by omega)).snoc hlen hstep.ids

lemma inv_of_run (limit : Nat) (now : Instant) (calls : List Call) :
    ∃ s log, run (System.new limit now) calls = some (s, log) ∧ Inv limit s log := by
  have hR : (([] : List (Call × Moment)).map Prod.fst ++ calls).Pairwise fun _ _ => True :=
    pairwise_of_forall fun _ _ => trivial
  refine Log.run_inv (fun s log call _ h _ => ?_) (Inv.new limit now) hR
  obtain ⟨s', answer, hstep, hsteps⟩ := step_spec h.accounts call
  exact ⟨s', ⟨s, answer, s'⟩, by rw [observe, hstep]; rfl, Inv.snoc h hsteps⟩

/-! ## What the log says -/

lemma exists_at {α β : Type} {R : α → β → Prop} {as : List α} {bs : List β}
    (h : List.Forall₂ R as bs) {a : α} (hget : as[n]? = some a) : ∃ b, bs[n]? = some b ∧ R a b := by
  induction h generalizing n with
  | nil => simp at hget
  | cons hhead _ ih =>
    cases n with
    | zero =>
      cases hget
      exact ⟨_, rfl, hhead⟩
    | succ n => exact ih hget

/-- A packet that `pop_ready` gave at a place. -/
def Pops (log : List (Call × Moment)) (j : Nat) (packet : Bytes) : Prop :=
  ∃ m, log[j]? = some (.popReady, m) ∧ m.answer = .popped (some packet)

/-- The packet was buffered at `i`, and the decision its flow's entry waited for let it through at
some place before `j`. -/
def ReleasedFrom (log : List (Call × Moment)) (i j : Nat) (packet : Bytes) : Prop :=
  ∃ key id c, i < c ∧ c < j ∧ Buffers log i key id packet ∧ WaitsFrom log i c key id packet ∧
    Completes log c key id true ∧
    (log.length < 2 ^ 64 → ∀ d, ¬Completes log d key id false)

lemma Completes.mem_verdicts (h : Completes log n key id allowed)
    (hlt : n < d) : (key, id) ∈ verdicts (log.take d) := by
  obtain ⟨index, m, hget, htask⟩ := h
  refine mem_filterMap.mpr ⟨(.complete index (.ok allowed), m), ?_, htask⟩
  exact mem_of_getElem? (by rw [getElem?_take_of_lt hlt, hget])

lemma Completes.verdicts_eq (h : Completes log n key id allowed) :
    verdicts log = verdicts (log.take n) ++ (key, id) :: verdicts (log.drop (n + 1)) := by
  obtain ⟨index, m, hget, htask⟩ := h
  obtain ⟨hn, hentry⟩ := List.getElem_of_getElem? hget
  conv_lhs => rw [← take_append_drop n log, drop_eq_getElem_cons hn, hentry]
  rw [verdicts, filterMap_append, filterMap_cons]
  have hverdict : verdictOn (.complete index (.ok allowed)) m.before = some (key, id) := htask
  rw [hverdict]
  rfl

lemma Fresh.once (h : Fresh log s) {key key' : UdpFlowKey} {id : UInt64} {allowed' : Bool}
    (hn : Completes log n key id allowed) (hd : Completes log d key' id allowed') : ¬n < d := by
  intro hlt
  have hdistinct := h.distinct
  rw [map_append, hd.verdicts_eq, map_append] at hdistinct
  have hright := (nodup_append.mp (nodup_append.mp hdistinct).2.1).2.2
  exact hright id (mem_map_of_mem (hn.mem_verdicts hlt)) id mem_cons_self rfl

lemma Inv.no_denial (h : Inv limit s log) (hlen : log.length < 2 ^ 64) {key : UdpFlowKey}
    {id : UInt64} (hc : Completes log c key id true) (d : Nat) : ¬Completes log d key id false := by
  intro hd
  have hfresh := h.fresh hlen
  have heq : c = d := by
    have h₁ := hfresh.once hc hd
    have h₂ := hfresh.once hd hc
    omega
  obtain ⟨index, m, hget, -⟩ := hc
  obtain ⟨index', m', hget', -⟩ := hd
  rw [heq, hget'] at hget
  cases hget

lemma Inv.releases (h : Inv limit s log) : ∃ source : Nat → Nat,
      (∀ j packet, Pops log j packet → ReleasedFrom log (source j) j packet) ∧
      ∀ j j' packet packet', Pops log j packet → Pops log j' packet' → source j = source j' →
        j = j' := by
  obtain ⟨past, hchain, hrecorded⟩ := h.custody
  obtain ⟨source, hsource, honce⟩ := hchain.takes
  have hpop : ∀ {j packet}, Pops log j packet → ∃ v, past[j]? = some (v, .pop packet) := by
    intro j packet hpops
    obtain ⟨m, hget, hanswer⟩ := hpops
    obtain ⟨⟨v, e⟩, hevent, -, hexplains, -⟩ := exists_at hrecorded hget
    cases e with
    | drop => exact absurd hanswer (hexplains packet)
    | push key id item | settle key id => cases hexplains.2.symm.trans hanswer
    | pop item =>
      have hsame := hexplains.2.symm.trans hanswer
      cases hsame
      exact ⟨v, hevent⟩
  refine ⟨source, fun j packet hpops => ?_, fun j j' packet packet' hpops hpops' => ?_⟩
  · obtain ⟨v, hv⟩ := hpop hpops
    obtain ⟨x, c, hplace, hitem, hlt, hsettled⟩ := hsource j v packet hv
    subst hitem
    obtain ⟨w, hw⟩ := hsettled.settled
    obtain ⟨⟨call, m⟩, hentry, -, ⟨⟨index, hcall, htask⟩, -⟩, -⟩ := exists_at hrecorded.flip hw
    have hcall : call = .complete index (.ok true) := hcall
    rw [hcall] at hentry
    have hcompletes : Completes log c x.key x.id true := ⟨index, m, hentry, htask⟩
    refine ⟨x.key, x.id, c, hplace ▸ hsettled.after, hlt, ?_, ?_, hcompletes,
      fun hlen => h.no_denial hlen hcompletes⟩
    · obtain ⟨u, hu⟩ := hsettled.kept.pushed
      obtain ⟨⟨call', m'⟩, hentry', -, ⟨⟨now, udp, flows, hcall', hkey⟩, hanswer⟩, hmoves⟩ :=
        exists_at hrecorded.flip hu
      obtain ⟨waiting, -, ⟨⟨items, -, hafter⟩, -⟩, -⟩ := hmoves
      have hcall' : call' = .allow now udp x.item flows := hcall'
      rw [hcall', hplace] at hentry'
      exact ⟨now, udp, flows, m', items ++ [x.item], hentry', hkey, hanswer, hafter, by simp⟩
    · intro n call' m' hn hle hget
      obtain ⟨⟨u, e⟩, hevent, hview, -⟩ := exists_at hrecorded hget
      obtain ⟨packets, hpackets, hmem⟩ := hsettled.kept.waits n u e (hplace ▸ hn) hle hevent
      have hview : u = m'.before.admission.view := hview
      rw [hview] at hpackets
      exact ⟨packets, hpackets, hmem⟩
  · obtain ⟨v, hv⟩ := hpop hpops
    obtain ⟨v', hv'⟩ := hpop hpops'
    exact honce j j' v v' packet packet' hv hv'

/-- For every sequence of calls, made at any times, whose decisions end in any order with a verdict
or an error:

* every call has an answer, so nothing is subtracted that is not there, and `Accounts` holds: the
  bytes counted are those of pending entries and of the queue, and are within the budget, as the
  entries are within the limit, and the decisions outstanding within theirs;
* `allow` lets a packet through only if the flow's entry, which has let it through ever since, was
  let in by the completion of its own decision;
* a packet that `pop_ready` gives was kept back by a call of its own, and waited in one entry of
  its flow until the completion of that entry's decision let it through. No verdict against that
  decision comes, ever, unless the counter wraps.
-/
theorem admission_lets_through_what_was_allowed (limit : Nat) (now : Instant) (calls : List Call) :
    ∃ s log, run (System.new limit now) calls = some (s, log) ∧
      s.admission.Accounts limit ∧
      (∀ j now udp packet flows m, log[j]? = some (.allow now udp packet flows, m) →
        m.answer = .allowed true →
        ∃ id c, c < j ∧ Completes log c (flowOf udp) id true ∧
          AllowedFrom log c j (flowOf udp) id) ∧
      ∃ source : Nat → Nat, (∀ j packet, Pops log j packet → ReleasedFrom log (source j) j packet) ∧
        ∀ j j' packet packet', Pops log j packet → Pops log j' packet' →
          source j = source j' → j = j' := by
  obtain ⟨s, log, hrun, hinv⟩ := inv_of_run limit now calls
  exact ⟨s, log, hrun, hinv.accounts, hinv.through, hinv.releases⟩

/-! ## A packet outlives its entry -/

def sampleUdp : UdpTunPacket :=
  { client := ⟨.v4 0x0a000002, 1234⟩, target := ⟨.v4 0x7f000001, 9000⟩, payload := [] }

/-- A packet is let through and not taken while its flow is idle for a minute. The next packet
starts a new decision, and it is denied. -/
def idleCalls : List Call :=
  [.allow 0 sampleUdp [1] fun _ => none, .complete 0 (.ok true),
   .allow (seconds 60) sampleUdp [2] fun _ => none, .complete 0 (.ok false), .popReady]

/-- The packet is taken though the flow's entry is one that was denied. -/
theorem popped_after_denial : ∃ s log m, run (System.new 1024 0) idleCalls = some (s, log) ∧
      log[4]? = some (.popReady, m) ∧ m.answer = .popped (some [1]) ∧
      m.before.admission.get (flowOf sampleUdp) = some ⟨1, seconds 60, .denied⟩ ∧
      ∀ n, ¬Completes log n (flowOf sampleUdp) 1 true := by
  obtain ⟨s, log, hrun, hinv⟩ := inv_of_run 1024 0 idleCalls
  have hlog : (run (System.new 1024 0) idleCalls).bind (fun r => r.2[4]?) = log[4]? := by
    rw [hrun]
    rfl
  have hlog' : (run (System.new 1024 0) idleCalls).bind (fun r => r.2[3]?) = log[3]? := by
    rw [hrun]
    rfl
  have hlen : log.length = 5 := by
    rw [← length_map Prod.fst, Log.run_calls hrun]
    rfl
  refine ⟨s, log, _, hrun, hlog.symm.trans rfl, rfl, rfl, fun n hn => ?_⟩
  exact hinv.no_denial (by omega) hn 3 ⟨0, _, hlog'.symm.trans rfl, rfl⟩

end Admission

end Xray.Tun
