import Xray.Connection.Ledger

/-!
# The registry keeps the ledger

Along a run the registry, the leases and the shared counters agree with the ledger of the same
steps (`Inv`): a connection is active while its account is open, its counters are what is booked
on the account, and the row of an outbound is the tally of its accounts. One lemma for each kind
of step shows that this is kept, as long as no total reaches `2 ^ 64`.
-/

namespace Xray.Connection

open Std Routing List Account ConnectionRegistry Ledger

section

variable {κ ν : Type} [Ord κ] [TransOrd κ] [LawfulEqOrd κ] [DecidableEq κ] {m : ExtTreeMap κ ν}

lemma getElem?_insert (k a : κ) (v : ν) :
    (m.insert k v)[a]? = if k = a then some v else m[a]? := by
  rw [ExtTreeMap.getElem?_insert]
  simp only [Std.compare_eq_iff_eq]

lemma getElem?_erase (k a : κ) : (m.erase k)[a]? = if k = a then none else m[a]? := by
  rw [ExtTreeMap.getElem?_erase]
  simp only [Std.compare_eq_iff_eq]

lemma getElem?_modify (k a : κ) (f : ν → ν) :
    (m.modify k f)[a]? = if k = a then m[k]?.map f else m[a]? := by
  rw [ExtTreeMap.getElem?_modify]
  simp only [Std.compare_eq_iff_eq]

omit [DecidableEq κ] in
lemma mem_valuesOf {v : ν} : v ∈ valuesOf m ↔ ∃ k : κ, m[k]? = some v := by
  rw [valuesOf, mem_map]
  constructor
  · rintro ⟨⟨k, w⟩, hmem, rfl⟩
    exact ⟨k, ExtTreeMap.mem_toList_iff_getElem?_eq_some.mp hmem⟩
  · rintro ⟨k, hk⟩
    exact ⟨(k, v), ExtTreeMap.mem_toList_iff_getElem?_eq_some.mpr hk, rfl⟩

end

/-- Bytes are recorded without the registry. -/
def Step.calls : Step → Nat
  | .recordUplink _ _ | .recordDownlink _ _ => 0
  | _ => 1

def RowOf (l : Ledger) (tag : Option String) : Option OutboundAccounting → Prop
  | none => l.opened tag = 0
  | some row =>
    row.outboundTag = tag ∧ row.openedConnections = l.opened tag ∧
    row.completedConnections = l.completed tag ∧
    row.uplinkBytes = l.tally (fun a => if a.done then a.uplink else 0) tag ∧
    row.downlinkBytes = l.tally (fun a => if a.done then a.downlink else 0) tag ∧
    row.activeUplinkBytes = 0 ∧ row.activeDownlinkBytes = 0

/-- A connection is active while its account is open, and its counters are what is booked. -/
def Stands (s : System) (i : Nat) (a : Account) (lease : ConnectionLease) : Prop :=
  (a.done = true → s.registry.active[lease.id]? = none) ∧
  (a.done = false → ∃ entry : ConnectionEntry, s.registry.active[lease.id]? = some entry ∧
    entry.traffic = i ∧ entry.info.outboundTag = a.tag ∧
    s.traffic[i]? = some ⟨a.uplink, a.downlink⟩)

/-- The system agrees with the ledger after some calls and some recorded bytes. -/
structure Inv (s : System) (l : Ledger) (calls : Nat) : Prop where
  traffic_length : s.traffic.length = l.length
  leases_length : s.leases.length = l.length
  issued : ∃ n, n ≤ calls ∧ s.registry.nextId = (n + 1) % 2 ^ 64 ∧
    ∀ id ∈ s.taken ++ s.leases.map ConnectionLease.id, 0 < id ∧ id ≤ n
  distinct : (s.taken ++ s.leases.map ConnectionLease.id).Nodup
  stands : ∀ (i : Nat) (a : Account) (lease : ConnectionLease), l[i]? = some a →
    s.leases[i]? = some lease → Stands s i a lease
  finished : ∀ (i : Nat) (a : Account) (lease : ConnectionLease), l[i]? = some a →
    s.leases[i]? = some lease → lease.finished → a.done
  known : ∀ (id : Nat) (entry : ConnectionEntry), s.registry.active[id]? = some entry →
    ∃ (i : Nat) (lease : ConnectionLease), s.leases[i]? = some lease ∧ lease.id = id
  rows : ∀ tag : Option String, RowOf l tag s.registry.accounting[tag]?
  revision_le : s.registry.revision ≤ calls
  length_le : l.length ≤ calls

lemma inv_new : Inv System.new [] 0 where
  traffic_length := rfl
  leases_length := rfl
  issued := ⟨0, Nat.le_refl _, rfl, nofun⟩
  distinct := nodup_nil
  stands := nofun
  finished := nofun
  known := by
    intro id entry h
    exact absurd h (by simp [System.new, new])
  rows := by
    intro tag
    rfl
  revision_le := Nat.le_refl _
  length_le := Nat.le_refl _

section

variable {s s' : System} {l : Ledger} {calls : Nat} {i n : Nat} {a : Account}
  {tag : Option String} {row : Option OutboundAccounting} {f : Account → Account}

section

variable (h : Inv s l calls)

include h

lemma Inv.account {lease : ConnectionLease}
    (hlease : s.leases[i]? = some lease) : ∃ a, l[i]? = some a := by
  have hi := (List.getElem_of_getElem? hlease).1
  exact ⟨_, getElem?_eq_getElem (h.leases_length ▸ hi)⟩

lemma Inv.lease (ha : l[i]? = some a) : ∃ lease, s.leases[i]? = some lease := by
  have hi := (List.getElem_of_getElem? ha).1
  exact ⟨_, getElem?_eq_getElem (h.leases_length.symm ▸ hi)⟩

lemma Inv.lease_inj {j : Nat} {x y : ConnectionLease}
    (hx : s.leases[i]? = some x) (hy : s.leases[j]? = some y) (hid : x.id = y.id) : i = j := by
  have hnodup := (nodup_append.mp h.distinct).2.1
  have hi := (List.getElem_of_getElem? hx).1
  refine (getElem?_inj (by rw [length_map]; exact hi) hnodup).mp ?_
  rw [getElem?_map, getElem?_map, hx, hy, Option.map_some, Option.map_some, hid]

/-- An active entry is that of an open account, and refers to its counters. -/
lemma Inv.active {id : Nat} {entry : ConnectionEntry}
    (hentry : s.registry.active[id]? = some entry) :
    ∃ a lease, l[entry.traffic]? = some a ∧ s.leases[entry.traffic]? = some lease ∧
      lease.id = id ∧ a.done = false ∧ entry.info.outboundTag = a.tag ∧
      s.traffic[entry.traffic]? = some ⟨a.uplink, a.downlink⟩ := by
  obtain ⟨i, lease, hlease, rfl⟩ := h.known id entry hentry
  obtain ⟨a, ha⟩ := h.account hlease
  obtain ⟨hdone, hopen⟩ := h.stands i a lease ha hlease
  cases hcase : a.done with
  | true =>
    rw [hdone hcase] at hentry
    cases hentry
  | false =>
    obtain ⟨entry', hentry', rfl, htag, htraffic⟩ := hopen hcase
    rw [hentry', Option.some.injEq] at hentry
    subst hentry
    exact ⟨a, lease, ha, hlease, rfl, hcase, htag, htraffic⟩

end

lemma saturatingAdd_eq {a b : Nat} (h : a + b < 2 ^ 64) : saturatingAdd a b = a + b := by
  rw [saturatingAdd]
  omega

/-! ## One lemma for each kind of step -/

lemma Inv.takeId (h : Inv s l calls) (hcalls : calls + 1 < 2 ^ 64)
    (hstep : s.step .takeId = some s') : Inv s' l (calls + 1) := by
  cases hstep
  obtain ⟨n, hn, hnext, hids⟩ := h.issued
  have hvalue : s.registry.nextId = n + 1 := by omega
  have htaken : (if s.registry.nextId = 0 then none else some s.registry.nextId) =
      some (n + 1) := by
    rw [hvalue]
    rfl
  have hnew : n + 1 ∉ s.taken ++ s.leases.map ConnectionLease.id := by
    intro hmem
    have := hids _ hmem
    omega
  refine ⟨h.traffic_length, h.leases_length, ⟨n + 1, by omega, ?_, ?_⟩, ?_, h.stands, h.finished,
    h.known, h.rows, Nat.le_succ_of_le h.revision_le, Nat.le_succ_of_le h.length_le⟩
  · rw [fetchAdd, hvalue]
  · rw [htaken]
    intro id hid
    rcases mem_cons.mp hid with rfl | hid
    · omega
    · have := hids id hid
      omega
  · rw [htaken]
    exact nodup_cons.mpr ⟨hnew, h.distinct⟩

/-- Two maps with the same keys, whose entries refer to the same counters and outbounds. -/
def SameEntries (active active' : ExtTreeMap Nat ConnectionEntry) : Prop :=
  ∀ id : Nat, (active[id]?).map (fun entry => (entry.traffic, entry.info.outboundTag)) =
    (active'[id]?).map (fun entry => (entry.traffic, entry.info.outboundTag))

lemma sameEntries_insert {active : ExtTreeMap Nat ConnectionEntry} {id : Nat}
    {entry entry' : ConnectionEntry} (hentry : active[id]? = some entry)
    (htraffic : entry'.traffic = entry.traffic)
    (htag : entry'.info.outboundTag = entry.info.outboundTag) :
    SameEntries active (active.insert id entry') := by
  intro k
  rw [getElem?_insert]
  split
  · next hk =>
    subst hk
    rw [hentry, Option.map_some, Option.map_some, htraffic, htag]
  · rfl

lemma SameEntries.some {active active' : ExtTreeMap Nat ConnectionEntry}
    (h : SameEntries active active') {id : Nat} {entry : ConnectionEntry}
    (hentry : active[id]? = some entry) : ∃ entry' : ConnectionEntry, active'[id]? = some entry' ∧
      entry'.traffic = entry.traffic ∧ entry'.info.outboundTag = entry.info.outboundTag := by
  have := h id
  rw [hentry, Option.map_some, eq_comm, Option.map_eq_some_iff] at this
  obtain ⟨entry', hentry', hsame⟩ := this
  exact ⟨entry', hentry', congrArg Prod.fst hsame, congrArg Prod.snd hsame⟩

lemma Inv.mark {registry : ConnectionRegistry} (h : Inv s l calls)
    (hsame : SameEntries s.registry.active registry.active)
    (hnext : registry.nextId = s.registry.nextId)
    (haccounting : registry.accounting = s.registry.accounting)
    (hrevision : registry.revision ≤ s.registry.revision + 1) (closeSent : List Bool) :
    Inv { s with registry, closeSent } l (calls + 1) := by
  obtain ⟨n, hn, hvalue, hids⟩ := h.issued
  have hle := h.revision_le
  refine ⟨h.traffic_length, h.leases_length, ⟨n, by omega, hnext.trans hvalue, hids⟩, h.distinct,
    ?_, h.finished, ?_, ?_, by show registry.revision ≤ _; omega, Nat.le_succ_of_le h.length_le⟩
  · intro i a lease ha hlease
    obtain ⟨hdone, hopen⟩ := h.stands i a lease ha hlease
    refine ⟨fun hcase => ?_, fun hcase => ?_⟩
    · have := hsame lease.id
      rw [hdone hcase, Option.map_none, eq_comm, Option.map_eq_none_iff] at this
      exact this
    · obtain ⟨entry, hentry, htraffic, htag, hcounters⟩ := hopen hcase
      obtain ⟨entry', hentry', htraffic', htag'⟩ := hsame.some hentry
      exact ⟨entry', hentry', htraffic'.trans htraffic, htag'.trans htag, hcounters⟩
  · intro id entry hentry
    have := hsame id
    rw [show registry.active[id]? = _ from hentry, Option.map_some, Option.map_eq_some_iff] at this
    obtain ⟨entry', hentry', -⟩ := this
    exact h.known id entry' hentry'
  · intro tag
    rw [haccounting]
    exact h.rows tag

lemma saturatingAdd_one_le (a : Nat) : saturatingAdd a 1 ≤ a + 1 := Nat.min_le_left _ _

lemma Inv.markActive (h : Inv s l calls) (hstep : s.step (.markActive i) = some s') :
    Inv s' l (calls + 1) := by
  obtain ⟨lease, -, rfl⟩ := Option.map_eq_some_iff.mp hstep
  rw [markActive]
  split
  · exact h.mark (fun _ => rfl) rfl rfl (Nat.le_succ _) s.closeSent
  next entry hentry =>
  split
  · refine h.mark (sameEntries_insert hentry ?_ ?_) ?_ ?_ (saturatingAdd_one_le _) s.closeSent
    all_goals rfl
  · exact h.mark (fun _ => rfl) rfl rfl (Nat.le_succ _) s.closeSent

lemma Inv.close (h : Inv s l calls) {id : Nat}
    (hstep : s.step (.close id) = some s') : Inv s' l (calls + 1) := by
  rw [System.step, ConnectionRegistry.close] at hstep
  cases hentry : s.registry.active[id]? with
  | none =>
    simp only [hentry] at hstep
    cases hstep
    exact h.mark (fun _ => rfl) rfl rfl (Nat.le_succ _) s.closeSent
  | some entry =>
    simp only [hentry] at hstep
    cases hstep
    refine h.mark (sameEntries_insert hentry ?_ ?_) ?_ ?_ (saturatingAdd_one_le _) _
    all_goals rfl

lemma exists_of_getElem?_modify {α : Type} {f : α → α} {items : List α} {j : Nat} {b : α}
    (h : (items.modify i f)[j]? = some b) :
    ∃ a, items[j]? = some a ∧ b = if i = j then f a else a := by
  rw [List.getElem?_modify] at h
  obtain ⟨a, ha, rfl⟩ := Option.map_eq_some_iff.mp h
  exact ⟨a, ha, rfl⟩

lemma mem_modify (f : Account → Account) (ha : l[i]? = some a) : f a ∈ l.modify i f := by
  refine mem_of_getElem? (i := i) ?_
  rw [List.getElem?_modify, ha]
  exact congrArg some (if_pos rfl)

lemma tally_modify_same (w : Account → Nat) (tag : Option String) (f : Account → Account)
    (htag : ∀ a, (f a).tag = a.tag) (hw : ∀ a, w (f a) = w a) (l : Ledger) (i : Nat) :
    tally w tag (l.modify i f) = l.tally w tag := by
  cases h : l[i]? with
  | none => rw [modify_eq_self (getElem?_eq_none_iff.mp h)]
  | some a =>
    have := tally_modify w tag f h (htag a)
    rw [hw a] at this
    omega

lemma RowOf.modify (htag : ∀ a, (f a).tag = a.tag) (hdone : ∀ a, (f a).done = a.done)
    (hup : ∀ a : Account, a.done → (f a).uplink = a.uplink)
    (hdown : ∀ a : Account, a.done → (f a).downlink = a.downlink) (i : Nat)
    (h : RowOf l tag row) : RowOf (l.modify i f) tag row := by
  have hopened : opened tag (l.modify i f) = l.opened tag :=
    tally_modify_same _ tag f htag (fun _ => rfl) l i
  cases row with
  | none =>
    rw [RowOf] at h ⊢
    rw [hopened, h]
  | some row =>
    obtain ⟨hrow, hopen, hcompleted, huplink, hdownlink, hactive⟩ := h
    refine ⟨hrow, hopen.trans hopened.symm, hcompleted.trans ?_, huplink.trans ?_,
      hdownlink.trans ?_, hactive⟩
    · exact (tally_modify_same _ tag f htag (fun a => by rw [hdone a]) l i).symm
    · refine (tally_modify_same _ tag f htag (fun a => ?_) l i).symm
      rw [hdone a]
      split
      · next hcase => exact hup a hcase
      · rfl
    · refine (tally_modify_same _ tag f htag (fun a => ?_) l i).symm
      rw [hdone a]
      split
      · next hcase => exact hdown a hcase
      · rfl

section

variable (h : Inv s l calls)

include h

lemma Inv.record {g : ConnectionTraffic → ConnectionTraffic} (htag : ∀ a, (f a).tag = a.tag)
    (hdone : ∀ a, (f a).done = a.done) (hsame : ∀ a : Account, a.done → f a = a)
    (hcount : ∀ a : Account, a.done = false → l[i]? = some a →
      g ⟨a.uplink, a.downlink⟩ = ⟨(f a).uplink, (f a).downlink⟩) :
    Inv { s with traffic := s.traffic.modify i g } (l.modify i f) calls := by
  refine ⟨?_, ?_, h.issued, h.distinct, ?_, ?_, h.known, ?_, h.revision_le, ?_⟩
  · rw [length_modify, length_modify]
    exact h.traffic_length
  · rw [length_modify]
    exact h.leases_length
  · intro j b lease hb hlease
    obtain ⟨a, ha, rfl⟩ := exists_of_getElem?_modify hb
    have hcase : (if i = j then f a else a).done = a.done := by
      split
      · exact hdone a
      · rfl
    obtain ⟨hdone', hopen⟩ := h.stands j a lease ha hlease
    rw [Stands, hcase]
    refine ⟨hdone', fun hnot => ?_⟩
    obtain ⟨entry, hentry, htraffic, houtbound, hcounters⟩ := hopen hnot
    refine ⟨entry, hentry, htraffic, ?_, ?_⟩
    · rw [houtbound]
      split
      · exact (htag a).symm
      · rfl
    · rw [List.getElem?_modify, hcounters]
      by_cases hij : i = j
      · subst hij
        simp only [if_true, Option.map_eq_map, Option.map_some]
        rw [hcount a hnot ha]
      · simp only [if_neg hij, Option.map_eq_map, Option.map_some]
  · intro j b lease hb hlease hfinished
    obtain ⟨a, ha, rfl⟩ := exists_of_getElem?_modify hb
    have := h.finished j a lease ha hlease hfinished
    split
    · rw [hdone a, this]
    · exact this
  · intro tag
    exact (h.rows tag).modify htag hdone (fun a ha => by rw [hsame a ha])
      (fun a ha => by rw [hsame a ha]) i
  · rw [length_modify]
    exact h.length_le

lemma Inv.recordUplink (hfits : Fits (l.modify i (.bookUplink n)))
    (hstep : s.step (.recordUplink i n) = some s') :
    Inv s' (l.modify i (.bookUplink n)) calls := by
  rw [System.step] at hstep
  split at hstep
  · cases hstep
    refine h.record (tag_bookUplink n) (fun a => ?_) (fun a ha => ?_) (fun a hopen ha => ?_)
    · rw [bookUplink]
      split <;> rfl
    · rw [bookUplink, if_pos ha]
    · have hless := (le_tally Account.uplink (mem_modify (.bookUplink n) ha)).trans_lt (hfits _).1
      rw [bookUplink, hopen] at hless ⊢
      rw [ConnectionTraffic.recordUplink, fetchAdd,
        Nat.mod_eq_of_lt (show a.uplink + n < 2 ^ 64 from hless)]
      rfl
  · cases hstep

lemma Inv.recordDownlink (hfits : Fits (l.modify i (.bookDownlink n)))
    (hstep : s.step (.recordDownlink i n) = some s') :
    Inv s' (l.modify i (.bookDownlink n)) calls := by
  rw [System.step] at hstep
  split at hstep
  · cases hstep
    refine h.record (tag_bookDownlink n) (fun a => ?_) (fun a ha => ?_) (fun a hopen ha => ?_)
    · rw [bookDownlink]
      split <;> rfl
    · rw [bookDownlink, if_pos ha]
    · have hless :=
        (le_tally Account.downlink (mem_modify (.bookDownlink n) ha)).trans_lt (hfits _).2
      rw [bookDownlink, hopen] at hless ⊢
      rw [ConnectionTraffic.recordDownlink, fetchAdd,
        Nat.mod_eq_of_lt (show a.downlink + n < 2 ^ 64 from hless)]
      rfl
  · cases hstep

end

lemma RowOf.of_same {l' : Ledger} (hsame : ∀ w, tally w tag l' = l.tally w tag)
    (h : RowOf l tag row) : RowOf l' tag row := by
  cases row with
  | none => exact (hsame _).trans h
  | some row =>
    obtain ⟨hrow, hopened, hcompleted, huplink, hdownlink, hactive⟩ := h
    exact ⟨hrow, hopened.trans (hsame _).symm, hcompleted.trans (hsame _).symm,
      huplink.trans (hsame _).symm, hdownlink.trans (hsame _).symm, hactive⟩

lemma RowOf.other (htag : a.tag ≠ tag) (h : RowOf l tag row) : RowOf (l ++ [a]) tag row := by
  refine h.of_same fun w => ?_
  rw [tally_append, if_neg htag, Nat.add_zero]

lemma RowOf.addOpened (hfits : l.opened tag + 1 < 2 ^ 64) (h : RowOf l tag row) :
    RowOf (l ++ [⟨tag, false, 0, 0⟩]) tag (some (addOpened (row.getD (emptyRow tag)))) := by
  have hopened : opened tag (l ++ [⟨tag, false, 0, 0⟩]) = l.opened tag + 1 :=
    (tally_append _ tag l _).trans (by rw [if_pos rfl]; rfl)
  have hsame : ∀ w : Account → Nat, w ⟨tag, false, 0, 0⟩ = 0 →
      tally w tag (l ++ [⟨tag, false, 0, 0⟩]) = l.tally w tag := by
    intro w hw
    rw [tally_append, if_pos rfl, hw, Nat.add_zero]
  cases row with
  | none =>
    have hzero : l.opened tag = 0 := h
    refine ⟨rfl, ?_, ?_, ?_, ?_, rfl, rfl⟩
    · rw [hopened, hzero]
      rfl
    all_goals exact ((hsame _ rfl).trans (tally_eq_zero _ hzero)).symm
  | some row =>
    obtain ⟨hrow, hopen, hcompleted, huplink, hdownlink, hactive⟩ := h
    refine ⟨hrow, ?_, hcompleted.trans (hsame _ rfl).symm, huplink.trans (hsame _ rfl).symm,
      hdownlink.trans (hsame _ rfl).symm, hactive⟩
    show saturatingAdd row.openedConnections 1 = _
    rw [hopened, hopen, saturatingAdd_eq hfits]

lemma getElem?_concat {β : Type} {items : List β} {new b : β} (h : (items ++ [new])[i]? = some b) :
    items[i]? = some b ∨ i = items.length ∧ b = new := by
  rcases Nat.lt_trichotomy i items.length with hlt | rfl | hgt
  · rw [getElem?_append_left hlt] at h
    exact .inl h
  · rw [getElem?_concat_length, Option.some.injEq] at h
    exact .inr ⟨rfl, h.symm⟩
  · have := (List.getElem_of_getElem? h).1
    rw [length_append, length_singleton] at this
    omega

lemma Inv.pair (h : Inv s l calls) {a' : Account} {lease lease' : ConnectionLease}
    (ha : (l ++ [a'])[i]? = some a) (hlease : (s.leases ++ [lease'])[i]? = some lease) :
    l[i]? = some a ∧ s.leases[i]? = some lease ∨ i = l.length ∧ a = a' ∧ lease = lease' := by
  rcases getElem?_concat ha with ha | ⟨rfl, rfl⟩
  · rw [List.getElem?_append_left (h.leases_length ▸ (List.getElem_of_getElem? ha).1)] at hlease
    exact .inl ⟨ha, hlease⟩
  · rw [← h.leases_length, getElem?_concat_length, Option.some.injEq] at hlease
    exact .inr ⟨rfl, rfl, hlease.symm⟩

lemma Inv.register (h : Inv s l calls) (hcalls : calls + 1 < 2 ^ 64) {id : Nat}
    {inboundTag outboundTag : Option String} {target : Target} {started : Nat}
    (hstep : s.step (.register id inboundTag outboundTag target started) = some s') :
    Inv s' (l ++ [⟨outboundTag, false, 0, 0⟩]) (calls + 1) := by
  rw [System.step] at hstep
  split at hstep
  · next htaken =>
    cases hstep
    rw [register]
    generalize hentry : newEntry id inboundTag outboundTag target started
      s.closeSent.length s.traffic.length = new
    have hperm : (s.taken ++ s.leases.map ConnectionLease.id).Perm (s.taken.erase id ++
          (s.leases ++ [(⟨id, false⟩ : ConnectionLease)]).map ConnectionLease.id) := by
      rw [map_append, ← append_assoc]
      refine ((perm_cons_erase htaken).append_right _).trans ?_
      exact (perm_append_singleton id _).symm
    have hother : ∀ {i : Nat} {lease : ConnectionLease}, s.leases[i]? = some lease →
        (s.registry.active.insert id new)[lease.id]? = s.registry.active[lease.id]? := by
      intro i lease hlease
      rw [getElem?_insert, if_neg]
      exact (nodup_append.mp h.distinct).2.2 id htaken lease.id
        (mem_map_of_mem (mem_of_getElem? hlease))
    obtain ⟨n, hn, hnext, hids⟩ := h.issued
    have hlen := h.length_le
    have hrev := h.revision_le
    refine ⟨?_, ?_, ⟨n, by omega, hnext, fun k hk => hids k (hperm.mem_iff.mpr hk)⟩,
      h.distinct.perm hperm, ?_, ?_, ?_, ?_, ?_, ?_⟩
    · rw [length_append, length_append, h.traffic_length]
      rfl
    · rw [length_append, length_append, h.leases_length]
      rfl
    · intro i a lease ha hlease
      rcases h.pair ha hlease with ⟨ha, hlease⟩ | ⟨rfl, rfl, rfl⟩
      · obtain ⟨hdone, hopen⟩ := h.stands i a lease ha hlease
        refine ⟨fun hcase => (hother hlease).trans (hdone hcase), fun hcase => ?_⟩
        obtain ⟨entry, hentry, htraffic, htag, hcounters⟩ := hopen hcase
        refine ⟨entry, (hother hlease).trans hentry, htraffic, htag, ?_⟩
        rw [List.getElem?_append_left (List.getElem_of_getElem? hcounters).1, hcounters]
      · refine ⟨nofun, fun _ => ⟨new, (getElem?_insert id id new).trans (if_pos rfl), ?_, ?_, ?_⟩⟩
        · rw [← hentry]
          exact h.traffic_length
        · rw [← hentry]
          rfl
        · rw [← h.traffic_length, getElem?_concat_length]
    · intro i a lease ha hlease hfinished
      rcases h.pair ha hlease with ⟨ha, hlease⟩ | ⟨rfl, rfl, rfl⟩
      · exact h.finished i a lease ha hlease hfinished
      · cases hfinished
    · intro k entry hentry
      have hentry' := (getElem?_insert id k new).symm.trans hentry
      split at hentry'
      · next hk =>
        subst hk
        exact ⟨s.leases.length, ⟨id, false⟩, getElem?_concat_length, rfl⟩
      · obtain ⟨i, lease, hlease, hid⟩ := h.known k entry hentry'
        refine ⟨i, lease, ?_, hid⟩
        rw [List.getElem?_append_left (List.getElem_of_getElem? hlease).1, hlease]
    · intro tag
      rw [getElem?_insert]
      split
      · next htag =>
        subst htag
        have := opened_le_length outboundTag l
        exact (h.rows outboundTag).addOpened (by omega)
      · next htag => exact (h.rows tag).other htag
    · show saturatingAdd _ 1 ≤ _
      have := saturatingAdd_one_le s.registry.revision
      omega
    · rw [length_append, length_singleton]
      omega
  · cases hstep

/-- The sum of the rows' bytes after a completion is still bounded by what is booked. -/
lemma tally_complete_lt {w w' : Account → Nat} (hle : ∀ a, w a ≤ w' a)
    (hsame : ∀ a, w' a.complete = w' a) (ha : l[i]? = some a) (hopen : w a = 0) (htag : a.tag = tag)
    (hbooked : l.tally w' tag < 2 ^ 64) :
    tally w tag (l.modify i complete) = l.tally w tag + w a.complete ∧
      l.tally w tag + w a.complete < 2 ^ 64 := by
  have htally := tally_modify w tag complete ha rfl
  rw [if_pos htag, if_pos htag, hopen] at htally
  have hbound := tally_le_tally hle tag (l.modify i complete)
  rw [tally_modify_same w' tag complete (fun _ => rfl) hsame l i] at hbound
  exact ⟨htally, by omega⟩

lemma RowOf.complete (entry : ConnectionEntry) (ha : l[i]? = some a) (hopen : a.done = false)
    (hcalls : l.length < 2 ^ 64) (hbytes : Fits l) (h : RowOf l tag row) :
    RowOf (l.modify i complete) tag (if a.tag = tag then
        row.map (addCompleted entry ⟨a.uplink, a.downlink⟩)
      else row) := by
  have hopened : Ledger.opened tag (l.modify i Account.complete) = l.opened tag :=
    tally_modify_same _ tag Account.complete (fun _ => rfl) (fun _ => rfl) l i
  split
  · next htag =>
    cases row with
    | none => exact hopened.trans h
    | some row =>
      obtain ⟨hrow, hopen', hdone, hu, hd, hactive⟩ := h
      have hlength : l.tally (fun _ => 1) tag < 2 ^ 64 := (opened_le_length tag l).trans_lt hcalls
      obtain ⟨hcompleted, hfits⟩ := tally_complete_lt (w := fun a => if a.done then 1 else 0)
        (fun a => by split <;> omega) (fun _ => rfl) ha (by rw [hopen]; rfl) htag hlength
      obtain ⟨huplink, hfitsUp⟩ := tally_complete_lt
        (w := fun a => if a.done then a.uplink else 0) (fun a => by split <;> omega)
        (fun _ => rfl) ha (by rw [hopen]; rfl) htag (hbytes tag).1
      obtain ⟨hdownlink, hfitsDown⟩ := tally_complete_lt
        (w := fun a => if a.done then a.downlink else 0) (fun a => by split <;> omega)
        (fun _ => rfl) ha (by rw [hopen]; rfl) htag (hbytes tag).2
      refine ⟨hrow, hopen'.trans hopened.symm, ?_, ?_, ?_, hactive⟩
      · show saturatingAdd row.completedConnections 1 = _
        rw [hdone]
        exact (saturatingAdd_eq hfits).trans hcompleted.symm
      · show saturatingAdd row.uplinkBytes a.uplink = _
        rw [hu]
        exact (saturatingAdd_eq hfitsUp).trans huplink.symm
      · show saturatingAdd row.downlinkBytes a.downlink = _
        rw [hd]
        exact (saturatingAdd_eq hfitsDown).trans hdownlink.symm
  next htag =>
  refine h.of_same fun w => ?_
  have := Ledger.tally_modify w tag Account.complete ha rfl
  rw [if_neg htag, if_neg htag] at this
  exact this

lemma modify_eq_of_fixed {α : Type} {f : α → α} {items : List α} {a : α} (ha : items[i]? = some a)
    (hf : f a = a) : items.modify i f = items := by
  refine ext_getElem? fun j => ?_
  rw [List.getElem?_modify]
  by_cases hj : i = j
  · subst hj
    rw [ha]
    simp [hf]
  · simp [hj]

lemma active_finish (registry : ConnectionRegistry) (traffic : List ConnectionTraffic) (id k : Nat) :
    (registry.finish traffic id).active[k]? = if id = k then none else registry.active[k]? := by
  rw [finish]
  split
  · next hnone =>
    split
    · next hk => rw [← hk, hnone]
    · rfl
  · exact getElem?_erase id k

lemma nextId_finish (registry : ConnectionRegistry) (traffic : List ConnectionTraffic) (id : Nat) :
    (registry.finish traffic id).nextId = registry.nextId := by
  rw [finish]
  split <;> rfl

lemma revision_finish_le (registry : ConnectionRegistry) (traffic : List ConnectionTraffic)
    (id : Nat) : (registry.finish traffic id).revision ≤ registry.revision + 1 := by
  rw [finish]
  split
  · exact Nat.le_succ _
  · exact saturatingAdd_one_le _

lemma map_id_modify {mark : ConnectionLease → ConnectionLease}
    (hmark : ∀ lease, (mark lease).id = lease.id) (leases : List ConnectionLease) :
    (leases.modify i mark).map ConnectionLease.id = leases.map ConnectionLease.id := by
  refine ext_getElem? fun j => ?_
  rw [List.getElem?_map, List.getElem?_map, List.getElem?_modify]
  cases leases[j]? with
  | none => rfl
  | some lease =>
    show some _ = some _
    split
    · rw [hmark]
    · rfl

section

variable (h : Inv s l calls) {lease : ConnectionLease} (hlease : s.leases[i]? = some lease)

include h hlease

lemma Inv.finish_rows (hlength : l.length < 2 ^ 64) (hfits : Fits l) (tag : Option String) :
    RowOf (l.modify i Account.complete) tag
      (s.registry.finish s.traffic lease.id).accounting[tag]? := by
  obtain ⟨a, ha⟩ := h.account hlease
  obtain ⟨hdone, hopen⟩ := h.stands i a lease ha hlease
  rw [finish]
  cases hcase : a.done with
  | true =>
    simp only [hdone hcase]
    rw [modify_eq_of_fixed ha (show a.complete = a by rw [Account.complete, ← hcase])]
    exact h.rows tag
  | false =>
    obtain ⟨entry, hentry, rfl, htag, hcounters⟩ := hopen hcase
    have hload : load s.traffic entry.traffic = ⟨a.uplink, a.downlink⟩ := by
      rw [load, getD_eq_getElem?_getD, hcounters, Option.getD_some]
    simp only [hentry]
    rw [getElem?_modify, hload, htag]
    have := (h.rows tag).complete entry ha hcase hlength hfits
    split at this
    · next heq =>
      rw [if_pos heq, heq]
      exact this
    · next hne =>
      rw [if_neg hne]
      exact this

/-- A lease's connection completes, if it has not before. The lease itself may be marked. -/
lemma Inv.complete (hcalls : calls + 1 < 2 ^ 64) (hfits : Fits l)
    (mark : ConnectionLease → ConnectionLease) (hmark : ∀ lease, (mark lease).id = lease.id) :
    Inv { s with
      registry := s.registry.finish s.traffic lease.id
      leases := s.leases.modify i mark } (l.modify i complete) (calls + 1) := by
  obtain ⟨n, hn, hnext, hids⟩ := h.issued
  have hlen := h.length_le
  have hrev := h.revision_le
  have hrevision := revision_finish_le s.registry s.traffic lease.id
  have hmap := map_id_modify hmark s.leases (i := i)
  refine ⟨?_, ?_, ⟨n, by omega, (nextId_finish _ _ _).trans hnext, by rw [hmap]; exact hids⟩,
    by rw [hmap]; exact h.distinct, ?_, ?_, ?_, h.finish_rows hlease (by omega) hfits,
    hrevision.trans (by omega), ?_⟩
  · rw [length_modify]
    exact h.traffic_length
  · rw [length_modify, length_modify]
    exact h.leases_length
  · intro j b x hb hx
    obtain ⟨b, hb', rfl⟩ := exists_of_getElem?_modify hb
    obtain ⟨x, hx', rfl⟩ := exists_of_getElem?_modify hx
    have hid : (if i = j then mark x else x).id = x.id := by
      split
      · exact hmark x
      · rfl
    rw [Stands, hid]
    dsimp only
    rw [active_finish]
    by_cases hij : i = j
    · subst hij
      rw [hx', Option.some.injEq] at hlease
      subst hlease
      rw [if_pos rfl, if_pos rfl]
      exact ⟨fun _ => rfl, nofun⟩
    · have hne : lease.id ≠ x.id := fun heq => hij (h.lease_inj hlease hx' heq)
      rw [if_neg hij, if_neg hne]
      exact h.stands j b x hb' hx'
  · intro j b x hb hx hfinished
    obtain ⟨b, hb', rfl⟩ := exists_of_getElem?_modify hb
    obtain ⟨x, hx', rfl⟩ := exists_of_getElem?_modify hx
    by_cases hij : i = j
    · rw [if_pos hij]
      rfl
    · rw [if_neg hij] at hfinished ⊢
      exact h.finished j b x hb' hx' hfinished
  · intro k entry hentry
    have hentry' := (active_finish _ _ _ k).symm.trans hentry
    split at hentry'
    · cases hentry'
    obtain ⟨j, x, hx, hid⟩ := h.known k entry hentry'
    refine ⟨j, if i = j then mark x else x, ?_, ?_⟩
    · rw [List.getElem?_modify, hx]
      rfl
    · split
      · rw [hmark, hid]
      · exact hid
  · rw [length_modify]
    omega

end

/-- Every step keeps the agreement, as long as the totals stay below `2 ^ 64`. -/
lemma Inv.step {st : Step} (h : Inv s l calls) (hcalls : calls + st.calls < 2 ^ 64)
    (hfits : Fits (l.step st)) (hstep : s.step st = some s') :
    Inv s' (l.step st) (calls + st.calls) := by
  have hbefore : Fits l := @Fits.of_steps l [st] hfits
  cases st with
  | takeId => exact h.takeId hcalls hstep
  | register => exact h.register hcalls hstep
  | recordUplink => exact h.recordUplink hfits hstep
  | recordDownlink => exact h.recordDownlink hfits hstep
  | markActive => exact h.markActive hstep
  | close => exact h.close hstep
  | finish i =>
    obtain ⟨lease, hlease, rfl⟩ := Option.map_eq_some_iff.mp hstep
    exact h.complete hlease hcalls hbefore _ fun _ => rfl
  | drop i =>
    obtain ⟨lease, hlease, rfl⟩ := Option.map_eq_some_iff.mp hstep
    obtain ⟨a, ha⟩ := h.account hlease
    have hsame : s.leases.modify i (fun lease => lease) = s.leases := modify_eq_of_fixed hlease rfl
    split
    · next hfinished =>
      -- the lease is marked, so its connection has completed
      have hdone := h.finished i a lease ha hlease hfinished
      rw [step, modify_eq_of_fixed ha (show a.complete = a by rw [Account.complete, ← hdone])]
      exact h.mark (fun _ => rfl) rfl rfl (Nat.le_succ _) s.closeSent
    · have := h.complete hlease hcalls hbefore (fun lease => lease) fun _ => rfl
      rw [hsame] at this
      exact this

end

/-- Neither the calls of a run nor the bytes of an outbound reach `2 ^ 64`. -/
def Within (steps : List Step) : Prop :=
  (steps.map Step.calls).sum < 2 ^ 64 ∧ (after steps).Fits

lemma Within.of_append {earlier later : List Step} (h : Within (earlier ++ later)) :
    Within earlier := by
  rw [Within, Ledger.after, foldl_append, map_append, sum_append] at h
  exact ⟨by omega, h.2.of_steps⟩

lemma Inv.run {s s' : System} {l : Ledger} {calls : Nat} {steps : List Step} (h : Inv s l calls)
    (hcalls : calls + (steps.map Step.calls).sum < 2 ^ 64)
    (hfits : Fits (steps.foldl Ledger.step l)) (hrun : s.run steps = some s') :
    Inv s' (steps.foldl Ledger.step l) (calls + (steps.map Step.calls).sum) := by
  induction steps generalizing s l calls with
  | nil =>
    cases hrun
    exact h
  | cons st steps ih =>
    obtain ⟨next, hnext, hrest⟩ := Option.bind_eq_some_iff.mp hrun
    simp only [map_cons, sum_cons, ← Nat.add_assoc] at hcalls ⊢
    have hnow : Fits (l.step st) := @Fits.of_steps _ steps hfits
    exact ih (h.step (by omega) hnow hnext) hcalls hfits hrest

lemma inv_of_run {s : System} {steps : List Step} (hwithin : Within steps)
    (hrun : System.new.run steps = some s) :
    Inv s (after steps) (steps.map Step.calls).sum := by
  have := inv_new.run (by rw [Nat.zero_add]; exact hwithin.1) hwithin.2 hrun
  rw [Nat.zero_add] at this
  exact this

end Xray.Connection
