import Xray.Proofs.ConnectionLedger

/-!
# What snapshots of the registry show

A snapshot adds the counters of the active connections to the rows of their outbounds. The rows
are in the order of the outbounds, so the binary search finds them (`countActive_eq`), and the
active entries are the open accounts of the ledger in some order (`Inv.active_perm`). So every
number in a snapshot is a tally of the ledger, and the ledger's tallies only grow.
-/

namespace Xray.Connection

open Std Routing BinarySearch Account ConnectionRegistry ConnectionTraffic ExtTreeMap Ledger List
  OutboundAccounting System

section

variable {traffic : List ConnectionTraffic} {rows : List OutboundAccounting}

def InOrder (rows : List OutboundAccounting) : Prop :=
  rows.Pairwise fun a b => compare a.outboundTag b.outboundTag = .lt

section

variable (h : InOrder rows)

include h

lemma InOrder.map {f : OutboundAccounting → OutboundAccounting}
    (hf : ∀ row, (f row).outboundTag = row.outboundTag) : InOrder (rows.map f) := by
  rw [InOrder, pairwise_map]
  refine h.imp fun {a b} hab => ?_
  rw [hf a, hf b]
  exact hab

lemma InOrder.ordered (tag : Option String) :
    Ordered (fun row : OutboundAccounting => compare row.outboundTag tag) rows := by
  refine h.imp fun {a b} hab hne => ?_
  refine TransCmp.gt_of_gt_of_isGE (OrientedCmp.gt_iff_lt.mpr hab) ?_
  cases hcase : compare a.outboundTag tag with
  | lt => exact absurd hcase hne
  | eq => rfl
  | gt => rfl

lemma InOrder.unique {i j : Nat} {a b : OutboundAccounting}
    (ha : rows[i]? = some a) (hb : rows[j]? = some b) (htag : a.outboundTag = b.outboundTag) :
    i = j := by
  obtain ⟨hi, rfl⟩ := List.getElem_of_getElem? ha
  obtain ⟨hj, rfl⟩ := List.getElem_of_getElem? hb
  have hlt : ∀ {m n : Nat} (hm : m < rows.length) (hn : n < rows.length), m < n →
      rows[m].outboundTag ≠ rows[n].outboundTag := by
    intro m n hm hn hmn heq
    have := pairwise_iff_getElem.mp h m n hm hn hmn
    rw [heq, Std.compare_eq_iff_eq.mpr rfl] at this
    cases this
  rcases Nat.lt_trichotomy i j with hij | hij | hij
  · exact absurd htag (hlt hi hj hij)
  · exact hij
  · exact absurd htag.symm (hlt hj hi hij)

lemma countActive_eq (entry : ConnectionEntry) :
    countActive traffic rows entry = rows.map fun row =>
      if row.outboundTag = entry.info.outboundTag then
        addActive traffic entry row
      else row := by
  refine ext_getElem? fun j => ?_
  rw [getElem?_map, countActive]
  have hordered := h.ordered entry.info.outboundTag
  cases hsearch : binarySearchBy (fun row : OutboundAccounting =>
      compare row.outboundTag entry.info.outboundTag) rows with
  | none =>
    cases hj : rows[j]? with
    | none => simp
    | some row =>
      have hne : row.outboundTag ≠ entry.info.outboundTag := by
        intro heq
        have := binarySearchBy_of_eq hordered hj (Std.compare_eq_iff_eq.mpr heq)
        rw [hsearch] at this
        cases this
      simp [hne]
  | some index =>
    obtain ⟨found, hfound, heq⟩ := eq_of_binarySearchBy hsearch
    replace heq := Std.compare_eq_iff_eq.mp heq
    rw [List.getElem?_modify]
    cases hj : rows[j]? with
    | none => rfl
    | some row =>
      show some _ = some _
      dsimp only
      by_cases hij : index = j
      · subst hij
        rw [hfound, Option.some.injEq] at hj
        subst hj
        rw [if_pos rfl, if_pos heq]
      · have hne : row.outboundTag ≠ entry.info.outboundTag := fun htag =>
          hij (h.unique hfound hj (heq.trans htag.symm))
        rw [if_neg hij, if_neg hne]

end

def withActive (traffic : List ConnectionTraffic) (entries : List ConnectionEntry)
    (row : OutboundAccounting) : OutboundAccounting :=
  entries.foldl (fun row entry =>
    if row.outboundTag = entry.info.outboundTag then
      addActive traffic entry row
    else row) row

lemma foldl_countActive (h : InOrder rows) (entries : List ConnectionEntry) :
    entries.foldl (countActive traffic) rows = rows.map (withActive traffic entries) := by
  induction entries generalizing rows with
  | nil => exact (map_id' rows).symm
  | cons entry entries ih =>
    rw [List.foldl_cons, countActive_eq h, ih, List.map_map]
    · rfl
    · refine h.map fun row => ?_
      split <;> rfl

def activeSum (w : ConnectionTraffic → Nat) (traffic : List ConnectionTraffic)
    (tag : Option String) (entries : List ConnectionEntry) : Nat :=
  (entries.map fun entry => if entry.info.outboundTag = tag then
    w (load traffic entry.traffic) else 0).sum

lemma withActive_spec (entries : List ConnectionEntry) (row : OutboundAccounting)
    (hup : row.activeUplinkBytes + activeSum uplinkBytes traffic row.outboundTag entries < 2 ^ 64)
    (hdown : row.activeDownlinkBytes +
      activeSum downlinkBytes traffic row.outboundTag entries < 2 ^ 64) :
    withActive traffic entries row = { row with
      activeUplinkBytes := row.activeUplinkBytes +
        activeSum uplinkBytes traffic row.outboundTag entries
      activeDownlinkBytes := row.activeDownlinkBytes +
        activeSum downlinkBytes traffic row.outboundTag entries } := by
  induction entries generalizing row with
  | nil => rfl
  | cons entry entries ih =>
    rw [withActive, foldl_cons]
    simp only [activeSum, map_cons, sum_cons] at hup hdown ⊢
    by_cases htag : row.outboundTag = entry.info.outboundTag
    · rw [if_pos htag.symm] at hup hdown ⊢
      rw [if_pos htag.symm]
      have hadd : addActive traffic entry row = { row with
          activeUplinkBytes := row.activeUplinkBytes + (load traffic entry.traffic).uplinkBytes
          activeDownlinkBytes := row.activeDownlinkBytes +
            (load traffic entry.traffic).downlinkBytes } := by
        rw [addActive, saturatingAdd_eq (by omega), saturatingAdd_eq (by omega)]
      rw [if_pos htag, hadd]
      refine (ih _ ?_ ?_).trans ?_
      · simp only [activeSum]
        omega
      · simp only [activeSum]
        omega
      · simp only [activeSum, Nat.add_assoc]
    · rw [if_neg (Ne.symm htag), Nat.zero_add] at hup hdown
      rw [if_neg htag, if_neg (Ne.symm htag), if_neg (Ne.symm htag), Nat.zero_add, Nat.zero_add]
      exact ih row hup hdown

lemma tag_withActive (entries : List ConnectionEntry) (row : OutboundAccounting) :
    (withActive traffic entries row).outboundTag = row.outboundTag := by
  induction entries generalizing row with
  | nil => rfl
  | cons entry entries ih =>
    refine (ih _).trans ?_
    dsimp only
    split <;> rfl

end

/-- The row of an outbound. One that never had a connection has none. -/
def OutboundAccountingSnapshot.row (snapshot : OutboundAccountingSnapshot) (tag : Option String) :
    OutboundAccounting :=
  (snapshot.outbounds.find? fun row => row.outboundTag = tag).getD (emptyRow tag)

def System.accountingSnapshot (s : System) : OutboundAccountingSnapshot :=
  s.registry.accountingSnapshot s.traffic

def System.activeConnections (s : System) (tag : Option String) : Nat :=
  s.registry.snapshot.connections.countP fun info => info.outboundTag = tag

section

variable {s : System} {l : Ledger} {calls : Nat}

section

variable (h : Inv s l calls)

include h

lemma Inv.row_tag {tag : Option String} {row : OutboundAccounting}
    (hrow : s.registry.accounting[tag]? = some row) : row.outboundTag = tag := by
  have := h.rows tag
  rw [hrow] at this
  exact this.1

lemma Inv.inOrder : InOrder (valuesOf s.registry.accounting) := by
  rw [InOrder, valuesOf, pairwise_map]
  refine ordered_keys_toList.imp_of_mem fun {a b} ha hb hab => ?_
  rw [h.row_tag (mem_toList_iff_getElem?_eq_some.mp ha),
    h.row_tag (mem_toList_iff_getElem?_eq_some.mp hb)]
  exact hab

lemma Inv.find_row (tag : Option String) :
    (valuesOf s.registry.accounting).find? (fun row => row.outboundTag = tag) =
      s.registry.accounting[tag]? := by
  cases hrow : s.registry.accounting[tag]? with
  | none =>
    refine find?_eq_none.mpr fun row hmem => ?_
    obtain ⟨k, hk⟩ := mem_valuesOf.mp hmem
    intro htag
    rw [decide_eq_true_eq, h.row_tag hk] at htag
    rw [← htag, hk] at hrow
    cases hrow
  | some row =>
    cases hfind : (valuesOf s.registry.accounting).find? fun row => row.outboundTag = tag with
    | none =>
      have := find?_eq_none.mp hfind row (mem_valuesOf.mpr ⟨tag, hrow⟩)
      exact absurd (h.row_tag hrow) (by simpa using this)
    | some found =>
      have htag : found.outboundTag = tag := by simpa using find?_some hfind
      obtain ⟨k, hk⟩ := mem_valuesOf.mp (mem_of_find?_eq_some hfind)
      rw [← h.row_tag hk, htag, hrow] at hk
      exact hk.symm

lemma Inv.active_perm (blank : Account) :
    ((valuesOf s.registry.active).map fun entry => l.getD entry.traffic blank).Perm
      (l.filter fun a => !a.done) := by
  have hmem : ∀ {p : Nat × ConnectionEntry}, p ∈ s.registry.active.toList →
      s.registry.active[p.1]? = some p.2 :=
    fun hp => mem_toList_iff_getElem?_eq_some.mp hp
  have hnodup : s.registry.active.toList.Nodup := by
    refine distinct_keys_toList.imp fun {a b} hne heq => hne ?_
    rw [heq]
    exact Std.compare_eq_iff_eq.mpr rfl
  have hplaces : ((valuesOf s.registry.active).map ConnectionEntry.traffic).Perm
      ((List.range l.length).filter fun i => !(l.getD i blank).done) := by
    refine (perm_ext_iff_of_nodup ?_ (nodup_range.filter _)).mpr fun i => ?_
    · rw [valuesOf, List.map_map]
      refine hnodup.map_on fun p hp q hq heq => ?_
      -- the counters tell the lease, and the lease the key
      obtain ⟨a, lease, -, hlease, hid, -⟩ := h.active (hmem hp)
      obtain ⟨a', lease', -, hlease', hid', -⟩ := h.active (hmem hq)
      rw [show p.2.traffic = q.2.traffic from heq, hlease', Option.some.injEq] at hlease
      have hkey : p.1 = q.1 := by rw [← hid, ← hid', hlease]
      have hp' := hmem hp
      rw [hkey, hmem hq, Option.some.injEq] at hp'
      exact Prod.ext hkey hp'.symm
    · rw [List.mem_map, List.mem_filter, List.mem_range]
      constructor
      · rintro ⟨entry, hentry, rfl⟩
        obtain ⟨id, hid⟩ := mem_valuesOf.mp hentry
        obtain ⟨a, lease, ha, -, -, hopen, -⟩ := h.active hid
        refine ⟨(List.getElem_of_getElem? ha).1, ?_⟩
        rw [getD_eq_getElem?_getD, ha, Option.getD_some, hopen]
        rfl
      · rintro ⟨hi, hopen⟩
        have ha : l[i]? = some l[i] := getElem?_eq_getElem hi
        rw [getD_eq_getElem?_getD, ha, Bool.not_eq_true'] at hopen
        obtain ⟨lease, hlease⟩ := h.lease ha
        obtain ⟨entry, hentry, htraffic, -⟩ := (h.stands i _ lease ha hlease).2 hopen
        exact ⟨entry, mem_valuesOf.mpr ⟨_, hentry⟩, htraffic⟩
  have hrange : (List.range l.length).map (fun i => l.getD i blank) = l := by
    refine ext_getElem (by rw [length_map, length_range]) fun i hi hi' => ?_
    rw [List.getElem_map, List.getElem_range, List.getD_eq_getElem?_getD,
      getElem?_eq_getElem hi', Option.getD_some]
  have hfilter := filter_map (f := fun i => l.getD i blank) (p := fun a => !a.done)
    (l := List.range l.length)
  rw [hrange] at hfilter
  rw [hfilter]
  have := hplaces.map fun i => l.getD i blank
  rw [List.map_map] at this
  exact this

lemma Inv.sum_active (tag : Option String) (w : ConnectionEntry → Nat) (w' : Account → Nat)
    (hw : ∀ (entry : ConnectionEntry) (a : Account),
      s.traffic[entry.traffic]? = some ⟨a.uplink, a.downlink⟩ → w entry = w' a) :
    ((valuesOf s.registry.active).map fun entry =>
        if entry.info.outboundTag = tag then w entry else 0).sum =
      l.tally (fun a => if a.done then 0 else w' a) tag := by
  have hperm := (h.active_perm ⟨none, false, 0, 0⟩).map fun a => if a.tag = tag then w' a else 0
  rw [← sum_filter_open w' tag l, ← hperm.sum_nat, List.map_map]
  refine congrArg List.sum (List.map_congr_left fun entry hentry => ?_)
  obtain ⟨id, hid⟩ := mem_valuesOf.mp hentry
  obtain ⟨a, lease, ha, -, -, -, htag, hcounters⟩ := h.active hid
  rw [Function.comp_apply, List.getD_eq_getElem?_getD, ha, Option.getD_some, htag,
    hw entry a hcounters]

lemma Inv.activeConnections (tag : Option String) :
    s.activeConnections tag = l.tally (fun a => if a.done then 0 else 1) tag := by
  rw [← h.sum_active tag (fun _ => 1) (fun _ => 1) (fun _ _ _ => rfl),
    System.activeConnections, ConnectionRegistry.snapshot, countP_map]
  induction valuesOf s.registry.active with
  | nil => rfl
  | cons entry entries ih =>
    rw [countP_cons, map_cons, sum_cons]
    simp only [Function.comp_apply, decide_eq_true_eq]
    omega

lemma Inv.snapshot_row (hfits : Fits l) (tag : Option String) :
    (s.accountingSnapshot.row tag).openedConnections = l.opened tag ∧
    (s.accountingSnapshot.row tag).completedConnections = l.completed tag ∧
    (s.accountingSnapshot.row tag).uplinkBytes +
      (s.accountingSnapshot.row tag).activeUplinkBytes = l.uplink tag ∧
    (s.accountingSnapshot.row tag).downlinkBytes +
      (s.accountingSnapshot.row tag).activeDownlinkBytes = l.downlink tag := by
  have hload : ∀ (entry : ConnectionEntry) (a : Account),
      s.traffic[entry.traffic]? = some ⟨a.uplink, a.downlink⟩ →
      load s.traffic entry.traffic = ⟨a.uplink, a.downlink⟩ := by
    intro entry a hcounters
    rw [load, getD_eq_getElem?_getD, hcounters, Option.getD_some]
  have hsumUp := h.sum_active tag (fun entry => (load s.traffic entry.traffic).uplinkBytes) uplink
    (fun entry a hcounters => by rw [hload entry a hcounters])
  have hsumDown := h.sum_active tag
    (fun entry => (load s.traffic entry.traffic).downlinkBytes) downlink
    (fun entry a hcounters => by rw [hload entry a hcounters])
  have hsplitUp := tally_split uplink tag l
  have hsplitDown := tally_split downlink tag l
  obtain ⟨hboundUp, hboundDown⟩ := hfits tag
  rw [Ledger.uplink] at hboundUp
  rw [Ledger.downlink] at hboundDown
  have hfound : s.accountingSnapshot.row tag =
      (s.registry.accounting[tag]?.map (withActive s.traffic (valuesOf s.registry.active))).getD
        (emptyRow tag) := by
    rw [OutboundAccountingSnapshot.row, System.accountingSnapshot,
      ConnectionRegistry.accountingSnapshot, foldl_countActive h.inOrder, find?_map,
      ← h.find_row tag]
    simp only [Function.comp_def, tag_withActive]
  rw [hfound]
  have hrow := h.rows tag
  cases hcase : s.registry.accounting[tag]? with
  | none =>
    rw [hcase] at hrow
    have hzero : l.opened tag = 0 := hrow
    exact ⟨hzero.symm, (tally_eq_zero _ hzero).symm, (tally_eq_zero _ hzero).symm,
      (tally_eq_zero _ hzero).symm⟩
  | some row =>
    rw [hcase] at hrow
    obtain ⟨rfl, hopened, hcompleted, hu, hd, hactiveUp, hactiveDown⟩ := hrow
    rw [Option.map_some, Option.getD_some, withActive_spec]
    · refine ⟨hopened, hcompleted, ?_, ?_⟩
      · rw [hu, hactiveUp, Ledger.uplink, hsplitUp, Nat.zero_add]
        exact congrArg _ hsumUp
      · rw [hd, hactiveDown, Ledger.downlink, hsplitDown, Nat.zero_add]
        exact congrArg _ hsumDown
    all_goals
      rw [activeSum]
      omega

end

end

/-! ## Revisions and identifiers -/

def Advances (s : System) : Step → Prop
  | .register _ _ _ _ _ => True
  | .markActive i => ∃ (lease : ConnectionLease) (entry : ConnectionEntry),
      s.leases[i]? = some lease ∧ s.registry.active[lease.id]? = some entry ∧
        entry.info.state ≠ .active
  | .close id => s.registry.active[id]? ≠ none
  | .finish i => ∃ lease : ConnectionLease, s.leases[i]? = some lease ∧
      s.registry.active[lease.id]? ≠ none
  | .drop i => ∃ lease : ConnectionLease, s.leases[i]? = some lease ∧ lease.finished = false ∧
      s.registry.active[lease.id]? ≠ none
  | _ => False

lemma revision_finish (registry : ConnectionRegistry) (traffic : List ConnectionTraffic)
    (id : Nat) (hfits : registry.revision + 1 < 2 ^ 64) :
    (registry.finish traffic id).revision =
      if registry.active[id]? = none then registry.revision else registry.revision + 1 := by
  rw [finish]
  split
  · next hnone => rw [if_pos hnone]
  next hentry =>
  rw [if_neg (by rw [hentry]; simp)]
  exact saturatingAdd_eq hfits

/-- The revision goes up by one with such a step, and stays with any other. -/
lemma revision_step {s s' : System} {st : Step} (hfits : s.registry.revision + st.calls < 2 ^ 64)
    (hstep : s.step st = some s') :
    (Advances s st → s'.registry.revision = s.registry.revision + 1) ∧
    (¬Advances s st → s'.registry.revision = s.registry.revision) := by
  cases st with
  | takeId =>
    cases hstep
    exact ⟨False.elim, fun _ => rfl⟩
  | register =>
    rw [System.step] at hstep
    split at hstep
    · cases hstep
      exact ⟨fun _ => saturatingAdd_eq hfits, fun hnot => absurd trivial hnot⟩
    · cases hstep
  | recordUplink | recordDownlink =>
    rw [System.step] at hstep
    split at hstep
    · cases hstep
      exact ⟨False.elim, fun _ => rfl⟩
    · cases hstep
  | markActive i =>
    obtain ⟨lease, hlease, rfl⟩ := Option.map_eq_some_iff.mp hstep
    simp only [Advances, hlease, Option.some.injEq, exists_and_left, exists_eq_left']
    rw [markActive]
    split
    · next hnone =>
      refine ⟨?_, fun _ => rfl⟩
      rintro ⟨entry, hentry, -⟩
      cases hnone.symm.trans hentry
    next entry hentry =>
    split
    · next hopening =>
      exact ⟨fun _ => saturatingAdd_eq hfits, fun hnot => absurd ⟨entry, hentry, hopening⟩ hnot⟩
    next hactive =>
    refine ⟨?_, fun _ => rfl⟩
    rintro ⟨entry', hentry', hopening⟩
    cases hentry.symm.trans hentry'
    exact absurd hopening hactive
  | close id =>
    rw [System.step, ConnectionRegistry.close] at hstep
    cases hentry : s.registry.active[id]? with
    | none =>
      simp only [hentry] at hstep
      cases hstep
      exact ⟨fun hsome => absurd hentry hsome, fun _ => rfl⟩
    | some entry =>
      simp only [hentry] at hstep
      cases hstep
      refine ⟨fun _ => saturatingAdd_eq hfits, fun hnot => absurd ?_ hnot⟩
      rw [Advances, hentry]
      simp
  | finish i =>
    obtain ⟨lease, hlease, rfl⟩ := Option.map_eq_some_iff.mp hstep
    simp only [Advances, hlease, Option.some.injEq, exists_eq_left']
    have hrevision := revision_finish s.registry s.traffic lease.id hfits
    exact ⟨fun hsome => hrevision.trans (if_neg hsome),
      fun hnot => hrevision.trans (if_pos (not_not.mp hnot))⟩
  | drop i =>
    obtain ⟨lease, hlease, rfl⟩ := Option.map_eq_some_iff.mp hstep
    simp only [Advances, hlease, Option.some.injEq, exists_eq_left']
    split
    · next hfinished =>
      refine ⟨?_, fun _ => rfl⟩
      rintro ⟨hnot, -⟩
      rw [hfinished] at hnot
      cases hnot
    next hnot =>
    rw [Bool.not_eq_true] at hnot
    have hrevision := revision_finish s.registry s.traffic lease.id hfits
    exact ⟨fun hsome => hrevision.trans (if_neg hsome.2),
      fun hno => hrevision.trans (if_pos (by_contra fun hsome => hno ⟨hnot, hsome⟩))⟩

lemma Inv.taken {s : System} {l : Ledger} {calls : Nat} (h : Inv s l calls)
    {id : Nat} (hid : id ∈ s.taken) : s.registry.active[id]? = none := by
  cases hentry : s.registry.active[id]? with
  | none => rfl
  | some entry =>
    obtain ⟨i, lease, hlease, rfl⟩ := h.known id entry hentry
    exact absurd rfl ((nodup_append.mp h.distinct).2.2 _ hid _
      (mem_map_of_mem (mem_of_getElem? hlease)))

/-- In every run whose totals stay below `2 ^ 64`: for each outbound a snapshot shows as many
opened connections as completed and active ones, and the bytes that the ledger has booked on its
connections until they completed; these never decrease. A connection is completed once, however
often its lease is finished and dropped. A connection is registered under an identifier that no
active one has. The revision goes up with every connection that is opened, becomes active, is
asked to close or completes, and with nothing else. -/
theorem connection_accounting_conserves {steps : List Step} {s : System} (hwithin : Within steps)
    (hrun : new.run steps = some s) :
    (∀ tag, (s.accountingSnapshot.row tag).openedConnections =
        (s.accountingSnapshot.row tag).completedConnections + s.activeConnections tag ∧
      (s.accountingSnapshot.row tag).completedConnections = (after steps).completed tag ∧
      (s.accountingSnapshot.row tag).uplinkBytes +
        (s.accountingSnapshot.row tag).activeUplinkBytes = (after steps).uplink tag ∧
      (s.accountingSnapshot.row tag).downlinkBytes +
        (s.accountingSnapshot.row tag).activeDownlinkBytes = (after steps).downlink tag) ∧
    (s.accountingSnapshot.outbounds.map outboundTag).Nodup ∧
    ∀ earlier later s₀, steps = earlier ++ later → new.run earlier = some s₀ →
      (∀ tag, (s₀.accountingSnapshot.row tag).uplinkBytes +
          (s₀.accountingSnapshot.row tag).activeUplinkBytes ≤
        (s.accountingSnapshot.row tag).uplinkBytes +
          (s.accountingSnapshot.row tag).activeUplinkBytes ∧
        (s₀.accountingSnapshot.row tag).downlinkBytes +
          (s₀.accountingSnapshot.row tag).activeDownlinkBytes ≤
        (s.accountingSnapshot.row tag).downlinkBytes +
          (s.accountingSnapshot.row tag).activeDownlinkBytes) ∧
      ∀ st rest s₁, later = st :: rest → s₀.step st = some s₁ →
        (∀ id inboundTag outboundTag target started,
          st = .register id inboundTag outboundTag target started →
            s₀.registry.active[id]? = none) ∧
        (Advances s₀ st → s₀.registry.revision < s₁.registry.revision) ∧
        (¬Advances s₀ st → s₁.registry.revision = s₀.registry.revision) := by
  have hinv := inv_of_run hwithin hrun
  refine ⟨fun tag => ?_, ?_, fun earlier later s₀ hsplit hrun₀ => ?_⟩
  · obtain ⟨hopened, hcompleted, hup, hdown⟩ := hinv.snapshot_row hwithin.2 tag
    refine ⟨?_, hcompleted, hup, hdown⟩
    rw [hopened, hcompleted, hinv.activeConnections tag]
    exact tally_split (fun _ => 1) tag _
  · rw [System.accountingSnapshot, ConnectionRegistry.accountingSnapshot, foldl_countActive hinv.inOrder,
      List.map_map]
    have hsame : outboundTag ∘
        withActive s.traffic (valuesOf s.registry.active) = outboundTag :=
      funext fun row => tag_withActive _ row
    rw [hsame, List.Nodup, List.pairwise_map]
    refine hinv.inOrder.imp fun {a b} hab heq => ?_
    rw [heq, Std.compare_eq_iff_eq.mpr rfl] at hab
    cases hab
  subst hsplit
  have hinv₀ := inv_of_run hwithin.of_append hrun₀
  refine ⟨fun tag => ?_, fun st rest s₁ hlater hstep => ?_⟩
  · obtain ⟨-, -, hup, hdown⟩ := hinv.snapshot_row hwithin.2 tag
    obtain ⟨-, -, hup₀, hdown₀⟩ := hinv₀.snapshot_row hwithin.of_append.2 tag
    rw [hup, hdown, hup₀, hdown₀,
      show after (earlier ++ later) = later.foldl Ledger.step (after earlier) from List.foldl_append]
    exact ⟨uplink_mono tag (after earlier) later, downlink_mono tag (after earlier) later⟩
  subst hlater
  have hfits : s₀.registry.revision + st.calls < 2 ^ 64 := by
    have hcalls := hwithin.1
    rw [List.map_append, List.sum_append, List.map_cons, List.sum_cons] at hcalls
    have := hinv₀.revision_le
    omega
  obtain ⟨hadvances, hstays⟩ := revision_step hfits hstep
  refine ⟨?_, fun h => by rw [hadvances h]; exact Nat.lt_succ_self _, hstays⟩
  rintro id inboundTag outboundTag target started rfl
  rw [System.step] at hstep
  split at hstep
  · next htaken => exact hinv₀.taken htaken
  · cases hstep

/-- Two connections of different outbounds, one of which completes while bytes are still being
recorded on it. -/
def sampleSteps : List Step :=
  [.takeId, .takeId, .register 2 none none ⟨.domain [97], 80, .tcp⟩ 0,
    .register 1 none (some "proxy") ⟨.domain [98], 80, .tcp⟩ 0, .recordUplink 0 7, .markActive 1,
    .finish 0, .recordUplink 0 5, .recordUplink 1 3, .drop 1]

theorem connection_accounting_of_sampleSteps : ∃ s, new.run sampleSteps = some s ∧
      (s.accountingSnapshot.row none).uplinkBytes +
        (s.accountingSnapshot.row none).activeUplinkBytes = 7 := by
  obtain ⟨s, hs⟩ := Option.isSome_iff_exists.mp
    (show (new.run sampleSteps).isSome = true from rfl)
  refine ⟨s, hs, ?_⟩
  have hfits : Fits (after sampleSteps) := fun tag =>
    ⟨(tally_le_sum Account.uplink tag _).trans_lt (by decide),
      (tally_le_sum Account.downlink tag _).trans_lt (by decide)⟩
  exact ((connection_accounting_conserves ⟨by decide, hfits⟩ hs).1 none).2.2.1.trans (by decide)

end Xray.Connection
