import Xray.Dns.FakeIp
import Xray.Lib.Leases
import Xray.Lib.SlotIndex

/-!
# The fake-IP mapper keeps its leases

The slots are the truth and the other three views are indexes of them
(`Indexed`). The mapper changes its slots in three ways, it puts a mapping into
an empty slot, clears one, or moves the end of a lease, and each way keeps the
indexes in step. Everything a call does is built from these three.

Read through `table`, a call that returns an address is a grant of the lease
library, so that the promise it makes is kept for as long as it runs. A call
that returns none is accounted for exactly: the cursor loop cannot come back
empty-handed, because the pool was checked to be larger than the reserved
addresses and the mappings together.
-/

namespace Xray.Dns

open Ascii Leases SlotIndex List
open Xray.Routing (Cidr IpAddr fromPrefix)

def FakeIpMapper.slot (mapper : FakeIpMapper) (i : Nat) : Option FakeIpEntry :=
  mapper.entries[i]?.join

structure Indexed (mapper : FakeIpMapper) : Prop where
  byDomain : Indexes (·.domain) mapper.byDomain mapper.slot
  byIpv4 : Indexes (·.ip) mapper.byIpv4 mapper.slot
  leases : Marks (·.reusableAfter) mapper.leaseIndex mapper.slot

variable {mapper : FakeIpMapper} {i : Nat} {e : FakeIpEntry}

lemma slot_eq_some : mapper.slot i = some e ↔ mapper.entries[i]? = some (some e) := by
  rw [FakeIpMapper.slot, Option.join_eq_some_iff]

lemma slot_lt (h : mapper.slot i = some e) : i < mapper.entries.length :=
  (List.getElem_of_getElem? (slot_eq_some.mp h)).1

section

variable (entries : List (Option FakeIpEntry))

lemma join_set {i : Nat} (hi : i < entries.length) (x : Option FakeIpEntry) :
    (fun j => (entries.set i x)[j]?.join) = Function.update (fun j => entries[j]?.join) i x := by
  funext j
  rw [Function.update_apply, getElem?_set]
  by_cases hij : i = j
  · subst hij
    rw [if_pos rfl, if_pos hi, if_pos rfl]
    rfl
  · rw [if_neg hij, if_neg (Ne.symm hij)]

lemma join_push (x : Option FakeIpEntry) : (fun j => (entries ++ [x])[j]?.join) =
      Function.update (fun j => entries[j]?.join) entries.length x := by
  funext j
  rw [Function.update_apply]
  by_cases hj : j = entries.length
  · subst hj
    rw [if_pos rfl, getElem?_concat_length]
    rfl
  · rw [if_neg hj]
    rcases Nat.lt_or_gt_of_ne hj with hlt | hgt
    · rw [getElem?_append_left hlt]
    · rw [getElem?_eq_none (by simp; omega), getElem?_eq_none (by omega)]

/-! ## The three updates -/

/-- The entries after a mapping is put in a slot, as `insert_mapping` does it:
pushed at the end, or stored in place. -/
lemma join_put {i : Nat} (hi : i ≤ entries.length)
    (x : Option FakeIpEntry) {entries' : List (Option FakeIpEntry)}
    (h : entries' = if i = entries.length then entries ++ [x] else entries.set i x) :
    (fun j => entries'[j]?.join) = Function.update (fun j => entries[j]?.join) i x ∧
      entries'.length = max entries.length (i + 1) := by
  subst h
  split
  · next heq =>
    subst heq
    exact ⟨join_push _ _, by simp⟩
  · refine ⟨join_set _ (by omega) _, ?_⟩
    rw [length_set]
    omega

end

lemma Indexed.insertMapping (h : Indexed mapper) (hi : i ≤ mapper.entries.length)
    (hempty : mapper.slot i = none) (hd : mapper.byDomain.lookup e.domain = none)
    (ha : mapper.byIpv4.lookup e.ip = none) :
    ∃ mapper', mapper.insertMapping i e.domain e.ip e.reusableAfter = (some (), mapper') ∧
      Indexed mapper' ∧ mapper'.slot = Function.update mapper.slot i (some e) ∧
      mapper'.pool = mapper.pool ∧
      mapper'.entries.length = max mapper.entries.length (i + 1) ∧
      mapper'.byDomain.keys.length = mapper.byDomain.keys.length + 1 := by
  have hlease : (e.reusableAfter, i) ∉ mapper.leaseIndex := by
    intro hmem
    obtain ⟨e', he', -⟩ := (h.leases _ i).mp hmem
    cases hempty.symm.trans he'
  rw [FakeIpMapper.insertMapping, if_neg (by omega)]
  dsimp only
  rw [if_neg hlease]
  refine ⟨_, rfl, ?_⟩
  obtain ⟨hslot, hlen⟩ := join_put mapper.entries hi (some e) rfl
  refine ⟨⟨?_, ?_, ?_⟩, hslot, rfl, hlen, ?_⟩
  · exact Eq.mpr (congrArg _ hslot) (h.byDomain.fill hempty hd)
  · exact Eq.mpr (congrArg _ hslot) (h.byIpv4.fill hempty ha)
  · exact Eq.mpr (congrArg _ hslot) (h.leases.fill hempty)
  · exact length_keys_insert hd

lemma Indexed.remove (h : Indexed mapper) (hi : mapper.slot i = some e) {mapper' : FakeIpMapper}
    (hmapper' : mapper' = { mapper with
      leaseIndex := mapper.leaseIndex.erase (e.reusableAfter, i)
      entries := mapper.entries.set i none
      byDomain := mapper.byDomain.erase e.domain
      byIpv4 := mapper.byIpv4.erase e.ip }) :
    Indexed mapper' ∧ mapper'.slot = Function.update mapper.slot i none ∧
      mapper'.byDomain.keys.length + 1 = mapper.byDomain.keys.length := by
  subst hmapper'
  have hslot := join_set mapper.entries (slot_lt hi) none
  refine ⟨⟨?_, ?_, ?_⟩, hslot, ?_⟩
  · exact Eq.mpr (congrArg _ hslot) (h.byDomain.clear hi)
  · exact Eq.mpr (congrArg _ hslot) (h.byIpv4.clear hi)
  · exact Eq.mpr (congrArg _ hslot) (h.leases.clear hi)
  · exact length_keys_erase ((h.byDomain _ i).mpr ⟨e, hi, rfl⟩)

lemma Indexed.renew (h : Indexed mapper) (hi : mapper.slot i = some e) (t : Instant)
    {mapper' : FakeIpMapper}
    (hmapper' : mapper' = { mapper with
      entries := mapper.entries.set i (some { e with reusableAfter := t })
      leaseIndex := insert (t, i) (mapper.leaseIndex.erase (e.reusableAfter, i)) }) :
    Indexed mapper' ∧
      mapper'.slot = Function.update mapper.slot i (some { e with reusableAfter := t }) := by
  subst hmapper'
  have hslot := join_set mapper.entries (slot_lt hi) (some { e with reusableAfter := t })
  refine ⟨⟨?_, ?_, ?_⟩, hslot⟩
  · exact Eq.mpr (congrArg _ hslot) (h.byDomain.replace hi rfl)
  · exact Eq.mpr (congrArg _ hslot) (h.byIpv4.replace hi rfl)
  · exact Eq.mpr (congrArg _ hslot) (h.leases.replace hi { e with reusableAfter := t })

/-! ## The mappings as leases -/

/-- What each name holds, read through the name index. -/
def FakeIpMapper.table (mapper : FakeIpMapper) : Table Str Ipv4Addr Instant := fun d =>
  (mapper.byDomain.lookup d).bind fun i => (mapper.slot i).map fun e => (e.ip, e.reusableAfter)

namespace Indexed

variable {mapper mapper' : FakeIpMapper} {i : Nat} {e e' : FakeIpEntry} {d : Str} {a : Ipv4Addr}
  {t : Instant}

variable (h : Indexed mapper)

include h

lemma table_eq_some : mapper.table d = some (a, t) ↔ ∃ i, mapper.slot i = some ⟨d, a, t⟩ := by
  rw [FakeIpMapper.table, Option.bind_eq_some_iff]
  constructor
  · intro hd
    obtain ⟨i, hi, hslot⟩ := hd
    obtain ⟨e, he, rfl⟩ := (h.byDomain d i).mp hi
    rw [he] at hslot
    obtain ⟨rfl, rfl⟩ := Prod.mk.inj (Option.some.inj hslot)
    exact ⟨i, he⟩
  · intro hd
    obtain ⟨i, hi⟩ := hd
    refine ⟨i, (h.byDomain d i).mpr ⟨_, hi, rfl⟩, ?_⟩
    rw [hi]
    rfl

lemma table_eq_none : mapper.table d = none ↔ mapper.byDomain.lookup d = none := by
  cases hd : mapper.byDomain.lookup d with
  | none => simp [FakeIpMapper.table, hd]
  | some i =>
    obtain ⟨e, he, -⟩ := (h.byDomain d i).mp hd
    simp [FakeIpMapper.table, hd, he]

lemma exclusive : Exclusive mapper.table := by
  intro d d' a t t' hd hd'
  obtain ⟨i, hi⟩ := h.table_eq_some.mp hd
  obtain ⟨j, hj⟩ := h.table_eq_some.mp hd'
  obtain rfl := h.byIpv4.unique hi hj rfl
  exact congrArg FakeIpEntry.domain (Option.some.inj (hi.symm.trans hj))

/-- One slot changes, and with it what one name holds. -/
lemma table_update (h' : Indexed mapper') {x : Option FakeIpEntry}
    (hslot : mapper'.slot = Function.update mapper.slot i x)
    (hnew : ∀ e, x = some e → e.domain = d) (hold : ∀ e, mapper.slot i = some e → e.domain = d)
    (hother : ∀ j e, j ≠ i → mapper.slot j = some e → e.domain ≠ d) :
    mapper'.table = Function.update mapper.table d (x.map fun e => (e.ip, e.reusableAfter)) := by
  funext d'
  refine Option.ext fun ⟨a, t⟩ => ?_
  rw [h'.table_eq_some, hslot]
  simp only [update_eq_some]
  rw [Function.update_apply]
  split
  · next hd =>
    subst hd
    rw [Option.map_eq_some_iff]
    constructor
    · intro hx
      obtain ⟨j, ⟨-, hj⟩ | ⟨hji, hj⟩⟩ := hx
      · exact ⟨_, hj, rfl⟩
      · exact absurd rfl (hother j _ hji hj)
    · intro hx
      obtain ⟨e, he, hpair⟩ := hx
      obtain ⟨rfl, rfl⟩ := Prod.mk.inj hpair
      exact ⟨i, .inl ⟨rfl, by rw [he, ← hnew e he]⟩⟩
  next hd =>
  rw [h.table_eq_some]
  constructor
  · intro hx
    obtain ⟨j, ⟨-, hj⟩ | ⟨-, hj⟩⟩ := hx
    · exact absurd (hnew _ hj) hd
    · exact ⟨j, hj⟩
  · intro hx
    obtain ⟨j, hj⟩ := hx
    refine ⟨j, .inr ⟨?_, hj⟩⟩
    intro hji
    subst hji
    exact hd (hold _ hj)

lemma table_put (h' : Indexed mapper')
    (hslot : mapper'.slot = Function.update mapper.slot i (some e))
    (hold : ∀ x, mapper.slot i = some x → x.domain = e.domain) :
    mapper'.table = Function.update mapper.table e.domain (some (e.ip, e.reusableAfter)) := by
  refine h.table_update h' hslot (fun x hx => ?_) hold (fun j x hji hj heq => ?_)
  · rw [Option.some.inj hx]
  have hput : mapper'.slot i = some e := by rw [hslot, Function.update_self]
  have hkeep : mapper'.slot j = some x := by rw [hslot, Function.update_of_ne hji, hj]
  exact hji (h'.byDomain.unique hkeep hput heq)

lemma table_clear (h' : Indexed mapper') (hi : mapper.slot i = some e)
    (hslot : mapper'.slot = Function.update mapper.slot i none) :
    mapper'.table = Function.update mapper.table e.domain none := by
  refine h.table_update h' hslot (fun x hx => ?_) (fun x hx => ?_) (fun j x hji hj heq => ?_)
  · cases hx
  · rw [Option.some.inj (hx.symm.trans hi)]
  · exact hji (h.byDomain.unique hj hi heq)

end Indexed

lemma binarySearch_iff {xs : List Ipv4Addr} (hxs : xs.Pairwise (· < ·)) (x : Ipv4Addr) :
    binarySearch xs x ↔ x ∈ xs := by
  rw [binarySearch, beq_iff_eq, Xray.Routing.partitionPoint]
  induction xs with
  | nil => simp
  | cons y ys ih =>
    obtain ⟨hy, hys⟩ := pairwise_cons.mp hxs
    rw [mem_cons]
    by_cases hlt : y < x
    · rw [takeWhile_cons_of_pos (by simpa using hlt), length_cons,
        getElem?_cons_succ, ih hys, or_iff_right (ne_of_gt hlt)]
    rw [takeWhile_cons_of_neg (by simpa using hlt)]
    have hnot : x ∉ ys := fun hmem => hlt (hy x hmem)
    simp [hnot, eq_comm]

namespace FakeIpPool

def Allocatable (pool : FakeIpPool) (ip : Ipv4Addr) : Prop :=
  inAllocationRange pool.networkBase pool.firstOffset pool.allocationSpan ip = true ∧
    ip ∉ pool.reservedIpv4

/-- The address `r` places past the first allocatable one. -/
def address (pool : FakeIpPool) (r : Nat) : Ipv4Addr :=
  BitVec.ofNat 32 (pool.networkBase.toNat + (pool.firstOffset + r))

variable (pool : FakeIpPool) {r : Nat}

lemma firstOffset_add_span_le : pool.firstOffset + pool.allocationSpan ≤ pool.addressCount := by
  obtain ⟨hfirst, hspan⟩ := pool.offsets
  rw [hfirst, hspan]
  split <;> omega

section

variable (hr : r < pool.allocationSpan)

include hr

lemma sum_lt : pool.networkBase.toNat + (pool.firstOffset + r) < 2 ^ 32 := by
  have := pool.firstOffset_add_span_le
  have := pool.fits
  omega

lemma toNat_address :
    (pool.address r).toNat = pool.networkBase.toNat + (pool.firstOffset + r) := by
  rw [address, BitVec.toNat_ofNat, Nat.mod_eq_of_lt (pool.sum_lt hr)]

lemma checkedAdd_eq :
    checkedAdd pool.networkBase (pool.firstOffset + r) = some (pool.address r) := by
  rw [checkedAdd, if_pos (pool.sum_lt hr), address]

lemma inAllocationRange_address :
    inAllocationRange pool.networkBase pool.firstOffset pool.allocationSpan (pool.address r) =
      true := by
  have hnat := pool.toNat_address hr
  rw [inAllocationRange, checkedSub, if_pos (by rw [BitVec.le_def]; omega)]
  simp only [Bool.and_eq_true, decide_eq_true_eq]
  omega

end

lemma address_injOn : Set.InjOn pool.address (Set.Iio pool.allocationSpan) := by
  intro r hr s hs heq
  have h := congrArg BitVec.toNat heq
  rw [pool.toNat_address hr, pool.toNat_address hs] at h
  omega

end FakeIpPool

def FakeIpMapper.Taken (mapper : FakeIpMapper) (ip : Ipv4Addr) : Prop :=
  ip ∈ mapper.pool.reservedIpv4 ∨ ∃ i, mapper.byIpv4.lookup ip = some i

/-- The loop moves the cursor and nothing else. It stops at an address that is
not taken, or has found every address on its way taken. -/
lemma nextAvailableFrom_spec (n : Nat) (mapper : FakeIpMapper) :
    (∃ offset, (mapper.nextAvailableFrom n).2 = { mapper with nextOffset := offset }) ∧
      (∀ ip, (mapper.nextAvailableFrom n).1 = some ip →
        mapper.pool.Allocatable ip ∧ mapper.byIpv4.lookup ip = none) ∧
      ((mapper.nextAvailableFrom n).1 = none → ∀ j < n,
        mapper.Taken (mapper.pool.address ((mapper.nextOffset + j) % mapper.pool.allocationSpan))) := by
  induction n generalizing mapper with
  | zero => exact ⟨⟨mapper.nextOffset, rfl⟩, by simp [FakeIpMapper.nextAvailableFrom], by omega⟩
  | succ n ih =>
    have hr := Nat.mod_lt mapper.nextOffset mapper.pool.spanPos
    obtain ⟨hmove, hsome, hnone⟩ :=
      ih { mapper with nextOffset := (mapper.nextOffset + 1) % mapper.pool.allocationSpan }
    -- the rounds after a first one that found its address taken
    have hrest (htaken : mapper.Taken
        (mapper.pool.address (mapper.nextOffset % mapper.pool.allocationSpan)))
        (h : (FakeIpMapper.nextAvailableFrom n { mapper with
          nextOffset := (mapper.nextOffset + 1) % mapper.pool.allocationSpan }).1 = none) :
        ∀ j < n + 1, mapper.Taken (mapper.pool.address
          ((mapper.nextOffset + j) % mapper.pool.allocationSpan)) := by
      intro j hj
      cases j with
      | zero => exact htaken
      | succ j =>
        have hlater := hnone h j (by omega)
        rw [Nat.mod_add_mod, Nat.add_assoc, Nat.add_comm 1 j] at hlater
        exact hlater
    rw [FakeIpMapper.nextAvailableFrom]
    simp only [mapper.pool.checkedAdd_eq hr]
    split
    · next hres =>
      exact ⟨hmove, hsome, hrest (.inl ((binarySearch_iff mapper.pool.sorted _).mp hres))⟩
    next hres =>
    rw [binarySearch_iff mapper.pool.sorted] at hres
    split
    · next hfree =>
      refine ⟨⟨_, rfl⟩, fun ip hip => ?_, by simp⟩
      obtain rfl := Option.some.inj hip
      exact ⟨⟨mapper.pool.inAllocationRange_address hr, hres⟩, Option.isNone_iff_eq_none.mp hfree⟩
    · next hmapped =>
      refine ⟨hmove, hsome, hrest (.inr (Option.isSome_iff_exists.mp ?_))⟩
      rwa [Option.isNone_iff_eq_none, ← ne_eq, Option.ne_none_iff_isSome] at hmapped

/-! ## What holds between calls -/

/-- All four views describe the same mappings: every slot is taken, the indexes
agree with the slots, there are no more mappings than the configuration allows,
and each address is one that may be handed out. -/
structure Consistent (mapper : FakeIpMapper) : Prop extends Indexed mapper where
  filled : ∀ i < mapper.entries.length, ∃ e, mapper.slot i = some e
  count : mapper.byDomain.keys.length = mapper.entries.length
  bound : mapper.entries.length ≤ mapper.pool.maxMappings
  usable : ∀ i e, mapper.slot i = some e → mapper.pool.Allocatable e.ip

namespace Consistent

variable {mapper : FakeIpMapper} (h : Consistent mapper)

include h

/-- If every allocatable address is taken, the mappings are as many as the pool
has room for beside the reserved addresses. -/
lemma span_le (htaken : ∀ r < mapper.pool.allocationSpan, mapper.Taken (mapper.pool.address r)) :
    mapper.pool.allocationSpan ≤
      (mapper.pool.reservedIpv4.filter (inAllocationRange mapper.pool.networkBase
        mapper.pool.firstOffset mapper.pool.allocationSpan)).length + mapper.entries.length := by
  let reserved := (mapper.pool.reservedIpv4.filter (inAllocationRange mapper.pool.networkBase
    mapper.pool.firstOffset mapper.pool.allocationSpan)).toFinset
  let mapped := (Finset.range mapper.entries.length).image fun i =>
    ((mapper.slot i).map FakeIpEntry.ip).getD 0
  have hsub : (Finset.range mapper.pool.allocationSpan).image mapper.pool.address ⊆
      reserved ∪ mapped := by
    intro ip hip
    obtain ⟨r, hr, rfl⟩ := Finset.mem_image.mp hip
    rw [Finset.mem_range] at hr
    rcases htaken r hr with hres | ⟨i, hi⟩
    · exact Finset.mem_union_left _ (mem_toFinset.mpr
        (mem_filter.mpr ⟨hres, mapper.pool.inAllocationRange_address hr⟩))
    obtain ⟨e, he, hip⟩ := (h.byIpv4 _ i).mp hi
    refine Finset.mem_union_right _ (Finset.mem_image.mpr ⟨i, Finset.mem_range.mpr (slot_lt he), ?_⟩)
    rw [he]
    exact hip
  calc mapper.pool.allocationSpan
      = ((Finset.range mapper.pool.allocationSpan).image mapper.pool.address).card := by
        rw [Finset.card_image_of_injOn (fun r hr s hs => mapper.pool.address_injOn
          (Finset.mem_range.mp hr) (Finset.mem_range.mp hs)), Finset.card_range]
    _ ≤ reserved.card + mapped.card := (Finset.card_le_card hsub).trans (Finset.card_union_le _ _)
    _ ≤ _ := by
        refine Nat.add_le_add (toFinset_card_le _) ?_
        exact Finset.card_image_le.trans (Finset.card_range _).le

lemma nextAvailableIpv4_isSome (hroom : mapper.entries.length < mapper.pool.maxMappings) :
    ∃ ip offset, mapper.nextAvailableIpv4 = (some ip, { mapper with nextOffset := offset }) ∧
      mapper.pool.Allocatable ip ∧ mapper.byIpv4.lookup ip = none := by
  obtain ⟨⟨offset, hmove⟩, hsome, hnone⟩ := nextAvailableFrom_spec mapper.pool.allocationSpan mapper
  cases hres : (mapper.nextAvailableFrom mapper.pool.allocationSpan).1 with
  | some ip => exact ⟨ip, offset, Prod.ext hres hmove, hsome ip hres⟩
  | none =>
    have hspan := h.span_le fun r hr => by
      -- the round that starts `r` places past the first address
      have hpos := Nat.mod_lt mapper.nextOffset mapper.pool.spanPos
      have htaken := hnone hres
        ((r + (mapper.pool.allocationSpan - mapper.nextOffset % mapper.pool.allocationSpan)) %
          mapper.pool.allocationSpan) (Nat.mod_lt _ mapper.pool.spanPos)
      rw [Nat.add_mod_mod, ← Nat.mod_add_mod, show mapper.nextOffset % mapper.pool.allocationSpan +
          (r + (mapper.pool.allocationSpan - mapper.nextOffset % mapper.pool.allocationSpan)) =
          r + mapper.pool.allocationSpan by omega, Nat.add_mod_right, Nat.mod_eq_of_lt hr] at htaken
      exact htaken
    have := mapper.pool.room
    omega

end Consistent

variable {leases : Finset (Instant × Nat)} {config : DnsFakeIpConfig} {reserved : List Ipv4Addr}

lemma first_eq_some {lease : Instant × Nat} (h : first leases = some lease) :
    lease ∈ leases ∧ ∀ other ∈ leases, lease.1 ≤ other.1 := by
  unfold first at h
  split at h
  · next hne =>
    obtain rfl := Option.some.inj h
    constructor
    · obtain ⟨x, hx, heq⟩ := Finset.mem_map.mp (Finset.min'_mem _ hne)
      rw [← heq]
      exact hx
    · intro other hother
      have hle := Finset.min'_le _ _ (Finset.mem_map_of_mem toLex.toEmbedding hother)
      exact Prod.Lex.monotone_fst _ _ hle
  · cases h

lemma first_eq_none (h : first leases = none) : leases = ∅ := by
  unfold first at h
  split at h
  · cases h
  next hempty =>
  rw [Finset.not_nonempty_iff_eq_empty, Finset.map_eq_empty] at hempty
  exact hempty

/-- Either every lease is still running and nothing changes, or the mapping of a
lease that has ended is taken out. -/
lemma Indexed.removeEarliestExpired (h : Indexed mapper) (now : Instant) :
    (mapper.removeEarliestExpired now = (none, mapper) ∧
        ∀ lease ∈ mapper.leaseIndex, now < lease.1) ∨
      ∃ i e mapper', mapper.removeEarliestExpired now = (some (i, e.ip), mapper') ∧
        mapper.slot i = some e ∧ e.reusableAfter ≤ now ∧ Indexed mapper' ∧
        mapper'.slot = Function.update mapper.slot i none ∧ mapper'.pool = mapper.pool ∧
        mapper'.entries.length = mapper.entries.length ∧
        mapper'.byDomain.keys.length + 1 = mapper.byDomain.keys.length ∧
        (e.reusableAfter, i) ∈ mapper.leaseIndex := by
  rw [FakeIpMapper.removeEarliestExpired]
  cases hfirst : first mapper.leaseIndex with
  | none =>
    refine .inl ⟨rfl, fun lease hlease => ?_⟩
    rw [first_eq_none hfirst] at hlease
    exact absurd hlease (Finset.notMem_empty _)
  | some lease =>
    obtain ⟨t, i⟩ := lease
    obtain ⟨hmem, hle⟩ := first_eq_some hfirst
    dsimp only
    split
    · next hlate => exact .inl ⟨rfl, fun other hother => lt_of_lt_of_le hlate (hle other hother)⟩
    next hdue =>
    obtain ⟨e, he, rfl⟩ := (h.leases t i).mp hmem
    obtain ⟨hindexed, hslot, hcount⟩ := h.remove he rfl
    rw [slot_eq_some.mp he]
    exact .inr ⟨i, e, _, rfl, he, Nat.le_of_not_lt hdue, hindexed, hslot, rfl, length_set,
      hcount, hmem⟩

/-- Why a call returns no address: the name is empty, the lease would end past
the clock, or every mapping belongs to another name whose lease still runs. -/
def Refused (latest : Instant) (mapper : FakeIpMapper) (domain : Str) (now : Instant) : Prop :=
  normalizeDnsDomain domain = none ∨ latest < now + fromSecs mapper.pool.ttl ∨
    ∃ name, normalizeDnsDomain domain = some name ∧ mapper.byDomain.lookup name = none ∧
      mapper.byDomain.keys.length = mapper.pool.maxMappings ∧
      ∀ lease ∈ mapper.leaseIndex, now < lease.1

/-- A call either is refused and changes nothing, or grants the address. -/
structure Served (latest : Instant) (mapper : FakeIpMapper) (domain : Str) (now : Instant)
    (ip : Ipv4Addr) (mapper' : FakeIpMapper) : Prop where
  consistent : Consistent mapper'
  pool : mapper'.pool = mapper.pool
  grant : ∃ name, normalizeDnsDomain domain = some name ∧
    Grant now (now + fromSecs mapper.pool.ttl) name ip mapper.table mapper'.table
  accepted : ¬ Refused latest mapper domain now

lemma Consistent.keys_eq_max (h : Consistent mapper)
    (hfull : mapper.byDomain.keys.length ≥ mapper.pool.maxMappings) :
    mapper.byDomain.keys.length = mapper.pool.maxMappings := by
  have := h.count
  have := h.bound
  omega

section Allocate

variable {latest now : Instant} {mapper : FakeIpMapper} {domain name : Str}

lemma not_refused (hname : normalizeDnsDomain domain = some name)
    (htime : now + fromSecs mapper.pool.ttl ≤ latest)
    (h : mapper.byDomain.lookup name = none →
      mapper.byDomain.keys.length = mapper.pool.maxMappings →
      ∃ lease ∈ mapper.leaseIndex, lease.1 ≤ now) : ¬ Refused latest mapper domain now := by
  intro hrefused
  rcases hrefused with hnone | hlate | ⟨name', hname', habsent, hfull, hleases⟩
  · cases hnone.symm.trans hname
  · exact absurd hlate (not_lt.mpr htime)
  obtain rfl := Option.some.inj (hname'.symm.trans hname)
  obtain ⟨lease, hlease, hle⟩ := h habsent hfull
  exact absurd (hleases lease hlease) (not_lt.mpr hle)

variable {i duration : Nat} {e : FakeIpEntry}

lemma Consistent.served_renew (h : Consistent mapper)
    (hname : normalizeDnsDomain domain = some e.domain)
    (htime : now + fromSecs mapper.pool.ttl ≤ latest) (he : mapper.slot i = some e)
    {mapper' : FakeIpMapper} (hmapper' : mapper' = { mapper with
      entries := mapper.entries.set i (some { e with
        reusableAfter := now + fromSecs mapper.pool.ttl })
      leaseIndex := insert (now + fromSecs mapper.pool.ttl, i)
        (mapper.leaseIndex.erase (e.reusableAfter, i)) }) :
    Served latest mapper domain now e.ip mapper' := by
  obtain ⟨hindexed, hslot⟩ := h.renew he _ hmapper'
  have hlen : mapper'.entries.length = mapper.entries.length := by
    rw [hmapper']
    exact length_set
  have hpool : mapper'.pool = mapper.pool := by rw [hmapper']
  have hlookup := (h.byDomain _ i).mpr ⟨e, he, rfl⟩
  refine ⟨⟨hindexed, fun j hj => ?_, ?_, ?_, fun j x hj => ?_⟩, hpool, ?_, ?_⟩
  · rw [hslot, Function.update_apply]
    split
    · exact ⟨_, rfl⟩
    · exact h.filled j (hlen ▸ hj)
  · rw [hlen, ← h.count, hmapper']
  · rw [hlen, hpool]
    exact h.bound
  · rw [hslot, update_eq_some] at hj
    rw [hpool]
    rcases hj with ⟨-, hx⟩ | ⟨-, hx⟩
    · obtain rfl := Option.some.inj hx
      exact h.usable i e he
    · exact h.usable j x hx
  · refine ⟨e.domain, hname, ?_⟩
    rw [h.table_put hindexed hslot fun x hx => by rw [Option.some.inj (hx.symm.trans he)]]
    exact .renew (h.table_eq_some.mpr ⟨i, he⟩)
  · exact not_refused hname htime fun habsent _ => absurd (habsent.symm.trans hlookup) (by simp)

lemma Indexed.grant (h : Indexed mapper) (hi : i ≤ mapper.entries.length)
    (hempty : mapper.slot i = none)
    (hfilled : ∀ j < mapper.entries.length, j ≠ i → ∃ x, mapper.slot j = some x)
    (hcount : mapper.byDomain.keys.length + 1 = max mapper.entries.length (i + 1))
    (hbound : max mapper.entries.length (i + 1) ≤ mapper.pool.maxMappings)
    (husable : ∀ j x, mapper.slot j = some x → mapper.pool.Allocatable x.ip)
    (hd : mapper.byDomain.lookup e.domain = none) (ha : mapper.byIpv4.lookup e.ip = none)
    (hip : mapper.pool.Allocatable e.ip) :
    ∃ mapper', mapper.grant i e.domain e.ip e.reusableAfter = (some e.ip, mapper') ∧
      Consistent mapper' ∧ mapper'.pool = mapper.pool ∧
      mapper'.table = Function.update mapper.table e.domain (some (e.ip, e.reusableAfter)) := by
  obtain ⟨mapper', hinsert, hindexed, hslot, hpool, hlen, hkeys⟩ := h.insertMapping hi hempty hd ha
  refine ⟨mapper', ?_, ⟨hindexed, fun j hj => ?_, ?_, ?_, fun j x hj => ?_⟩, hpool, ?_⟩
  · rw [FakeIpMapper.grant, hinsert]
  · rw [hslot, Function.update_apply]
    split
    · exact ⟨_, rfl⟩
    · next hji => exact hfilled j (by omega) hji
  · rw [hkeys, hcount, hlen]
  · rw [hlen, hpool]
    exact hbound
  · rw [hslot, update_eq_some] at hj
    rw [hpool]
    rcases hj with ⟨-, hx⟩ | ⟨-, hx⟩
    · obtain rfl := Option.some.inj hx
      exact hip
    · exact husable j x hx
  · exact h.table_put hindexed hslot fun x hx => absurd (hempty.symm.trans hx) (by simp)

lemma Consistent.served_fresh (h : Consistent mapper)
    (hname : normalizeDnsDomain domain = some name)
    (htime : now + fromSecs mapper.pool.ttl ≤ latest)
    (habsent : mapper.byDomain.lookup name = none)
    (hroom : mapper.byDomain.keys.length < mapper.pool.maxMappings) :
    ∃ ip offset mapper', mapper.nextAvailableIpv4 = (some ip, { mapper with nextOffset := offset }) ∧
      FakeIpMapper.grant { mapper with nextOffset := offset } mapper.entries.length name ip
        (now + fromSecs mapper.pool.ttl) = (some ip, mapper') ∧
      Served latest mapper domain now ip mapper' := by
  have hcount := h.count
  obtain ⟨ip, offset, hnext, hip, hfree⟩ := h.nextAvailableIpv4_isSome (by omega)
  have hmoved : Indexed { mapper with nextOffset := offset } := ⟨h.byDomain, h.byIpv4, h.leases⟩
  obtain ⟨mapper', hgrant, hconsistent, hpool, htable⟩ :=
    hmoved.grant (e := ⟨name, ip, now + fromSecs mapper.pool.ttl⟩) (Nat.le_refl _)
      (by rw [FakeIpMapper.slot, getElem?_eq_none (Nat.le_refl _)]; rfl)
      (fun j hj _ => h.filled j hj) (by dsimp only; omega) (by dsimp only; omega) h.usable habsent
      hfree hip
  refine ⟨ip, offset, mapper', hnext, hgrant, hconsistent, hpool, ⟨name, hname, ?_⟩, ?_⟩
  · rw [htable]
    refine .fresh (h.table_eq_none.mpr habsent) fun d t hd => ?_
    obtain ⟨i, hi⟩ := h.table_eq_some.mp hd
    exact absurd (hfree.symm.trans ((h.byIpv4 ip i).mpr ⟨_, hi, rfl⟩)) (by simp)
  · exact not_refused hname htime fun _ hfull => absurd hfull (Nat.ne_of_lt hroom)

/-- The name is new and the mapper is full: it takes over the mapping of a lease
that has ended. -/
lemma Consistent.served_takeOver (h : Consistent mapper)
    (hname : normalizeDnsDomain domain = some name)
    (htime : now + fromSecs mapper.pool.ttl ≤ latest) (habsent : mapper.byDomain.lookup name = none)
    {removed : FakeIpMapper} (he : mapper.slot i = some e) (hdue : e.reusableAfter ≤ now)
    (hindexed : Indexed removed) (hslot : removed.slot = Function.update mapper.slot i none)
    (hpool : removed.pool = mapper.pool) (hlen : removed.entries.length = mapper.entries.length)
    (hkeys : removed.byDomain.keys.length + 1 = mapper.byDomain.keys.length)
    (hlease : (e.reusableAfter, i) ∈ mapper.leaseIndex) :
    ∃ mapper', removed.grant i name e.ip (now + fromSecs mapper.pool.ttl) = (some e.ip, mapper') ∧
      Served latest mapper domain now e.ip mapper' := by
  have hi := slot_lt he
  have hcount := h.count
  have hbound := h.bound
  have htable := h.table_clear hindexed he hslot
  have hgone : removed.byDomain.lookup name = none := by
    rw [← hindexed.table_eq_none, htable, Function.update_apply]
    split
    · rfl
    · exact h.table_eq_none.mpr habsent
  have hfree : removed.byIpv4.lookup e.ip = none := by
    refine Option.eq_none_iff_forall_ne_some.mpr fun j hj => ?_
    obtain ⟨x, hx, hxip⟩ := (hindexed.byIpv4 _ _).mp hj
    rw [hslot, update_eq_some] at hx
    rcases hx with ⟨-, hx⟩ | ⟨hji, hx⟩
    · cases hx
    · exact hji (h.byIpv4.unique hx he hxip)
  obtain ⟨mapper', hgrant, hconsistent, hpool', htable'⟩ :=
    hindexed.grant (i := i) (e := ⟨name, e.ip, now + fromSecs mapper.pool.ttl⟩) (by omega)
      (by rw [hslot, Function.update_self])
      (fun j hj hji => by rw [hslot, Function.update_of_ne hji]; exact h.filled j (hlen ▸ hj))
      (by omega) (by rw [hpool]; omega)
      (fun j x hx => by
        rw [hslot, update_eq_some] at hx
        rcases hx with ⟨-, hx⟩ | ⟨-, hx⟩
        · cases hx
        · exact hpool ▸ h.usable j x hx)
      hgone hfree (hpool ▸ h.usable i e he)
  refine ⟨mapper', hgrant, hconsistent, hpool'.trans hpool, ⟨name, hname, ?_⟩, ?_⟩
  · rw [htable', htable]
    exact .takeOver (h.table_eq_none.mpr habsent) (h.table_eq_some.mpr ⟨i, he⟩) hdue
  · exact not_refused hname htime fun _ _ => ⟨_, hlease, hdue⟩

lemma checkedAdd_eq_none {latest now : Nat} :
    Instant.checkedAdd latest now duration = none ↔ latest < now + duration := by
  rw [Instant.checkedAdd]
  split <;> simp <;> omega

lemma checkedAdd_eq_some {latest now t : Nat} :
    Instant.checkedAdd latest now duration = some t ↔ now + duration = t ∧ now + duration ≤ latest := by
  rw [Instant.checkedAdd]
  split <;> simp <;> omega

/-- A call on a consistent mapper is refused and leaves it as it was, or is
served. -/
lemma Consistent.allocateIpv4At (h : Consistent mapper) (latest : Instant) (domain : Str)
    (now : Instant) :
    (mapper.allocateIpv4At latest domain now = (none, mapper) ∧ Refused latest mapper domain now) ∨
      ∃ ip mapper', mapper.allocateIpv4At latest domain now = (some ip, mapper') ∧
        Served latest mapper domain now ip mapper' := by
  unfold FakeIpMapper.allocateIpv4At
  cases hname : normalizeDnsDomain domain with
  | none => exact .inl ⟨rfl, .inl hname⟩
  | some name =>
  dsimp only
  cases hsum : Instant.checkedAdd latest now (fromSecs mapper.pool.ttl) with
  | none => exact .inl ⟨rfl, .inr (.inl (checkedAdd_eq_none.mp hsum))⟩
  | some reusableAfter =>
  obtain ⟨rfl, htime⟩ := checkedAdd_eq_some.mp hsum
  cases hlookup : mapper.byDomain.lookup name with
  | some i =>
    obtain ⟨e, he, rfl⟩ := (h.byDomain _ i).mp hlookup
    dsimp only
    rw [slot_eq_some.mp he]
    exact .inr ⟨e.ip, _, rfl, h.served_renew hname htime he rfl⟩
  | none =>
    dsimp only
    split
    · next hfull =>
      rcases h.removeEarliestExpired now with ⟨hremove, hleases⟩ |
          ⟨i, e, removed, hremove, he, hdue, hindexed, hslot, hpool, hlen, hkeys, hlease⟩
      · rw [hremove]
        exact .inl ⟨rfl, .inr (.inr ⟨name, hname, hlookup, h.keys_eq_max hfull, hleases⟩)⟩
      rw [hremove]
      obtain ⟨mapper', hgrant, hserved⟩ := h.served_takeOver hname htime hlookup he hdue
        hindexed hslot hpool hlen hkeys hlease
      exact .inr ⟨e.ip, mapper', hgrant, hserved⟩
    next hroom =>
    obtain ⟨ip, offset, mapper', hnext, hgrant, hserved⟩ :=
      h.served_fresh hname htime hlookup (Nat.lt_of_not_le hroom)
    rw [hnext]
    exact .inr ⟨ip, mapper', hgrant, hserved⟩

end Allocate

section Run

variable {mapper : FakeIpMapper} (latest : Instant)

lemma Consistent.step (h : Consistent mapper) (call : Call) :
    Consistent (mapper.step latest call) ∧ (mapper.step latest call).pool = mapper.pool := by
  cases call with
  | lookup ip => exact ⟨h, rfl⟩
  | allocate domain now =>
    rw [FakeIpMapper.step]
    rcases h.allocateIpv4At latest domain now with ⟨hcall, -⟩ | ⟨ip, mapper', hcall, hserved⟩
    · rw [hcall]
      exact ⟨h, rfl⟩
    · rw [hcall]
      exact ⟨hserved.consistent, hserved.pool⟩

lemma Consistent.run (h : Consistent mapper) (calls : List Call) :
    Consistent (mapper.run latest calls) ∧ (mapper.run latest calls).pool = mapper.pool := by
  induction calls generalizing mapper with
  | nil => exact ⟨h, rfl⟩
  | cons call rest ih =>
    obtain ⟨hstep, hpool⟩ := h.step latest call
    obtain ⟨hrest, hpool'⟩ := ih hstep
    exact ⟨hrest, hpool'.trans hpool⟩

variable {name : Str} {ip : Ipv4Addr} {t : Instant}

/-- A lease granted at `t` outlives every call made within its time. -/
lemma Consistent.step_held (h : Consistent mapper) {call : Call}
    (hheld : Held mapper.table name ip (t + fromSecs mapper.pool.ttl))
    (hnow : ∀ now, call.now? = some now → t ≤ now ∧ now < t + fromSecs mapper.pool.ttl) :
    Held (mapper.step latest call).table name ip (t + fromSecs mapper.pool.ttl) := by
  cases call with
  | lookup ip => exact hheld
  | allocate domain now =>
    rw [FakeIpMapper.step]
    obtain ⟨hle, hlt⟩ := hnow now rfl
    rcases h.allocateIpv4At latest domain now with ⟨hcall, -⟩ | ⟨ip, mapper', hcall, hserved⟩
    · rw [hcall]
      exact hheld
    rw [hcall]
    obtain ⟨name', -, hgrant⟩ := hserved.grant
    exact hgrant.held hheld hlt (Nat.add_le_add_right hle _)

lemma Consistent.run_held (h : Consistent mapper) {calls : List Call}
    (hheld : Held mapper.table name ip (t + fromSecs mapper.pool.ttl))
    (hnow : ∀ now ∈ calls.filterMap Call.now?, t ≤ now ∧ now < t + fromSecs mapper.pool.ttl) :
    Held (mapper.run latest calls).table name ip (t + fromSecs mapper.pool.ttl) := by
  induction calls generalizing mapper with
  | nil => exact hheld
  | cons call rest ih =>
    obtain ⟨hstep, hpool⟩ := h.step latest call
    have hfirst := h.step_held latest hheld fun now hcall =>
      hnow now (mem_filterMap.mpr ⟨call, mem_cons_self, hcall⟩)
    rw [← hpool] at hfirst hnow ⊢
    refine ih hstep hfirst fun now hmem => hnow now ?_
    obtain ⟨c, hc, hcnow⟩ := mem_filterMap.mp hmem
    exact mem_filterMap.mpr ⟨c, mem_cons_of_mem _ hc, hcnow⟩

variable {domain : Str} {now : Instant}

omit latest in
lemma Consistent.grant_of_some (h : Consistent mapper) {latest : Instant}
    (hcall : (mapper.allocateIpv4At latest domain now).1 = some ip) :
    ∃ name, normalizeDnsDomain domain = some name ∧
      Grant now (now + fromSecs mapper.pool.ttl) name ip mapper.table
        (mapper.allocateIpv4At latest domain now).2.table := by
  rcases h.allocateIpv4At latest domain now with ⟨hnone, -⟩ | ⟨ip', mapper', hsome, hserved⟩
  · exact absurd (hcall.symm.trans (congrArg Prod.fst hnone)) (by simp)
  rw [hsome] at hcall ⊢
  obtain rfl := Option.some.inj hcall
  exact hserved.grant

omit latest in
lemma Consistent.allocate_eq_none_iff (h : Consistent mapper) {latest : Instant} :
    (mapper.allocateIpv4At latest domain now).1 = none ↔ Refused latest mapper domain now := by
  rcases h.allocateIpv4At latest domain now with ⟨hnone, hrefused⟩ | ⟨ip, mapper', hsome, hserved⟩
  · rw [hnone]
    exact ⟨fun _ => hrefused, fun _ => rfl⟩
  · rw [hsome]
    exact ⟨by simp, fun hrefused => absurd hrefused hserved.accepted⟩

/-- The lease an allocation grants is held after all later calls of its time. -/
lemma Consistent.held_after (h : Consistent mapper) {calls before after : List Call}
    (hcalls : calls = before ++ .allocate domain now :: after)
    (htimes : (calls.filterMap Call.now?).Pairwise (· ≤ ·))
    (hcall : ((mapper.run latest before).allocateIpv4At latest domain now).1 = some ip)
    (hafter : ∀ t ∈ after.filterMap Call.now?, t < now + fromSecs mapper.pool.ttl) :
    ∃ name, normalizeDnsDomain domain = some name ∧
      Held (mapper.run latest calls).table name ip (now + fromSecs mapper.pool.ttl) := by
  obtain ⟨hbefore, hpool⟩ := h.run latest before
  obtain ⟨hstep, hpool'⟩ := hbefore.step latest (.allocate domain now)
  obtain ⟨name, hname, hgrant⟩ := hbefore.grant_of_some hcall
  rw [hcalls, filterMap_append] at htimes
  have hlater := (pairwise_append.mp htimes).2.1
  have htime : (Call.allocate domain now).now? = some now := rfl
  rw [filterMap_cons_some htime, pairwise_cons] at hlater
  have hrun : mapper.run latest calls =
      ((mapper.run latest before).step latest (.allocate domain now)).run latest after := by
    rw [hcalls]
    simp [FakeIpMapper.run]
  refine ⟨name, hname, ?_⟩
  rw [hrun, ← hpool, ← hpool']
  rw [← hpool] at hafter
  refine hstep.run_held latest ⟨_, hgrant.holds, by rw [hpool']⟩ fun t ht => ?_
  rw [hpool']
  exact ⟨hlater.1 t ht, hafter t ht⟩

omit latest in
lemma Indexed.lookupIpv4 (h : Indexed mapper) (hheld : Held mapper.table name ip t) :
    mapper.lookupIpv4 ip = .mapped name := by
  obtain ⟨u, hu, -⟩ := hheld
  obtain ⟨i, hi⟩ := h.table_eq_some.mp hu
  have hlookup := (h.byIpv4 ip i).mpr ⟨_, hi, rfl⟩
  have hjoin : mapper.entries[i]?.join = some ⟨name, ip, u⟩ := hi
  rw [FakeIpMapper.lookupIpv4, FakeIpMapper.domainForIpv4, hlookup]
  simp only [Option.bind_eq_bind, Option.bind_some, hjoin]
  rfl

end Run

/-! ## From the configuration on -/

/-- An address of the configured pool that is not reserved, nor the first or the
last of a pool of more than two. -/
structure Usable (config : DnsFakeIpConfig) (reserved : List Ipv4Addr) (ip : Ipv4Addr) : Prop where
  inPool : config.ipv4Pool.contains (.v4 ip)
  notReserved : ip ∉ reserved
  interior : ∀ network, config.ipv4Pool.network = .v4 network →
    2 < 2 ^ (32 - config.ipv4Pool.prefixLen) →
    ip ≠ (fromPrefix network config.ipv4Pool.prefixLen).start ∧
      ip ≠ (fromPrefix network config.ipv4Pool.prefixLen).stop

/-- The mapper a configuration gives: empty, over the configured block. -/
structure FromConfig (config : DnsFakeIpConfig) (reserved : List Ipv4Addr) (block : Ipv4Addr)
    (mapper : FakeIpMapper) : Prop where
  ttl : mapper.pool.ttl = config.ttl
  maxMappings : mapper.pool.maxMappings = config.poolSize
  reserved : mapper.pool.reservedIpv4 = sortDedup reserved
  network : config.ipv4Pool.network = .v4 block
  base : mapper.pool.networkBase = (fromPrefix block config.ipv4Pool.prefixLen).start
  count : mapper.pool.addressCount = 2 ^ (32 - config.ipv4Pool.prefixLen)
  consistent : Consistent mapper

lemma fromConfig_of_eq_some {start : Nat}
    (h : FakeIpMapper.fromConfigWithStart config reserved start = some mapper) :
    ∃ block, FromConfig config reserved block mapper := by
  obtain ⟨enabled, ⟨network, prefixLen, hcanonical, hfits⟩, poolSize, ttl⟩ := config
  cases network with
  | v6 block => simp [FakeIpMapper.fromConfigWithStart] at h
  | v4 block =>
    simp only [FakeIpMapper.fromConfigWithStart, FakeIpMapper.ofBlock,
      Option.ite_none_left_eq_some, Option.dite_none_left_eq_some] at h
    obtain ⟨_, _, _, _, h⟩ := h
    obtain rfl := Option.some.inj h
    refine ⟨block, rfl, rfl, rfl, rfl, rfl, rfl, ?_⟩
    exact
      { byDomain := fun k i => by simp [FakeIpMapper.slot]
        byIpv4 := fun k i => by simp [FakeIpMapper.slot]
        leases := fun k i => by simp [FakeIpMapper.slot]
        filled := fun i hi => absurd hi (Nat.not_lt_zero i)
        count := rfl
        bound := Nat.zero_le _
        usable := fun i e he => by simp [FakeIpMapper.slot] at he }

lemma usable_of_allocatable {block : Ipv4Addr} (h : FromConfig config reserved block mapper)
    {ip : Ipv4Addr} (hip : mapper.pool.Allocatable ip) : Usable config reserved ip := by
  obtain ⟨hrange, hreserved⟩ := hip
  have hle := mapper.pool.firstOffset_add_span_le
  have hoffsets := mapper.pool.offsets
  have hstop := Xray.Routing.toNat_fromPrefix_stop block config.ipv4Pool.prefixLen
  rw [h.base, inAllocationRange, checkedSub] at hrange
  rw [h.count] at hle hoffsets
  by_cases hbase : (fromPrefix block config.ipv4Pool.prefixLen).start ≤ ip
  case neg =>
    rw [if_neg hbase] at hrange
    cases hrange
  rw [if_pos hbase] at hrange
  simp only [Bool.and_eq_true, decide_eq_true_eq] at hrange
  rw [BitVec.le_def] at hbase
  refine ⟨?_, ?_, fun network hnetwork hlarge => ?_⟩
  · rw [Cidr.contains, h.network]
    show (fromPrefix block config.ipv4Pool.prefixLen).contains ip = true
    rw [Spans.Span.contains, Bool.and_eq_true, decide_eq_true_eq, decide_eq_true_eq, BitVec.le_def,
      BitVec.le_def]
    omega
  · rw [h.reserved, mem_sortDedup] at hreserved
    exact hreserved
  · obtain rfl := IpAddr.v4.inj (h.network.symm.trans hnetwork)
    rw [if_pos hlarge, if_pos hlarge] at hoffsets
    constructor
    all_goals
      intro heq
      rw [heq] at hrange
      omega

/-- The lease law, for every accepted configuration, every start offset and
every run of calls with non-decreasing times. Names are compared as the mapper
compares them: without trailing dots and in lower case.

* The four views describe the same mappings, at most as many as configured; a
  name has one address and an address has one name; and every address is usable.
* An address granted at `now` resolves to its name, and goes to no other name,
  until the advertised TTL has run out.
* A call fails exactly when its name is empty once normalised, or the lease
  would end after the last instant the clock can represent, or all mappings
  belong to other names and no lease has ended. -/
theorem fakeIpMapper_lease_law (latest : Instant) (config : DnsFakeIpConfig)
    (reserved : List Ipv4Addr) (start : Nat) (fresh : FakeIpMapper)
    (hfresh : FakeIpMapper.fromConfigWithStart config reserved start = some fresh)
    (calls : List Call) (htimes : (calls.filterMap Call.now?).Pairwise (· ≤ ·)) :
    (Consistent (fresh.run latest calls) ∧
      (fresh.run latest calls).entries.length ≤ config.poolSize ∧
      (∀ i j e e', (fresh.run latest calls).slot i = some e →
        (fresh.run latest calls).slot j = some e' → (e.domain = e'.domain ↔ e.ip = e'.ip)) ∧
      ∀ i e, (fresh.run latest calls).slot i = some e → Usable config reserved e.ip) ∧
    (∀ before domain now after ip, calls = before ++ .allocate domain now :: after →
      ((fresh.run latest before).allocateIpv4At latest domain now).1 = some ip →
      (∀ t ∈ after.filterMap Call.now?, t < now + fromSecs config.ttl) →
      ∃ name, normalizeDnsDomain domain = some name ∧
        (fresh.run latest calls).lookupIpv4 ip = .mapped name ∧
        ∀ domain' now', now' < now + fromSecs config.ttl →
          ((fresh.run latest calls).allocateIpv4At latest domain' now').1 = some ip →
          normalizeDnsDomain domain' = some name) ∧
    ∀ domain now, ((fresh.run latest calls).allocateIpv4At latest domain now).1 = none ↔
      normalizeDnsDomain domain = none ∨ latest < now + fromSecs config.ttl ∨
        ∃ name, normalizeDnsDomain domain = some name ∧
          (fresh.run latest calls).byDomain.lookup name = none ∧
          (fresh.run latest calls).byDomain.keys.length = config.poolSize ∧
          ∀ lease ∈ (fresh.run latest calls).leaseIndex, now < lease.1 := by
  obtain ⟨block, hconfig⟩ := fromConfig_of_eq_some hfresh
  obtain ⟨hrun, hpool⟩ := hconfig.consistent.run latest calls
  refine ⟨⟨hrun, ?_, fun i j e e' hi hj => ?_, fun i e hi => ?_⟩, ?_, fun domain now => ?_⟩
  · rw [← hconfig.maxMappings, ← hpool]
    exact hrun.bound
  · constructor
    · intro hdomain
      obtain rfl := hrun.byDomain.unique hi hj hdomain
      rw [Option.some.inj (hi.symm.trans hj)]
    · intro hip
      obtain rfl := hrun.byIpv4.unique hi hj hip
      rw [Option.some.inj (hi.symm.trans hj)]
  · exact usable_of_allocatable hconfig (hpool ▸ hrun.usable i e hi)
  · intro before domain now after ip hcalls hcall hafter
    rw [← hconfig.ttl] at hafter ⊢
    obtain ⟨name, hname, hheld⟩ := hconfig.consistent.held_after latest hcalls htimes hcall hafter
    refine ⟨name, hname, hrun.lookupIpv4 hheld, fun domain' now' hnow' hcall' => ?_⟩
    obtain ⟨name', hname', hgrant⟩ := hrun.grant_of_some hcall'
    rw [hname', hgrant.eq_of_held hrun.exclusive hheld hnow']
  · rw [hrun.allocate_eq_none_iff, Refused, hpool, hconfig.ttl, hconfig.maxMappings]

/-- `192.0.2.0/29` for two mappings of a minute. -/
def sampleConfig : DnsFakeIpConfig where
  enabled := true
  ipv4Pool := ⟨.v4 0xc0000200#32, 29, rfl, by decide⟩
  poolSize := 2
  ttl := 60

/-- The first address goes to the first name, and stays with it while a second
name is served half a minute later. -/
theorem fakeIpMapper_two_names :
    ∃ fresh, FakeIpMapper.fromConfigWithStart sampleConfig [0xc0000201#32] 0 = some fresh ∧
      (fresh.run 100000000000 [.allocate [65] 0, .allocate [66] 30000000000]).lookupIpv4
        0xc0000202#32 = .mapped [97] := by
  have hfirst : (FakeIpMapper.fromConfigWithStart sampleConfig [0xc0000201#32] 0).map
      (fun fresh => (fresh.allocateIpv4At 100000000000 [65] 0).1) = some (some 0xc0000202#32) := by
    decide +kernel
  obtain ⟨fresh, hfresh, hcall⟩ := Option.map_eq_some_iff.mp hfirst
  obtain ⟨name, hname, hlookup, -⟩ :=
    (fakeIpMapper_lease_law 100000000000 sampleConfig [0xc0000201#32] 0 fresh hfresh
      [.allocate [65] 0, .allocate [66] 30000000000] (by decide)).2.1 [] [65] 0
      [.allocate [66] 30000000000] 0xc0000202#32 rfl hcall (by decide)
  have hlower : normalizeDnsDomain [65] = some [97] := by decide
  obtain rfl := Option.some.inj (hlower.symm.trans hname)
  exact ⟨fresh, hfresh, hlookup⟩

/-- A name of one dot is not empty, and yet it is refused by a mapper that has
mapped nothing; so is any name once the clock is about to run out. -/
theorem fakeIpMapper_refuses_with_room :
    ∃ fresh, FakeIpMapper.fromConfigWithStart sampleConfig [] 0 = some fresh ∧
      fresh.byDomain.keys.length < fresh.pool.maxMappings ∧
      ([dot] : Str) ≠ [] ∧ (fresh.allocateIpv4At 100000000000 [dot] 0).1 = none ∧
      (fresh.allocateIpv4At 100000000000 [97] 50000000000).1 = none := by
  have hrefused : (FakeIpMapper.fromConfigWithStart sampleConfig [] 0).map (fun fresh =>
      (decide (fresh.byDomain.keys.length < fresh.pool.maxMappings),
        (fresh.allocateIpv4At 100000000000 [dot] 0).1,
        (fresh.allocateIpv4At 100000000000 [97] 50000000000).1)) = some (true, none, none) := by
    decide +kernel
  obtain ⟨fresh, hfresh, hcalls⟩ := Option.map_eq_some_iff.mp hrefused
  simp only [Prod.mk.injEq, decide_eq_true_eq] at hcalls
  exact ⟨fresh, hfresh, hcalls.1, by decide, hcalls.2⟩

end Xray.Dns
