import Xray.Routing.IpRangeSet

/-!
# An IP matcher set means its CIDR list

The source keeps three representations of the same set of addresses: the list
of networks a rule was written with, the vector the builder collects, and the
sorted, merged ranges the lookups search. This file carries the meaning
through all three.

The vector first. `merge_ranges` overwrites the vector it reads, one index
chasing the other, and `mergeRanges_eq_normalize` says the chase is harmless:
the front it leaves is the library's sweep of the sorted vector. From there
the library's normal form does the work. The ranges cover what the vector
covered, they are separated, and, since a normal form is a function of the
points it covers, two builders that cover the same addresses build the same
set. Insertion order and a network split in two are instances of that.

The lookup is a binary search with a special case for one range, and
`rangesContain_iff` says both are membership.
-/

namespace Xray.Routing

open Spans List Cidr IpMatcherSetBuilder IpRangeSet

/-! ## The in-place merge -/

section Merge

variable {w : Nat}

lemma keyLe_trans (a b c : InclusiveRange w) (hab : keyLe a b) (hbc : keyLe b c) : keyLe a c := by
  simp only [keyLe, Bool.or_eq_true, Bool.and_eq_true, decide_eq_true_eq] at hab hbc ⊢
  rcases hab with h1 | ⟨h1, h2⟩ <;> rcases hbc with h3 | ⟨h3, h4⟩
  · exact .inl (h1.trans h3)
  · exact .inl (h3 ▸ h1)
  · exact .inl (h1 ▸ h3)
  · exact .inr ⟨h1.trans h3, h2.trans h4⟩

lemma keyLe_total (a b : InclusiveRange w) : (keyLe a b || keyLe b a) = true := by
  simp only [keyLe, Bool.or_eq_true, Bool.and_eq_true, decide_eq_true_eq]
  rcases lt_trichotomy a.start b.start with h | h | h
  · exact .inl (.inl h)
  · rcases le_total a.stop b.stop with h' | h'
    · exact .inl (.inr ⟨h, h'⟩)
    · exact .inr (.inr ⟨h.symm, h'⟩)
  · exact .inr (.inl h)

lemma start_le_of_keyLe {a b : InclusiveRange w} (h : keyLe a b) : a.start ≤ b.start := by
  simp only [keyLe, Bool.or_eq_true, Bool.and_eq_true, decide_eq_true_eq] at h
  rcases h with h | ⟨h, -⟩ <;> exact h.le

/-- What the loop has made of the sorted vector once it has read `read` of it:
finished ranges, the range still growing, slots already read that the output
has not reached, and the unread part as it was. Sweeping the unread part onto
the growing range gives the answer. -/
inductive MergeInv (sorted : List (InclusiveRange w)) :
    Nat → List (InclusiveRange w) × Nat → Prop
  | start : MergeInv sorted 0 (sorted, 0)
  | running {done junk : List (InclusiveRange w)} {cur : InclusiveRange w} {read : Nat}
      (hread : read = done.length + 1 + junk.length)
      (hsweep : done ++ coalesce cur (sorted.drop read) = normalize sorted) :
      MergeInv sorted read
        (done ++ cur :: (junk ++ sorted.drop read), done.length + 1)

variable {done junk rest ranges : List (InclusiveRange w)} {cur x : InclusiveRange w}
  {address : BitVec w}

lemma merge_slots (done junk rest : List (InclusiveRange w)) (cur x : InclusiveRange w) :
    (done ++ cur :: (junk ++ x :: rest))[done.length + 1 + junk.length]! = x ∧
      (done ++ cur :: (junk ++ x :: rest))[done.length]! = cur := by
  constructor
  · rw [getElem!_pos _ _ (by simp; omega), getElem_append_right (by omega)]
    simp [show done.length + 1 + junk.length - done.length = junk.length + 1 by omega]
  · simp

lemma mergeRead_grow (htouch : x.start ≤ Order.succ cur.stop) :
    mergeRead (done ++ cur :: (junk ++ x :: rest), done.length + 1)
        (done.length + 1 + junk.length) =
      (done ++ ⟨cur.start, max cur.stop x.stop⟩ :: (junk ++ x :: rest), done.length + 1) := by
  obtain ⟨hx, hcur⟩ := merge_slots done junk rest cur x
  rw [mergeRead]
  simp only [hx, Nat.add_sub_cancel, hcur]
  rw [if_pos ⟨Nat.succ_pos _, htouch⟩, modify_eq_take_drop]
  simp

/-- The round that closes the growing range and starts another. The write
lands on a slot that has been read already, or on the one just read. -/
lemma mergeRead_close (hgap : ¬ x.start ≤ Order.succ cur.stop) :
    mergeRead (done ++ cur :: (junk ++ x :: rest), done.length + 1)
        (done.length + 1 + junk.length) =
      ((done ++ [cur]) ++ x :: ((junk ++ [x]).tail ++ rest), (done ++ [cur]).length + 1) := by
  obtain ⟨hx, hcur⟩ := merge_slots done junk rest cur x
  rw [mergeRead]
  simp only [hx, Nat.add_sub_cancel, hcur]
  rw [if_neg (fun h => hgap h.2)]
  cases junk with
  | nil => simp
  | cons j js => simp

lemma MergeInv.step {sorted : List (InclusiveRange w)} {read : Nat}
    {st : List (InclusiveRange w) × Nat} (hlt : read < sorted.length)
    (h : MergeInv sorted read st) : MergeInv sorted (read + 1) (mergeRead st read) := by
  obtain ⟨x, hsplit⟩ : ∃ x, sorted.drop read = x :: sorted.drop (read + 1) :=
    ⟨_, drop_eq_getElem_cons hlt⟩
  cases h with
  | start =>
    rw [drop_zero] at hsplit
    have hstep : mergeRead (sorted, 0) 0 = ([] ++ x :: ([] ++ sorted.drop (0 + 1)), 0 + 1) := by
      rw [mergeRead]
      rw [hsplit]
      simp
    rw [hstep]
    refine MergeInv.running (by simp) ?_
    conv_rhs => rw [hsplit]
    rfl
  | @running done junk cur read hread hsweep =>
    subst hread
    rw [hsplit] at hsweep ⊢
    by_cases htouch : x.start ≤ Order.succ cur.stop
    · rw [coalesce, if_pos htouch] at hsweep
      rw [mergeRead_grow htouch, append_cons junk x]
      exact MergeInv.running (by simp; omega) hsweep
    · rw [coalesce, if_neg htouch] at hsweep
      rw [mergeRead_close htouch]
      refine MergeInv.running ?_ (by rw [← hsweep]; simp)
      simp only [length_append, length_tail, length_singleton]
      omega

lemma MergeInv.fold (sorted : List (InclusiveRange w)) : ∀ n, n ≤ sorted.length →
    MergeInv sorted n ((List.range n).foldl mergeRead (sorted, 0)) := by
  intro n
  induction n with
  | zero => intro _; exact MergeInv.start
  | succ n ih =>
    intro hn
    rw [range_succ, foldl_append]
    exact (ih (by omega)).step (by omega)

/-- The in-place merge is the sweep of the sorted vector. -/
lemma mergeRanges_eq_normalize (ranges : List (InclusiveRange w)) :
    mergeRanges ranges = normalize (ranges.mergeSort keyLe) := by
  obtain ⟨sorted, hsorted⟩ : ∃ sorted, ranges.mergeSort keyLe = sorted := ⟨_, rfl⟩
  have h := MergeInv.fold sorted sorted.length (Nat.le_refl _)
  simp only [mergeRanges, hsorted]
  generalize (List.range sorted.length).foldl mergeRead (sorted, 0) = st at h
  generalize hn : sorted.length = n at h
  cases h with
  | start =>
    rw [length_eq_zero_iff.mp hn]
    rfl
  | running hread hsweep =>
    rw [← hn, drop_length, coalesce] at hsweep
    rw [← hsweep, append_cons, take_left' (by simp)]

section

variable (hproper : ∀ r ∈ ranges, r.start ≤ r.stop)

include hproper

lemma swept_mergeSort : Swept (ranges.mergeSort keyLe) := by
  refine ⟨fun r hr => hproper r (mem_mergeSort.mp hr), ?_⟩
  exact (pairwise_mergeSort keyLe_trans keyLe_total ranges).imp start_le_of_keyLe

lemma separated_mergeRanges : Separated (mergeRanges ranges) := by
  rw [mergeRanges_eq_normalize]
  exact separated_normalize (swept_mergeSort hproper)

lemma cover_mergeRanges : cover (mergeRanges ranges) = cover ranges := by
  rw [mergeRanges_eq_normalize, cover_normalize (swept_mergeSort hproper)]
  exact cover_perm (mergeSort_perm ranges keyLe)

lemma mergeRanges_congr {ranges' : List (InclusiveRange w)}
    (hproper' : ∀ r ∈ ranges', r.start ≤ r.stop)
    (hcover : cover ranges = cover ranges') : mergeRanges ranges = mergeRanges ranges' := by
  refine (separated_mergeRanges hproper).unique (separated_mergeRanges hproper') ?_
  rw [cover_mergeRanges hproper, cover_mergeRanges hproper', hcover]

end

lemma getElem_partitionPoint {r : InclusiveRange w}
    (h : (ranges.takeWhile fun range => decide (range.start ≤ address)).getLast? = some r) :
    partitionPoint (fun range => decide (range.start ≤ address)) ranges > 0 ∧
      ranges[partitionPoint (fun range => decide (range.start ≤ address)) ranges - 1]! = r := by
  rw [partitionPoint]
  generalize htake : ranges.takeWhile (fun range => decide (range.start ≤ address)) = run at h
  have hprefix : run <+: ranges := htake ▸ takeWhile_prefix _
  have hpos : 0 < run.length := by
    rcases Nat.eq_zero_or_pos run.length with h0 | h0
    · rw [length_eq_zero_iff.mp h0] at h
      simp at h
    · exact h0
  refine ⟨hpos, ?_⟩
  have hle := hprefix.length_le
  rw [getLast?_eq_getElem?, getElem?_eq_getElem (by omega)] at h
  rw [getElem!_pos ranges _ (by omega), ← hprefix.getElem (by omega)]
  exact Option.some.inj h

/-- The search lands on the last range that starts early enough. -/
lemma partitionPoint_iff (h : Separated ranges) :
    (partitionPoint (fun range => decide (range.start ≤ address)) ranges > 0 ∧
      address ≤ ranges[partitionPoint (fun range => decide (range.start ≤ address)) ranges - 1]!.stop) ↔
    address ∈ cover ranges := by
  rw [h.mem_cover_iff]
  cases hlast : (ranges.takeWhile fun range => decide (range.start ≤ address)).getLast? with
  | none =>
    rw [getLast?_eq_none_iff] at hlast
    simp [partitionPoint, hlast]
  | some r =>
    obtain ⟨hpos, hget⟩ := getElem_partitionPoint hlast
    simp [hpos, hget]

lemma rangesContain_iff (h : Separated ranges) :
    rangesContain ranges address ↔ address ∈ cover ranges := by
  unfold rangesContain
  split
  · rw [mem_cover_cons, Span.contains_iff]
    simp
  · rw [← partitionPoint_iff h]
    simp only [Bool.and_eq_true, decide_eq_true_eq]

end Merge

/-! ## A network as a range of numbers -/

section Prefix

variable {w : Nat}

lemma prefixMask_eq (w prefixLen : Nat) :
    prefixMask w prefixLen = BitVec.allOnes w <<< (w - prefixLen) := by
  rw [prefixMask]
  split
  · rename_i h
    rw [h, Nat.sub_zero, BitVec.shiftLeft_eq_zero (Nat.le_refl w)]
  · rfl

lemma toNat_fromPrefix_start (network : BitVec w) (prefixLen : Nat) :
    (fromPrefix network prefixLen).start.toNat =
      network.toNat / 2 ^ (w - prefixLen) * 2 ^ (w - prefixLen) := by
  simp only [fromPrefix]
  rw [prefixMask_eq, ← BitVec.shiftLeft_ushiftRight, BitVec.toNat_shiftLeft,
    BitVec.toNat_ushiftRight, Nat.shiftRight_eq_div_pow, Nat.shiftLeft_eq]
  exact Nat.mod_eq_of_lt (Nat.lt_of_le_of_lt (Nat.div_mul_le_self _ _) network.isLt)

lemma toNat_not_prefixMask (w prefixLen : Nat) :
    (~~~ prefixMask w prefixLen).toNat = 2 ^ (w - prefixLen) - 1 := by
  rw [prefixMask_eq, BitVec.toNat_not, BitVec.toNat_shiftLeft, BitVec.toNat_allOnes,
    Nat.shiftLeft_eq]
  have hle : 2 ^ (w - prefixLen) ≤ 2 ^ w := Nat.pow_le_pow_right (by omega) (by omega)
  have hpos : 0 < 2 ^ (w - prefixLen) := Nat.two_pow_pos _
  generalize 2 ^ (w - prefixLen) = b at hle hpos ⊢
  have hmul : (2 ^ w - 1) * b = (2 ^ w - b) + 2 ^ w * (b - 1) := by
    have h1 : (2 ^ w - 1) * b = 2 ^ w * b - b := by rw [Nat.sub_mul, Nat.one_mul]
    have h2 : 2 ^ w * (b - 1) = 2 ^ w * b - 2 ^ w := by rw [Nat.mul_sub, Nat.mul_one]
    have h3 : 2 ^ w ≤ 2 ^ w * b := Nat.le_mul_of_pos_right _ hpos
    omega
  rw [hmul, Nat.add_mul_mod_self_left, Nat.mod_eq_of_lt (by omega)]
  omega

/-- A network fits below the top of the address space, block and all. -/
lemma fromPrefix_block_le (network : BitVec w) (prefixLen : Nat) :
    (fromPrefix network prefixLen).start.toNat + 2 ^ (w - prefixLen) ≤ 2 ^ w := by
  rw [toNat_fromPrefix_start]
  have hpow : 2 ^ w = 2 ^ (w - (w - prefixLen)) * 2 ^ (w - prefixLen) := by
    rw [← Nat.pow_add]
    congr 1
    omega
  have hdiv : network.toNat / 2 ^ (w - prefixLen) < 2 ^ (w - (w - prefixLen)) := by
    refine Nat.div_lt_of_lt_mul ?_
    rw [Nat.mul_comm, ← hpow]
    exact network.isLt
  have hsucc := Nat.mul_le_mul_right (2 ^ (w - prefixLen)) (Nat.succ_le_of_lt hdiv)
  rw [Nat.succ_mul, ← hpow] at hsucc
  exact hsucc

lemma toNat_fromPrefix_stop (network : BitVec w) (prefixLen : Nat) :
    (fromPrefix network prefixLen).stop.toNat =
      (fromPrefix network prefixLen).start.toNat + (2 ^ (w - prefixLen) - 1) := by
  have hblock := fromPrefix_block_le network prefixLen
  have hdisjoint : (network &&& prefixMask w prefixLen) &&& ~~~ prefixMask w prefixLen = 0#w := by
    simp [BitVec.and_assoc]
  simp only [fromPrefix] at hblock ⊢
  rw [← BitVec.add_eq_or_of_and_eq_zero _ _ hdisjoint, BitVec.toNat_add,
    toNat_not_prefixMask, Nat.mod_eq_of_lt (by omega)]

lemma fromPrefix_proper (network : BitVec w) (prefixLen : Nat) :
    (fromPrefix network prefixLen).start ≤ (fromPrefix network prefixLen).stop := by
  rw [BitVec.le_def, toNat_fromPrefix_stop]
  omega

/-- A network is its two halves: the longer prefix that starts where it
starts, and the longer prefix that stops where it stops. -/
lemma fromPrefix_halves {network lower upper : BitVec w} {prefixLen : Nat} (hlt : prefixLen < w)
    (hlower : (fromPrefix lower (prefixLen + 1)).start = (fromPrefix network prefixLen).start)
    (hupper : (fromPrefix upper (prefixLen + 1)).stop = (fromPrefix network prefixLen).stop)
    (a : BitVec w) :
    (fromPrefix network prefixLen).contains a ↔ (fromPrefix lower (prefixLen + 1)).contains a ∨
        (fromPrefix upper (prefixLen + 1)).contains a := by
  have hpow : 2 ^ (w - prefixLen) = 2 * 2 ^ (w - (prefixLen + 1)) := by
    rw [← Nat.pow_succ']
    congr 1
    omega
  have h1 := congrArg BitVec.toNat hlower
  have h2 := congrArg BitVec.toNat hupper
  have h3 := toNat_fromPrefix_stop network prefixLen
  have h4 := toNat_fromPrefix_stop lower (prefixLen + 1)
  have h5 := toNat_fromPrefix_stop upper (prefixLen + 1)
  simp only [Span.contains_iff, BitVec.le_def]
  omega

end Prefix

/-! ## From networks to range sets -/

def Cidr.range4 (cidr : Cidr) : Option (InclusiveRange 32) :=
  match cidr.network with
  | .v4 network => some (fromPrefix network cidr.prefixLen)
  | .v6 _ => none

def Cidr.range6 (cidr : Cidr) : Option (InclusiveRange 128) :=
  match cidr.network with
  | .v4 _ => none
  | .v6 network => some (fromPrefix network cidr.prefixLen)

/-- The set a builder makes of a list of networks. -/
def IpRangeSet.ofCidrs (cidrs : List Cidr) : IpRangeSet :=
  ⟨mergeRanges (cidrs.filterMap range4), mergeRanges (cidrs.filterMap range6)⟩

/-- The networks of a rule's positive or inverse entries. -/
def picked (inverted : Bool) (entries : List (Cidr × Bool)) : List Cidr :=
  (entries.filter fun e => e.2 == inverted).map Prod.fst

variable {inverted : Bool} {entries before after : List (Cidr × Bool)} {cidr lower upper : Cidr}
  {cidrs : List Cidr} {address : IpAddr} {w : Nat} {range : Cidr → Option (InclusiveRange w)}

lemma mem_picked : cidr ∈ picked inverted entries ↔ (cidr, inverted) ∈ entries := by
  simp [picked]

lemma range4_proper : ∀ r ∈ cidrs.filterMap range4, r.start ≤ r.stop := by
  intro r hr
  obtain ⟨cidr, -, hrange⟩ := mem_filterMap.mp hr
  rw [range4] at hrange
  split at hrange
  · rw [← Option.some.inj hrange]
    exact fromPrefix_proper _ _
  · simp at hrange

lemma range6_proper : ∀ r ∈ cidrs.filterMap range6, r.start ≤ r.stop := by
  intro r hr
  obtain ⟨cidr, -, hrange⟩ := mem_filterMap.mp hr
  rw [range6] at hrange
  split at hrange
  · simp at hrange
  · rw [← Option.some.inj hrange]
    exact fromPrefix_proper _ _

lemma insertCidr_ipv4 (builder : IpRangeSetBuilder) (cidr : Cidr) :
    (builder.insertCidr cidr).ipv4 = builder.ipv4 ++ cidr.range4.toList := by
  rw [IpRangeSetBuilder.insertCidr, range4]
  cases cidr.network <;> simp

lemma insertCidr_ipv6 (builder : IpRangeSetBuilder) (cidr : Cidr) :
    (builder.insertCidr cidr).ipv6 = builder.ipv6 ++ cidr.range6.toList := by
  rw [IpRangeSetBuilder.insertCidr, range6]
  cases cidr.network <;> simp

lemma filterMap_picked_cons {β : Type} (f : Cidr → Option β) (inverted : Bool)
    (entry : Cidr × Bool) (entries : List (Cidr × Bool)) :
    (picked inverted (entry :: entries)).filterMap f =
      (if entry.2 = inverted then (f entry.1).toList else []) ++
        (picked inverted entries).filterMap f := by
  rw [picked, filter_cons]
  by_cases h : entry.2 = inverted
  · rw [if_pos (by simpa using h), if_pos h, map_cons, filterMap_cons]
    cases f entry.1 <;> rfl
  · rw [if_neg (by simpa using h), if_neg h]
    rfl

lemma foldl_insertCidr (entries : List (Cidr × Bool)) : ∀ builder : IpMatcherSetBuilder,
      let final := entries.foldl (fun (builder : IpMatcherSetBuilder) entry =>
        builder.insertCidr entry.1 entry.2) builder
      final.positive.ipv4 = builder.positive.ipv4 ++ (picked false entries).filterMap range4 ∧
        final.positive.ipv6 = builder.positive.ipv6 ++ (picked false entries).filterMap range6 ∧
        final.inverse.ipv4 = builder.inverse.ipv4 ++ (picked true entries).filterMap range4 ∧
        final.inverse.ipv6 = builder.inverse.ipv6 ++ (picked true entries).filterMap range6 := by
  induction entries with
  | nil => intro builder; simp [picked]
  | cons entry entries ih =>
    intro builder
    obtain ⟨cidr, inverted⟩ := entry
    obtain ⟨h1, h2, h3, h4⟩ := ih (builder.insertCidr cidr inverted)
    simp only [foldl_cons, filterMap_picked_cons]
    rw [h1, h2, h3, h4]
    cases inverted <;>
      simp [insertCidr, insertCidr_ipv4, insertCidr_ipv6]

lemma compile_eq (entries : List (Cidr × Bool)) : compile entries =
      ⟨ofCidrs (picked false entries), ofCidrs (picked true entries)⟩ := by
  obtain ⟨h1, h2, h3, h4⟩ := foldl_insertCidr entries {}
  simp only [compile, build, IpRangeSetBuilder.build]
  rw [h1, h2, h3, h4]
  rfl

lemma Cidr.contains_iff : cidr.contains address ↔
      match canonicalizeIp address with
      | .v4 a => ∃ r, cidr.range4 = some r ∧ r.contains a
      | .v6 a => ∃ r, cidr.range6 = some r ∧ r.contains a := by
  rw [contains, range4, range6]
  cases cidr.network <;> cases canonicalizeIp address <;> simp

/-- Searching the merged vector of one family is asking every network of it. -/
lemma rangesContain_filterMap {a : BitVec w}
    (hproper : ∀ r ∈ cidrs.filterMap range, r.start ≤ r.stop) :
    rangesContain (mergeRanges (cidrs.filterMap range)) a ↔
      ∃ cidr ∈ cidrs, ∃ r, range cidr = some r ∧ r.contains a := by
  rw [rangesContain_iff (separated_mergeRanges hproper), cover_mergeRanges hproper, mem_cover]
  simp only [mem_filterMap]
  constructor
  · rintro ⟨r, ⟨cidr, hmem, hr⟩, ha⟩
    exact ⟨cidr, hmem, r, hr, ha⟩
  · rintro ⟨cidr, hmem, r, hr, ha⟩
    exact ⟨r, ⟨cidr, hmem, hr⟩, ha⟩

lemma IpRangeSet.ofCidrs_contains : (ofCidrs cidrs).contains address ↔
      ∃ cidr ∈ cidrs, cidr.contains address := by
  rw [contains]
  simp only [contains_iff]
  cases canonicalizeIp address with
  | v4 a => exact rangesContain_filterMap range4_proper
  | v6 a => exact rangesContain_filterMap range6_proper

lemma mergeRanges_isEmpty {ranges : List (InclusiveRange w)}
    (hproper : ∀ r ∈ ranges, r.start ≤ r.stop) : (mergeRanges ranges).isEmpty = ranges.isEmpty := by
  rw [Bool.eq_iff_iff, List.isEmpty_iff, List.isEmpty_iff,
    ← cover_eq_empty_iff (separated_mergeRanges hproper).proper,
    ← cover_eq_empty_iff hproper, cover_mergeRanges hproper]

lemma filterMap_isEmpty_false {β : Type} {f : Cidr → Option β} :
    (cidrs.filterMap f).isEmpty = false ↔ ∃ cidr ∈ cidrs, (f cidr).isSome := by
  rw [← Bool.not_eq_true]
  push Not
  simp [Option.isSome_iff_ne_none]

/-- The lookup says no, rather than nothing, exactly when some network is of the
address's family and none contains it. -/
lemma IpRangeSet.ofCidrs_lookup_false : (ofCidrs cidrs).lookup address = some false ↔
      (∃ cidr ∈ cidrs, sameFamily cidr.network (canonicalizeIp address)) ∧
        ∀ cidr ∈ cidrs, cidr.contains address = false := by
  have hnone : (∀ cidr ∈ cidrs, cidr.contains address = false) ↔
      (ofCidrs cidrs).contains address = false := by
    rw [← Bool.not_eq_true, ofCidrs_contains]
    simp
  rw [hnone, lookup, contains]
  cases canonicalizeIp address with
  | v4 a =>
    have hfam : (ofCidrs cidrs).ipv4.isEmpty = false ↔
        ∃ cidr ∈ cidrs, sameFamily cidr.network (.v4 a) = true := by
      rw [ofCidrs, mergeRanges_isEmpty range4_proper, filterMap_isEmpty_false]
      refine exists_congr fun cidr => and_congr_right fun _ => ?_
      rw [range4]
      cases cidr.network <;> simp [sameFamily, familyWidth]
    rw [← hfam]
    cases (ofCidrs cidrs).ipv4.isEmpty <;> simp
  | v6 a =>
    have hfam : (ofCidrs cidrs).ipv6.isEmpty = false ↔
        ∃ cidr ∈ cidrs, sameFamily cidr.network (.v6 a) = true := by
      rw [ofCidrs, mergeRanges_isEmpty range6_proper, filterMap_isEmpty_false]
      refine exists_congr fun cidr => and_congr_right fun _ => ?_
      rw [range6]
      cases cidr.network <;> simp [sameFamily, familyWidth]
    rw [← hfam]
    cases (ofCidrs cidrs).ipv6.isEmpty <;> simp

lemma IpRangeSet.lookup_isSome_not_isEmpty {set : IpRangeSet} {b : Bool}
    (h : set.lookup address = some b) : set.isEmpty = false := by
  rw [lookup] at h
  rw [isEmpty, Bool.and_eq_false_iff]
  split at h <;> split at h
  · rename_i hne
    exact .inl (by simpa using hne)
  · simp at h
  · rename_i hne
    exact .inr (by simpa using hne)
  · simp at h

/-- The matcher, as its entries read: some positive network contains the
address, or the address's family has inverse networks and none of them does. -/
lemma compile_matches_iff : (compile entries).matches address ↔
      (∃ cidr, (cidr, false) ∈ entries ∧ cidr.contains address) ∨ (∃ cidr, (cidr, true) ∈ entries ∧
            sameFamily cidr.network (canonicalizeIp address)) ∧
          ∀ cidr, (cidr, true) ∈ entries → cidr.contains address = false := by
  rw [compile_eq, IpMatcherSet.matches, Bool.or_eq_true, ofCidrs_contains,
    Bool.and_eq_true, beq_iff_eq]
  have hdrop : ((!(ofCidrs (picked true entries)).isEmpty) = true ∧
        (ofCidrs (picked true entries)).lookup address = some false) ↔
      (ofCidrs (picked true entries)).lookup address = some false := by
    refine and_iff_right_of_imp fun h => ?_
    rw [lookup_isSome_not_isEmpty h]
    rfl
  rw [hdrop, ofCidrs_lookup_false]
  simp only [mem_picked]

/-! ## The built set is a function of the addresses -/

lemma IpRangeSet.ofCidrs_congr {cidrs' : List Cidr}
    (h4 : cover (cidrs.filterMap range4) = cover (cidrs'.filterMap range4))
    (h6 : cover (cidrs.filterMap range6) = cover (cidrs'.filterMap range6)) :
    ofCidrs cidrs = ofCidrs cidrs' := by
  rw [ofCidrs, ofCidrs, mergeRanges_congr range4_proper range4_proper h4,
    mergeRanges_congr range6_proper range6_proper h6]

lemma compile_perm {entries' : List (Cidr × Bool)} (h : entries.Perm entries') :
    compile entries = compile entries' := by
  have hpick : ∀ inverted, (picked inverted entries).Perm (picked inverted entries') :=
    fun inverted => (h.filter _).map _
  rw [compile_eq, compile_eq]
  congr 1
  · exact ofCidrs_congr (cover_perm ((hpick false).filterMap _))
      (cover_perm ((hpick false).filterMap _))
  · exact ofCidrs_congr (cover_perm ((hpick true).filterMap _))
      (cover_perm ((hpick true).filterMap _))

/-- `lower` and `upper` are the halves of `cidr`: one prefix bit longer, of its
family, one starting where it starts and one stopping where it stops. -/
def Cidr.IsHalves (cidr lower upper : Cidr) : Prop :=
  lower.prefixLen = cidr.prefixLen + 1 ∧ upper.prefixLen = cidr.prefixLen + 1 ∧
    match cidr.network, lower.network, upper.network with
    | .v4 n, .v4 l, .v4 u =>
      (fromPrefix l lower.prefixLen).start = (fromPrefix n cidr.prefixLen).start ∧
        (fromPrefix u upper.prefixLen).stop = (fromPrefix n cidr.prefixLen).stop
    | .v6 n, .v6 l, .v6 u =>
      (fromPrefix l lower.prefixLen).start = (fromPrefix n cidr.prefixLen).start ∧
        (fromPrefix u upper.prefixLen).stop = (fromPrefix n cidr.prefixLen).stop
    | _, _, _ => False

/-- Trading a network for its halves moves no address, in either family. -/
lemma cover_halves (h : cidr.IsHalves lower upper) :
    cover cidr.range4.toList = cover (lower.range4.toList ++ upper.range4.toList) ∧
      cover cidr.range6.toList = cover (lower.range6.toList ++ upper.range6.toList) := by
  obtain ⟨hlo, hup, hrange⟩ := h
  have hfits := lower.fits
  simp only [range4, range6]
  generalize cidr.network = cn at hrange ⊢
  generalize lower.network = ln at hrange hfits ⊢
  generalize upper.network = un at hrange ⊢
  rw [hlo] at hrange hfits ⊢
  rw [hup] at hrange ⊢
  split at hrange
  · have hlt : cidr.prefixLen < 32 := hfits
    refine ⟨?_, by simp⟩
    ext a
    simp [mem_cover, fromPrefix_halves hlt hrange.1 hrange.2 a]
  · have hlt : cidr.prefixLen < 128 := hfits
    refine ⟨by simp, ?_⟩
    ext a
    simp [mem_cover, fromPrefix_halves hlt hrange.1 hrange.2 a]
  · exact absurd hrange id

lemma cover_append {rs ss : List (InclusiveRange w)} :
    cover (rs ++ ss) = cover rs ∪ cover ss := by
  ext a
  simp [mem_cover, or_and_right, exists_or]

lemma cover_picked_halves
    (h : cover (range cidr).toList = cover ((range lower).toList ++ (range upper).toList))
    (i : Bool) :
    cover ((picked i (before ++ (cidr, inverted) :: after)).filterMap range) =
      cover ((picked i (before ++ (lower, inverted) :: (upper, inverted) :: after)).filterMap
        range) := by
  have happ : ∀ es, (picked i (before ++ es)).filterMap range =
      (picked i before).filterMap range ++ (picked i es).filterMap range := by
    intro es
    rw [picked, filter_append, map_append, filterMap_append]
    rfl
  rw [cover_append] at h
  rw [happ, happ, filterMap_picked_cons, filterMap_picked_cons, filterMap_picked_cons]
  simp only [cover_append]
  by_cases hi : inverted = i
  · simp only [if_pos hi, h, Set.union_assoc]
  · simp only [if_neg hi, cover_nil, Set.empty_union]

lemma compile_halves (h : cidr.IsHalves lower upper) :
    compile (before ++ (cidr, inverted) :: after) =
      compile (before ++ (lower, inverted) :: (upper, inverted) :: after) := by
  obtain ⟨h4, h6⟩ := cover_halves h
  rw [compile_eq, compile_eq]
  congr 1 <;> exact ofCidrs_congr (cover_picked_halves h4 _) (cover_picked_halves h6 _)

lemma IpRangeSet.ofCidrs_separated (cidrs : List Cidr) :
    Separated (ofCidrs cidrs).ipv4 ∧ Separated (ofCidrs cidrs).ipv6 :=
  ⟨separated_mergeRanges range4_proper, separated_mergeRanges range6_proper⟩

/-- The matcher set a rule's entries compile to. It matches what the entries
say; its four range lists are sorted, disjoint and without adjacent ranges; and
it depends neither on the order of the entries nor on whether a network was
written whole or as its two halves. -/
theorem ipMatcherSet_means_its_cidrs (entries : List (Cidr × Bool)) :
    (∀ address, (compile entries).matches address = true ↔
      (∃ cidr, (cidr, false) ∈ entries ∧ cidr.contains address = true) ∨
        (∃ cidr, (cidr, true) ∈ entries ∧
            sameFamily cidr.network (canonicalizeIp address) = true) ∧
          ∀ cidr, (cidr, true) ∈ entries → cidr.contains address = false) ∧
    (∀ set ∈ [(compile entries).positive, (compile entries).inverse],
      Separated set.ipv4 ∧ Separated set.ipv6) ∧
    (∀ entries', entries.Perm entries' →
      compile entries = compile entries') ∧
    (∀ before after cidr lower upper inverted, cidr.IsHalves lower upper →
      entries = before ++ (cidr, inverted) :: after →
      compile entries = compile (before ++ (lower, inverted) :: (upper, inverted) :: after)) := by
  refine ⟨fun address => compile_matches_iff, ?_, fun entries' h => compile_perm h, ?_⟩
  · intro set hset
    rw [compile_eq] at hset
    rcases mem_pair.mp hset with rfl | rfl
    · exact ofCidrs_separated _
    · exact ofCidrs_separated _
  · intro before after cidr lower upper inverted hhalves hentries
    rw [hentries]
    exact compile_halves hhalves

/-- `10.0.0.0/8` and `!192.168.0.0/16`, written in the other order, and with
the first network as `10.0.0.0/9` and `10.128.0.0/9`. -/
theorem ipMatcherSet_private_pair : let ten : Cidr := ⟨.v4 0x0a000000#32, 8, rfl, by decide⟩
    let lower : Cidr := ⟨.v4 0x0a000000#32, 9, rfl, by decide⟩
    let upper : Cidr := ⟨.v4 0x0a800000#32, 9, rfl, by decide⟩
    let home : Cidr := ⟨.v4 0xc0a80000#32, 16, rfl, by decide⟩
    compile [(ten, false), (home, true)] =
        compile [(home, true), (ten, false)] ∧
      compile [(ten, false), (home, true)] =
        compile [(lower, false), (upper, false), (home, true)] := by
  intro ten lower upper home
  obtain ⟨-, -, hperm, hhalves⟩ := ipMatcherSet_means_its_cidrs [(ten, false), (home, true)]
  exact ⟨hperm _ (List.Perm.swap _ _ _),
    hhalves [] [(home, true)] ten lower upper false ⟨rfl, rfl, by decide, by decide⟩ rfl⟩

end Xray.Routing
