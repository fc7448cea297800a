import Xray.Lib.Ascii
import Xray.Proofs.IpRangeSet
import Mathlib.Data.List.AList
import Mathlib.Data.List.Destutter
import Mathlib.Data.Finset.Max
import Mathlib.Data.Prod.Lex

/-!
# The fake-IP mapper (`xray-core-rs/src/fake_dns.rs`)

Names are mapped to addresses of a synthetic IPv4 pool, each mapping leased for
the TTL that was advertised with it. The source keeps four views of the
mappings: the slots (`entries`), a slot index by name, one by address, and the
leases ordered by the time they end. They are four fields here too, updated by
the same statements in the same order; that they agree is a theorem.

The part `from_config` computes once and nobody changes afterwards is a
structure of its own, `FakeIpPool`, which carries what `from_config` checked.

An `Instant` counts nanoseconds on the clock, and `latest` is the last one the
platform can represent, where `checked_add` gives up. The hash maps are
association lists, the B-tree set is a finite set under the lexicographic order,
and an update that stops half-way returns the state it had reached.
-/

namespace Xray.Dns

open Ascii
open Xray.Routing (Cidr IpAddr prefixMask partitionPoint fromPrefix)

abbrev Ipv4Addr := BitVec 32

abbrev Instant := Nat

def fromSecs (secs : Nat) : Nat := 1000000000 * secs

def Instant.checkedAdd (latest now duration : Nat) : Option Instant :=
  if now + duration ≤ latest then some (now + duration) else none

def checkedSub (ip base : Ipv4Addr) : Option Nat :=
  if base ≤ ip then some (ip.toNat - base.toNat) else none

/-- `base.checked_add(u32::try_from(offset).ok()?)`: an offset that does not fit
in 32 bits overflows the sum as well. -/
def checkedAdd (base : Ipv4Addr) (offset : Nat) : Option Ipv4Addr :=
  if base.toNat + offset < 2 ^ 32 then some (BitVec.ofNat 32 (base.toNat + offset)) else none

/-- `binary_search(x).is_ok()`. On a sorted slice the search succeeds when the
element at the partition point is the one sought. -/
def binarySearch (xs : List Ipv4Addr) (x : Ipv4Addr) : Bool :=
  xs[partitionPoint (fun y => decide (y < x)) xs]? == some x

/-- The offset of an address in the pool is one that may be allocated. -/
def inAllocationRange (networkBase : Ipv4Addr) (firstOffset allocationSpan : Nat)
    (ip : Ipv4Addr) : Bool :=
  match checkedSub ip networkBase with
  | some offset => decide (firstOffset ≤ offset) && decide (offset < firstOffset + allocationSpan)
  | none => false

structure DnsFakeIpConfig where
  enabled : Bool
  ipv4Pool : Cidr
  poolSize : Nat
  ttl : Nat

/-- What `from_config` fixes, and what it has checked: the block ends inside the
address space, the first and last address of a block of more than two are left
out, and there is room for every mapping beside the reserved addresses. -/
structure FakeIpPool where
  ttl : Nat
  networkBase : Ipv4Addr
  addressCount : Nat
  firstOffset : Nat
  allocationSpan : Nat
  maxMappings : Nat
  reservedIpv4 : List Ipv4Addr
  fits : networkBase.toNat + addressCount ≤ 2 ^ 32
  offsets : firstOffset = (if addressCount > 2 then 1 else 0) ∧
    allocationSpan = if addressCount > 2 then addressCount - 2 else addressCount
  spanPos : 0 < allocationSpan
  sorted : reservedIpv4.Pairwise (· < ·)
  room : maxMappings ≤ allocationSpan -
    (reservedIpv4.filter (inAllocationRange networkBase firstOffset allocationSpan)).length

structure FakeIpEntry where
  domain : Str
  ip : Ipv4Addr
  reusableAfter : Instant
deriving DecidableEq

structure FakeIpMapper where
  pool : FakeIpPool
  nextOffset : Nat
  entries : List (Option FakeIpEntry)
  leaseIndex : Finset (Instant × Nat)
  byDomain : AList (fun _ : Str => Nat)
  byIpv4 : AList (fun _ : Ipv4Addr => Nat)

inductive FakeIpLookup where
  | mapped (domain : Str)
  | inPoolUnmapped
  | outside
deriving DecidableEq

/-- `sort_unstable` and `dedup`, which drops an element equal to the one kept
before it. -/
def sortDedup (ips : List Ipv4Addr) : List Ipv4Addr :=
  (ips.mergeSort fun a b => decide (a ≤ b)).destutter (· ≠ ·)

lemma sortDedup_eq (ips : List Ipv4Addr) :
    sortDedup ips = (ips.mergeSort fun a b => decide (a ≤ b)).dedup :=
  (List.pairwise_mergeSort' (· ≤ ·) ips).destutter_eq_dedup

lemma mem_sortDedup {ips : List Ipv4Addr} {ip : Ipv4Addr} : ip ∈ sortDedup ips ↔ ip ∈ ips := by
  rw [sortDedup_eq, List.mem_dedup, List.mem_mergeSort]

lemma sortDedup_sorted (ips : List Ipv4Addr) : (sortDedup ips).Pairwise (· < ·) := by
  rw [sortDedup_eq]
  have hle := (List.pairwise_mergeSort' (· ≤ ·) ips).sublist (List.dedup_sublist _)
  exact (hle.and (List.nodup_dedup _)).imp fun hab => lt_of_le_of_ne hab.1 hab.2

/-- The last checks of `from_config_with_start`, from the block's numbers on. -/
def FakeIpMapper.ofBlock (config : DnsFakeIpConfig) (reserved : List Ipv4Addr) (start : Nat)
    (networkBase : Ipv4Addr) (addressCount : Nat)
    (fits : networkBase.toNat + addressCount ≤ 2 ^ 32) : Option FakeIpMapper :=
  let firstOffset := if addressCount > 2 then 1 else 0
  let allocationSpan := if addressCount > 2 then addressCount - 2 else addressCount
  if hspan : allocationSpan = 0 then none
  else
    let reservedIpv4 := sortDedup reserved
    let reservedAddressCount :=
      (reservedIpv4.filter (inAllocationRange networkBase firstOffset allocationSpan)).length
    if hroom : config.poolSize = 0 ∨ config.poolSize > allocationSpan - reservedAddressCount then
      none
    else
      some
        { pool :=
            { ttl := config.ttl, networkBase, addressCount, firstOffset, allocationSpan,
              maxMappings := config.poolSize, reservedIpv4, fits
              offsets := ⟨rfl, rfl⟩
              spanPos := Nat.pos_of_ne_zero hspan
              sorted := sortDedup_sorted reserved
              room := Nat.le_of_not_lt fun h => hroom (.inr h) }
          nextOffset := start % allocationSpan
          entries := []
          leaseIndex := ∅
          byDomain := ∅
          byIpv4 := ∅ }

/-- `from_config_with_start`; `from_config` passes a random `start`. A `Cidr` of
the IPv4 family has a prefix of at most 32, which the source checks again. -/
def FakeIpMapper.fromConfigWithStart (config : DnsFakeIpConfig) (reserved : List Ipv4Addr)
    (start : Nat) : Option FakeIpMapper :=
  if !config.enabled || config.ttl == 0 then none
  else
    match config.ipv4Pool.network with
    | .v6 _ => none
    | .v4 network =>
      if config.ipv4Pool.prefixLen > 32 then none
      else
        ofBlock config reserved start (network &&& prefixMask 32 config.ipv4Pool.prefixLen)
          (2 ^ (32 - config.ipv4Pool.prefixLen))
          (Xray.Routing.fromPrefix_block_le network config.ipv4Pool.prefixLen)

def normalizeDnsDomain (domain : Str) : Option Str :=
  let domain := lower (trimEnd dot domain)
  if domain.isEmpty then none else some domain

/-- `BTreeSet::first`: the least lease, by its end and then by its slot. -/
def first (leases : Finset (Instant × Nat)) : Option (Instant × Nat) :=
  if h : (leases.map toLex.toEmbedding).Nonempty then
    some (ofLex ((leases.map toLex.toEmbedding).min' h))
  else none

namespace FakeIpMapper

/-- The loop of `next_available_ipv4`, `n` rounds to go. -/
def nextAvailableFrom : Nat → FakeIpMapper → Option Ipv4Addr × FakeIpMapper
  | 0, mapper => (none, mapper)
  | n + 1, mapper =>
    let pool := mapper.pool
    let offset := pool.firstOffset + mapper.nextOffset % pool.allocationSpan
    let mapper :=
      { mapper with nextOffset := (mapper.nextOffset + 1) % pool.allocationSpan }
    match checkedAdd pool.networkBase offset with
    | none => (none, mapper)
    | some ip =>
      if binarySearch pool.reservedIpv4 ip then nextAvailableFrom n mapper
      else if (mapper.byIpv4.lookup ip).isNone then (some ip, mapper)
      else nextAvailableFrom n mapper

def nextAvailableIpv4 (mapper : FakeIpMapper) : Option Ipv4Addr × FakeIpMapper :=
  nextAvailableFrom mapper.pool.allocationSpan mapper

def insertMapping (mapper : FakeIpMapper) (slot : Nat) (domain : Str) (ip : Ipv4Addr)
    (reusableAfter : Instant) : Option Unit × FakeIpMapper :=
  if slot > mapper.entries.length then (none, mapper)
  else
    let entry : FakeIpEntry := ⟨domain, ip, reusableAfter⟩
    let entries :=
      if slot = mapper.entries.length then mapper.entries ++ [some entry]
      else mapper.entries.set slot (some entry)
    let lease := (reusableAfter, slot)
    (if lease ∈ mapper.leaseIndex then none else some (), { mapper with
        entries
        byDomain := mapper.byDomain.insert domain slot
        byIpv4 := mapper.byIpv4.insert ip slot
        leaseIndex := insert lease mapper.leaseIndex })

def removeEarliestExpired (mapper : FakeIpMapper) (now : Instant) :
    Option (Nat × Ipv4Addr) × FakeIpMapper :=
  match first mapper.leaseIndex with
  | none => (none, mapper)
  | some (reusableAfter, slot) =>
    if reusableAfter > now then (none, mapper)
    else
      let mapper := { mapper with leaseIndex := mapper.leaseIndex.erase (reusableAfter, slot) }
      match mapper.entries[slot]? with
      | some (some entry) =>
        (some (slot, entry.ip), { mapper with
            entries := mapper.entries.set slot none
            byDomain := mapper.byDomain.erase entry.domain
            byIpv4 := mapper.byIpv4.erase entry.ip })
      | _ => (none, mapper)

/-- Insert the mapping and return its address, as both ends of
`allocate_ipv4_at` do. -/
def grant (mapper : FakeIpMapper) (slot : Nat) (domain : Str) (ip : Ipv4Addr)
    (reusableAfter : Instant) : Option Ipv4Addr × FakeIpMapper :=
  match mapper.insertMapping slot domain ip reusableAfter with
  | (none, mapper) => (none, mapper)
  | (some (), mapper) => (some ip, mapper)

def allocateIpv4At (latest : Instant) (mapper : FakeIpMapper) (domain : Str) (now : Instant) :
    Option Ipv4Addr × FakeIpMapper :=
  match normalizeDnsDomain domain with
  | none => (none, mapper)
  | some domain =>
  match Instant.checkedAdd latest now (fromSecs mapper.pool.ttl) with
  | none => (none, mapper)
  | some reusableAfter =>
  match mapper.byDomain.lookup domain with
  | some slot =>
    match mapper.entries[slot]? with
    | some (some entry) =>
      (some entry.ip, { mapper with
          entries := mapper.entries.set slot (some { entry with reusableAfter })
          leaseIndex := insert (reusableAfter, slot)
            (mapper.leaseIndex.erase (entry.reusableAfter, slot)) })
    | _ => (none, mapper)
  | none =>
    if mapper.byDomain.keys.length ≥ mapper.pool.maxMappings then
      match mapper.removeEarliestExpired now with
      | (none, mapper) => (none, mapper)
      | (some (slot, ip), mapper) => mapper.grant slot domain ip reusableAfter
    else
      let slot := mapper.entries.length
      match mapper.nextAvailableIpv4 with
      | (none, mapper) => (none, mapper)
      | (some ip, mapper) => mapper.grant slot domain ip reusableAfter

def domainForIpv4 (mapper : FakeIpMapper) (ip : Ipv4Addr) : Option Str := do
  let slot ← mapper.byIpv4.lookup ip
  let entry ← mapper.entries[slot]?.join
  return entry.domain

def containsIpv4 (mapper : FakeIpMapper) (ip : Ipv4Addr) : Bool :=
  match checkedSub ip mapper.pool.networkBase with
  | some offset => decide (offset < mapper.pool.addressCount)
  | none => false

def lookupIpv4 (mapper : FakeIpMapper) (ip : Ipv4Addr) : FakeIpLookup :=
  match mapper.domainForIpv4 ip with
  | some domain => .mapped domain
  | none => if mapper.containsIpv4 ip then .inPoolUnmapped else .outside

end FakeIpMapper

inductive Call where
  | allocate (domain : Str) (now : Instant)
  | lookup (ip : Ipv4Addr)
deriving DecidableEq

/-- The time a call is made at; a lookup reads no clock. -/
def Call.now? : Call → Option Instant
  | .allocate _ now => some now
  | .lookup _ => none

/-- The mapper after a call. A reverse lookup extends no lease and changes
nothing. -/
def FakeIpMapper.step (latest : Instant) (mapper : FakeIpMapper) : Call → FakeIpMapper
  | .allocate domain now => (mapper.allocateIpv4At latest domain now).2
  | .lookup _ => mapper

def FakeIpMapper.run (latest : Instant) (mapper : FakeIpMapper) (calls : List Call) :
    FakeIpMapper :=
  calls.foldl (step latest) mapper

end Xray.Dns
