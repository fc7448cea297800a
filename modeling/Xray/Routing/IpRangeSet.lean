import Xray.Lib.Spans
import Mathlib.Data.BitVec

/-!
# IP range sets (`xray-routing/src/ip_range_set.rs`)

One sorted, merged list of ranges per address family. The ranges are closed
spans of `BitVec 32` and `BitVec 128`, the widths of the source's two
`AddressBits` instances, so nothing here is per-family: `mergeRanges` and
`rangesContain` are written once at any width, as the source writes them once
for any `T: AddressBits`.

The merge works on the vector in place, with a read and a write index, and is
modelled that way. `partitionPoint` and the sort stand for the standard
library's, by their documented results.
-/

namespace Xray.Routing

open Spans

/-- `std::net::IpAddr`, the address as its big-endian number. -/
inductive IpAddr where
  | v4 (bits : BitVec 32)
  | v6 (bits : BitVec 128)
deriving DecidableEq

/-- `Ipv6Addr::to_ipv4_mapped`: the low 32 bits of an `::ffff:a.b.c.d`. -/
def toIpv4Mapped (address : BitVec 128) : Option (BitVec 32) :=
  if address >>> 32 = 0xffff#128 then some (address.setWidth 32) else none

def canonicalizeIp : IpAddr → IpAddr
  | .v6 address =>
    match toIpv4Mapped address with
    | some mapped => .v4 mapped
    | none => .v6 address
  | .v4 address => .v4 address

def familyWidth : IpAddr → Nat
  | .v4 _ => 32
  | .v6 _ => 128

def sameFamily (a b : IpAddr) : Bool := familyWidth a == familyWidth b

structure InvalidCidrPrefix where
  address : IpAddr
  prefixLen : Nat
  maxPrefix : Nat
deriving DecidableEq

/-- A validated `network/prefix_len`. The source keeps both fields private; the two proofs are what
its constructors check. -/
structure Cidr where
  network : IpAddr
  prefixLen : Nat
  canonical : canonicalizeIp network = network
  fits : prefixLen ≤ familyWidth network

lemma canonicalizeIp_idem (address : IpAddr) :
    canonicalizeIp (canonicalizeIp address) = canonicalizeIp address := by
  cases address with
  | v4 a => rfl
  | v6 a =>
    simp only [canonicalizeIp]
    cases h : toIpv4Mapped a with
    | none => simp only [h]
    | some m => rfl

def Cidr.new (network : IpAddr) (prefixLen : Nat) : Except InvalidCidrPrefix Cidr :=
  let maxPrefix := familyWidth (canonicalizeIp network)
  if h : prefixLen > maxPrefix then
    .error ⟨canonicalizeIp network, prefixLen, maxPrefix⟩
  else
    .ok ⟨canonicalizeIp network, prefixLen, canonicalizeIp_idem network, Nat.le_of_not_gt h⟩

section AddressBits

variable {w : Nat}

instance bitVecLinearOrder : LinearOrder (BitVec w) where
  le_refl := BitVec.le_refl
  le_trans _ _ _ := BitVec.le_trans
  le_antisymm _ _ := BitVec.le_antisymm
  le_total := BitVec.le_total
  lt_iff_le_not_ge a b := by simp only [BitVec.lt_def, BitVec.le_def]; omega
  toDecidableLE := inferInstance
  toDecidableLT := inferInstance
  toDecidableEq := inferInstance

def prefixMask (w prefixLen : Nat) : BitVec w :=
  if prefixLen = 0 then 0#w else BitVec.allOnes w <<< (w - prefixLen)

def saturatingSuccessor (a : BitVec w) : BitVec w :=
  if a = BitVec.allOnes w then a else a + 1#w

lemma toNat_saturatingSuccessor (a : BitVec w) :
    (saturatingSuccessor a).toNat = min (a.toNat + 1) (2 ^ w - 1) := by
  have hlt := a.isLt
  rw [saturatingSuccessor]
  split
  · rename_i h
    rw [h, BitVec.toNat_allOnes]
    omega
  rename_i h
  have hne : a.toNat ≠ 2 ^ w - 1 := fun hn =>
    h (BitVec.eq_of_toNat_eq (by rw [BitVec.toNat_allOnes, hn]))
  rw [BitVec.toNat_add, BitVec.toNat_ofNat]
  rcases Nat.eq_zero_or_pos w with rfl | hw
  · omega
  · have h1 : 1 % 2 ^ w = 1 := Nat.mod_eq_of_lt (Nat.one_lt_two_pow (by omega))
    rw [h1, Nat.mod_eq_of_lt (by omega)]
    omega

/-- The saturating successor is the order's successor: the greatest address
is its own, every other address is followed at once by its successor. -/
instance bitVecSuccOrder : SuccOrder (BitVec w) where
  succ := saturatingSuccessor
  le_succ a := by
    have := a.isLt
    rw [BitVec.le_def, toNat_saturatingSuccessor]
    omega
  max_of_succ_le {a} h := by
    intro b _
    have := b.isLt
    rw [BitVec.le_def, toNat_saturatingSuccessor] at h
    rw [BitVec.le_def]
    omega
  succ_le_of_lt {a b} h := by
    have := b.isLt
    rw [BitVec.lt_def] at h
    rw [BitVec.le_def, toNat_saturatingSuccessor]
    omega

/-- `InclusiveRange<T>`; `stop` is the source's `end`. -/
abbrev InclusiveRange (w : Nat) := Span (BitVec w)

instance : Inhabited (InclusiveRange w) := ⟨⟨0#w, 0#w⟩⟩

def fromPrefix (network : BitVec w) (prefixLen : Nat) : InclusiveRange w :=
  let mask := prefixMask w prefixLen
  let start := network &&& mask
  ⟨start, start ||| ~~~mask⟩

/-- The key of the sort: `(range.start, range.end)`. -/
def keyLe (r s : InclusiveRange w) : Bool :=
  decide (r.start < s.start) || (decide (r.start = s.start) && decide (r.stop ≤ s.stop))

/-- One round of `merge_ranges`: the vector, and how much of its front is
output already. -/
def mergeRead (st : List (InclusiveRange w) × Nat) (read : Nat) :
    List (InclusiveRange w) × Nat :=
  let ranges := st.1
  let write := st.2
  let current := ranges[read]!
  if write > 0 ∧ current.start ≤ saturatingSuccessor ranges[write - 1]!.stop then
    (ranges.modify (write - 1) fun last => { last with stop := max last.stop current.stop },
      write)
  else
    (ranges.set write current, write + 1)

def mergeRanges (ranges : List (InclusiveRange w)) : List (InclusiveRange w) :=
  let sorted := ranges.mergeSort keyLe
  let merged := (List.range sorted.length).foldl mergeRead (sorted, 0)
  merged.1.take merged.2

/-- `slice::partition_point`: the length of the leading run that satisfies
the predicate. -/
def partitionPoint {α : Type} (p : α → Bool) (xs : List α) : Nat :=
  (xs.takeWhile p).length

/-- `ranges_contain`, with its one-range fast path. -/
def rangesContain (ranges : List (InclusiveRange w)) (address : BitVec w) : Bool :=
  match ranges with
  | [range] => range.contains address
  | _ =>
    let insertion := partitionPoint (fun range => decide (range.start ≤ address)) ranges
    decide (insertion > 0) && decide (address ≤ ranges[insertion - 1]!.stop)

end AddressBits

def Cidr.contains (cidr : Cidr) (address : IpAddr) : Bool :=
  match cidr.network, canonicalizeIp address with
  | .v4 network, .v4 address => (fromPrefix network cidr.prefixLen).contains address
  | .v6 network, .v6 address => (fromPrefix network cidr.prefixLen).contains address
  | .v4 _, .v6 _ | .v6 _, .v4 _ => false

structure IpRangeSet where
  ipv4 : List (InclusiveRange 32)
  ipv6 : List (InclusiveRange 128)
deriving DecidableEq

namespace IpRangeSet

def isEmpty (set : IpRangeSet) : Bool := set.ipv4.isEmpty && set.ipv6.isEmpty

/-- `None` for an address whose family has no ranges at all. -/
def lookup (set : IpRangeSet) (address : IpAddr) : Option Bool :=
  match canonicalizeIp address with
  | .v4 address =>
    if !set.ipv4.isEmpty then some (rangesContain set.ipv4 address) else none
  | .v6 address =>
    if !set.ipv6.isEmpty then some (rangesContain set.ipv6 address) else none

def contains (set : IpRangeSet) (address : IpAddr) : Bool :=
  match canonicalizeIp address with
  | .v4 address => rangesContain set.ipv4 address
  | .v6 address => rangesContain set.ipv6 address

end IpRangeSet

structure IpRangeSetBuilder where
  ipv4 : List (InclusiveRange 32) := []
  ipv6 : List (InclusiveRange 128) := []

namespace IpRangeSetBuilder

def insertCidr (builder : IpRangeSetBuilder) (cidr : Cidr) : IpRangeSetBuilder :=
  match cidr.network with
  | .v4 network =>
    { builder with ipv4 := builder.ipv4 ++ [fromPrefix network cidr.prefixLen] }
  | .v6 network =>
    { builder with ipv6 := builder.ipv6 ++ [fromPrefix network cidr.prefixLen] }

def build (builder : IpRangeSetBuilder) : IpRangeSet :=
  ⟨mergeRanges builder.ipv4, mergeRanges builder.ipv6⟩

end IpRangeSetBuilder

structure IpMatcherSet where
  positive : IpRangeSet
  inverse : IpRangeSet
deriving DecidableEq

namespace IpMatcherSet

def «matches» (set : IpMatcherSet) (address : IpAddr) : Bool :=
  set.positive.contains address ||
    (!set.inverse.isEmpty && set.inverse.lookup address == some false)

end IpMatcherSet

structure IpMatcherSetBuilder where
  positive : IpRangeSetBuilder := {}
  inverse : IpRangeSetBuilder := {}
  matcherCount : Nat := 0

namespace IpMatcherSetBuilder

def insertCidr (builder : IpMatcherSetBuilder) (cidr : Cidr) (inverted : Bool) :
    IpMatcherSetBuilder :=
  let builder :=
    if inverted then { builder with inverse := builder.inverse.insertCidr cidr }
    else { builder with positive := builder.positive.insertCidr cidr }
  { builder with matcherCount := builder.matcherCount + 1 }

def build (builder : IpMatcherSetBuilder) : IpMatcherSet :=
  ⟨builder.positive.build, builder.inverse.build⟩

/-- A rule's entries inserted one after the other, and the set built. -/
def compile (entries : List (Cidr × Bool)) : IpMatcherSet :=
  (entries.foldl (fun (builder : IpMatcherSetBuilder) entry =>
    builder.insertCidr entry.1 entry.2) {}).build

end IpMatcherSetBuilder

end Xray.Routing
