import Mathlib.Algebra.Order.Ring.Nat
import Mathlib.Data.List.Sort

/-!
# Records of the system's resolver (`xray-transport/src/system_records.rs`)

SRV records in the order in which they are tried. `none` is a panic: a sum beyond a `u32`, a
difference below zero, or an index beyond the slice.
-/

namespace Xray.Dns

structure SrvRecord where
  target : String
  port : UInt16
  priority : UInt16
  weight : UInt16
deriving DecidableEq

namespace SrvRecord

/-- The order of `(record.priority, record.weight)`. -/
def keyLe (a b : SrvRecord) : Bool :=
  a.priority < b.priority || (a.priority == b.priority && a.weight ≤ b.weight)

end SrvRecord

def addU32 (a b : Nat) : Option Nat := if a + b < 2 ^ 32 then some (a + b) else none

def subU32 (a b : Nat) : Option Nat := if b ≤ a then some (a - b) else none

def sumOfWeights (records : List SrvRecord) : Option Nat :=
  records.foldlM (fun sum record => addU32 sum record.weight.toNat) 0

/-- The index of the first record at which the running weight exceeds `pick`. -/
def firstAbove (pick : Nat) : Nat → List SrvRecord → Option (Option Nat)
  | _, [] => some none
  | running, record :: records => do
    let running ← addU32 running record.weight.toNat
    if running > pick then
      return some 0
    else
      let index ← firstAbove pick running records
      return index.map (· + 1)

def swapFirst (records : List SrvRecord) (index : Nat) : Option (List SrvRecord) := do
  let first ← records[0]?
  let other ← records[index]?
  return (records.set 0 other).set index first

variable {σ : Type} (draw : σ → Nat → Nat × σ)

/-- The loop of `shuffle_by_weight`, for at most `n` rounds. -/
def shuffleLoop : Nat → σ → Nat → List SrvRecord → Option (List SrvRecord × σ)
  | n, state, sum, records =>
    if sum > 0 ∧ records.length > 1 then
      match n with
      | 0 => none
      | n + 1 => do
        let (pick, state) := draw state sum
        let records ← match ← firstAbove pick 0 records with
          | some index => swapFirst records index
          | none => some records
        let first ← records[0]?
        let sum ← subU32 sum first.weight.toNat
        let (rest, state) ← shuffleLoop n state sum records.tail
        return (first :: rest, state)
    else some (records, state)

def shuffleByWeight (state : σ) (records : List SrvRecord) : Option (List SrvRecord × σ) := do
  let sum ← sumOfWeights records
  shuffleLoop draw records.length state sum records

/-- The loop of `sort_by_priority_weight`, for at most `n` rounds. -/
def sortLoop : Nat → σ → List SrvRecord → Option (List SrvRecord × σ)
  | _, state, [] => some ([], state)
  | 0, _, _ :: _ => none
  | n + 1, state, first :: records => do
    let same := fun record : SrvRecord => record.priority == first.priority
    let (group, state) ← shuffleByWeight draw state ((first :: records).takeWhile same)
    let (rest, state) ← sortLoop n state ((first :: records).dropWhile same)
    return (group ++ rest, state)

/-- `sort_by_priority_weight`; `draw` gives a number for a sum, and its own next state. -/
def sortByPriorityWeight (state : σ) (records : List SrvRecord) : Option (List SrvRecord × σ) :=
  sortLoop draw records.length state (records.mergeSort SrvRecord.keyLe)

end Xray.Dns
