import TileBench.Event
import TileBench.Panic
import TileBench.Work.Policy
import TileBench.Work.Interval

/-!
# Partitions

A partition cuts the domain `[0, size)` into one range per core. Where the policy does not divide
work over the number of cores, core 0 takes the whole domain and every other core an empty range at
its end. `Partition.split` cuts an array the same way.
-/

namespace TileBench

/-- The ranges of a domain, one per core, and how they came about. -/
structure Partition where
  policy : Policy
  ranges : List Interval
  fallback : Bool
  deriving DecidableEq, Repr

namespace Partition

/-- Equal ranges for all cores but the last, which runs to the end of the domain. -/
def tailRanges (size cores block : Nat) : List Interval :=
  (List.range cores).map fun i =>
    ⟨i * block, if i + 1 = cores then size else i * block + block⟩

/-- Ranges of `block` indices, and of one more from core `cores - remainder` on. -/
def balancedRanges (cores block remainder : Nat) : List Interval :=
  Interval.consecutive 0 <| (List.range cores).map fun i =>
    block + if cores - remainder ≤ i then 1 else 0

/-- The whole domain for core 0 and empty ranges at its end for the others. -/
def singleRanges (size cores : Nat) : List Interval :=
  ⟨0, size⟩ :: List.replicate (cores - 1) ⟨size, size⟩

/-- The partition of `[0, size)` over `max cores 1` cores. -/
def of (size cores : Nat) (policy : Policy) : Partition :=
  let n := max cores 1
  match CoreCount.shift? n, policy.supports cores with
  | some shift, true =>
    -- `n` is a power of two, so that the shift divides by it.
    let block := size >>> shift
    match policy with
    | .tail => ⟨policy, tailRanges size n block, false⟩
    | .balanced => ⟨policy, balancedRanges n block (size - block <<< shift), false⟩
  | _, _ => ⟨policy, singleRanges size n, true⟩

/-- Partitions a domain and warns where only one core will work. -/
def make (size cores : Nat) (policy : Policy) : Logged Partition := do
  let p := of size cores policy
  if p.fallback then
    Logged.warn s!"{policy.name} partition does not split across {cores} cores; core 0 takes all {size} elements"
  return p

/-- The number of indices that a partition covers. -/
def size (p : Partition) : Nat :=
  p.ranges.getLast?.elim 0 Interval.stop

/-- The range of a core, if the core is part of the partition. -/
def range? (p : Partition) (c : Core) : Option Interval :=
  p.ranges[c]?

/-- The difference between the sizes of the longest and of the shortest range. -/
def imbalance (p : Partition) : Nat :=
  let sizes := p.ranges.map Interval.size
  sizes.max?.getD 0 - sizes.min?.getD 0

/-- The ranges in core order, with blanks between them. -/
def text (p : Partition) : String :=
  " ".intercalate (p.ranges.map Interval.text)

/-- Cuts pieces of the given lengths off a list, one after another. -/
def pieces {α : Type} : List Nat → List α → List (List α)
  | [], _ => []
  | n :: ns, xs => xs.take n :: pieces ns (xs.drop n)

/-- Cuts the pieces of ranges with `stride` elements per index off a list, one after another. A
piece is as long as its range says, wherever that starts; it panics where the list has too few
elements left. -/
def cut {α : Type} (stride : Nat) : List Interval → List α → Except Panic (List (List α))
  | [], _ => return []
  | r :: rs, rest => do
    let count ← checkedMul (← checkedSub r.stop r.start) stride
    if count ≤ rest.length then
      return rest.take count :: (← cut stride rs (rest.drop count))
    else
      throw .indexOutOfRange

/-- Cuts an array with `stride` elements per index of the domain into one piece per core. It panics
unless the array has exactly that many elements. -/
def split {α : Type} (p : Partition) (data : List α) (stride : Nat) :
    Except Panic (List (List α)) := do
  let expected ← checkedMul p.size stride
  if data.length = expected then
    cut stride p.ranges data
  else
    throw .lengthMismatch

end Partition

end TileBench
