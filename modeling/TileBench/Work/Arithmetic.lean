import TileBench.Work.Partition

/-!
# Partitions in the arithmetic of a core

A core has sizes of 64 bits. `Partition.compute` works out a partition as a core does, with every
product, sum, difference and shift checked: the even ranges start at multiples of the block, and the
balanced ones at an offset that runs along with them.
-/

namespace TileBench.Partition

/-- The range of core `i` under the even split. -/
def computeTail (size cores block i : Nat) : Except Panic Interval := do
  let start ← checkedMul i block
  let last ← checkedSub cores 1
  if i = last then return ⟨start, size⟩
  else return ⟨start, ← checkedAdd start block⟩

/-- The ranges of the given cores under the balanced split, the first of which starts at `current`.
The cores from `first` on take one index more. -/
def computeBalanced (block first : Nat) : Nat → List Nat → Except Panic (List Interval)
  | _, [] => return []
  | current, i :: cores => do
    let stop ← checkedAdd (← checkedAdd current block) (if first ≤ i then 1 else 0)
    let rest ← computeBalanced block first stop cores
    return ⟨current, stop⟩ :: rest

/-- The ranges of `cores` cores, where `shift` divides by their number. -/
def computeRanges (size cores shift : Nat) (policy : Policy) : Except Panic (List Interval) := do
  let block ← checkedShiftRight size shift
  match policy with
  | .tail => (List.range cores).mapM (computeTail size cores block)
  | .balanced =>
    let remainder ← checkedSub size (← checkedShiftLeft block shift)
    let first ← checkedSub cores remainder
    computeBalanced block first 0 (List.range cores)

/-- The partition of `[0, size)` over `max cores 1` cores. -/
def compute (size cores : Nat) (policy : Policy) : Except Panic Partition :=
  let n := max cores 1
  match CoreCount.shift? n, policy.supports cores with
  | some shift, true => do
    let ranges ← computeRanges size n shift policy
    return ⟨policy, ranges, false⟩
  | _, _ => do
    let others ← checkedSub n 1
    return ⟨policy, ⟨0, size⟩ :: List.replicate others ⟨size, size⟩, true⟩

end TileBench.Partition
