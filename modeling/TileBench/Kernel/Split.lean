import TileBench.Kernel.Matrix
import TileBench.Kernel.Vector
import TileBench.Tile.Run
import TileBench.Work.Partition

/-!
# Kernels split over a tile

The places of the result of a kernel are cut into one piece per core, so that no two cores write to
one place. Each core reads the whole operands and stores into its piece, core 0 on the calling
thread.
-/

namespace TileBench.Kernel

/-- What a core does with its share of a result: the stores that it makes for its range of indices
into the places of its piece. -/
abbrev Work := Interval → List Nat → Except Panic (List Store)

/-- The job that makes some stores, or panics as the work on them does. -/
def storeJob (stores : Except Panic (List Store)) : Job Store :=
  match stores with
  | .ok stores => Job.values stores
  | .error p => Job.panic (.text p.message)

/-- The jobs of a kernel, one per range of a partition; the result has `size` elements, `stride` of
them per index. -/
def jobs (work : Work) (p : Partition) (size stride : Nat) : Except Panic (List (Job Store)) := do
  let pieces ← p.split (List.range size) stride
  return List.zipWith (fun places r => storeJob (work r places)) pieces p.ranges

/-- Computes a result on the cores of a tile, over `size` indices with `stride` elements each, and
gives the partition of the indices beside it. -/
def onTile (tile : Tile) (policy : Policy) (size stride : Nat) (dest : List Int32) (work : Work) :
    Checked (Except Tile.Fault (Partition × List Int32) × Tile) := do
  let p ← Partition.make size tile.cores policy
  let jobs ← jobs work p dest.length stride
  let ended ← tile.run {} fun scope => scope.forkJoin jobs
  -- A panic of core 0 unwinds the caller; one of a peer is reported by its join.
  match ended.result with
  | .error _ => throw .unwound
  | .ok outcome =>
    return (outcome.map fun _ => (p, makeAll ended.recorded.flatten dest), ended.tile)

/-- Adds two vectors on a tile, whose cores take runs of elements. -/
def addOnTile (tile : Tile) (policy : Policy) (dest xs ys : List Int32) :
    Checked (Except Tile.Fault (Partition × List Int32) × Tile) :=
  if xs.length = dest.length ∧ ys.length = dest.length then
    onTile tile policy dest.length 1 dest (addStores xs ys)
  else throw .lengthMismatch

/-- Multiplies two matrices on a tile, whose cores take whole rows. -/
def multiplyOnTile (tile : Tile) (policy : Policy) (n : Nat) (dest a b : List Int32) :
    Checked (Except Tile.Fault (Partition × List Int32) × Tile) := do
  let cells ← checkedMul n n
  if dest.length = cells ∧ a.length = cells ∧ b.length = cells then
    onTile tile policy n n dest (rowStores n a b)
  else throw .lengthMismatch

end TileBench.Kernel
