import TileBench.Tile.Fault

/-!
# Failures of a benchmark run

Why a benchmark does not come to a verdict: its dataset or its settings cannot be read, or a part of
the tile fails. A wrong result is no failure; it is a verdict.
-/

namespace TileBench

/-- Why a benchmark gives no report. -/
inductive Failure where
  /-- A token of a dataset is not what its place asks for. -/
  | parse (token : Nat) (reason : String)
  | truncated (expected found : Nat)
  /-- A dataset is larger than what there is room for. -/
  | tooLarge (size capacity : Nat)
  | config (reason : String)
  | unknownBenchmark (name : String)
  | tile (f : Tile.Fault)
  | accelerator (f : Accelerator.Fault)
  | io (reason : String)
  deriving DecidableEq, Repr

namespace Failure

def message : Failure → String
  | .parse token reason => s!"Dataset parse error at token {token}: {reason}"
  | .truncated expected found => s!"Dataset truncated: expected {expected} values, found {found}"
  | .tooLarge size capacity => s!"Dataset size {size} exceeds capacity {capacity}"
  | .config reason => s!"Configuration error: {reason}"
  | .unknownBenchmark name => s!"Unknown benchmark '{name}'"
  | .tile f => f.message
  | .accelerator f => f.message
  | .io reason => s!"I/O error: {reason}"

/-- What lies behind a failure, where its sentence reports something that failed by itself. -/
def cause? : Failure → Option String
  | .tile (.io reason) | .io reason => some reason
  | _ => none

end Failure

end TileBench
