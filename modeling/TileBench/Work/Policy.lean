import TileBench.Tile.CoreCount

/-!
# Policies for dividing work

An even division leaves a remainder. The policy says which cores take it, and over how many cores
work is divided at all.
-/

namespace TileBench

/-- Who takes what is left over after an even division. -/
inductive Policy where
  /-- The last core takes the whole remainder. -/
  | tail
  /-- The last cores take one index more each. -/
  | balanced
  deriving DecidableEq, Repr

namespace Policy

def all : List Policy := [.tail, .balanced]

def name : Policy → String
  | .tail => "tail"
  | .balanced => "balanced"

/-- Reads the short or the long name of a policy. -/
def ofName? : String → Option Policy
  | "tail" | "even-split-with-tail" => some .tail
  | "balanced" | "balanced-remainder" => some .balanced
  | _ => none

def unknown (name : String) : String :=
  s!"unknown partition policy '{name}' (tail | balanced)"

/-- Whether a policy divides work over `cores` cores. -/
def supports : Policy → Nat → Bool
  | .tail, cores => decide (cores = 1 ∨ cores ∈ CoreCount.evenSplit)
  | .balanced, cores => CoreCount.isSupported cores

end Policy

end TileBench
