/-!
# Core counts

A tile is built with a power of two of at most 64 identical cores. `shift?` gives the exponent, by
which a division by the number of cores becomes a shift.
-/

namespace TileBench

/-- The index of a core; which indices exist is up to the tile. -/
abbrev Core := Nat

def Core.name (c : Core) : String :=
  s!"core{c}"

/-- The core that runs the main program and hands out work. -/
def orchestrator : Core := 0

namespace CoreCount

/-- The core counts that a tile may have. -/
def supported : List Nat := [1, 2, 4, 8, 16, 32, 64]

/-- The largest of the supported core counts. -/
def greatest : Nat := 64

/-- The core counts over which one-dimensional work is divided by an even split. -/
def evenSplit : List Nat := [2, 4, 8, 16]

def isSupported (n : Nat) : Bool :=
  decide (n ∈ supported)

/-- The exponent of a supported core count. -/
def shift? (n : Nat) : Option Nat :=
  if isSupported n then some n.log2 else none

/-- The supported core counts are those that a shift divides by. -/
theorem isSome_shift? (n : Nat) : (shift? n).isSome = isSupported n := by
  by_cases h : isSupported n = true <;> simp [shift?, h]

/-- The shift of a core count is its exponent as a power of two. -/
theorem one_shiftLeft_of_shift? {n s : Nat} (h : shift? n = some s) : 1 <<< s = n := by
  by_cases hn : isSupported n = true
  · simp only [shift?, hn, if_true, Option.some.injEq] at h
    simp only [isSupported, supported, decide_eq_true_eq, List.mem_cons, List.not_mem_nil,
      or_false] at hn
    subst h
    rcases hn with rfl | rfl | rfl | rfl | rfl | rfl | rfl <;> decide
  · simp [shift?, hn] at h

end CoreCount

end TileBench
