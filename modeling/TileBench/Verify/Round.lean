import TileBench.Verify.Reporter

/-!
# Rounds of verification

The results of a program are lists of signed or unsigned words or of bytes. A `Round` is one such
result with its reference; its `values` are what a reporter compares.
-/

namespace TileBench

/-- The kinds of elements that a result has. -/
inductive Element where
  | signed
  | unsigned
  | byte
  deriving DecidableEq, Repr

namespace Element

/-- The elements of a kind. -/
abbrev Carrier : Element → Type
  | .signed => Int32
  | .unsigned => UInt32
  | .byte => UInt8

/-- The number that an element stands for. -/
def value : (e : Element) → e.Carrier → Int
  | .signed, x => x.toInt
  | .unsigned, x => x.toNat
  | .byte, x => x.toNat

end Element

/-- A result and its reference. -/
structure Round where
  element : Element
  actual : List element.Carrier
  expected : List element.Carrier

namespace Round

def values (r : Round) : List Int × List Int :=
  (r.actual.map r.element.value, r.expected.map r.element.value)

def verdict (r : Round) : Verdict :=
  .of r.values.1 r.values.2

end Round

end TileBench
