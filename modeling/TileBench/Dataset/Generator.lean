import TileBench.Panic

/-!
# The generator of operands

Operands are drawn from a linear congruential generator on words of 64 bits, of which the upper half
is used. The same seed always gives the same operands.
-/

namespace TileBench

/-- The state of a generator. -/
structure Generator where
  state : UInt64
  deriving DecidableEq, Repr

namespace Generator

def multiplier : UInt64 := 6364136223846793005

def increment : UInt64 := 1442695040888963407

def defaultSeed : UInt64 := 42

/-- The next state. -/
def step (g : Generator) : Generator :=
  ⟨g.state * multiplier + increment⟩

/-- The word of a state, which is its upper half. -/
def output (g : Generator) : UInt32 :=
  (g.state >>> 32).toUInt32

/-- Drawing from a generator, which may panic; the generator moves on all the same. -/
abbrev Draw (α : Type) := ExceptT Panic (StateM Generator) α

/-- Draws a word. -/
def next : Draw UInt32 := do
  modify step
  return (← get).output

/-- Draws a word below a bound, which must not be zero. -/
def below (bound : UInt32) : Draw UInt32 := do
  let w ← next
  if bound = 0 then throw .divisionByZero
  return w % bound

/-- Draws an integer from zero up to, but not including, a bound. -/
def small (bound : UInt32) : Draw Int32 := do
  return (← below (min bound 0x7fffffff)).toInt32

/-- Draws `count` more times; what was drawn before comes latest first. -/
def drawOnto {α : Type} (draw : Draw α) : Nat → List α → Draw (List α)
  | 0, drawn => return drawn.reverse
  | count + 1, drawn => do
    let x ← draw
    drawOnto draw count (x :: drawn)

/-- Draws `count` times, one after another. -/
def many {α : Type} (count : Nat) (draw : Draw α) : Draw (List α) :=
  drawOnto draw count []

/-- What a draw gives from a seed. -/
def fromSeed {α : Type} (seed : UInt64) (draw : Draw α) : Except Panic α :=
  (draw.run ⟨seed⟩).1

end Generator

end TileBench
