/-!
# Intervals

A core works on a half-open interval of indices. Intervals are laid out one after another by
`Interval.consecutive`, and `Interval.Chain` says so of a list however it came about.
-/

namespace TileBench

/-- The half-open interval of indices `[start, stop)`. -/
structure Interval where
  start : Nat
  stop : Nat
  deriving DecidableEq, Repr

namespace Interval

/-- The number of indices in an interval. -/
def size (r : Interval) : Nat :=
  r.stop - r.start

/-- The indices of an interval in ascending order. -/
def indices (r : Interval) : List Nat :=
  List.range' r.start r.size

def isEmpty (r : Interval) : Bool :=
  r.start == r.stop

/-- An interval in brackets, the second of which leaves its end out. -/
def text (r : Interval) : String :=
  s!"[{r.start},{r.stop})"

/-- Intervals of the given sizes, each starting where the one before it stops. -/
def consecutive (start : Nat) : List Nat → List Interval
  | [] => []
  | n :: ns => ⟨start, start + n⟩ :: consecutive (start + n) ns

/-- `Chain a rs b` holds when `rs` are intervals that follow one another from `a` to `b` without gap
or overlap. -/
inductive Chain : Nat → List Interval → Nat → Prop where
  | nil (a : Nat) : Chain a [] a
  | cons {r : Interval} {rs : List Interval} {b : Nat} :
    r.start ≤ r.stop → Chain r.stop rs b → Chain r.start (r :: rs) b

/-- Intervals laid out one after another form a chain as long as their sizes. -/
theorem chain_consecutive (start : Nat) (ns : List Nat) :
    Chain start (consecutive start ns) (ns.foldl (· + ·) start) := by
  induction ns generalizing start with
  | nil => exact .nil start
  | cons n ns ih =>
    exact Chain.cons (r := ⟨start, start + n⟩) (Nat.le_add_right _ _) (ih (start + n))

/-- Laying out sizes gives an interval for each. -/
@[simp] theorem length_consecutive (start : Nat) (ns : List Nat) :
    (consecutive start ns).length = ns.length := by
  induction ns generalizing start with
  | nil => rfl
  | cons n ns ih => simp [consecutive, ih]

end Interval

end TileBench
