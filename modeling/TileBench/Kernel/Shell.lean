import TileBench.Panic

/-!
# Shell's sort

An insertion sort that compares elements a gap apart, for gaps that shrink to one. Elements move
only by swaps of two positions of the vector, so that the result is a permutation of what was there.

A core sorts with a hole instead. It lifts an element out, moves the larger elements below it up
into the hole, a gap at a time, and puts the element into the hole where none is left that is
larger. Every index is checked; one outside the array is a panic.
-/

namespace TileBench.Kernel

/-- The gaps of the passes, from the first to the last. -/
def gaps : List Nat := [40, 13, 4, 1]

variable {n : Nat}

/-- Moves the element at `i` down by the gap until the one a gap below is not larger. -/
def sift (gap : Nat) (hg : 0 < gap) (v : Vector Int32 n) (i : Nat) (hi : i < n) : Vector Int32 n :=
  if h : gap ≤ i then
    if v[i - gap] > v[i] then sift gap hg (v.swap i (i - gap)) (i - gap) (by omega) else v
  else v
termination_by i

/-- One pass: the elements are sifted in index order. -/
def pass (gap : Nat) (hg : 0 < gap) (v : Vector Int32 n) : Vector Int32 n :=
  n.fold (fun i hi v => sift gap hg v i hi) v

/-- The passes for some gaps, of which those are left out that no two positions are apart. -/
def passes (gs : List Nat) (v : Vector Int32 n) : Vector Int32 n :=
  gs.foldl (fun v gap => if h : 0 < gap ∧ gap < n then pass gap h.1 v else v) v

/-- Sorts a list in ascending order into a result of the same length. -/
def sort (dest xs : List Int32) : Except Panic (List Int32) :=
  if dest.length = xs.length then .ok (passes gaps ⟨xs.toArray, rfl⟩).toList
  else .error .lengthMismatch

/-! ## Sorting with a hole -/

/-- The element at an index, which has to be in the array. -/
def readAt (v : Vector Int32 n) (i : Nat) : Except Panic Int32 :=
  if h : i < n then .ok v[i] else .error .indexOutOfRange

/-- The array with another element at an index, which has to be in it. -/
def writeAt (v : Vector Int32 n) (i : Nat) (x : Int32) : Except Panic (Vector Int32 n) :=
  if h : i < n then .ok (v.set i x) else .error .indexOutOfRange

/-- Moves the hole at `j` down by the gap while the element there is larger than `x`, and gives its
last place. -/
def sink (gap : Nat) (hg : 0 < gap) (x : Int32) (v : Vector Int32 n) (j : Nat) :
    Except Panic (Nat × Vector Int32 n) :=
  if gap ≤ j then
    match below : checkedSub j gap with
    | .error p => throw p
    | .ok k => do
      have := lt_of_checkedSub hg below
      let y ← readAt v k
      if y > x then sink gap hg x (← writeAt v j y) k else return (j, v)
  else return (j, v)
termination_by j

/-- Inserts the element at `i` among those below it that are whole gaps away. -/
def insertAt (gap : Nat) (hg : 0 < gap) (v : Vector Int32 n) (i : Nat) :
    Except Panic (Vector Int32 n) := do
  let x ← readAt v i
  let (hole, v) ← sink gap hg x v i
  writeAt v hole x

/-- One pass: the elements that have one a gap below them are inserted in index order. -/
def insertPass (gap : Nat) (hg : 0 < gap) (v : Vector Int32 n) : Except Panic (Vector Int32 n) :=
  (List.range' gap (n - gap)).foldlM (insertAt gap hg) v

/-- The passes for some gaps, of which those are left out that no two positions are apart. -/
def insertPasses (gs : List Nat) (v : Vector Int32 n) : Except Panic (Vector Int32 n) :=
  gs.foldlM (fun v gap =>
    if hg : 0 < gap then
      if gap < n then insertPass gap hg v else return v
    else return v) v

/-- Copies a list into a result of the same length and sorts it there. -/
def sortInPlace (dest xs : List Int32) : Except Panic (List Int32) :=
  if dest.length = xs.length then (insertPasses gaps xs.toArray.toVector).map Vector.toList
  else throw .lengthMismatch

end TileBench.Kernel
