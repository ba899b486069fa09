import TileBench.Kernel.Vector

/-!
# Matrix product

A square matrix is stored row by row. `multiply` computes the product of two matrices on one core,
and `rowStores` the rows of the product that fall to one core among several.
-/

namespace TileBench.Kernel

/-- The element in row `i` and column `j` of a matrix with `n` columns, zero beyond the matrix. -/
def entry (n : Nat) (m : Array Int32) (i j : Nat) : Int32 :=
  m[i * n + j]?.getD 0

/-- The sum of products that stands in row `i` and column `j` of the product of two matrices. -/
def cell (n : Nat) (a b : Array Int32) (i j : Nat) : Int32 :=
  (List.range n).foldl (fun sum k => sum + entry n a i k * entry n b k j) 0

/-- Multiplies two matrices; both and the result have `n` rows and `n` columns. -/
def multiply (n : Nat) (dest a b : List Int32) : Except Panic (List Int32) := do
  let cells ← checkedMul n n
  if dest.length = cells ∧ a.length = cells ∧ b.length = cells then
    let a := a.toArray
    let b := b.toArray
    return (List.range n).flatMap fun i => (List.range n).map fun j => cell n a b i j
  else
    throw .lengthMismatch

/-- The sum of products in row `i` and column `j`, every element of which has to be there. -/
def checkedCell (n : Nat) (a b : Array Int32) (i j : Nat) : Except Panic Int32 :=
  (List.range n).foldlM (fun sum k => do
    return sum + (← element a (i * n + k)) * (← element b (k * n + j))) 0

/-- The whole rows of `width` places, without what is left over at the end. -/
def wholeRows (width : Nat) (places : List Nat) : List (List Nat) :=
  (List.range (places.length / width)).map fun k => (places.drop (k * width)).take width

/-- Computes the rows of a range and stores them at the places, row after row, as long as there are
both. A row of a matrix without columns still takes one place, for the empty sum. -/
def rowStores (n : Nat) (a b : List Int32) (r : Interval) (places : List Nat) :
    Except Panic (List Store) := do
  let a := a.toArray
  let b := b.toArray
  -- Rows of width zero could not be cut off one after another.
  let rows ← ((wholeRows (max n 1) places).zip r.indices).mapM fun (row, i) =>
    row.zipIdx.mapM fun (place, j) => do
      return ⟨place, ← checkedCell n a b i j⟩
  return rows.flatten

/-- Computes the rows of a range into a piece of a result. -/
def multiplyRows (n : Nat) (a b : List Int32) (r : Interval) (dest : List Int32) :
    Except Panic (List Int32) := do
  return makeAll (← rowStores n a b r (List.range dest.length)) dest

end TileBench.Kernel
