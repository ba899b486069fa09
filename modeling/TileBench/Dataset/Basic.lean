import TileBench.Dataset.Generator
import TileBench.Kernel.Shell
import TileBench.Kernel.Vector
import TileBench.Work.Partition

/-!
# Datasets

A benchmark runs on operands with a known result. The operands are drawn from a generator, and the
result is computed beside them, by other means than those of the kernels: a matrix product
accumulates whole rows, and a sorted list is merged.

A product can also be accumulated in the array that holds it, from zeros. Every element of the left
matrix is taken once, row after row, and what it contributes to a row of the product is added to the
sums that are there. Every index is checked; one outside an array is a panic.
-/

namespace TileBench

/-- Two vectors and their sum. -/
structure SumData where
  src0 : List Int32
  src1 : List Int32
  reference : List Int32
  deriving DecidableEq, Repr

/-- Two square matrices and their product, stored row by row. -/
structure ProductData where
  size : Nat
  a : List Int32
  b : List Int32
  reference : List Int32
  deriving DecidableEq, Repr

/-- Dividends and divisors, with the quotients and the remainders. -/
structure DivisionData where
  src0 : List UInt32
  src1 : List UInt32
  quotients : List UInt32
  remainders : List UInt32
  deriving DecidableEq, Repr

/-- A list and the same list in ascending order. -/
structure SortData where
  src : List Int32
  reference : List Int32
  deriving DecidableEq, Repr

open Generator

namespace SumData

def size (d : SumData) : Nat :=
  d.reference.length

def isEmpty (d : SumData) : Bool :=
  d.reference.isEmpty

/-- Draws two vectors of `size` elements from 0 to 99. -/
def generate (size : Nat) (seed : UInt64) : Except Panic SumData :=
  fromSeed seed do
    let src0 ← many size (small 100)
    let src1 ← many size (small 100)
    return ⟨src0, src1, List.zipWith (· + ·) src0 src1⟩

end SumData

namespace ProductData

/-- The rows of a matrix with `n` rows and columns. -/
def rows (n : Nat) (m : List Int32) : List (List Int32) :=
  Partition.pieces (List.replicate n n) m

/-- Adds a multiple of a row to sums, column by column. -/
def addMultiple (sums : List Int32) (x : Int32) (row : List Int32) : List Int32 :=
  List.zipWith (fun sum y => x * y + sum) sums row

/-- The row of a product whose left matrix has the given row: the rows of the right matrix, each
taken as many times as its element in that row says, are accumulated. -/
def productRow (n : Nat) (b : List (List Int32)) (row : List Int32) : List Int32 :=
  (row.zip b).foldl (fun sums (x, y) => addMultiple sums x y) (List.replicate n 0)

/-- Draws two matrices of `n` rows and columns with elements from 0 to 9. -/
def generate (n : Nat) (seed : UInt64) : Except Panic ProductData := do
  let cells ← checkedMul n n
  fromSeed seed do
    let a ← many cells (small 10)
    let b ← many cells (small 10)
    return ⟨n, a, b, (rows n a).flatMap (productRow n (rows n b))⟩

section InPlace

open Kernel (element readAt writeAt)

variable {cells : Nat}

/-- Adds `x` times the element in row `k` and column `j` of the right matrix to the sum in row `i`
and column `j`. -/
def accumulateAt (n : Nat) (b : Array Int32) (i k : Nat) (x : Int32) (sums : Vector Int32 cells)
    (j : Nat) : Except Panic (Vector Int32 cells) := do
  let y ← element b (k * n + j)
  let sum ← readAt sums (i * n + j)
  writeAt sums (i * n + j) (x * y + sum)

/-- Takes the element in row `i` and column `k` of the left matrix. -/
def accumulateFrom (n : Nat) (a b : Array Int32) (i : Nat) (sums : Vector Int32 cells) (k : Nat) :
    Except Panic (Vector Int32 cells) := do
  let x ← element a (i * n + k)
  (List.range n).foldlM (accumulateAt n b i k x) sums

/-- The product of two matrices with `n` rows and columns. -/
def accumulate (n : Nat) (a b : List Int32) : Except Panic (List Int32) := do
  let cells ← checkedMul n n
  let sums ← (List.range n).foldlM
    (fun sums i => (List.range n).foldlM (accumulateFrom n a.toArray b.toArray i) sums)
    (Vector.replicate cells 0)
  return sums.toList

end InPlace

end ProductData

namespace DivisionData

/-- A quotient, whose divisor may not be zero. -/
def quotient (x y : UInt32) : Except Panic UInt32 :=
  if y = 0 then .error .divisionByZero else .ok (x / y)

/-- A remainder, whose divisor may not be zero. -/
def remainder (x y : UInt32) : Except Panic UInt32 :=
  if y = 0 then .error .divisionByZero else .ok (x % y)

/-- Draws `size` dividends of any value and divisors from 1 to 1000. -/
def generate (size : Nat) (seed : UInt64) : Except Panic DivisionData :=
  fromSeed seed do
    let src0 ← many size next
    let src1 ← many size do return (← below 1000) + 1
    let quotients ← (src0.zip src1).mapM fun (x, y) => liftExcept (quotient x y)
    let remainders ← (src0.zip src1).mapM fun (x, y) => liftExcept (remainder x y)
    return ⟨src0, src1, quotients, remainders⟩
where
  /-- Draws nothing and gives what was computed. -/
  liftExcept (x : Except Panic UInt32) : Draw UInt32 := ExceptT.mk (pure x)

end DivisionData

namespace SortData

/-- Draws a list of `size` elements from 0 to 999. -/
def generate (size : Nat) (seed : UInt64) : Except Panic SortData :=
  fromSeed seed do
    let src ← many size (small 1000)
    return ⟨src, src.mergeSort fun x y => decide (x ≤ y)⟩

end SortData

end TileBench
