import TileBench.Panic
import TileBench.Work.Interval

/-!
# Vector kernels

Three kernels compute a result element by element from two operands of one length. Sums wrap around;
a division by zero has the quotient with all bits set and its dividend as remainder. `addStores` is
the share of an addition that falls to one core.

A kernel reads its operands element by element, and a core that computes a part of a result writes
it element by element, into the places of that part. The writes of all the cores, made one after
another, give the result.
-/

namespace TileBench.Kernel

/-! ## Elements and stores -/

/-- The element at an index, which has to be in the operand. -/
def element (m : Array Int32) (i : Nat) : Except Panic Int32 :=
  match m[i]? with
  | some x => .ok x
  | none => .error .indexOutOfRange

/-- One write into a result. -/
structure Store where
  place : Nat
  value : Int32
  deriving DecidableEq, Repr

/-- Makes a store in a result. -/
def Store.make (dest : Array Int32) (s : Store) : Array Int32 :=
  dest.setIfInBounds s.place s.value

/-- Makes stores in a result, one after another. -/
def makeAll (stores : List Store) (dest : List Int32) : List Int32 :=
  (stores.foldl Store.make dest.toArray).toList

/-! ## Kernels -/

/-- Combines two operands element by element in place of a result; all three have one length. -/
def combine {α : Type} (f : α → α → α) (dest xs ys : List α) : Except Panic (List α) :=
  if xs.length = dest.length ∧ ys.length = dest.length then .ok (List.zipWith f xs ys)
  else .error .lengthMismatch

/-- A quotient, with all bits set where there is none. -/
def quotient (x y : UInt32) : UInt32 :=
  if y = 0 then 0xffffffff else x / y

/-- A remainder, which is the dividend where there is no quotient. -/
def remainder (x y : UInt32) : UInt32 :=
  if y = 0 then x else x % y

/-- Adds two vectors, whose sums wrap around. -/
def add (dest xs ys : List Int32) : Except Panic (List Int32) :=
  combine (· + ·) dest xs ys

/-- The quotients of two vectors. -/
def divide (dest xs ys : List UInt32) : Except Panic (List UInt32) :=
  combine quotient dest xs ys

/-- The remainders of two vectors. -/
def remainders (dest xs ys : List UInt32) : Except Panic (List UInt32) :=
  combine remainder dest xs ys

/-- Adds the elements of a range and stores the sums at the places, one after another, as long as
there are both. It panics if a sum lacks an operand. -/
def addStores (xs ys : List Int32) (r : Interval) (places : List Nat) : Except Panic (List Store) :=
  let xs := xs.toArray
  let ys := ys.toArray
  (places.zip r.indices).mapM fun (place, i) => do
    return ⟨place, (← element xs i) + (← element ys i)⟩

/-- Adds the elements of a range into a piece of a result. -/
def addRange (xs ys : List Int32) (r : Interval) (dest : List Int32) :
    Except Panic (List Int32) := do
  return makeAll (← addStores xs ys r (List.range dest.length)) dest

end TileBench.Kernel
