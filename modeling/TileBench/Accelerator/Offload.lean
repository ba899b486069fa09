import TileBench.Accelerator.Protocol
import TileBench.Panic

/-!
# Kernels on the accelerator

`echo` sends a word through the null accelerator. `vectorAdd` adds two vectors on the accelerator:
it stages the operands in memory one after the other, runs one transaction and reads the sums behind
them. The result keeps its former contents unless everything succeeds.
-/

namespace TileBench.Accelerator

variable {σ : Type}

/-- Whether the accelerator behind a link is one that computes `operation` for its program. -/
def expects (link : Link σ) (operation : Operation) : Except Fault Unit :=
  if link.operation ≠ operation then
    .error (.operationMismatch operation.name link.operation.name)
  else if operation.needsMemory ∧ link.sharesMemory = false then
    .error (.unsupportedLink operation.name link.kind)
  else .ok ()

/-- Sends a word to the null accelerator and reads it back. -/
def echo (link : Link σ) (a : Accelerator σ) (value : UInt32) : Logged (Reply σ UInt32) :=
  match expects link .null with
  | .error e => a.refuse e
  | .ok () => a.transaction link [(.go, value)]

/-- The slots of operand memory, each as long as a vector. -/
inductive Slot where
  | src0
  | src1
  | dest
  deriving DecidableEq, Repr

def Slot.index : Slot → Nat
  | .src0 => 0
  | .src1 => 1
  | .dest => 2

/-- All slots, in address order. -/
def Slot.all : List Slot := [.src0, .src1, .dest]

/-- The address of a slot for vectors of `size` words. -/
def Slot.address (s : Slot) (size : Nat) : Except Fault UInt32 :=
  let address := size * (s.index * Memory.wordBytes)
  if address < UInt32.size then .ok (UInt32.ofNat address)
  else .error (.outOfBounds 0xffffffff size)

/-- The operand words of an addition of vectors of `size` words. -/
def operandWords (size : Nat) : Except Fault (UInt32 × UInt32 × UInt32 × UInt32) := do
  let src0 ← Slot.src0.address size
  let src1 ← Slot.src1.address size
  let dest ← Slot.dest.address size
  if size < UInt32.size then return (src0, src1, dest, UInt32.ofNat size)
  else throw (.outOfBounds 0xffffffff size)

/-- Stages both operands and checks that the sums will fit behind them. What was loaded before a
refusal stays. -/
def stage (src0 src1 dest : UInt32) (xs ys : List UInt32) (m : Memory) :
    Except Fault Unit × Memory :=
  match m.load src0 xs with
  | .error e => (.error e, m)
  | .ok m =>
    match m.load src1 ys with
    | .error e => (.error e, m)
    | .ok m => ((m.start? dest xs.length).map fun _ => (), m)

/-- Adds two vectors on the accelerator and gives the contents of the result afterwards. It panics
unless all three vectors have one length. -/
def vectorAdd (link : Link σ) (a : Accelerator σ) (result xs ys : List Int32) :
    Checked ((Except Fault Unit × List Int32) × Accelerator σ) :=
  if xs.length = result.length ∧ ys.length = result.length then ExceptT.lift run
  else throw .lengthMismatch
where
  /-- Gives up and leaves the result alone. -/
  fail (e : Fault) (a : Accelerator σ) :
      Logged ((Except Fault Unit × List Int32) × Accelerator σ) :=
    pure ((.error e, result), a)
  /-- The addition for vectors of one length. -/
  run : Logged ((Except Fault Unit × List Int32) × Accelerator σ) :=
    match (expects link .add).bind fun _ => operandWords result.length with
    | .error e => fail e a
    | .ok (src0, src1, dest, size) =>
      let words (vs : List Int32) := vs.map Int32.toUInt32
      match a.withMemory link (stage src0 src1 dest (words xs) (words ys)) with
      | (.error e, a) => fail e a
      | (.ok (), a) => do
        match ← a.transaction link [(.src0, src0), (.src1, src1), (.dest, dest), (.size, size)] with
        | (.error e, a) => fail e a
        | (.ok _, a) =>
          match a.withMemory link fun m => (m.readMany dest result.length, m) with
          | (.error e, a) => fail e a
          | (.ok sums, a) =>
            Logged.debug s!"vvadd_xcel: {result.length} elements"
            return ((.ok (), sums.map UInt32.toInt32), a)

end TileBench.Accelerator
