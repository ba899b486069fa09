import TileBench.Accelerator.Memory

/-!
# Accesses to operand memory

A program works on operand memory by single accesses. `Access.perform` carries one out and gives the
words that it shows beside the memory after it. A refused access leaves the memory as it was.
-/

namespace TileBench.Accelerator

/-- An access to operand memory. -/
inductive Access where
  | read (address : UInt32)
  | write (address value : UInt32)
  | readMany (address : UInt32) (count : Nat)
  | load (address : UInt32) (data : List UInt32)
  | fill (address : UInt32) (count : Nat) (value : UInt32)
  deriving DecidableEq, Repr

namespace Access

/-- The memory that an access leaves behind, which shows no words. -/
def changed (m : Memory) (x : Except Fault Memory) : Except Fault (List UInt32) × Memory :=
  match x with
  | .ok m => (.ok [], m)
  | .error e => (.error e, m)

/-- The answer to an access and the memory after it. -/
def perform (m : Memory) : Access → Except Fault (List UInt32) × Memory
  | .read address => ((m.read address).map ([·]), m)
  | .write address value => changed m (m.write address value)
  | .readMany address count => (m.readMany address count, m)
  | .load address data => changed m (m.load address data)
  | .fill address count value => changed m (m.fill address count value)

/-- Carries out accesses one after another, whether some are refused or not. -/
def performAll (m : Memory) : List Access → List (Except Fault (List UInt32)) × Memory
  | [] => ([], m)
  | a :: rest =>
    let (answer, m) := a.perform m
    let (answers, m) := performAll m rest
    (answer :: answers, m)

end Access

end TileBench.Accelerator
