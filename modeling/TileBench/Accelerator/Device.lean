import TileBench.Accelerator.Memory
import TileBench.Accelerator.Register
import TileBench.Panic

/-!
# What the device computes

A device works on the registers as they were when it started and on the operand memory. The addition
of two vectors checks all three runs of words before it writes any, then goes through them one word
at a time, so that the result may overlap an operand. The loop checks its own arithmetic and
accesses; `Stop` says why it ends early.
-/

namespace TileBench.Accelerator

/-- The contents of the registers. -/
structure Registers where
  go : UInt32 := 0
  src0 : UInt32 := 0
  src1 : UInt32 := 0
  dest : UInt32 := 0
  size : UInt32 := 0
  deriving DecidableEq, Repr

namespace Registers

def get (regs : Registers) : Register → UInt32
  | .go => regs.go
  | .src0 => regs.src0
  | .src1 => regs.src1
  | .dest => regs.dest
  | .size => regs.size

def set (regs : Registers) (r : Register) (value : UInt32) : Registers :=
  match r with
  | .go => { regs with go := value }
  | .src0 => { regs with src0 := value }
  | .src1 => { regs with src1 := value }
  | .dest => { regs with dest := value }
  | .size => { regs with size := value }

/-- A write changes its register and no other. -/
@[simp] theorem get_set (regs : Registers) (r s : Register) (value : UInt32) :
    (regs.set r value).get s = if r = s then value else regs.get s := by
  cases r <;> cases s <;> rfl

end Registers

/-- Why the device stops before it is done. -/
inductive Stop where
  | fault (f : Fault)
  | panic (p : Panic)
  deriving DecidableEq, Repr

namespace Device

/-- The sum of the words `offset` bytes into both operands. -/
def sumAt (m : Memory) (src0 src1 offset : UInt32) : Except Stop UInt32 := do
  let x ← (m.read (← (checkedAddWord src0 offset).mapError .panic)).mapError .fault
  let y ← (m.read (← (checkedAddWord src1 offset).mapError .panic)).mapError .fault
  return x + y

/-- Writes `value` to the word `offset` bytes into the result. -/
def putAt (m : Memory) (dest offset value : UInt32) : Except Stop Unit × Memory :=
  match checkedAddWord dest offset with
  | .error p => (.error (.panic p), m)
  | .ok address =>
    match m.start? address 1 with
    | .error f => (.error (.fault f), m)
    | .ok i => (.ok (), m.put i value)

/-- Adds words one after another, up to the first that panics or that the memory refuses. -/
def addWords (src0 src1 dest : UInt32) : Nat → UInt32 → Memory → Except Stop Unit × Memory
  | 0, _, m => (.ok (), m)
  | count + 1, offset, m =>
    match sumAt m src0 src1 offset with
    | .error stop => (.error stop, m)
    | .ok sum =>
      match putAt m dest offset sum with
      | (.error stop, m) => (.error stop, m)
      | (.ok (), m) =>
        match checkedAddWord offset (UInt32.ofNat Memory.wordBytes) with
        | .error p => (.error (.panic p), m)
        | .ok offset => addWords src0 src1 dest count offset m

/-- The first fault among the runs of words that an addition touches. -/
def checkSpans (m : Memory) (src0 src1 dest : UInt32) (count : Nat) : Except Fault Unit := do
  let _ ← m.start? src0 count
  let _ ← m.start? src1 count
  let _ ← m.start? dest count

/-- Adds two vectors of `count` words. -/
def add (m : Memory) (src0 src1 dest : UInt32) (count : Nat) : Except Stop Unit × Memory :=
  match checkSpans m src0 src1 dest count with
  | .error f => (.error (.fault f), m)
  | .ok () => addWords src0 src1 dest count 0 m

/-- Does what the operation asks for and gives the answer with the memory. -/
def execute (o : Operation) (regs : Registers) (m : Memory) : Except Stop UInt32 × Memory :=
  match o with
  | .null => (.ok regs.go, m)
  | .add =>
    let (outcome, m) := add m regs.src0 regs.src1 regs.dest regs.size.toNat
    (outcome.map fun _ => 0, m)

end Device

end TileBench.Accelerator
