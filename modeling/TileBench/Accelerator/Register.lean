/-!
# Registers and operations of the accelerator

The accelerator is reached one register at a time. Five of its 32 registers have a meaning; which of
them an operation needs and which it lets a program write depends on the operation.
-/

namespace TileBench.Accelerator

/-- The registers with a meaning, in index order. -/
inductive Register where
  /-- Starts the accelerator when written and holds its answer; the operand of `null`. -/
  | go
  /-- Address of the first operand. -/
  | src0
  /-- Address of the second operand. -/
  | src1
  /-- Address of the result. -/
  | dest
  | size
  deriving DecidableEq, Repr

namespace Register

def all : List Register := [.go, .src0, .src1, .dest, .size]

/-- The registers that hold operands of an operation on memory. -/
def operands : List Register := [.src0, .src1, .dest, .size]

def index : Register → Nat
  | .go => 0
  | .src0 => 1
  | .src1 => 2
  | .dest => 3
  | .size => 4

def name : Register → String
  | .go => "go"
  | .src0 => "src0"
  | .src1 => "src1"
  | .dest => "dest"
  | .size => "size"

/-- Registers are known by their indices. -/
theorem index_injective {r s : Register} (h : r.index = s.index) : r = s := by
  cases r <;> cases s <;> simp_all [index]

end Register

def registerCount : Nat := 32

def readCode : Nat := 0

def writeCode : Nat := 1

/-- What an accelerator computes. -/
inductive Operation where
  /-- Answers with the word that was written to the go register. -/
  | null
  | add
  deriving DecidableEq, Repr

namespace Operation

def all : List Operation := [.null, .add]

def name : Operation → String
  | .null => "null"
  | .add => "vvadd"

/-- The registers that have to be written before the accelerator may start. -/
def required : Operation → List Register
  | .null => [.go]
  | .add => Register.operands

/-- Whether the go register carries the operand, so that starting leaves it as written. -/
def dataInGo : Operation → Bool
  | .null => true
  | .add => false

/-- Whether a program may write a register as an operand. -/
def accepts (o : Operation) (r : Register) : Bool :=
  r != .go || o.dataInGo

/-- Whether an operation reads and writes operand memory. -/
def needsMemory : Operation → Bool
  | .null => false
  | .add => true

end Operation

end TileBench.Accelerator
