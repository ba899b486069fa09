import TileBench.Accelerator.Device
import TileBench.Accelerator.Link

/-!
# The simulated accelerator

A simulated accelerator latches its registers and takes the memory when it starts, and gives the
memory back with its answer. While it has the memory, its program cannot see it.
-/

namespace TileBench.Accelerator

/-- What the device works on from the start to the answer. -/
structure Command where
  registers : Registers
  memory : Memory
  deriving DecidableEq, Repr

/-- What the device sends back. -/
structure Completion where
  answer : Except Fault UInt32
  memory : Memory

/-- What the device sends back for a command; nothing if it panics. -/
def Command.completion? (o : Operation) (c : Command) : Option Completion :=
  match Device.execute o c.registers c.memory with
  | (.ok value, m) => some ⟨.ok value, m⟩
  | (.error (.fault f), m) => some ⟨.error f, m⟩
  | (.error (.panic _), _) => none

/-- The state of a simulated accelerator. -/
structure SoftwareDevice where
  operation : Operation
  registers : Registers := {}
  /-- The memory while the program holds it. -/
  memory : Option Memory
  /-- The work that was started and whose answer has not been read. -/
  command : Option Command := none
  /-- Whether the device still takes work; a panic ends it. -/
  running : Bool := true
  deriving DecidableEq, Repr

namespace SoftwareDevice

/-- The size of the memory unless another is asked for, in bytes. -/
def defaultMemoryBytes : Nat := 1048576

/-- Brings up an accelerator with `bytes` bytes of zeroed memory. -/
def start (operation : Operation) (bytes : Nat) : Logged SoftwareDevice := do
  Logged.info s!"SoftwareXcel: {operation.name} accelerator, {bytes} bytes memory"
  return { operation, memory := some (.zero bytes) }

def write (d : SoftwareDevice) (r : Register) (value : UInt32) : SoftwareDevice :=
  { d with registers := d.registers.set r value }

/-- The event that the device reports when it takes a command. -/
def takenText (regs : Registers) : String :=
  s!"vvadd: {regs.size.toNat} words, src0={Text.hex regs.src0.toNat} src1={Text.hex regs.src1.toNat} dest={Text.hex regs.dest.toNat}"

/-- The events of the device when it takes a command. -/
def takenEvents (o : Operation) (regs : Registers) : List Event :=
  match o with
  | .null => []
  | .add => [{ level := .debug, text := takenText regs, origin := .device }]

/-- The registers as the device takes them over at the start. -/
def latched (o : Operation) (regs : Registers) : Registers :=
  if o.dataInGo then regs else regs.set .go 0

/-- The answer when the memory is with the device. -/
def owned : Fault :=
  .deviceLost "memory already owned by the device"

/-- The answer when the device panicked. -/
def lost : Fault :=
  .deviceLost "device thread exited mid-transaction"

/-- Hands the registers and the memory to the device. -/
def go (d : SoftwareDevice) : Logged (Except Fault Unit × SoftwareDevice) :=
  match d.memory with
  | none => pure (.error owned, d)
  | some memory =>
    -- The go register itself is cleared unless it carries the operand.
    let registers := latched d.operation d.registers
    { value := (.ok (), { d with registers, memory := none, command := some ⟨registers, memory⟩ })
      events := takenEvents d.operation registers }

/-- Waits for the answer and takes the memory back. A device that panicked keeps the memory for
good. -/
def wait (d : SoftwareDevice) : Except Fault UInt32 × SoftwareDevice :=
  match d.command with
  | none => (.error (if d.running then .unanswered else lost), d)
  | some command =>
    match command.completion? d.operation with
    | some c => (c.answer, { d with memory := some c.memory, command := none })
    | none => (.error lost, { d with command := none, running := false })

/-- The calls of the program, with the work of the device done when its answer is read. -/
def link (operation : Operation) : Link SoftwareDevice where
  operation
  kind := .software
  sharesMemory := true
  write d r value := pure (.ok (), d.write r value)
  go := go
  wait d := pure d.wait
  lend d := (d.memory, d)
  restore d m := { d with memory := some m }

end SoftwareDevice

end TileBench.Accelerator
