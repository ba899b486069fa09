import TileBench.Text.Numeral

/-!
# Faults of the accelerator

What can go wrong between a program and an accelerator: the program breaks the protocol, an access
to operand memory is refused, the accelerator is not the one that the program drives, or the device
is lost.
-/

namespace TileBench.Accelerator

/-- Where a transaction stands. -/
inductive Phase where
  /-- No transaction is in progress. -/
  | idle
  /-- An operand has been written. -/
  | loading
  /-- The accelerator runs and owns its operand memory. -/
  | triggered
  /-- The answer has been read. -/
  | done
  deriving DecidableEq, Repr

def Phase.name : Phase → String
  | .idle => "Idle"
  | .loading => "Loading"
  | .triggered => "Triggered"
  | .done => "Done"

/-- How a program reaches an accelerator. -/
inductive LinkKind where
  /-- A simulated accelerator with a thread of its own. -/
  | software
  | window
  deriving DecidableEq, Repr

def LinkKind.name : LinkKind → String
  | .software => "Software (virtual xcel)"
  | .window => "MMIO"

/-- A refusal or failure of the accelerator. -/
inductive Fault where
  | protocolViolation (operation : String) (phase : Phase)
  /-- The accelerator was started before this register was written. -/
  | missingRegister (index : Nat)
  | reservedRegister (index : Nat)
  /-- An access of `words` words at `address` leaves the memory. -/
  | outOfBounds (address : UInt32) (words : Nat)
  | misaligned (address : UInt32)
  | operationMismatch (expected found : String)
  /-- The operation needs memory that the link does not share. -/
  | unsupportedLink (operation : String) (link : LinkKind)
  /-- The link shows its program no memory. -/
  | noHostMemory (link : String)
  | deviceLost (reason : String)
  | window (reason : String)
  | unanswered
  deriving DecidableEq, Repr

def Fault.message : Fault → String
  | .protocolViolation operation phase =>
    s!"Accelerator protocol violation: {operation} while {phase.name}"
  | .missingRegister index => s!"Accelerator register xr{index} must be configured before trigger"
  | .reservedRegister index => s!"Accelerator register xr{index} is reserved"
  | .outOfBounds address words =>
    s!"Accelerator memory access at {Text.hexWord address} (+{words} words) out of bounds"
  | .misaligned address => s!"Misaligned accelerator memory access at {Text.hexWord address}"
  | .operationMismatch expected found => s!"Accelerator implements {found}, expected {expected}"
  | .unsupportedLink operation link =>
    s!"{operation} accelerator needs operand memory, which the {link.name} backend lacks"
  | .noHostMemory link => s!"Backend {link} exposes no host-visible memory"
  | .deviceLost reason => s!"Accelerator device lost: {reason}"
  | .window reason => s!"MMIO error: {reason}"
  | .unanswered => "Accelerator never answers"

end TileBench.Accelerator
