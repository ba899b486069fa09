import TileBench.Accelerator.Software
import TileBench.Accelerator.Window

/-!
# Attaching an accelerator

A program asks for a simulated accelerator, for a register window, or for whichever is there.
Operations on memory never run through a register window, which shares no memory with the program.
-/

namespace TileBench.Accelerator

/-- Which accelerator a program asks for. -/
inductive Selection where
  /-- The register window if it can be used, else the simulated accelerator. -/
  | auto
  | software
  | window
  deriving DecidableEq, Repr

namespace Selection

def name : Selection → String
  | .auto => "auto"
  | .software => "software"
  | .window => "mmio"

def ofName? : String → Option Selection
  | "auto" => some .auto
  | "software" | "sw" => some .software
  | "mmio" => some .window
  | _ => none

def unknown (name : String) : String :=
  s!"unknown backend '{name}' (auto | software | mmio)"

end Selection

/-- An accelerator that has been attached. -/
inductive Attachment where
  | software (device : SoftwareDevice)
  | window (w : RegisterWindow)

namespace Attachment

def kind : Attachment → LinkKind
  | .software _ => .software
  | .window _ => .window

/-- Works with an attached accelerator through its link. -/
def use {m : Type → Type} [Monad m] {β : Type} (a : Attachment)
    (work : {σ : Type} → Link σ → σ → m (β × σ)) : m (β × Attachment) :=
  match a with
  | .software d => do
    let (answer, d) ← work (SoftwareDevice.link d.operation) d
    return (answer, .software d)
  | .window w => do
    let (answer, w) ← work (RegisterWindow.link w.operation) w
    return (answer, .window w)

/-- The files once an accelerator attached under a path has been used. -/
def flush (a : Attachment) (files : Files) (path : String) : Files :=
  match a with
  | .software _ => files
  | .window w => w.flush files path

/-- Lets go of an attached accelerator. -/
def release (kind : LinkKind) : Logged Unit :=
  match kind with
  | .software => pure ()
  | .window => Logged.debug "Unmapped xcel window"

def simulated (operation : Operation) : Logged (Except Fault Attachment) := do
  let device ← SoftwareDevice.start operation SoftwareDevice.defaultMemoryBytes
  return .ok (.software device)

def mapped (files : Files) (path : String) (operation : Operation) :
    Logged (Except Fault Attachment) := do
  return (← RegisterWindow.attach files path operation).map .window

def select (files : Files) (selection : Selection) (operation : Operation) (path : String) :
    Logged (Except Fault Attachment) :=
  match selection with
  | .software => simulated operation
  | .window =>
    if operation.needsMemory then pure (.error (.unsupportedLink operation.name .window))
    else mapped files path operation
  | .auto =>
    if operation.needsMemory then do
      Logged.info s!"{operation.name} xcel needs operand memory, using software xcel"
      simulated operation
    else if (files.entry? path).isNone then do
      Logged.info s!"No register window at {path}, using software xcel"
      simulated operation
    else do
      match ← mapped files path operation with
      | .ok attached =>
        Logged.info s!"Using MMIO xcel at {path}"
        return .ok attached
      | .error _ =>
        Logged.info s!"Register window {path} unusable, using software xcel"
        simulated operation

end Attachment

end TileBench.Accelerator
