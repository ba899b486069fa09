import TileBench.Accelerator.Memory
import TileBench.Accelerator.Register
import TileBench.Event

/-!
# Links

A link is all that a program sees of an accelerator: three register transactions and, where there is
one, a view of operand memory. Which states a device has is up to the link. `Link.watched` is the
same link with a record of the calls made through it and of their answers, the `Transfer`s; it
changes nothing else.
-/

namespace TileBench.Accelerator

/-- Raw access to an accelerator whose device is in a state of type `σ`. Each call gives its answer
and the state after it. -/
structure Link (σ : Type) where
  /-- What the accelerator computes; it never changes. -/
  operation : Operation
  /-- How the accelerator is reached. -/
  kind : LinkKind
  /-- Whether the accelerator works on memory that the program sees. -/
  sharesMemory : Bool
  write : σ → Register → UInt32 → Logged (Except Fault Unit × σ)
  go : σ → Logged (Except Fault Unit × σ)
  /-- Waits until the accelerator is done and reads its answer. -/
  wait : σ → Logged (Except Fault UInt32 × σ)
  /-- Asks for the memory. -/
  lend : σ → Option Memory × σ
  /-- Takes the memory back as the program left it. -/
  restore : σ → Memory → σ

/-- A call made through a link with the answer that it got. -/
inductive Transfer where
  | write (r : Register) (value : UInt32) (answer : Except Fault Unit)
  | go (answer : Except Fault Unit)
  | wait (answer : Except Fault UInt32)
  /-- A request for the memory, and the memory that was shown. -/
  | lend (view : Option Memory)

/-- A device state beside the transfers that led to it, the latest last. -/
structure Watched (σ : Type) where
  device : σ
  traffic : List Transfer := []

/-- Adds a transfer. -/
def Watched.after {σ : Type} (s : Watched σ) (t : Transfer) (device : σ) : Watched σ :=
  ⟨device, s.traffic ++ [t]⟩

/-- The same link with a record of its transfers. -/
def Link.watched {σ : Type} (link : Link σ) : Link (Watched σ) where
  operation := link.operation
  kind := link.kind
  sharesMemory := link.sharesMemory
  write s r v := do
    let (answer, device) ← link.write s.device r v
    return (answer, s.after (.write r v answer) device)
  go s := do
    let (answer, device) ← link.go s.device
    return (answer, s.after (.go answer) device)
  wait s := do
    let (answer, device) ← link.wait s.device
    return (answer, s.after (.wait answer) device)
  lend s :=
    let (view, device) := link.lend s.device
    (view, s.after (.lend view) device)
  restore s m := { s with device := link.restore s.device m }

end TileBench.Accelerator
