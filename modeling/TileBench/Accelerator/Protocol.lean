import TileBench.Accelerator.Link

/-!
# The protocol

A program drives an accelerator through three steps: it writes the operands, starts the accelerator
and reads the answer. An `Accelerator` is a device together with how far the program has come; a
step out of order is refused without touching the device. From the start until the answer the
accelerator owns the operand memory, and between transactions the program does.
-/

namespace TileBench

/-- A device and how far its program has come in a transaction. -/
structure Accelerator (σ : Type) where
  device : σ
  phase : Accelerator.Phase := .idle
  /-- The registers written since the last answer, the latest first. -/
  written : List Accelerator.Register := []

namespace Accelerator

variable {σ α β : Type}

/-- The answer to a step beside the accelerator after it. -/
abbrev Reply (σ α : Type) := Except Fault α × Accelerator σ

/-- Continues with the answer of a step unless it failed. -/
def andThen (step : Logged (Reply σ α)) (next : α → Accelerator σ → Logged (Reply σ β)) :
    Logged (Reply σ β) := do
  match ← step with
  | (.error e, a) => return (.error e, a)
  | (.ok x, a) => next x a

/-- Refuses a step without touching the device. -/
def refuse (a : Accelerator σ) (e : Fault) : Logged (Reply σ α) :=
  pure (.error e, a)

/-- Writes an operand register, which is in order before the start only. -/
def configure (link : Link σ) (a : Accelerator σ) (r : Register) (value : UInt32) :
    Logged (Reply σ Unit) :=
  if link.operation.accepts r = false then a.refuse (.reservedRegister r.index)
  else if a.phase ≠ .idle ∧ a.phase ≠ .loading then
    a.refuse (.protocolViolation "configure" a.phase)
  else do
    match ← link.write a.device r value with
    | (.error e, device) => return (.error e, { a with device })
    | (.ok (), device) =>
      Logged.debug s!"custom0 0, {Text.hexWord value}, xr{r.index}, {writeCode}"
      return (.ok (), ⟨device, .loading, r :: a.written⟩)

/-- The event of a started accelerator. -/
def startedText (o : Operation) : String :=
  if o.dataInGo then s!"{o.name} go on the xr{Register.go.index} write"
  else s!"custom0 0, 0, xr{Register.go.index}, {writeCode} ({o.name} go)"

/-- Starts the accelerator once all operands are there. -/
def trigger (link : Link σ) (a : Accelerator σ) : Logged (Reply σ Unit) :=
  if a.phase ≠ .loading then a.refuse (.protocolViolation "trigger" a.phase)
  else match link.operation.required.find? (· ∉ a.written) with
    | some r => a.refuse (.missingRegister r.index)
    | none => do
      match ← link.go a.device with
      | (.error e, device) => return (.error e, { a with device })
      | (.ok (), device) =>
        Logged.debug (startedText link.operation)
        return (.ok (), { a with device, phase := .triggered })

/-- The event of a finished transaction. -/
def answerText : Except Fault UInt32 → String
  | .ok value => s!"custom0 {Text.hexWord value}, 0, xr{Register.go.index}, {readCode}"
  | .error e => s!"xcel faulted: {e.message}"

/-- Waits for the answer. The transaction is over whether the device succeeded or not. -/
def complete (link : Link σ) (a : Accelerator σ) : Logged (Reply σ UInt32) :=
  if a.phase ≠ .triggered then a.refuse (.protocolViolation "complete_read" a.phase)
  else do
    let (answer, device) ← link.wait a.device
    Logged.debug (answerText answer)
    return (answer, ⟨device, .idle, []⟩)

/-- Writes all operands in order, starts the accelerator and waits for the answer. -/
def transaction (link : Link σ) (a : Accelerator σ) :
    List (Register × UInt32) → Logged (Reply σ UInt32)
  | [] => andThen (a.trigger link) fun _ a => a.complete link
  | (r, value) :: rest => andThen (a.configure link r value) fun _ a => a.transaction link rest

/-- Works on the operand memory, which the program sees only between transactions. -/
def withMemory (link : Link σ) (a : Accelerator σ) (work : Memory → Except Fault α × Memory) :
    Reply σ α :=
  if a.phase ≠ .idle then (.error (.protocolViolation "host memory access" a.phase), a)
  else match link.lend a.device with
    | (none, device) => (.error (.noHostMemory link.kind.name), { a with device })
    | (some m, device) =>
      let (answer, m) := work m
      (answer, { a with device := link.restore device m })

end Accelerator

end TileBench
