import TileBench.Accelerator.Access
import TileBench.Accelerator.Offload

/-!
# Requests

Whatever a program does with its accelerator, it does by requests: the steps of the protocol,
accesses to operand memory and the kernels. `performAll` carries out any sequence of them, in order
or not, and gives the answers with the phase after each.
-/

namespace TileBench.Accelerator

/-- What a program asks of its accelerator. -/
inductive Request where
  | configure (r : Register) (value : UInt32)
  | trigger
  | complete
  | transaction (operands : List (Register × UInt32))
  | access (what : Access)
  | echo (value : UInt32)
  | vectorAdd (result xs ys : List Int32)
  deriving DecidableEq, Repr

/-- The answer to a request. -/
inductive Answer where
  | done (outcome : Except Fault Unit)
  | word (outcome : Except Fault UInt32)
  | words (outcome : Except Fault (List UInt32))
  /-- How an addition ended, and the contents of its result afterwards. -/
  | sums (outcome : Except Panic (Except Fault Unit)) (result : List Int32)

variable {σ α : Type}

/-- An answer of a certain kind beside the accelerator after it. -/
def Answer.of (kind : Except Fault α → Answer) (step : Logged (Reply σ α)) :
    Logged (Answer × Accelerator σ) := do
  let (outcome, a) ← step
  return (kind outcome, a)

/-- The answer to an addition; one that panicked did not touch the accelerator. -/
def Answer.ofSums (a : Accelerator σ) (result : List Int32)
    (step : Checked ((Except Fault Unit × List Int32) × Accelerator σ)) :
    Logged (Answer × Accelerator σ) := do
  match ← step.run with
  | .ok ((outcome, result), a) => return (.sums (.ok outcome) result, a)
  | .error p => return (.sums (.error p) result, a)

/-- Makes a request and gives its answer. -/
def perform (link : Link σ) (a : Accelerator σ) : Request → Logged (Answer × Accelerator σ)
  | .configure r value => Answer.of .done (a.configure link r value)
  | .trigger => Answer.of .done (a.trigger link)
  | .complete => Answer.of .word (a.complete link)
  | .transaction operands => Answer.of .word (a.transaction link operands)
  | .access what => Answer.of .words (pure (a.withMemory link what.perform))
  | .echo value => Answer.of .word (echo link a value)
  | .vectorAdd result xs ys => Answer.ofSums a result (vectorAdd link a result xs ys)

/-- Carries out requests one after another; every answer stands beside the phase after it. -/
def performAll (link : Link σ) (a : Accelerator σ) :
    List Request → Logged (List (Answer × Phase) × Accelerator σ)
  | [] => pure ([], a)
  | request :: rest => do
    let (answer, a) ← perform link a request
    let (answers, b) ← performAll link a rest
    return ((answer, a.phase) :: answers, b)

end TileBench.Accelerator
