import TileBench.Accelerator.Request
import TileBench.Accelerator.Software

/-!
# The handshake with the device

A simulated accelerator has a thread of its own. A command goes to it through a slot that holds one,
and the completion comes back through another; the memory goes along. A `System` is a program and
its device, which step in any order: between any two calls of the program, also those of one
transaction, the device may take any number of steps. `System.Run` collects the requests of the
program with their answers, and `Handshake.held` the memory wherever it is. `SoftwareDevice` is the
same accelerator with the work done when its answer is read.
-/

namespace TileBench.Accelerator

/-- The program's side, the device's side and the two slots between them. -/
structure Handshake where
  operation : Operation
  registers : Registers := {}
  /-- The memory while the program holds it. -/
  memory : Option Memory
  /-- The command that was sent and has not been taken. -/
  sent : Option Command := none
  /-- The command that the device works on. -/
  working : Option Command := none
  /-- The completion that was sent back and has not been read. -/
  returned : Option Completion := none
  /-- Whether the device still takes commands; a panic ends it. -/
  running : Bool := true

namespace Handshake

/-- The handshake before anything is sent, with the memory on the side of the program. -/
def start (operation : Operation) (memory : Memory) : Handshake where
  operation
  memory := some memory

/-- The registers as the device takes them over at the start. -/
def latched (h : Handshake) : Registers :=
  SoftwareDevice.latched h.operation h.registers

/-- The answer when the device no longer takes commands. -/
def exited : Fault :=
  .deviceLost "device thread exited"

/-- Sends a command, and the memory along with it. The memory that was to go to a device that has
stopped is lost; with a command in the slot the call would not return. -/
def go (h : Handshake) : Except Fault Unit × Handshake :=
  match h.memory with
  | none => (.error SoftwareDevice.owned, h)
  | some memory =>
    if h.running = false then (.error exited, { h with registers := h.latched, memory := none })
    else if h.sent.isSome then (.error .unanswered, h)
    else
      (.ok (),
        { h with registers := h.latched, memory := none, sent := some ⟨h.latched, memory⟩ })

/-- Reads the completion and takes the memory back. With no completion in the slot the call would
not return while the device runs. -/
def wait (h : Handshake) : Except Fault UInt32 × Handshake :=
  match h.returned with
  | some done => (done.answer, { h with memory := some done.memory, returned := none })
  | none => (.error (if h.running then .unanswered else SoftwareDevice.lost), h)

/-- The calls of the program as they meet the slots. -/
def link (operation : Operation) : Link Handshake where
  operation
  kind := .software
  sharesMemory := true
  write h r value := pure (.ok (), { h with registers := h.registers.set r value })
  go h := pure h.go
  wait h := pure h.wait
  lend h := (h.memory, h)
  restore h m := { h with memory := some m }

/-- A step of the device. -/
inductive DeviceStep : Handshake → Handshake → Prop where
  | take {h : Handshake} {c : Command} :
    h.sent = some c → h.running = true → h.working = none →
    DeviceStep h { h with sent := none, working := some c }
  /-- The device finishes a command, once its last completion has been read. -/
  | finish {h : Handshake} {c : Command} {done : Completion} :
    h.working = some c → c.completion? h.operation = some done → h.returned = none →
    DeviceStep h { h with working := none, returned := some done }
  /-- The device panics; what it worked on is lost. -/
  | panic {h : Handshake} {c : Command} :
    h.working = some c → c.completion? h.operation = none →
    DeviceStep h { h with working := none, running := false }

/-- The memory, once for each place that holds it. -/
def held (h : Handshake) : List Memory :=
  h.memory.toList ++ h.sent.toList.map Command.memory ++ h.working.toList.map Command.memory
    ++ h.returned.toList.map Completion.memory

/-- The number of commands and completions on their way. -/
def inFlight (h : Handshake) : Nat :=
  h.sent.toList.length + h.working.toList.length + h.returned.toList.length

/-- The number of steps that the device has yet to make. -/
def deviceWork (h : Handshake) : Nat :=
  2 * h.sent.toList.length + h.working.toList.length

end Handshake

/-- The fault that an answer gives, if any. -/
def Answer.fault? : Answer → Option Fault
  | .done (.error e) | .word (.error e) | .words (.error e) | .sums (.ok (.error e)) _ => some e
  | _ => none

/-- Whether a request is one call of the protocol. -/
def Request.isCall : Request → Bool
  | .configure .. | .trigger | .complete | .access _ => true
  | .transaction _ | .echo _ | .vectorAdd .. => false

/-- A request with its answer and the phase after it. -/
structure Exchange where
  request : Request
  answer : Answer
  phase : Phase

/-- What a program is in the middle of. -/
inductive Task where
  | free
  /-- A transaction that has `rest` still to write. -/
  | loading (operands rest : List (Register × UInt32))
  /-- A transaction whose answer has to be read. -/
  | completing (operands : List (Register × UInt32))

/-- A program and its device. -/
structure System where
  host : Accelerator Handshake
  task : Task := .free

namespace System

/-- The system before its first step. -/
def start (o : Operation) (m : Memory) : System where
  host := { device := .start o m }

/-- One step of the device or one call of the program, with what the program has exchanged by it. A
call that would not return is not a step. -/
inductive Step (o : Operation) : System → Option Exchange → System → Prop where
  | device {s : System} {h : Handshake} :
    s.host.device.DeviceStep h → Step o s none { s with host := { s.host with device := h } }
  | request {s : System} {request : Request} {answer : Answer} {a : Accelerator Handshake} :
    s.task = .free → request.isCall = true →
    (perform (Handshake.link o) s.host request).value = (answer, a) →
    answer.fault? ≠ some .unanswered →
    Step o s (some ⟨request, answer, a.phase⟩) { s with host := a }
  | transaction {s : System} {operands : List (Register × UInt32)} :
    s.task = .free → Step o s none { s with task := .loading operands operands }
  | load {s : System} {operands rest : List (Register × UInt32)} {r : Register} {value : UInt32}
      {a : Accelerator Handshake} :
    s.task = .loading operands ((r, value) :: rest) →
    (s.host.configure (Handshake.link o) r value).value = (.ok (), a) →
    Step o s none ⟨a, .loading operands rest⟩
  | loadFailed {s : System} {operands rest : List (Register × UInt32)} {r : Register}
      {value : UInt32}
      {e : Fault} {a : Accelerator Handshake} :
    s.task = .loading operands ((r, value) :: rest) →
    (s.host.configure (Handshake.link o) r value).value = (.error e, a) → e ≠ .unanswered →
    Step o s (some ⟨.transaction operands, .word (.error e), a.phase⟩) ⟨a, .free⟩
  | trigger {s : System} {operands : List (Register × UInt32)} {a : Accelerator Handshake} :
    s.task = .loading operands [] → (s.host.trigger (Handshake.link o)).value = (.ok (), a) →
    Step o s none ⟨a, .completing operands⟩
  | triggerFailed {s : System} {operands : List (Register × UInt32)} {e : Fault}
      {a : Accelerator Handshake} :
    s.task = .loading operands [] → (s.host.trigger (Handshake.link o)).value = (.error e, a) →
    e ≠ .unanswered →
    Step o s (some ⟨.transaction operands, .word (.error e), a.phase⟩) ⟨a, .free⟩
  | complete {s : System} {operands : List (Register × UInt32)} {x : Except Fault UInt32}
      {a : Accelerator Handshake} :
    s.task = .completing operands → (s.host.complete (Handshake.link o)).value = (x, a) →
    x ≠ .error .unanswered →
    Step o s (some ⟨.transaction operands, .word x, a.phase⟩) ⟨a, .free⟩

/-- Steps one after another, with all that the program has exchanged. -/
inductive Run (o : Operation) : System → List Exchange → System → Prop where
  | refl (s : System) : Run o s [] s
  | tail {s s₁ s₂ : System} {log : List Exchange} {new : Option Exchange} :
    Run o s log s₁ → Step o s₁ new s₂ → Run o s (log ++ new.toList) s₂

end System

end TileBench.Accelerator
