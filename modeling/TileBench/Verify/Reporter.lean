import TileBench.Event
import TileBench.Verify.Verdict

/-!
# Reporters

A reporter receives the signals of comparisons, one after another, and may be told that the program
ends. It keeps the signals, or sends them as control messages, or only logs them and counts the
failures.
-/

namespace TileBench

/-- What receives the signals. -/
inductive Reporter where
  /-- Keeps the number of passes and every failure, the latest last. -/
  | collect (passes : Nat) (failures : List Mismatch)
  /-- Sends control messages; the bytes sent so far. -/
  | control (stream : List UInt8)
  /-- Logs the signals; the number of failures so far. -/
  | log (failures : Nat)
  deriving DecidableEq, Repr

namespace Reporter

def failureText (m : Mismatch) : String :=
  s!"[FAILED] dest[{m.index}] != ref[{m.index}] ({m.actual} != {m.expected})"

/-- A reporter takes a signal in its own way. -/
def receive (r : Reporter) (s : Signal) : Logged Reporter :=
  match r, s with
  | .collect passes failures, .fail m => pure (.collect passes (failures ++ [m]))
  | .collect passes failures, .pass => pure (.collect (passes + 1) failures)
  | .control stream, s => pure (.control (stream ++ ControlMessage.encode [s.message]))
  | .log failures, .fail m => do
    Logged.warn (failureText m)
    return .log (failures + 1)
  | .log failures, .pass => do
    Logged.info "[PASSED]"
    return .log failures

/-- Sends the message that ends a program; only control messages can say so. -/
def exit (r : Reporter) (status : UInt16) : Reporter :=
  match r with
  | .control stream => .control (stream ++ ControlMessage.encode [.exit status])
  | r => r

/-- What a program tells its reporter. -/
inductive Call where
  | signal (s : Signal)
  /-- The program ends. -/
  | exit (status : UInt16)
  deriving DecidableEq, Repr

/-- The control message that a call sends. -/
def Call.message : Call → ControlMessage
  | .signal s => s.message
  | .exit status => .exit status

/-- A call that sends a control message. -/
def Call.ofMessage : ControlMessage → Call
  | .pass => .signal .pass
  | .fail index actual expected => .signal (.fail ⟨index.toNat, actual.toNat, expected.toNat⟩)
  | .exit status => .exit status

/-- Makes a call on a reporter. -/
def call (r : Reporter) : Call → Logged Reporter
  | .signal s => r.receive s
  | .exit status => pure (r.exit status)

/-- Tells a reporter several things, in order. -/
def callAll (r : Reporter) (calls : List Call) : Logged Reporter :=
  calls.foldlM call r

/-- Compares a result with its reference and reports the outcome. -/
def verify (r : Reporter) (actual expected : List Int) : Logged (Verdict × Reporter) := do
  let verdict := Verdict.of actual expected
  let r ← (verdict.mismatches.map Signal.fail).foldlM receive r
  if let some (a, e) := verdict.lengths then
    Logged.warn s!"result has {a} elements, reference has {e}"
  if verdict.passed then
    return (verdict, ← r.receive .pass)
  else
    return (verdict, r)

/-- Compares several results with their references, in order. -/
def verifyAll (r : Reporter) : List (List Int × List Int) → Logged (List Verdict × Reporter)
  | [] => pure ([], r)
  | (actual, expected) :: rest => do
    let (verdict, r) ← r.verify actual expected
    let (verdicts, r) ← r.verifyAll rest
    return (verdict :: verdicts, r)

end Reporter

end TileBench
