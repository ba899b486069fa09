import TileBench.Event
import TileBench.Text.Field
import TileBench.Verify.Verdict

/-!
# Reports

The report of a run holds one verdict for each result that was verified, and the time that the
measured region took.
-/

namespace TileBench

/-- The region of a run whose time is measured. -/
structure Region where
  label : String
  deriving DecidableEq, Repr

namespace Region

def on (label : String) : Logged Region := do
  Logged.debug s!"stats on: {label}"
  return ⟨label⟩

/-- Closes a region that took some microseconds. -/
def off (r : Region) (elapsed : Nat) : Logged Unit :=
  Logged.debug s!"stats off: {r.label} ({elapsed} µs)"

end Region

/-- The outcome of one run. -/
structure Report where
  name : String
  cores : Nat
  size : Nat
  /-- The partition of the work, where it was split. -/
  partition : Option String
  /-- The time of the measured region in microseconds. -/
  elapsed : Nat
  verdicts : List Verdict
  deriving DecidableEq, Repr

namespace Report

def passed (r : Report) : Bool :=
  r.verdicts.all Verdict.passed

def mismatches (r : Report) : Nat :=
  r.verdicts.foldl (fun count v => count + v.mismatches.length) 0

def text (r : Report) : String :=
  let name := Text.padRight 12 r.name
  let cores := Text.padRight 2 (toString r.cores)
  let size := Text.padRight 5 (toString r.size)
  let elapsed := Text.padLeft 8 (toString r.elapsed)
  let outcome := if r.passed then "[PASSED]" else "[FAILED]"
  s!"{name} cores={cores} size={size} {elapsed} µs  {outcome}"

def log (r : Report) : Logged Unit := do
  if r.passed then Logged.info r.text
  else Logged.warn s!"{r.text} ({r.mismatches} mismatches)"
  if let some p := r.partition then
    Logged.info s!"  partition: {p}"

end Report

end TileBench
