import TileBench.Accelerator.Offload
import TileBench.Dataset.Text
import TileBench.Kernel.Shell
import TileBench.Kernel.Split
import TileBench.Suite.Benchmark
import TileBench.Suite.Report
import TileBench.Suite.Settings
import TileBench.Verify.Reporter

/-!
# Running the suite

Every run has the same shape: a dataset is drawn or read, whatever the kernel runs on is brought up,
the kernel runs in the measured region, and its results are verified. A failure ends a run before
anything is verified. What time the measured region took is given to a run.
-/

namespace TileBench.Suite

open Accelerator (Attachment)

def pattern : UInt32 := 0xdeadbeef

/-- What the measured region leaves to be verified and reported. -/
structure Measured where
  cores : Nat := 1
  size : Nat
  partition : Option Partition := none
  /-- The results, each with its reference. -/
  results : List (List Int × List Int)
  /-- Takes down what the kernel ran on, once the results are verified. -/
  release : Logged Unit := pure ()

abbrev Attempt (α : Type) := ExceptT Failure Checked α

def signed (xs : List Int32) : List Int :=
  xs.map Int32.toInt

def unsigned (xs : List UInt32) : List Int :=
  xs.map fun x => (x.toNat : Int)

/-- Zeros in place of a result that is still to be computed. -/
def blank {α : Type} [OfNat α 0] (size : Nat) : List α :=
  List.replicate size 0

/-- Runs a kernel inside a region that tells how long it took. -/
def timed {α : Type} (label : String) (elapsed : Nat) (kernel : Attempt α) : Attempt α := do
  let region ← Region.on label
  let result ← kernel
  region.off elapsed
  return result

/-- Runs a kernel on a tile with as many cores as the settings say. -/
def measureOnTile (s : Settings) (label : String) (size elapsed : Nat) (reference : List Int32)
    (kernel : Tile → Checked (Except Tile.Fault (Partition × List Int32) × Tile)) :
    Attempt Measured := do
  let topology ← MonadExcept.ofExcept s.topology
  let tile ← Tile.start topology
  let (p, result) ← timed label elapsed do
    match ← kernel tile with
    | (.ok split, _) => return split
    | (.error f, _) =>
      Tile.stop
      throw (.tile f)
  return { cores := tile.cores, size, partition := some p,
           results := [(signed result, signed reference)], release := Tile.stop }

/-- Adds the vectors of a dataset on one core. -/
def measureAdd (d : SumData) (elapsed : Nat) : Attempt Measured := do
  let sums ← timed Benchmark.add.name elapsed <| Kernel.add (blank d.size) d.src0 d.src1
  return { size := d.size, results := [(signed sums, signed d.reference)] }

/-- Multiplies two matrices on one core. -/
def measureMultiply (size elapsed : Nat) : Attempt Measured := do
  let d ← ProductData.generate size Generator.defaultSeed
  let product ← timed Benchmark.multiply.name elapsed <|
    Kernel.multiply size (blank (size * size)) d.a d.b
  return { size, results := [(signed product, signed d.reference)] }

/-- Divides two vectors on one core, first for the quotients and then for the remainders. -/
def measureDivide (size elapsed : Nat) : Attempt Measured := do
  let d ← DivisionData.generate size Generator.defaultSeed
  let (quotients, remainders) ← timed Benchmark.divide.name elapsed do
    let quotients ← Kernel.divide (blank size) d.src0 d.src1
    let remainders ← Kernel.remainders (blank size) d.src0 d.src1
    return (quotients, remainders)
  return { size, results := [(unsigned quotients, unsigned d.quotients),
                             (unsigned remainders, unsigned d.remainders)] }

/-- Sorts a list on one core. -/
def measureSort (size elapsed : Nat) : Attempt Measured := do
  let d ← SortData.generate size Generator.defaultSeed
  let sorted ← timed Benchmark.sort.name elapsed <| Kernel.sort (blank size) d.src
  return { size, results := [(signed sorted, signed d.reference)] }

/-- Runs a kernel on the accelerator that the settings ask for. The files afterwards are part of the
result, since a register window may be one of them. -/
def measureOnAccelerator {α : Type} (s : Settings) (files : Files)
    (operation : Accelerator.Operation) (label : String) (size elapsed : Nat)
    (kernel : Attachment → Checked (Except Accelerator.Fault α × Attachment))
    (results : α → List (List Int × List Int)) : Checked (Except Failure Measured × Files) := do
  match ← Attachment.select files s.selection operation s.window with
  | .error f => return (.error (.accelerator f), files)
  | .ok attached =>
    let region ← Region.on label
    let (answer, attached) ← kernel attached
    let files := attached.flush files s.window
    match answer with
    | .error f =>
      Attachment.release attached.kind
      return (.error (.accelerator f), files)
    | .ok result =>
      region.off elapsed
      return (.ok { size, results := results result,
                    release := Attachment.release attached.kind }, files)

/-- Adds two vectors on the accelerator. -/
def measureOffloadAdd (s : Settings) (files : Files) (size elapsed : Nat) :
    Checked (Except Failure Measured × Files) := do
  let d ← SumData.generate size Generator.defaultSeed
  measureOnAccelerator s files .add Benchmark.offloadAdd.name size elapsed
    (fun attached => attached.use fun link device => do
      let ((answer, sums), a) ←
        Accelerator.vectorAdd link { device } (blank size) d.src0 d.src1
      return (answer.map fun _ => sums, a.device))
    (fun sums => [(signed sums, signed d.reference)])

/-- Sends a fixed word to the null accelerator and reads it back. -/
def measureEcho (s : Settings) (files : Files) (size elapsed : Nat) :
    Checked (Except Failure Measured × Files) :=
  measureOnAccelerator s files .null Benchmark.echo.name size elapsed
    (fun attached => attached.use fun link device => do
      let (answer, a) ← Accelerator.echo link { device } pattern
      return (answer, a.device))
    (fun w => [(unsigned [w], unsigned [pattern])])

/-- The measured region of a benchmark, with the operands drawn before it. -/
def measure (b : Benchmark) (s : Settings) (files : Files) (elapsed : Nat) :
    Checked (Except Failure Measured × Files) :=
  let size := s.size.getD b.defaultSize
  let policy := s.policy.getD b.defaultPolicy
  match b with
  | .tileAdd => apart do
    let d ← SumData.generate size Generator.defaultSeed
    measureOnTile s b.name size elapsed d.reference fun tile =>
      Kernel.addOnTile tile policy (blank size) d.src0 d.src1
  | .tileMultiply => apart do
    let d ← ProductData.generate size Generator.defaultSeed
    measureOnTile s b.name size elapsed d.reference fun tile =>
      Kernel.multiplyOnTile tile policy size (blank (size * size)) d.a d.b
  | .add => apart do
    let d ← SumData.generate size Generator.defaultSeed
    measureAdd d elapsed
  | .multiply => apart (measureMultiply size elapsed)
  | .divide => apart (measureDivide size elapsed)
  | .sort => apart (measureSort size elapsed)
  | .offloadAdd => measureOffloadAdd s files size elapsed
  | .echo => measureEcho s files size elapsed
where
  /-- A part of a run that leaves the files alone. -/
  apart (attempt : Attempt Measured) : Checked (Except Failure Measured × Files) := do
    return (← attempt.run, files)

/-- Verifies what the measured region left and reports it. -/
def conclude (name : String) (elapsed : Nat) (reporter : Reporter) (m : Measured) :
    Logged (Report × Reporter) := do
  let (verdicts, reporter) ← reporter.verifyAll m.results
  m.release
  let report : Report := ⟨name, m.cores, m.size, m.partition.map Partition.text, elapsed, verdicts⟩
  report.log
  return (report, reporter)

/-- What a run leaves behind. -/
structure Finished where
  result : Except Failure Report
  reporter : Reporter
  files : Files

/-- Verifies and reports what was measured, unless there was a failure before. -/
def finish (name : String) (elapsed : Nat) (reporter : Reporter) (files : Files)
    (measured : Except Failure Measured) : Logged Finished := do
  match measured with
  | .error e => return ⟨.error e, reporter, files⟩
  | .ok m =>
    let (report, reporter) ← conclude name elapsed reporter m
    return ⟨.ok report, reporter, files⟩

/-- Runs a benchmark on operands that are drawn for it. -/
def run (b : Benchmark) (s : Settings) (files : Files) (elapsed : Nat) (reporter : Reporter) :
    Checked Finished := do
  let (measured, files) ← measure b s files elapsed
  finish b.name elapsed reporter files measured

/-- Adds the vectors of a dataset that is read from a file. -/
def runFile (path : String) (files : Files) (elapsed : Nat) (reporter : Reporter) :
    Checked Finished := do
  let measured ← ExceptT.run do
    let d ← ExceptT.mk (SumData.load files SumData.fileCapacity path)
    Logged.info s!"Loaded {d.size} elements from {path}"
    measureAdd d elapsed
  finish Benchmark.add.name elapsed reporter files measured

end TileBench.Suite
