import TileBench.CommandLine.Program

/-!
# The executable

The first word names one of the programs, and the others are the words of that program. The files
that the words name are read before the program runs, and those that it changed are written
afterwards. The program runs twice: a first time to see which benchmarks it starts, each of which is
then timed, and a second time with these times.
-/

namespace TileBench.CommandLine

/-- The paths among some words: the words themselves and what stands behind an equals sign. -/
def namedPaths (words : List String) : List String :=
  words.flatMap fun word => word :: (Arguments.splitOption word).2.toList

def pathOf (location : Location) : String :=
  "/" ++ "/".intercalate location

/-- What stands at a location outside; the devices are known without looking. -/
def lookAt (location : Location) : IO (Option Entry) := do
  let place := (← IO.currentDir) / pathOf location
  if location.head? = some "dev" then return none
  else if ← place.isDir then return some .directory
  else if ← place.pathExists then return some (.file (← IO.FS.readBinFile place).toList)
  else return none

/-- The files that some words name, and what lies on the way to them. -/
def filesNamed (words : List String) : IO Files := do
  let working := (Path.read (← IO.currentDir).toString).goal []
  let mut files : Files := { working }
  for word in namedPaths words do
    let path := Path.read word
    for count in List.range (path.steps.length + 1) do
      let location := Path.goalOf (path.origin working) (path.steps.take count)
      if let some entry ← lookAt location then
        files := files.put location entry
  return files

def writeChanged (old new : Files) : IO Unit := do
  for (location, entry) in new.entries do
    if let .file bytes := entry then
      if old.entries.lookup location ≠ some entry then
        IO.FS.writeBinFile ((← IO.currentDir) / pathOf location) ⟨bytes.toArray⟩

/-- The variables of the environment that a program looks at. -/
def environment : IO (List (String × String)) := do
  let names := [Settings.coresVariable, Settings.sizeVariable, Settings.policyVariable,
    Settings.selectionVariable]
  names.filterMapM fun name => do
    return (← IO.getEnv name).map fun value => (name, value)

/-- Runs a benchmark and gives the time that it took in microseconds. -/
def timeOf (files : Files) (b : Benchmark) (s : Settings) : IO Nat := do
  let start ← IO.monoNanosNow
  let _ ← IO.lazyPure fun _ => (Suite.run b s files 0 (.log 0)).run
  let stop ← IO.monoNanosNow
  return (stop - start) / 1000

/-- Shows what a session shows: lines where results go, and warnings where errors go. -/
def put : Shown → IO Unit
  | .line text => IO.println text
  | .event e => if e.level = .warn then IO.eprintln e.line else pure ()

def runProgram (p : Program) (words : List String) : IO UInt32 := do
  let files ← filesNamed words
  let found ← environment
  let lookup (name : String) := found.lookup name
  let rehearsal := p.transcript ⟨lookup, fun _ => 0⟩ words files
  let times ← rehearsal.started.mapM fun (b, s) => do return (b, ← timeOf files b s)
  let t := p.transcript ⟨lookup, fun b => (times.lookup b).getD 0⟩ words files
  t.shown.forM put
  if t.stop = some (.halted .help) then
    Command.usage.forM (IO.println ·)
  else
    (t.stop.elim [] Stop.lines).forM (IO.eprintln ·)
  writeChanged files t.files
  return UInt32.ofNat t.status

end TileBench.CommandLine

open TileBench.CommandLine in
def main (words : List String) : IO UInt32 := do
  match words with
  | [] => return 2
  | name :: words =>
    match Program.ofName? name with
    | some p => runProgram p words
    | none => return 2
