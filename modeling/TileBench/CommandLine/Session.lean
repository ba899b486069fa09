import TileBench.CommandLine.Arguments
import TileBench.Suite.Run

/-!
# Sessions

A session is one run of a program: it shows lines, works on files and ends in one of a few ways. An
error is reported with the chain of what caused it.
-/

namespace TileBench.CommandLine

/-- What a session shows. -/
inductive Shown where
  | line (text : String)
  | event (e : Event)
  deriving DecidableEq, Repr

/-- How a session ends early. -/
inductive Stop where
  /-- The words of the command line are not carried out. -/
  | halted (h : Halt)
  /-- Something failed, for reasons that lie behind one another. -/
  | failed (reason : String) (causes : List String)
  | panicked (p : Panic)
  deriving DecidableEq, Repr

/-- What changes during a session. -/
structure Stage where
  files : Files
  shown : List Shown := []
  /-- The benchmarks that were started, with their settings. -/
  started : List (Benchmark × Settings) := []

abbrev Session (α : Type) := ExceptT Stop (StateM Stage) α

/-- What a session leaves behind. -/
structure Transcript where
  /-- How the session ended early, if it did. -/
  stop : Option Stop
  shown : List Shown
  files : Files
  /-- The benchmarks that were started, with their settings. -/
  started : List (Benchmark × Settings)

namespace Stop

/-- The lines of a cause behind its mark; further lines of the cause stand under the first. -/
def causeLines (number : Option Nat) (cause : String) : List String :=
  let mark := match number with
    | some n => Text.padLeft 5 (toString n) ++ ": "
    | none => "    "
  let margin := String.ofList (List.replicate mark.length ' ')
  match cause.splitOn "\n" with
  | [] => []
  | first :: rest => (mark ++ first) :: rest.map (margin ++ ·)

/-- The part of an error's report that names its causes, which are numbered if there are several. -/
def chainLines : List String → List String
  | [] => []
  | [cause] => ["", "Caused by:"] ++ causeLines none cause
  | causes =>
    ["", "Caused by:"] ++ causes.zipIdx.flatMap fun (cause, n) => causeLines (some n) cause

/-- The lines that report why a session ended early. -/
def lines : Stop → List String
  | .halted h => [s!"error: {h.message}"]
  | .failed reason causes => (s!"Error: {reason}").splitOn "\n" ++ chainLines causes
  | .panicked p => [s!"panicked: {p.message}"]

def status : Stop → Nat
  | .halted .help => 0
  | .halted _ => 2
  | .failed .. => 1
  | .panicked _ => 101

end Stop

def Transcript.status (t : Transcript) : Nat :=
  t.stop.elim 0 Stop.status

namespace Session

def transcript (session : Session Unit) (files : Files) : Transcript :=
  match session.run { files } with
  | (.ok (), stage) => ⟨none, stage.shown, stage.files, stage.started⟩
  | (.error stop, stage) => ⟨some stop, stage.shown, stage.files, stage.started⟩

def display (items : List Shown) : Session Unit :=
  modify fun stage => { stage with shown := stage.shown ++ items }

def print (text : String) : Session Unit :=
  display [.line text]

/-- Shows the events of a computation and goes on with its result. -/
def logged {α : Type} (x : Logged α) : Session α := do
  display (x.events.map .event)
  return x.value

/-- Shows the events of a computation and ends the session where it panicked. -/
def checked {α : Type} (x : Checked α) : Session α := do
  match ← logged x.run with
  | .ok a => return a
  | .error p => throw (.panicked p)

def fail {α : Type} (reason : String) (causes : List String) : Session α :=
  throw (.failed reason causes)

/-- Ends the session with the failure of a run, perhaps behind what was tried. -/
def failure {α : Type} (e : Failure) (trying : Option String) : Session α :=
  match trying with
  | none => fail e.message e.cause?.toList
  | some t => fail t (e.message :: e.cause?.toList)

def files : Session Files := do
  return (← get).files

def setFiles (files : Files) : Session Unit :=
  modify fun stage => { stage with files }

def note (b : Benchmark) (s : Settings) : Session Unit :=
  modify fun stage => { stage with started := stage.started ++ [(b, s)] }

/-- Finishes a run of the suite; its failure ends the session. -/
def finish (x : Checked Suite.Finished) (trying : Option String) : Session (Report × Reporter) := do
  let f ← checked x
  setFiles f.files
  match f.result with
  | .ok report => return (report, f.reporter)
  | .error e => failure e trying

end Session

end TileBench.CommandLine
