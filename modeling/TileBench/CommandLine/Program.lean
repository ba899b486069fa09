import TileBench.CommandLine.Command
import TileBench.CommandLine.Session

/-!
# Programs

There are three programs: one that takes commands, and two older ones that run the benchmarks for
several cores and for one core. The older ones look for their options anywhere among their words and
pass over what they cannot read. How long the measured region of each benchmark takes is given to a
program.
-/

namespace TileBench.CommandLine

/-- A program of the suite. -/
inductive Program where
  | main
  | multiCore
  | singleCore
  deriving DecidableEq, Repr

def Program.ofName? : String → Option Program
  | "tinyrv" => some .main
  | "mtbmark" => some .multiCore
  | "ubmark" => some .singleCore
  | _ => none

/-- What a program finds when it starts. -/
structure Surroundings where
  lookup : String → Option String
  /-- The time of the measured region of a benchmark in microseconds. -/
  elapsed : Benchmark → Nat

namespace Program

open Session (print logged checked fail failure files setFiles finish)

variable (around : Surroundings)

def runBenchmark (b : Benchmark) (s : Settings) (reporter : Reporter) (trying : Option String) :
    Session (Report × Reporter) := do
  Session.note b s
  finish (Suite.run b s (← files) (around.elapsed b) reporter) trying

def runFile (path : String) (reporter : Reporter) : Session (Report × Reporter) := do
  finish (Suite.runFile path (← files) (around.elapsed .add) reporter) (some s!"vvadd on {path}")

def benchmarkOf (name : String) : Session Benchmark :=
  match Benchmark.ofName name with
  | .ok b => pure b
  | .error e => failure e none

def listText (ns : List Nat) : String :=
  "[" ++ ", ".intercalate (ns.map toString) ++ "]"

def printReport (r : Report) : Session Unit := do
  print r.text
  if let some p := r.partition then
    print s!"  partition    : {p}"

def list : Session Unit := do
  print "Multi-core benchmarks:"
  for b in Benchmark.multiCore do
    let name := Text.padRight 12 b.name
    let size := Text.padRight 4 (toString b.defaultSize)
    print s!"  {name} size={size} policy={b.defaultPolicy.name}"
  print "Single-core benchmarks:"
  for b in Benchmark.singleCore do
    let name := Text.padRight 12 b.name
    print s!"  {name} size={b.defaultSize}"
  print ""
  print s!"Core counts    : {listText CoreCount.supported}"
  print s!"Tail splits on : {listText CoreCount.evenSplit} (wider tiles run on core 0)"

def writeControlWords (reporter : Reporter) (path : String) : Session Unit := do
  match reporter with
  | .control stream =>
    match (← files).write path stream with
    | .error e => fail s!"writing {path}" [e.message]
    | .ok fs =>
      setFiles fs
      print s!"Control words  : {stream.length / 4} → {path}"
  | _ => pure ()

def statusOf (r : Report) : UInt16 :=
  if r.passed then 0 else 1

def run (name : String) (s : Settings) (file controlWords : Option String) : Session Unit := do
  let b ← benchmarkOf name
  let reporter := if controlWords.isSome then Reporter.control [] else .log 0
  let (report, reporter) ← match file with
    | none => runBenchmark around b s reporter none
    | some path =>
      if b = .add then runFile around path reporter
      else fail "--file only applies to vvadd" []
  printReport report
  if let some path := controlWords then
    writeControlWords (reporter.exit (statusOf report)) path
  if !report.passed then
    fail s!"{b.name} failed verification" []

def notRun (b : Benchmark) : Option String :=
  some s!"{b.name} failed to run"

def suite (s : Settings) : Session Unit := do
  print s!"TinyRV suite: {s.cores} cores"
  print ""
  let mut failed : List String := []
  for b in Benchmark.all do
    let (report, _) ← runBenchmark around b s (.log 0) (notRun b)
    printReport report
    if !report.passed then
      failed := failed ++ [b.name]
  if !failed.isEmpty then
    let names := ", ".intercalate failed
    fail s!"failed: {names}" []

def showPartition (size cores : Nat) (policy : Policy) : Session Unit := do
  let p ← logged (Partition.make size cores policy)
  let name := Text.padRight 9 policy.name
  let remark := if p.fallback then " (core 0 only)" else ""
  print s!"{name} {size} over {cores} cores{remark}"
  for (r, c) in p.ranges.zipIdx do
    let core := Text.padRight 6 (Core.name c)
    let range := Text.padRight 12 r.text
    print s!"  {core} {range} {r.size} elements"
  print s!"  imbalance  {p.imbalance}"

/-- Reads a word, in hexadecimal behind `0x`; underscores between its digits are passed over. -/
def readWord (text : String) : Except Text.Numeral.Cause UInt32 :=
  let bare (cs : List Char) := cs.filter (· != '_')
  match text.toList with
  | '0' :: 'x' :: cs | '0' :: 'X' :: cs => Text.Numeral.readWord 16 (bare cs)
  | cs => Text.Numeral.readWord 10 (bare cs)

def echo (text : String) (selection : Accelerator.Selection) (window : String) : Session Unit := do
  match readWord text with
  | .error c => fail s!"invalid value '{text}'" [c.message]
  | .ok value =>
    match ← logged (Accelerator.Attachment.select (← files) selection .null window) with
    | .error f => fail f.message []
    | .ok attached =>
      print s!"Backend : {attached.kind.name}"
      let (answer, attached) ← logged <| attached.use fun link device => do
        let (answer, a) ← Accelerator.echo link { device } value
        return (answer, a.device)
      setFiles (attached.flush (← files) window)
      let release := logged (Accelerator.Attachment.release attached.kind)
      match answer with
      | .error f =>
        release
        fail f.message []
      | .ok word =>
        print s!"xr0 <- {Text.hexWord value}"
        print s!"xr0 -> {Text.hexWord word}"
        release
        if word ≠ value then
          fail s!"null accelerator returned {Text.hexWord word}, expected {Text.hexWord value}" []

def messageText : ControlMessage → String
  | .pass => "[PASSED]"
  | .fail index actual expected =>
    s!"[FAILED] dest[{index.toNat}] != ref[{index.toNat}] ({actual.toNat} != {expected.toNat})"
  | .exit status => s!"exit {status.toNat}"

def decode (path : String) : Session Unit := do
  match (← files).read path with
  | .error e => fail s!"reading {path}" [e.message]
  | .ok bytes =>
    match ControlMessage.decode bytes with
    | .error m => failure (.tile (.controlStream m.message)) none
    | .ok messages =>
      for m in messages do
        print (messageText m)

def carryOut : Command → Session Unit
  | .version => print "tinyrv 0.1.0"
  | .list => list
  | .run benchmark s file controlWords => run around benchmark s file controlWords
  | .suite s => suite around s
  | .partition size cores policy =>
    for p in policy.elim Policy.all ([·]) do showPartition size cores p
  | .echo value selection window => echo value selection window
  | .decode file => decode file

def mainSession (words : List String) : Session Unit := do
  match Command.read around.lookup words with
  | .error h => throw (.halted h)
  | .ok command => carryOut around command

/-- The word that follows the first `name` among some words. -/
def wordAfter? (name : String) : List String → Option String
  | word :: next :: rest => if word = name then some next else wordAfter? name (next :: rest)
  | _ => none

/-- The value of an option, where it is there and can be read. -/
def optionOr {α : Type} (words : List String) (name : String) (read : String → Except String α)
    (default : α) : α :=
  match (wordAfter? name words).map read with
  | some (.ok x) => x
  | _ => default

def selected (words : List String) (otherwise : List Benchmark) : Session (List Benchmark) :=
  match words with
  | word :: _ => if word.startsWith "--" then pure otherwise else return [← benchmarkOf word]
  | [] => pure otherwise

def settings : Session Settings :=
  match ({} : Settings).overlay around.lookup with
  | .ok s => pure s
  | .error e => failure e none

/-- The settings of one benchmark: a size among the words goes before that of the environment, and
that before its own. -/
def sized (words : List String) (s : Settings) (b : Benchmark) : Settings :=
  { s with size := some <|
      optionOr words "--size" Settings.readSize (s.size.getD b.defaultSize) }

/-- The words of a control stream as they are shown. -/
def controlLines (stream : List UInt8) : List String :=
  ((Bytes.words? stream).getD []).map fun w => s!"  ctrl <- {Text.hexWord w}"

def conclude (reports : List Report) : Session Unit := do
  let failed := (reports.filter fun r => !r.passed).length
  if failed > 0 then
    fail s!"{failed} benchmark(s) failed" []

/-- Runs one benchmark for several cores and shows its control words on demand. -/
def runMultiCore (words : List String) (s : Settings) (b : Benchmark) : Session Report := do
  let policy := optionOr words "--policy" Settings.readPolicy (s.policy.getD b.defaultPolicy)
  let s := { sized words s b with policy := some policy }
  if words.contains "--control-words" then
    let (report, reporter) ← runBenchmark around b s (.control []) none
    if let .control stream := reporter.exit (statusOf report) then
      for text in controlLines stream do print text
    return report
  else
    return (← runBenchmark around b s (.log 0) none).1

/-- The program of the benchmarks for several cores. -/
def multiCoreSession (words : List String) : Session Unit := do
  let benchmarks ← selected words Benchmark.multiCore
  let s ← settings around
  let s := { s with cores := optionOr words "--cores" Settings.readSize s.cores }
  print "TinyRV multi-core micro-benchmarks"
  print "=================================="
  print s!"Cores          : {s.cores}"
  print ""
  let reports ← benchmarks.mapM fun b => do
    let report ← runMultiCore around words s b
    printReport report
    return report
  conclude reports

/-- Shows a report and the results in it that did not pass. -/
def printResults (r : Report) : Session Unit := do
  print r.text
  for (v, i) in r.verdicts.zipIdx do
    if !v.passed then
      print s!"  output {i}     : {v.mismatches.length} of {v.checked} elements wrong"

def runSingleCore (words : List String) : Session (List Report) := do
  let benchmarks ← selected words Benchmark.singleCore
  let s ← settings around
  let s := { s with
    selection := optionOr words "--backend" Settings.readSelection s.selection
    window := optionOr words "--window" Arguments.readText s.window }
  print s!"Backend        : {s.selection.name}"
  print ""
  benchmarks.mapM fun b => do
    return (← runBenchmark around b (sized words s b) (.log 0) (notRun b)).1

def singleCoreSession (words : List String) : Session Unit := do
  print "TinyRV micro-benchmarks"
  print "======================="
  let reports ← match wordAfter? "--file" words with
    | some path =>
      print s!"Dataset        : {path}"
      print ""
      let (report, _) ← runFile around path (.log 0)
      pure [report]
    | none => runSingleCore around words
  for r in reports do printResults r
  conclude reports

/-- Runs a program with some words on some files. -/
def transcript (p : Program) (words : List String) (fs : Files) : Transcript :=
  let session := match p with
    | .main => mainSession around words
    | .multiCore => multiCoreSession around words
    | .singleCore => singleCoreSession around words
  session.transcript fs

end Program

end TileBench.CommandLine
