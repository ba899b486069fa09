import TileBench.CommandLine.Arguments
import TileBench.Suite.Settings

/-!
# Commands

The main program has one command for each thing it can do. A setting that the command line leaves
open is taken from the environment, where it has to be written without blanks around it.
-/

namespace TileBench.CommandLine

/-- A command of the main program. -/
inductive Command where
  | version
  | list
  | run (benchmark : String) (settings : Settings) (file controlWords : Option String)
  | suite (settings : Settings)
  | partition (size cores : Nat) (policy : Option Policy)
  | echo (value : String) (selection : Accelerator.Selection) (window : String)
  | decode (file : String)
  deriving DecidableEq, Repr

namespace Command

def usage : List String :=
  ["tinyrv list", "tinyrv run BENCHMARK [SETTINGS] [--file PATH] [--control-words PATH]",
   "tinyrv suite [SETTINGS]", "tinyrv partition SIZE [--cores N] [--policy POLICY]",
   "tinyrv xcel VALUE [--backend BACKEND] [--window PATH]", "tinyrv decode FILE",
   "settings: [--cores N] [--size N] [--policy POLICY] [--backend BACKEND] [--window PATH]"]

def coresOption : Parameter Nat := ⟨"--cores", Settings.readSize⟩

def sizeOption : Parameter Nat := ⟨"--size", Settings.readSize⟩

def policyOption : Parameter Policy := ⟨"--policy", Settings.readPolicy⟩

def selectionOption : Parameter Accelerator.Selection := ⟨"--backend", Settings.readSelection⟩

def windowOption : Parameter String := ⟨"--window", Arguments.readPath⟩

def fileOption : Parameter String := ⟨"--file", Arguments.readPath⟩

def controlWordsOption : Parameter String := ⟨"--control-words", Arguments.readPath⟩

def benchmarkOperand : Parameter String := ⟨"benchmark", Arguments.readText⟩

def domainOperand : Parameter Nat := ⟨"size", Settings.readSize⟩

def wordOperand : Parameter String := ⟨"value", Arguments.readText⟩

def streamOperand : Parameter String := ⟨"file", Arguments.readPath⟩

def settingRules : List Rule :=
  [coresOption.rule, sizeOption.rule, policyOption.rule, selectionOption.rule, windowOption.rule]

def readSettings (lookup : String → Option String) (a : Arguments) : Except Halt Settings := do
  let defaults : Settings := {}
  let cores ← a.value coresOption (lookup Settings.coresVariable)
  let size ← a.value sizeOption (lookup Settings.sizeVariable)
  let policy ← a.value policyOption (lookup Settings.policyVariable)
  let selection ← a.value selectionOption (lookup Settings.selectionVariable)
  let window ← a.value windowOption none
  return { cores := cores.getD defaults.cores, size, policy,
           selection := selection.getD defaults.selection, window := window.getD defaults.window }

def readRest (lookup : String → Option String) (name : String) (words : List String) :
    Except Halt Command := do
  let defaults : Settings := {}
  match name with
  | "list" =>
    let _ ← Arguments.read {} {} words
    return .list
  | "run" =>
    let rules := settingRules ++ [fileOption.rule, controlWordsOption.rule]
    let a ← Arguments.read ⟨rules, benchmarkOperand.rule⟩ {} words
    let benchmark ← a.required benchmarkOperand
    let settings ← readSettings lookup a
    let file ← a.value fileOption none
    let controlWords ← a.value controlWordsOption none
    return .run benchmark settings file controlWords
  | "suite" =>
    let a ← Arguments.read ⟨settingRules, none⟩ {} words
    return .suite (← readSettings lookup a)
  | "partition" =>
    let a ← Arguments.read ⟨[coresOption.rule, policyOption.rule], domainOperand.rule⟩ {} words
    let size ← a.required domainOperand
    let cores ← a.value coresOption none
    let policy ← a.value policyOption none
    return .partition size (cores.getD defaults.cores) policy
  | "xcel" =>
    let a ← Arguments.read ⟨[selectionOption.rule, windowOption.rule], wordOperand.rule⟩ {} words
    let value ← a.required wordOperand
    let selection ← a.value selectionOption none
    let window ← a.value windowOption none
    return .echo value (selection.getD defaults.selection) (window.getD defaults.window)
  | "decode" =>
    let a ← Arguments.read ⟨[], streamOperand.rule⟩ {} words
    return .decode (← a.required streamOperand)
  | _ => throw (.unknownCommand name)

def names : List String := ["list", "run", "suite", "partition", "xcel", "decode", "help"]

/-- What comes of asking for help, perhaps about a command. No command has commands of its own. -/
def help : List String → Halt
  | [] => .help
  | [word] => if word ∈ names then .help else .unknownCommand word
  | word :: other :: _ => .unknownCommand (if word ∈ names then other else word)

def read (lookup : String → Option String) : List String → Except Halt Command
  | [] => .error .missingCommand
  | word :: words =>
    if word = "help" then .error (help words)
    else if word = "--help" ∨ word.startsWith "-h" = true then .error .help
    else if word = "--version" ∨ word.startsWith "-V" = true then .ok .version
    else if Arguments.isOption word then .error (.unknownOption word)
    else readRest lookup word words

end Command

end TileBench.CommandLine
