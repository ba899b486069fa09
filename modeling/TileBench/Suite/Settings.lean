import TileBench.Accelerator.Attachment
import TileBench.Failure
import TileBench.Text.Basic
import TileBench.Text.Numeral
import TileBench.Tile.Topology
import TileBench.Work.Policy

/-!
# Settings

A run has settings that are read in layers: the defaults, then the variables of the environment,
then what the command line says. A later layer wins.
-/

namespace TileBench

/-- The settings of a run. -/
structure Settings where
  cores : Nat := 4
  /-- The size of the problem; a benchmark has a size of its own. -/
  size : Option Nat := none
  /-- The partition policy; a benchmark has a policy of its own. -/
  policy : Option Policy := none
  selection : Accelerator.Selection := .auto
  window : String := "/dev/uio0"
  deriving DecidableEq, Repr

namespace Settings

def coresVariable : String := "TINYRV_NUM_CORES"

def sizeVariable : String := "TINYRV_SIZE"

def policyVariable : String := "TINYRV_POLICY"

def selectionVariable : String := "TINYRV_BACKEND"

def readSize (text : String) : Except String Nat :=
  (Text.Numeral.readSize text.toList).mapError Text.Numeral.Cause.message

def readPolicy (text : String) : Except String Policy :=
  match Policy.ofName? text with
  | some p => .ok p
  | none => .error (Policy.unknown text)

def readSelection (text : String) : Except String Accelerator.Selection :=
  match Accelerator.Selection.ofName? text with
  | some s => .ok s
  | none => .error (Accelerator.Selection.unknown text)

/-- Reads a variable, if it is set, without the blanks at its ends. -/
def readVariable {α : Type} (lookup : String → Option String) (name : String)
    (read : String → Except String α) : Except Failure (Option α) :=
  match lookup name with
  | none => .ok none
  | some value =>
    match read (String.ofList (Text.trim value.toList)) with
    | .ok x => .ok (some x)
    | .error reason => .error (.config s!"{name}={value}: {reason}")

def overlay (s : Settings) (lookup : String → Option String) : Except Failure Settings := do
  let cores ← readVariable lookup coresVariable readSize
  let size ← readVariable lookup sizeVariable readSize
  let policy ← readVariable lookup policyVariable readPolicy
  let selection ← readVariable lookup selectionVariable readSelection
  return { s with
    cores := cores.getD s.cores
    size := size.or s.size
    policy := policy.or s.policy
    selection := selection.getD s.selection }

def topology (s : Settings) : Except Failure Topology :=
  (Topology.ofCount s.cores).mapError .tile

end Settings

end TileBench
