import TileBench.Dataset.Basic
import TileBench.Failure
import TileBench.Files
import TileBench.Text.Basic
import TileBench.Text.Numeral

/-!
# Datasets as text

A dataset of two vectors and their sum is written as its size and three runs of that many integers,
with blanks between them. Line ends carry no meaning, and what follows the runs is not read.
-/

namespace TileBench.SumData

open Text

/-- The largest dataset that a benchmark reads from a file. -/
def fileCapacity : Nat := 105

/-- Reads integers, the first of which is the token at `index`. -/
def readValues (index : Nat) : List (List Char) → Except Failure (List Int32)
  | [] => .ok []
  | token :: rest =>
    match Numeral.readInt32 token with
    | .error c => .error (.parse index s!"'{String.ofList token}': {c.message}")
    | .ok x => (readValues (index + 1) rest).map (x :: ·)

/-- Reads the first token as a size of at most the capacity. -/
def readHead (capacity : Nat) (token : List Char) : Except Failure Nat :=
  match Numeral.readSize token with
  | .error c => .error (.parse 0 s!"size '{String.ofList token}': {c.message}")
  | .ok size => if capacity < size then .error (.tooLarge size capacity) else .ok size

/-- Values in runs of one width; those after the last whole run are left out. -/
def runs (width : Nat) (values : List Int32) : List (List Int32) :=
  Partition.pieces (List.replicate (values.length / width) width) values

/-- The dataset of a size whose values are given: their first three runs, where a run that is
missing has no values. -/
def ofValues (size : Nat) (values : List Int32) : SumData :=
  -- Values cannot be cut into runs of none; a dataset of none has no values either.
  let rs := runs (max size 1) values
  ⟨rs[0]?.getD [], rs[1]?.getD [], rs[2]?.getD []⟩

/-- Reads a dataset from its tokens. It panics where the number of its values is no size. -/
def ofTokens (capacity : Nat) : List (List Char) → Except Panic (Except Failure SumData)
  | [] => return .error (.truncated 1 0)
  | head :: rest =>
    match readHead capacity head with
    | .error e => return .error e
    | .ok size => do
      let count ← checkedMul 3 size
      match readValues 1 (rest.take count) with
      | .error e => return .error e
      | .ok values =>
        if values.length < count then
          return .error (.truncated (← checkedAdd 1 count) (1 + values.length))
        else return .ok (ofValues size values)

/-- Reads a dataset of at most `capacity` elements from the bytes of a text. -/
def read (capacity : Nat) (bytes : List UInt8) : Except Panic (Except Failure SumData) :=
  match decode? bytes with
  | none => .ok (.error (.io FileFault.notText.message))
  | some text => ofTokens capacity (words text.toList)

def report (d : SumData) : Logged Unit :=
  Logged.debug s!"vvadd dataset: {d.size} elements"

/-- Reads a dataset from a file. -/
def load (files : Files) (capacity : Nat) (path : String) : Checked (Except Failure SumData) := do
  match files.read path with
  | .error e => return .error (.io e.message)
  | .ok bytes =>
    match ← read capacity bytes with
    | .error e => return .error e
    | .ok d =>
      d.report
      return .ok d

/-- Values with blanks between them, and the end of a line behind them. -/
def line (xs : List Int32) : String :=
  " ".intercalate (xs.map fun x => toString x.toInt) ++ "\n"

/-- A dataset as text: its size and a line for each run. -/
def text (d : SumData) : String :=
  s!"{d.size}\n" ++ line d.src0 ++ line d.src1 ++ line d.reference

/-- The bytes of a dataset as text. -/
def bytes (d : SumData) : List UInt8 :=
  encode d.text

end TileBench.SumData
