import TileBench.Failure
import TileBench.Work.Policy

/-!
# Benchmarks

The suite has eight benchmarks. Two of them spread over the cores of a tile, two run on an
accelerator, and the others on one core.
-/

namespace TileBench

/-- A benchmark of the suite. -/
inductive Benchmark where
  | tileAdd
  | tileMultiply
  | add
  | multiply
  | divide
  | sort
  | offloadAdd
  | echo
  deriving DecidableEq, Repr

namespace Benchmark

/-- The benchmarks that spread over the cores of a tile. -/
def multiCore : List Benchmark := [.tileAdd, .tileMultiply]

/-- The benchmarks that use one core, or one core and an accelerator. -/
def singleCore : List Benchmark := [.add, .multiply, .divide, .sort, .offloadAdd, .echo]

def all : List Benchmark := multiCore ++ singleCore

def name : Benchmark → String
  | .tileAdd => "mt-vvadd"
  | .tileMultiply => "mt-matmul"
  | .add => "vvadd"
  | .multiply => "matmul"
  | .divide => "vvdivrem"
  | .sort => "shellsort"
  | .offloadAdd => "vvadd-xcel"
  | .echo => "null-xcel"

def isMultiCore (b : Benchmark) : Bool :=
  decide (b ∈ multiCore)

/-- The size of a benchmark unless another is asked for: a number of elements, or of rows. -/
def defaultSize : Benchmark → Nat
  | .tileAdd | .add | .offloadAdd | .divide => 100
  | .tileMultiply | .multiply => 16
  | .sort => 128
  | .echo => 1

/-- The policy of a benchmark unless another is asked for. -/
def defaultPolicy : Benchmark → Policy
  | .tileMultiply => .balanced
  | _ => .tail

/-- The name of a benchmark that a program of the suite runs, from the name of the program. -/
def programName (name : String) : String :=
  match "mtbmark-".toList.isPrefixOf? name.toList, "ubmark-".toList.isPrefixOf? name.toList with
  | some rest, _ => "mt-" ++ String.ofList rest
  | none, some rest => String.ofList rest
  | none, none => name

/-- The benchmark of a name, which may be the name of its program. -/
def ofName (name : String) : Except Failure Benchmark :=
  let name := programName name
  match all.find? fun b => b.name == name with
  | some b => .ok b
  | none => .error (.unknownBenchmark name)

end Benchmark

end TileBench
