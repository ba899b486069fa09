/-!
# Paths

A path is followed one step at a time: it stays where it is, goes up, or goes into what has a name.
A slash behind the last step asks for a directory. `Path.goal` is where a path leads if every step
on the way is a directory.
-/

namespace TileBench

/-- The names that lead from the root to a place. -/
abbrev Location := List String

/-- One step of a path. -/
inductive Step where
  | stay
  | up
  | into (name : String)
  deriving DecidableEq, Repr

/-- The steps to a place. -/
structure Path where
  /-- Whether the path starts at the root. -/
  isAbsolute : Bool
  steps : List Step
  /-- Whether a slash follows the last step. -/
  endsInSlash : Bool
  deriving DecidableEq, Repr

/-- The step that a component of a path stands for. -/
def Step.ofComponent : String → Step
  | "." => .stay
  | ".." => .up
  | name => .into name

/-- Takes a step. Above the root there is only the root. -/
def Step.take (here : Location) : Step → Location
  | .stay => here
  | .up => here.dropLast
  | .into name => here ++ [name]

namespace Path

def longestName : Nat := 255

def longest : Nat := 4095

/-- Reads a path. Slashes that follow one another count as one. -/
def read (text : String) : Path where
  isAbsolute := text.startsWith "/"
  steps := ((text.splitOn "/").filter fun part => part != "").map Step.ofComponent
  endsInSlash := text.endsWith "/"

/-- Where a path starts, seen from a working directory. -/
def origin (p : Path) (working : Location) : Location :=
  if p.isAbsolute then [] else working

def goalOf (here : Location) (steps : List Step) : Location :=
  steps.foldl Step.take here

/-- Where a path leads, seen from a working directory. -/
def goal (p : Path) (working : Location) : Location :=
  goalOf (p.origin working) p.steps

end Path

end TileBench
