/-!
# Words of a command line

A command takes options with values and at most one operand. An option is written as `--name value`
or as `--name=value`, at most once; after a lone `--` every word is an operand. A word that starts
with a hyphen is no value, except a lone hyphen. The words are read in order, and the first that is
wrong, or that asks for help, decides; what is missing shows only at the end.
-/

namespace TileBench.CommandLine

/-- Why the words of a command line are not carried out. -/
inductive Halt where
  | help
  | missingCommand
  | unknownCommand (word : String)
  | unknownOption (word : String)
  | missingValue (option : String)
  | repeatedOption (option : String)
  | missingOperand (name : String)
  | unexpectedOperand (word : String)
  | invalidValue (name value reason : String)
  deriving DecidableEq, Repr

def Halt.message : Halt → String
  | .help => "help was asked for"
  | .missingCommand => "a command is required"
  | .unknownCommand word => s!"unknown command '{word}'"
  | .unknownOption word => s!"unexpected argument '{word}'"
  | .missingValue option => s!"a value is required for '{option}'"
  | .repeatedOption option => s!"'{option}' cannot be used multiple times"
  | .missingOperand name => s!"'{name}' is required"
  | .unexpectedOperand word => s!"unexpected argument '{word}'"
  | .invalidValue name value reason => s!"invalid value '{value}' for '{name}': {reason}"

/-- A value that a command takes: its name, and how it is read. -/
structure Parameter (α : Type) where
  name : String
  read : String → Except String α

/-- A parameter of which only its name matters, and what is wrong with a text that is no value of
it. -/
structure Rule where
  name : String
  fault? : String → Option String

def Parameter.rule {α : Type} (p : Parameter α) : Rule where
  name := p.name
  fault? text :=
    match p.read text with
    | .ok _ => none
    | .error reason => some reason

def Rule.check (r : Rule) (text : String) : Except Halt Unit :=
  match r.fault? text with
  | none => .ok ()
  | some reason => .error (.invalidValue r.name text reason)

/-- What a command takes. -/
structure Form where
  options : List Rule := []
  operand : Option Rule := none

/-- The options and the operand that were given to a command. -/
structure Arguments where
  options : List (String × String) := []
  operand : Option String := none
  deriving DecidableEq, Repr

namespace Arguments

/-- Whether a word is an option rather than a value. -/
def isOption (word : String) : Bool :=
  word.startsWith "-" && word != "-"

/-- The name of an option and the value that is written behind an equals sign, if any. -/
def splitOption (word : String) : String × Option String :=
  match word.toList.span (· != '=') with
  | (name, '=' :: value) => (String.ofList name, some (String.ofList value))
  | (name, _) => (String.ofList name, none)

def takeOption (a : Arguments) (r : Rule) (value : String) : Except Halt Arguments :=
  if (a.options.lookup r.name).isSome then .error (.repeatedOption r.name)
  else (r.check value).map fun _ => { a with options := a.options ++ [(r.name, value)] }

def takeOperand (f : Form) (a : Arguments) (word : String) : Except Halt Arguments :=
  match f.operand, a.operand with
  | some r, none => (r.check word).map fun _ => { a with operand := some word }
  | _, _ => .error (.unexpectedOperand word)

def read (f : Form) (a : Arguments) : List String → Except Halt Arguments
  | [] => .ok a
  | word :: rest =>
    if word = "--" then rest.foldlM (takeOperand f) a
    else if isOption word = false then (takeOperand f a word).bind fun a => read f a rest
    else if word = "--help" ∨ word.startsWith "-h" = true then .error .help
    else
      let (name, value?) := splitOption word
      match f.options.find? fun r => r.name == name, value?, rest with
      | none, _, _ => .error (.unknownOption word)
      | some r, some value, rest => (a.takeOption r value).bind fun a => read f a rest
      | some r, none, [] => .error (.missingValue r.name)
      | some r, none, value :: rest =>
        if isOption value then .error (.missingValue r.name)
        else (a.takeOption r value).bind fun a => read f a rest

def readAs {α : Type} (p : Parameter α) (text : String) : Except Halt α :=
  (p.read text).mapError (.invalidValue p.name text)

/-- The value of an option, or of the variable that stands in for it. -/
def value {α : Type} (a : Arguments) (p : Parameter α) (fallback : Option String) :
    Except Halt (Option α) :=
  match (a.options.lookup p.name).or fallback with
  | none => .ok none
  | some text => (readAs p text).map some

def required {α : Type} (a : Arguments) (p : Parameter α) : Except Halt α :=
  match a.operand with
  | none => .error (.missingOperand p.name)
  | some text => readAs p text

def readText (text : String) : Except String String :=
  .ok text

/-- Takes any text but the empty one, which is no path. -/
def readPath (text : String) : Except String String :=
  if text = "" then .error "a path is not empty" else .ok text

end Arguments

end TileBench.CommandLine
