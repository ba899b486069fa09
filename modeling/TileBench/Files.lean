import TileBench.Files.Path

/-!
# Named files

What a path can name, and how reading and writing it can fail. A file is the list of its bytes. A
path is followed from the root or from a working directory, and each step but the last has to lead
to a directory; the first step that does not decides why the path cannot be used.
-/

namespace TileBench

/-- A device that every system has. -/
inductive Device where
  /-- Empty when read; takes everything written. -/
  | null
  /-- Endless zeros; takes everything written. -/
  | zero
  /-- Endless zeros; takes nothing. -/
  | full
  /-- Endless noise; takes everything written. -/
  | random
  deriving DecidableEq, Repr

/-- What a path names. -/
inductive Entry where
  | directory
  | file (bytes : List UInt8)
  | device (d : Device)
  deriving DecidableEq, Repr

/-- Why a file cannot be used. -/
inductive FileFault where
  | notFound
  | notMappable
  | notDirectory
  | isDirectory
  | noSpace
  | nameTooLong
  | notText
  deriving DecidableEq, Repr

/-- The sentence that reports why a file cannot be used. -/
def FileFault.message : FileFault → String
  | .notFound => "No such file or directory (os error 2)"
  | .notMappable => "No such device (os error 19)"
  | .notDirectory => "Not a directory (os error 20)"
  | .isDirectory => "Is a directory (os error 21)"
  | .noSpace => "No space left on device (os error 28)"
  | .nameTooLong => "File name too long (os error 36)"
  | .notText => "stream did not contain valid UTF-8"

/-- The named files, and the directory from which paths are followed. -/
structure Files where
  entries : List (Location × Entry) := []
  working : Location := ["tmp", "work"]
  deriving Repr

/-- What a path leads to. -/
inductive Place where
  | entry (location : Location) (e : Entry)
  /-- A name that nothing has, in a directory that exists. -/
  | vacant (location : Location)
  deriving DecidableEq, Repr

namespace Files

/-- The devices and directories that are there from the start. -/
def system : List (Location × Entry) :=
  [(["dev", "null"], .device .null), (["dev", "zero"], .device .zero),
   (["dev", "full"], .device .full), (["dev", "random"], .device .random),
   (["dev", "urandom"], .device .random)] ++
  (["bin", "boot", "etc", "home", "lib", "media", "mnt", "opt", "proc", "run", "sbin", "srv", "sys",
    "tmp", "usr", "var"].map fun name => ([name], .directory))

/-- Whether something is known to lie below a location, which is then a directory. -/
def holds (fs : Files) (location : Location) : Bool :=
  location.isPrefixOf fs.working || (system ++ fs.entries).any fun named =>
    location.isPrefixOf named.1

/-- The entry at a location, which is a directory if something lies below it. -/
def at? (fs : Files) (location : Location) : Option Entry :=
  match (fs.entries ++ system).lookup location with
  | some e => some e
  | none => if fs.holds location then some .directory else none

/-- Follows the steps of a path through directories. Only the last step may lead nowhere. -/
def follow (fs : Files) : Location → List Step → Except FileFault Place
  | here, [] => .ok (.entry here .directory)
  | here, .stay :: rest => fs.follow here rest
  | here, .up :: rest => fs.follow here.dropLast rest
  | here, .into name :: rest =>
    if Path.longestName < name.utf8ByteSize then .error .nameTooLong
    else match fs.at? (here ++ [name]), rest with
      | some .directory, rest => fs.follow (here ++ [name]) rest
      | some e, [] => .ok (.entry (here ++ [name]) e)
      | some _, _ :: _ => .error .notDirectory
      | none, [] => .ok (.vacant (here ++ [name]))
      | none, _ :: _ => .error .notFound

/-- The place to which a path leads. A slash at its end asks for a directory. -/
def resolve (fs : Files) (text : String) : Except FileFault Place :=
  let p := Path.read text
  if text = "" then .error .notFound
  else if Path.longest < text.utf8ByteSize then .error .nameTooLong
  else fs.follow (p.origin fs.working) (if p.endsInSlash then p.steps ++ [.stay] else p.steps)

/-- The entry to which a path leads. -/
def find (fs : Files) (path : String) : Except FileFault Entry := do
  match ← fs.resolve path with
  | .entry _ e => return e
  | .vacant _ => throw .notFound

def entry? (fs : Files) (path : String) : Option Entry :=
  (fs.find path).toOption

/-- The same files with an entry at a location. -/
def put (fs : Files) (location : Location) (e : Entry) : Files :=
  { fs with entries := (location, e) :: fs.entries.filter fun named => named.1 != location }

/-- The same files with an entry where a path leads. -/
def set (fs : Files) (path : String) (e : Entry) : Files :=
  fs.put ((Path.read path).goal fs.working) e

/-- The bytes under a path. Devices have none; the endless ones are never read. -/
def read (fs : Files) (path : String) : Except FileFault (List UInt8) := do
  match ← fs.find path with
  | .directory => throw .isDirectory
  | .file bytes => return bytes
  | .device _ => return []

/-- Where a file is to be written. No file is written under a name with a slash behind it. -/
def target (fs : Files) (path : String) : Except FileFault Place := do
  let p := Path.read path
  match p.endsInSlash, p.steps.getLast? with
  | true, some (.into _) =>
    if Path.longest < path.utf8ByteSize then throw .nameTooLong
    let _ ← fs.follow (p.origin fs.working) (p.steps.dropLast ++ [.stay])
    throw .isDirectory
  | _, _ => fs.resolve path

/-- Writes a file, which need not exist before; its directory has to. -/
def write (fs : Files) (path : String) (bytes : List UInt8) : Except FileFault Files := do
  match ← fs.target path with
  | .entry _ .directory => throw .isDirectory
  | .entry _ (.device .full) => throw .noSpace
  | .entry _ (.device _) => return fs
  | .entry location (.file _) | .vacant location => return fs.put location (.file bytes)

end Files

end TileBench
