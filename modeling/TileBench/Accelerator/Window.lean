import TileBench.Accelerator.Link
import TileBench.Bytes
import TileBench.Files

/-!
# Register windows

A register window shows the registers of an accelerator as the first words of a page of memory, and
a status word behind them. It holds no operand memory. Anyone who maps the same page may store into
it, the accelerator above all.
-/

namespace TileBench.Accelerator

def windowWords : Nat := 1024

/-- The words of a mapped register window. -/
structure RegisterWindow where
  operation : Operation
  words : Vector UInt32 windowWords
  deriving DecidableEq

namespace RegisterWindow

def bytes : Nat := windowWords * Memory.wordBytes

/-- The number of bytes from one register to the next. -/
def stride : Nat := 4

def offset (index : Nat) : Nat :=
  index * stride

/-- The byte offset of the status word, just behind the registers. -/
def statusOffset : Nat := registerCount * stride

/-- Status of an accelerator that runs a transaction. -/
def busy : UInt32 := 1

/-- Status of an accelerator that has finished a transaction. -/
def done : UInt32 := 2

/-- The position of a register among the words of a window. -/
def slot (r : Register) : Fin windowWords :=
  ⟨r.index, by cases r <;> decide⟩

/-- The position of the status word. -/
def statusSlot : Fin windowWords :=
  ⟨registerCount, by decide⟩

def word (w : RegisterWindow) (i : Fin windowWords) : UInt32 :=
  w.words[i]

def store (w : RegisterWindow) (i : Fin windowWords) (value : UInt32) : RegisterWindow :=
  { w with words := w.words.set i value }

/-- A store changes the word at its place and no other. -/
@[simp] theorem word_store (w : RegisterWindow) (i j : Fin windowWords) (value : UInt32) :
    (w.store i value).word j = if i = j then value else w.word j := by
  simp [word, store, Vector.getElem_set, Fin.ext_iff]

/-- The word behind the registers in which the device says how far it is. -/
def status (w : RegisterWindow) : UInt32 :=
  w.word statusSlot

/-- Starts the accelerator unless it is busy. -/
def go (w : RegisterWindow) : Except Fault Unit × RegisterWindow :=
  if w.status &&& busy ≠ 0 then (.error (.window "accelerator busy at go"), w)
  else if w.operation.dataInGo then (.ok (), w)
  else (.ok (), w.store (slot .go) 0)

/-- Reads the go register once the accelerator reports that it is done. -/
def wait (w : RegisterWindow) : Except Fault UInt32 :=
  if w.status &&& done = 0 then .error .unanswered else .ok (w.word (slot .go))

/-- The calls of the program as loads and stores on the window. -/
def link (operation : Operation) : Link RegisterWindow where
  operation
  kind := .window
  sharesMemory := false
  write w r value := pure (.ok (), w.store (slot r) value)
  go w := pure w.go
  wait w := pure (w.wait, w)
  lend w := (none, w)
  restore w _ := w

/-- The window on the first page of a file; missing bytes are zero. -/
def ofBytes (operation : Operation) (content : List UInt8) : RegisterWindow :=
  let content := content.toArray
  let byte (i : Nat) : UInt8 := content[i]?.getD 0
  { operation
    words := Vector.ofFn fun i =>
      Bytes.toWord (byte (4 * i)) (byte (4 * i + 1)) (byte (4 * i + 2)) (byte (4 * i + 3)) }

def toBytes (w : RegisterWindow) : List UInt8 :=
  Bytes.ofWords w.words.toList

/-- The files with the contents of a window in the file that it maps. -/
def flush (w : RegisterWindow) (files : Files) (path : String) : Files :=
  match files.resolve path with
  | .ok (.entry location (.file content)) =>
    files.put location (.file (Bytes.overwrite content 0 w.toBytes))
  | _ => files

/-- Maps the window file, which has to hold the whole window. -/
def attach (files : Files) (path : String) (operation : Operation) :
    Logged (Except Fault RegisterWindow) :=
  match files.find path with
  | .error f => pure (.error (.window s!"Failed to open {path}: {f.message}"))
  | .ok .directory =>
    pure (.error (.window s!"Failed to open {path}: {FileFault.isDirectory.message}"))
  | .ok (.device .zero) => mapped (ofBytes operation [])
  | .ok (.device _) =>
    pure (.error (.window s!"Failed to mmap {path}: {FileFault.notMappable.message}"))
  | .ok (.file content) =>
    if content.length < bytes then
      pure (.error (.window s!"{path} is {content.length} bytes, register window needs {bytes}"))
    else mapped (ofBytes operation content)
where
  mapped (w : RegisterWindow) : Logged (Except Fault RegisterWindow) := do
    Logged.info s!"Mapped xcel window {path} at PTR, size={Text.hex bytes}"
    return .ok w

end RegisterWindow

end TileBench.Accelerator
