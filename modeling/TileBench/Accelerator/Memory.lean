import TileBench.Accelerator.Fault
import TileBench.Panic
import TileBench.Work.Interval

/-!
# Operand memory

A flat memory of 32-bit words under byte addresses. An access names a run of words by the address of
the first; it is refused as a whole unless the address is that of a word and the run lies in the
memory. `Memory.span` works out the indices of the run as a core does: the end is a checked sum of
64 bits, and an access whose end leaves 64 bits is out of bounds like one that leaves the memory.
-/

namespace TileBench.Accelerator

/-- The words of a memory in address order. -/
structure Memory where
  words : Array UInt32
  deriving DecidableEq, Repr

namespace Memory

def wordBytes : Nat := 4

/-- A zero-filled memory of at least `bytes` bytes. -/
def zero (bytes : Nat) : Memory :=
  ⟨Array.replicate ((bytes + (wordBytes - 1)) / wordBytes) 0⟩

def wordCount (m : Memory) : Nat :=
  m.words.size

def size (m : Memory) : Nat :=
  m.wordCount * wordBytes

def describe (m : Memory) : String :=
  s!"Memory \x7b bytes: {m.size} \x7d"

/-- The index of the first of `count` words at a byte address, where the access is allowed. -/
def start? (m : Memory) (address : UInt32) (count : Nat) : Except Fault Nat :=
  if address.toNat % wordBytes ≠ 0 then .error (.misaligned address)
  else if address.toNat / wordBytes + count ≤ m.wordCount then .ok (address.toNat / wordBytes)
  else .error (.outOfBounds address count)

/-- The word at an index, zero beyond the memory. -/
def word (m : Memory) (i : Nat) : UInt32 :=
  m.words[i]?.getD 0

/-- The memory with another word at an index. -/
def put (m : Memory) (i : Nat) (value : UInt32) : Memory :=
  ⟨m.words.setIfInBounds i value⟩

/-- The word at an address. -/
def read (m : Memory) (address : UInt32) : Except Fault UInt32 :=
  (m.start? address 1).map m.word

/-- The memory with another word at an address. -/
def write (m : Memory) (address value : UInt32) : Except Fault Memory :=
  (m.start? address 1).map fun i => m.put i value

/-- The words of a run. -/
def readMany (m : Memory) (address : UInt32) (count : Nat) : Except Fault (List UInt32) :=
  (m.start? address count).map fun i => (m.words.extract i (i + count)).toList

/-- Writes a run of words in place of those at an address. -/
def load (m : Memory) (address : UInt32) (data : List UInt32) : Except Fault Memory :=
  (m.start? address data.length).map fun i =>
    ⟨m.words.extract 0 i ++ data.toArray ++ m.words.extract (i + data.length) m.wordCount⟩

/-- Writes one word into a whole run. -/
def fill (m : Memory) (address : UInt32) (count : Nat) (value : UInt32) : Except Fault Memory :=
  (m.start? address count).map fun i =>
    ⟨m.words.extract 0 i ++ Array.replicate count value ++
      m.words.extract (i + count) m.wordCount⟩

/-- An access is allowed exactly at a word address with all of its words in the memory. -/
theorem start?_eq_ok_iff {m : Memory} {address : UInt32} {count i : Nat} :
    m.start? address count = .ok i ↔
      address.toNat = i * wordBytes ∧ i + count ≤ m.wordCount := by
  by_cases ha : address.toNat % 4 = 0
  · by_cases hb : address.toNat / 4 + count ≤ m.wordCount
    · simp only [start?, wordBytes, ha, hb, ne_eq, not_true, if_false, if_true, Except.ok.injEq]
      omega
    · simp only [start?, wordBytes, ha, hb, ne_eq, not_true, if_false, reduceCtorEq, false_iff]
      omega
  · simp only [start?, wordBytes, ha, ne_eq, not_false_eq_true, if_true, reduceCtorEq, false_iff]
    omega

/-- The indices of `count` words at a byte address, where the access is allowed. -/
def span (m : Memory) (address : UInt32) (count : Nat) : Except Fault Interval :=
  if address.toNat % wordBytes ≠ 0 then .error (.misaligned address)
  else
    let start := address.toNat / wordBytes
    match checkedAdd start count with
    | .error _ => .error (.outOfBounds address count)
    | .ok stop =>
      if stop ≤ m.wordCount then .ok ⟨start, stop⟩ else .error (.outOfBounds address count)

/-- The sum is only as much of a bound as the memory, whose size is one of 64 bits. -/
theorem span_eq {m : Memory} (small : m.wordCount < sizeLimit) (address : UInt32) (count : Nat) :
    m.span address count = (m.start? address count).map fun i => ⟨i, i + count⟩ := by
  unfold span start?
  by_cases aligned : address.toNat % wordBytes = 0
  · by_cases inside : address.toNat / wordBytes + count ≤ m.wordCount
    · simp [aligned, inside, checkedAdd, Nat.lt_of_le_of_lt inside small, Except.map]
    · by_cases fits : address.toNat / wordBytes + count < sizeLimit
      · simp [aligned, inside, checkedAdd, fits, Except.map]
      · simp [aligned, inside, checkedAdd, fits, Except.map]
  · simp [aligned, Except.map]

end Memory

end TileBench.Accelerator
