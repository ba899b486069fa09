/-!
# Numerals

A numeral is read from left to right, with one sign in front. Reading stops at the first character
that is no digit or that takes the value out of bounds; `Cause` says which of the two it was.
Addresses and words are written in hexadecimal, with `0x` and lower-case digits, either as short as
possible or padded to the eight digits of a 32-bit word.
-/

namespace TileBench.Text

/-- Why a text is not a numeral within its bounds. -/
inductive Numeral.Cause where
  | empty
  | invalidDigit
  | tooLarge
  | tooSmall
  deriving DecidableEq, Repr

def Numeral.Cause.message : Numeral.Cause → String
  | .empty => "cannot parse integer from empty string"
  | .invalidDigit => "invalid digit found in string"
  | .tooLarge => "number too large to fit in target type"
  | .tooSmall => "number too small to fit in target type"

namespace Numeral

/-- The value of a character as a digit in a base of at most 36, of either case. -/
def digit? (base : Nat) (c : Char) : Option Nat :=
  let value :=
    if '0' ≤ c ∧ c ≤ '9' then some (c.toNat - '0'.toNat)
    else if 'a' ≤ c ∧ c ≤ 'z' then some (c.toNat - 'a'.toNat + 10)
    else if 'A' ≤ c ∧ c ≤ 'Z' then some (c.toNat - 'A'.toNat + 10)
    else none
  value.filter (· < base)

/-- Appends digits to a value of at most `limit`, and reports `excess` at the digit that exceeds
it. -/
def accumulate (base limit : Nat) (excess : Cause) (value : Nat) : List Char → Except Cause Nat
  | [] => .ok value
  | c :: cs =>
    match digit? base c with
    | none => .error .invalidDigit
    | some d =>
      if value * base + d ≤ limit then accumulate base limit excess (value * base + d) cs
      else .error excess

/-- Reads an unsigned numeral of at most `limit`; a plus sign may stand in front of the digits. -/
def readNat (base limit : Nat) : List Char → Except Cause Nat
  | [] => .error .empty
  | ['+'] => .error .invalidDigit
  | '+' :: cs => accumulate base limit .tooLarge 0 cs
  | cs => accumulate base limit .tooLarge 0 cs

/-- Reads a signed decimal numeral from `-(most + 1)` to `most`. -/
def readInt (most : Nat) : List Char → Except Cause Int
  | [] => .error .empty
  | ['+'] => .error .invalidDigit
  | ['-'] => .error .invalidDigit
  | '+' :: cs => (accumulate 10 most .tooLarge 0 cs).map Int.ofNat
  | '-' :: cs => (accumulate 10 (most + 1) .tooSmall 0 cs).map fun n => -Int.ofNat n
  | cs => (accumulate 10 most .tooLarge 0 cs).map Int.ofNat

/-- Reads a size, which is a decimal numeral of 64 bits. -/
def readSize (cs : List Char) : Except Cause Nat :=
  readNat 10 (UInt64.size - 1) cs

/-- Reads a signed decimal numeral of 32 bits. -/
def readInt32 (cs : List Char) : Except Cause Int32 :=
  (readInt 2147483647 cs).map Int32.ofInt

/-- Reads an unsigned numeral of 32 bits in any base. -/
def readWord (base : Nat) (cs : List Char) : Except Cause UInt32 :=
  (readNat base (UInt32.size - 1) cs).map UInt32.ofNat

end Numeral

/-! ## Hexadecimal numerals -/

/-- A number in hexadecimal without leading zeros. -/
def hex (n : Nat) : String :=
  "0x" ++ String.ofList (Nat.toDigits 16 n)

/-- A 32-bit word with all of its eight hexadecimal digits. -/
def hexWord (w : UInt32) : String :=
  let digits := Nat.toDigits 16 w.toNat
  "0x" ++ String.ofList (List.replicate (8 - digits.length) '0' ++ digits)

end TileBench.Text
