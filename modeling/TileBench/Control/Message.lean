import TileBench.Bytes
import TileBench.Text.Numeral

/-!
# Control messages

A program reports to the outside by storing words to a reserved address beyond its memory. A message
is one word, or four for a failed element. The words of a message say how long it is, so that a
stream of messages is read back without marks between them: `decode_encode`.
-/

namespace TileBench

/-- One report of a program. -/
inductive ControlMessage where
  /-- A result agrees with its reference. -/
  | pass
  /-- One element of a result differs from its reference. -/
  | fail (index actual expected : UInt32)
  | exit (status : UInt16)
  deriving DecidableEq, Repr

namespace ControlMessage

def address : UInt32 := 0x10000000

def passWord : UInt32 := 0x00020000

def failWord : UInt32 := 0x00020001

/-- The upper half of the word that ends a program. -/
def exitTag : Nat := 1

def exitWord (status : UInt16) : UInt32 :=
  UInt32.ofNat (exitTag * UInt16.size + status.toNat)

/-- The status in a word, if the word ends a program. -/
def exitStatus? (w : UInt32) : Option UInt16 :=
  if w.toNat / UInt16.size = exitTag then some (UInt16.ofNat w.toNat) else none

/-- The words of a message: one for its kind, and three more for a failure. -/
def words : ControlMessage → List UInt32
  | .pass => [passWord]
  | .fail index actual expected => [failWord, index, actual, expected]
  | .exit status => [exitWord status]

/-- Why a byte string is no stream of messages. -/
inductive Malformed where
  /-- The bytes are not a whole number of words. -/
  | partialWord (bytes : Nat)
  /-- The stream ends inside a failed element. -/
  | truncatedFailure
  | unknownWord (w : UInt32)
  deriving DecidableEq, Repr

/-- The sentence that reports a malformed stream. -/
def Malformed.message : Malformed → String
  | .partialWord bytes => s!"{bytes} bytes is not a whole number of words"
  | .truncatedFailure => "truncated failure message"
  | .unknownWord w => s!"unknown control word {Text.hexWord w}"

/-- The bytes of messages. -/
def encode (messages : List ControlMessage) : List UInt8 :=
  Bytes.ofWords (messages.flatMap words)

/-- Reads words as messages, up to their end or up to the first flaw. -/
def ofWords : List UInt32 → Except Malformed (List ControlMessage)
  | [] => .ok []
  | w :: rest =>
    if w = passWord then (ofWords rest).map (.pass :: ·)
    else if w = failWord then
      match rest with
      | index :: actual :: expected :: rest =>
        (ofWords rest).map (.fail index actual expected :: ·)
      | _ => .error .truncatedFailure
    else match exitStatus? w with
      | some status => (ofWords rest).map (.exit status :: ·)
      | none => .error (.unknownWord w)

/-- Reads bytes as messages. -/
def decode (bytes : List UInt8) : Except Malformed (List ControlMessage) :=
  match Bytes.words? bytes with
  | none => .error (.partialWord bytes.length)
  | some ws => ofWords ws

/-- An exit status is read back from its word. -/
theorem exitStatus?_exitWord (status : UInt16) : exitStatus? (exitWord status) = some status := by
  have h := status.toNat_lt
  have hw : (exitWord status).toNat = 65536 + status.toNat := by
    simp only [exitWord, exitTag, UInt16.size, UInt32.toNat_ofNat']
    omega
  simp only [exitStatus?, hw, exitTag, UInt16.size]
  rw [if_pos (by omega)]
  exact congrArg some (UInt16.toNat_inj.1 (by simp only [UInt16.toNat_ofNat']; omega))

/-- No word that ends a program starts another message. -/
theorem exitWord_ne (status : UInt16) :
    exitWord status ≠ passWord ∧ exitWord status ≠ failWord := by
  have h := exitStatus?_exitWord status
  have hp : exitStatus? passWord = none := by decide
  have hf : exitStatus? failWord = none := by decide
  constructor <;> intro e <;> rw [e] at h <;> simp_all

/-- A pass is one word. -/
theorem ofWords_pass (rest : List UInt32) :
    ofWords (passWord :: rest) = (ofWords rest).map (.pass :: ·) := by
  rw [ofWords.eq_def]
  simp

/-- A failure is four words. -/
theorem ofWords_fail (index actual expected : UInt32) (rest : List UInt32) :
    ofWords (failWord :: index :: actual :: expected :: rest) =
      (ofWords rest).map (.fail index actual expected :: ·) := by
  have h : failWord ≠ passWord := by decide
  rw [ofWords.eq_def]
  simp [h]

/-- An exit is one word. -/
theorem ofWords_exit (status : UInt16) (rest : List UInt32) :
    ofWords (exitWord status :: rest) = (ofWords rest).map (.exit status :: ·) := by
  rw [ofWords.eq_def]
  simp [exitWord_ne, exitStatus?_exitWord]

/-- The messages in the words of messages are the messages. -/
theorem ofWords_flatMap (messages : List ControlMessage) :
    ofWords (messages.flatMap words) = .ok messages := by
  induction messages with
  | nil => rfl
  | cons m ms ih =>
    cases m <;> simp [words, ofWords_pass, ofWords_fail, ofWords_exit, ih, Except.map]

/-- Reading gives back the messages that were written. -/
theorem decode_encode (messages : List ControlMessage) :
    decode (encode messages) = .ok messages := by
  simp only [decode, encode, Bytes.words?_ofWords, ofWords_flatMap]

end ControlMessage

end TileBench
