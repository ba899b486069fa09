import TileBench.Control.Message
import TileBench.Panic

/-!
# Reading messages word by word

A receiver keeps what is left of a stream and takes one word after another off its front; to take a
word that is not there is a panic. `ControlMessage.scan` reads a stream this way, message by
message.
-/

namespace TileBench

/-- The word at the front of some bytes and the bytes behind it. -/
def Bytes.takeWord : List UInt8 → Except Panic (UInt32 × List UInt8)
  | a :: b :: c :: d :: rest => .ok (toWord a b c d, rest)
  | _ => .error .indexOutOfRange

/-- Taking a word leaves four bytes less. -/
theorem Bytes.length_takeWord {w : UInt32} {bytes rest : List UInt8}
    (taken : takeWord bytes = .ok (w, rest)) : rest.length < bytes.length := by
  match bytes, taken with
  | _ :: _ :: _ :: _ :: rest, taken =>
    cases taken
    simp only [List.length_cons]
    omega

namespace ControlMessage

open Bytes (takeWord)

/-- Reads the rest of the message that starts with `w`; the bytes are those behind that word. -/
def readMessage (w : UInt32) (bytes : List UInt8) :
    Except Panic (Except Malformed (ControlMessage × List UInt8)) :=
  if w = passWord then return .ok (.pass, bytes)
  else if w = failWord then
    if bytes.length < 12 then return .error .truncatedFailure
    else do
      let (index, bytes) ← takeWord bytes
      let (actual, bytes) ← takeWord bytes
      let (expected, bytes) ← takeWord bytes
      return .ok (.fail index actual expected, bytes)
  else match exitStatus? w with
    | some status => return .ok (.exit status, bytes)
    | none => return .error (.unknownWord w)

/-- Reading the rest of a message leaves no more bytes. -/
theorem length_readMessage {w : UInt32} {bytes rest : List UInt8} {m : ControlMessage}
    (read : readMessage w bytes = .ok (.ok (m, rest))) : rest.length ≤ bytes.length := by
  unfold readMessage at read
  split at read
  · cases read
    exact Nat.le_refl _
  · split at read
    · split at read
      · cases read
      · match bytes, read with
        | _ :: _ :: _ :: _ :: _ :: _ :: _ :: _ :: _ :: _ :: _ :: _ :: rest, read =>
          cases read
          simp only [List.length_cons]
          omega
    · split at read
      · cases read
        exact Nat.le_refl _
      · cases read

/-- Reads messages until no bytes are left. -/
def readAll (bytes : List UInt8) : Except Panic (Except Malformed (List ControlMessage)) :=
  if bytes = [] then return .ok []
  else match taken : takeWord bytes with
    | .error p => throw p
    | .ok (w, behind) =>
      have := Bytes.length_takeWord taken
      match read : readMessage w behind with
      | .error p => throw p
      | .ok (.error e) => return .error e
      | .ok (.ok (m, rest)) =>
        have := length_readMessage read
        return (← readAll rest).map (m :: ·)
termination_by bytes.length

/-- Decodes a stream by taking one word after another from its bytes. -/
def scan (bytes : List UInt8) : Except Panic (Except Malformed (List ControlMessage)) :=
  if bytes.length % 4 ≠ 0 then return .error (.partialWord bytes.length)
  else readAll bytes

end ControlMessage

end TileBench
