import Mathlib.Algebra.Group.Int.Defs
import Mathlib.Algebra.Group.Nat.Defs
import Mathlib.Data.List.Forall2
import TileBench.Proofs.Control.Decode
import TileBench.Verify.Reporter

/-!
# The stream of a reporter

A reporter that sends control messages sends one for each call, so that its stream is read back as
the calls were made. `Conveys` says what of a call is in its message: a number of a failed element
is reduced to 32 bits.
-/

namespace TileBench

namespace ControlMessage

/-- Messages are encoded one after another. -/
lemma encode_append (ms ns : List ControlMessage) : encode (ms ++ ns) = encode ms ++ encode ns := by
  rw [encode, List.flatMap_append, Bytes.ofWords_append, ← encode, ← encode]

/-- The bytes of messages are those of the words of each. -/
lemma encode_eq_flatMap (messages : List ControlMessage) :
    encode messages = messages.flatMap fun m => Bytes.ofWords m.words :=
  List.flatMap_assoc

end ControlMessage

namespace Reporter

open ControlMessage (encode decode)

/-- `Conveys c m` holds when the message `m` tells of the call `c`, with the numbers of a failure
reduced to 32 bits. -/
inductive Conveys : Call → ControlMessage → Prop where
  | pass : Conveys (.signal .pass) .pass
  | fail {m : Mismatch} {index actual expected : UInt32} :
    index.toNat = m.index % 2 ^ 32 → (actual.toNat : Int) = m.actual % 2 ^ 32 →
    (expected.toNat : Int) = m.expected % 2 ^ 32 →
    Conveys (.signal (.fail m)) (.fail index actual expected)
  | exit {status : UInt16} : Conveys (.exit status) (.exit status)

/-- An integer is sent as its remainder in 32 bits. -/
lemma toNat_ofInt (x : Int) : ((UInt32.ofInt x).toNat : Int) = x % 2 ^ 32 := by
  rw [UInt32.ofInt, UInt32.toNat_ofNat']
  omega

/-- Every call is conveyed by its message. -/
lemma conveys_message (c : Call) : Conveys c c.message := by
  cases c with
  | exit status => exact .exit
  | signal s =>
    cases s with
    | pass => exact .pass
    | fail m => exact .fail UInt32.toNat_ofNat' (toNat_ofInt _) (toNat_ofInt _)

/-- Every message is the message of a call. -/
lemma message_ofMessage (m : ControlMessage) : (Call.ofMessage m).message = m := by
  have same (w : UInt32) : UInt32.ofInt w.toNat = w := by
    apply UInt32.toNat_inj.1
    have bound := w.toNat_lt
    have value := toNat_ofInt w.toNat
    omega
  cases m with
  | pass => rfl
  | exit status => rfl
  | fail index actual expected =>
    simp only [Call.ofMessage, Call.message, Signal.message, UInt32.ofNat_toNat, same]

/-- A call adds its message to the stream. -/
lemma call_control (stream : List UInt8) (c : Call) :
    ((control stream).call c).value = .control (stream ++ encode [c.message]) := by
  cases c with
  | signal => rfl
  | exit => rfl

/-- A stream grows by the messages of the calls. -/
lemma callAll_control (stream : List UInt8) (calls : List Call) :
    ((control stream).callAll calls).value =
      .control (stream ++ encode (calls.map Call.message)) := by
  induction calls generalizing stream with
  | nil => exact congrArg control (List.append_nil _).symm
  | cons c calls ih =>
    have rest := ih (stream ++ encode [c.message])
    rw [List.append_assoc, ← ControlMessage.encode_append] at rest
    rw [callAll, List.foldlM_cons, Logged.value_bind, call_control]
    exact rest

/-- What was sent is read back, and what can be read is what these calls send. -/
theorem decode_callAll :
    (∀ calls : List Call, ∃ stream messages,
      ((control []).callAll calls).value = .control stream ∧
      decode stream = .ok messages ∧ List.Forall₂ Conveys calls messages) ∧
    ∀ bytes : List UInt8,
      (∀ messages, decode bytes = .ok messages →
        ((control []).callAll (messages.map Call.ofMessage)).value = .control bytes) ∧
      ((∃ messages, decode bytes = .ok messages) ↔
        ∃ messages : List ControlMessage, bytes = messages.flatMap fun m => Bytes.ofWords m.words) ∧
      (∀ e, decode bytes = .error e ↔
        (bytes.length % 4 ≠ 0 ∧ e = .partialWord bytes.length) ∨
          ∃ messages flawed, bytes = encode messages ++ Bytes.ofWords flawed ∧
            ControlMessage.Flawed flawed e) ∧
      ControlMessage.scan bytes = .ok (decode bytes) := by
  refine ⟨fun calls => ?_, fun bytes => ⟨fun messages decoded => ?_, ?_, ?_, ?_⟩⟩
  · refine ⟨_, _, callAll_control [] calls, ControlMessage.decode_encode _, ?_⟩
    exact List.forall₂_map_right_iff.mpr (List.forall₂_same.mpr fun c _ => conveys_message c)
  · rw [callAll_control, List.map_map, List.nil_append, ControlMessage.decode_eq_ok_iff.mp decoded]
    have back : Call.message ∘ Call.ofMessage = id := funext message_ofMessage
    rw [back, List.map_id]
  · simp only [ControlMessage.decode_eq_ok_iff, ControlMessage.encode_eq_flatMap]
  · exact fun e => ControlMessage.decode_eq_error_iff
  · exact ControlMessage.scan_eq bytes

/-- A failure whose three words would each start a message; the bytes are read as one failure, and
sent again as they were. -/
theorem decode_callAll_headers :
    let bytes : List UInt8 :=
      [1, 0, 2, 0, 0, 0, 2, 0, 1, 0, 2, 0, 7, 0, 1, 0, 0, 0, 2, 0, 7, 0, 1, 0]
    let messages := [ControlMessage.fail 0x20000 0x20001 0x10007, .pass, .exit 7]
    decode bytes = .ok messages ∧
      ((control []).callAll (messages.map Call.ofMessage)).value = .control bytes := by
  intro bytes messages
  have decoded : decode bytes = .ok messages := by decide
  exact ⟨decoded, (decode_callAll.2 bytes).1 messages decoded⟩

end Reporter

end TileBench
