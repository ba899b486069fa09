import TileBench.Control.Message

/-!
# Verdicts

A result is compared with its reference element by element, as far as both go. The verdict holds
every difference; a result passes when there is none and both are equally long, which is when they
are equal.
-/

namespace TileBench

/-- One element that differs from its reference. -/
structure Mismatch where
  index : Nat
  actual : Int
  expected : Int
  deriving DecidableEq, Repr

/-- The outcome of a comparison. -/
structure Verdict where
  mismatches : List Mismatch
  checked : Nat
  /-- The lengths of the result and of the reference, where they differ. -/
  lengths : Option (Nat × Nat)
  deriving DecidableEq, Repr

/-- A step of the comparison as it is reported. -/
inductive Signal where
  | fail (m : Mismatch)
  | pass
  deriving DecidableEq, Repr

namespace Verdict

/-- The differences between two lists, the first of whose elements stand at `index`. -/
def differences (index : Nat) : List Int → List Int → List Mismatch
  | a :: actual, e :: expected =>
    if a = e then differences (index + 1) actual expected
    else ⟨index, a, e⟩ :: differences (index + 1) actual expected
  | _, _ => []

/-- The verdict on a result, by its reference. -/
def of (actual expected : List Int) : Verdict where
  mismatches := differences 0 actual expected
  checked := min actual.length expected.length
  lengths :=
    if actual.length ≠ expected.length then some (actual.length, expected.length) else none

/-- Whether a result equals its reference. -/
def passed (v : Verdict) : Bool :=
  v.mismatches.isEmpty && v.lengths.isNone

/-- What is reported of a comparison: every difference, and a pass where there is none. -/
def signals (v : Verdict) : List Signal :=
  v.mismatches.map .fail ++ if v.passed then [.pass] else []

/-- Lists of one length have no difference exactly where they are equal. -/
theorem differences_eq_nil_iff {index : Nat} {actual expected : List Int}
    (h : actual.length = expected.length) :
    differences index actual expected = [] ↔ actual = expected := by
  induction actual generalizing index expected with
  | nil => cases expected with
    | nil => simp [differences]
    | cons e expected => simp at h
  | cons a actual ih => cases expected with
    | nil => simp at h
    | cons e expected =>
      have h' : actual.length = expected.length := Nat.succ.inj h
      by_cases hae : a = e
      · simp only [differences, hae, if_true, List.cons.injEq, true_and]
        exact ih h'
      · simp [differences, hae]

/-- A verdict passes exactly if the lists are equal. -/
theorem passed_of_iff {actual expected : List Int} :
    (of actual expected).passed = true ↔ actual = expected := by
  simp only [passed, of, Bool.and_eq_true, List.isEmpty_iff, Option.isNone_iff_eq_none]
  by_cases h : actual.length = expected.length
  · simp [h, differences_eq_nil_iff h]
  · simp only [ne_eq, h, not_false_eq_true, if_true, reduceCtorEq, and_false, false_iff]
    exact fun e => h (congrArg List.length e)

end Verdict

/-- A signal as a control message; only the low words of the index and the values are sent. -/
def Signal.message : Signal → ControlMessage
  | .fail m => .fail (UInt32.ofNat m.index) (UInt32.ofInt m.actual) (UInt32.ofInt m.expected)
  | .pass => .pass

end TileBench
