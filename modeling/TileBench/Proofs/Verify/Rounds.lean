import TileBench.Proofs.Verify.Stream
import TileBench.Verify.Round

/-!
# Rounds on one reporter

`Round.Judged` says what a verdict has to say of a round, and `Tells` what a control message has to
say of a signal. Over any rounds on one reporter every verdict is right, the reporter receives the
signals of the verdicts and nothing else, and the stream of control messages with the exit behind it
tells whether all rounds passed.
-/

namespace TileBench

/-! ## One round -/

namespace Verdict

variable {actual expected : List Int} {start : Nat} {m : Mismatch}

/-- `m` is an index, counted from `start`, at which both lists have an element and the elements
differ. -/
def Differs (start : Nat) (actual expected : List Int) (m : Mismatch) : Prop :=
  ∃ k a e, m = ⟨start + k, a, e⟩ ∧ actual[k]? = some a ∧ expected[k]? = some e ∧ a ≠ e

/-- Lists differ at their heads or behind them. -/
lemma differs_cons {a e : Int} : Differs start (a :: actual) (e :: expected) m ↔
    m = ⟨start, a, e⟩ ∧ a ≠ e ∨ Differs (start + 1) actual expected m := by
  constructor
  · rintro ⟨k, a', e', rfl, here, there, differ⟩
    cases k with
    | zero =>
      cases here
      cases there
      exact .inl ⟨rfl, differ⟩
    | succ k => exact .inr ⟨k, a', e',
      by rw [Nat.add_right_comm, Nat.add_assoc], here, there, differ⟩
  · rintro (⟨rfl, differ⟩ | ⟨k, a', e', rfl, here, there, differ⟩)
    · exact ⟨0, a, e, rfl, rfl, rfl, differ⟩
    · exact ⟨k + 1, a', e', by rw [Nat.add_right_comm, Nat.add_assoc], here, there, differ⟩

/-- The differences that are found are those that there are. -/
lemma mem_differences : m ∈ differences start actual expected ↔
    Differs start actual expected m := by
  induction start, actual, expected using differences.induct with
  | case1 start actual e expected ih =>
    rw [differences, if_pos rfl, ih, differs_cons]
    exact (or_iff_right fun first => first.2 rfl).symm
  | case2 start a actual e expected differ ih =>
    rw [differences, if_neg differ, List.mem_cons, ih, differs_cons, and_iff_left differ]
  | case3 actual start expected short =>
    rw [differences.eq_2 _ _ _ short]
    refine iff_of_false List.not_mem_nil ?_
    rintro ⟨k, a, e, -, here, there, -⟩
    cases actual with
    | nil => cases here
    | cons a actual =>
      cases expected with
      | nil => cases there
      | cons e expected => exact short a actual e expected rfl rfl

/-- The differences are found in order. -/
lemma differences_ascending (start : Nat) (actual expected : List Int) :
    (differences start actual expected).Pairwise fun m n => m.index < n.index := by
  induction start, actual, expected using differences.induct with
  | case1 start actual e expected ih => rwa [differences, if_pos rfl]
  | case2 start a actual e expected differ ih =>
    rw [differences, if_neg differ]
    refine List.pairwise_cons.mpr ⟨fun m mem => ?_, ih⟩
    obtain ⟨k, a, e, rfl, -⟩ := mem_differences.mp mem
    exact Nat.lt_of_lt_of_le (Nat.lt_succ_self start) (Nat.le_add_right _ _)
  | case3 actual start expected short =>
    rw [differences.eq_2 _ _ _ short]
    exact .nil

end Verdict

namespace Element

variable {e : Element}

/-- Different elements have different low words. -/
lemma eq_of_value_mod {x y : e.Carrier}
    (same : e.value x % 2 ^ 32 = e.value y % 2 ^ 32) : x = y := by
  cases e with
  | signed =>
    have lowX := Int32.le_toInt x
    have lowY := Int32.le_toInt y
    have highX := Int32.toInt_lt x
    have highY := Int32.toInt_lt y
    simp only [value] at same
    exact Int32.toInt_inj.mp (by omega)
  | unsigned =>
    have boundX := UInt32.toNat_lt x
    have boundY := UInt32.toNat_lt y
    simp only [value] at same
    exact UInt32.toNat_inj.mp (by omega)
  | byte =>
    have boundX := UInt8.toNat_lt x
    have boundY := UInt8.toNat_lt y
    simp only [value] at same
    exact UInt8.toNat_inj.mp (by omega)

/-- Elements are equal if their values are. -/
lemma value_inj {x y : e.Carrier} : e.value x = e.value y ↔ x = y :=
  ⟨fun same => eq_of_value_mod (congrArg (· % 2 ^ 32) same), congrArg e.value⟩

end Element

/-- What the verdict of a round says. -/
structure Round.Judged (r : Round) (v : Verdict) : Prop where
  passed : v.passed = true ↔ r.actual = r.expected
  /-- No index is reported twice, and they are reported in order. -/
  ascending : v.mismatches.Pairwise fun m n => m.index < n.index
  mem : ∀ m, m ∈ v.mismatches ↔ ∃ a e, r.actual[m.index]? = some a ∧ r.expected[m.index]? = some e ∧
    a ≠ e ∧ m.actual = r.element.value a ∧ m.expected = r.element.value e
  lengths : v.lengths =
    if r.actual.length = r.expected.length then none else some (r.actual.length, r.expected.length)

/-- The verdict of a round says what it has to. -/
lemma Round.judged (r : Round) : r.Judged r.verdict where
  passed := by
    have injective : Function.Injective r.element.value := fun _ _ => Element.value_inj.mp
    exact Verdict.passed_of_iff.trans (List.map_injective_iff.mpr injective).eq_iff
  ascending := Verdict.differences_ascending ..
  mem m := by
    refine Verdict.mem_differences.trans ⟨?_, ?_⟩
    · rintro ⟨k, x, y, rfl, here, there, differ⟩
      rw [values, List.getElem?_map] at here there
      obtain ⟨a, atA, rfl⟩ := Option.map_eq_some_iff.mp here
      obtain ⟨e, atE, rfl⟩ := Option.map_eq_some_iff.mp there
      rw [Nat.zero_add]
      exact ⟨a, e, atA, atE, fun same => differ (congrArg r.element.value same), rfl, rfl⟩
    · rintro ⟨a, e, here, there, differ, actual, expected⟩
      refine ⟨m.index, m.actual, m.expected, by rw [Nat.zero_add], ?_, ?_, ?_⟩
      · rw [values, List.getElem?_map, here, actual, Option.map_some]
      · rw [values, List.getElem?_map, there, expected, Option.map_some]
      · rw [actual, expected]
        exact fun same => differ (Element.value_inj.mp same)
  lengths := by
    simp [verdict, Verdict.of, values]

/-! ## All rounds -/

namespace Verdict

variable {v : Verdict}

/-- A verdict that passed is signalled as a pass and nothing else. -/
lemma signals_of_passed (passed : v.passed = true) : v.signals = [.pass] := by
  have none : v.mismatches = [] := by
    rw [Verdict.passed, Bool.and_eq_true, List.isEmpty_iff] at passed
    exact passed.1
  rw [signals, none, if_pos passed]
  rfl

/-- A verdict signals one pass if it passed and none if not. -/
lemma count_pass (v : Verdict) :
    (v.signals.map Signal.message).count .pass = if v.passed = true then 1 else 0 := by
  have none : ((v.mismatches.map Signal.fail).map Signal.message).count .pass = 0 := by
    rw [List.map_map, List.count_eq_zero]
    intro mem
    obtain ⟨m, -, eq⟩ := List.mem_map.mp mem
    cases eq
  rw [signals, List.map_append, List.count_append, none, Nat.zero_add]
  split
  · rfl
  · rfl

/-- As many passes are sent as verdicts passed. -/
lemma count_passes (verdicts : List Verdict) :
    ((verdicts.flatMap signals).map Signal.message).count .pass = verdicts.countP passed := by
  induction verdicts with
  | nil => rfl
  | cons v verdicts ih =>
    rw [List.flatMap_cons, List.map_append, List.count_append, ih, count_pass, List.countP_cons,
      Nat.add_comm]

/-- Whether all verdicts passed can be told from the messages. -/
lemma all_passed_iff (verdicts : List Verdict) : verdicts.all passed = true ↔
    (∀ index actual expected,
      .fail index actual expected ∉ (verdicts.flatMap signals).map Signal.message) ∧
    ((verdicts.flatMap signals).map Signal.message).count .pass = verdicts.length := by
  rw [count_passes, List.countP_eq_length, List.all_eq_true]
  refine ⟨fun all => ⟨fun index actual expected mem => ?_, all⟩, And.right⟩
  obtain ⟨s, mem, eq⟩ := List.mem_map.mp mem
  obtain ⟨v, memV, mem⟩ := List.mem_flatMap.mp mem
  rw [signals_of_passed (all v memV), List.mem_singleton] at mem
  cases mem
  cases eq

end Verdict

/-- `Tells s m` holds when the message `m` tells of the signal `s`: of a failure the index and the
low words of the two values, which differ. -/
inductive Tells : Signal → ControlMessage → Prop where
  | pass : Tells .pass .pass
  | fail {m : Mismatch} {index actual expected : UInt32} :
    index.toNat = m.index → (actual.toNat : Int) = m.actual % 2 ^ 32 →
    (expected.toNat : Int) = m.expected % 2 ^ 32 → actual ≠ expected →
    Tells (.fail m) (.fail index actual expected)

/-- Every signal of a verdict is told by its message. -/
lemma Round.Judged.tells {r : Round} {v : Verdict} {s : Signal} (judged : r.Judged v)
    (short : min r.actual.length r.expected.length < 2 ^ 32) (mem : s ∈ v.signals) :
    Tells s s.message := by
  cases s with
  | pass => exact .pass
  | fail m =>
    have mem : m ∈ v.mismatches := by
      rcases List.mem_append.mp mem with mem | mem
      · obtain ⟨m, mem, ⟨⟩⟩ := List.mem_map.mp mem
        exact mem
      · split at mem
        · cases List.mem_singleton.mp mem
        · cases mem
    obtain ⟨a, e, here, there, differ, actual, expected⟩ := (judged.mem m).mp mem
    have index : m.index < 2 ^ 32 :=
      Nat.lt_trans (Nat.lt_min.mpr ⟨(List.getElem?_eq_some_iff.mp here).1,
        (List.getElem?_eq_some_iff.mp there).1⟩) short
    refine .fail ?_ (Reporter.toNat_ofInt _) (Reporter.toNat_ofInt _) fun same => differ ?_
    · rw [UInt32.toNat_ofNat', Nat.mod_eq_of_lt index]
    · have low := congrArg (fun w : UInt32 => (w.toNat : Int)) same
      simp only [Reporter.toNat_ofInt, actual, expected] at low
      exact Element.eq_of_value_mod low

namespace Reporter

open ControlMessage (encode decode)

/-- Verifying gives the verdict, and the reporter receives its signals. -/
lemma verify_value (r : Reporter) (actual expected : List Int) : (r.verify actual expected).value =
    (.of actual expected, ((Verdict.of actual expected).signals.foldlM receive r).value) := by
  unfold verify Verdict.signals
  rw [List.foldlM_append]
  cases passed : (Verdict.of actual expected).passed with
  | true =>
    simp only [passed, Logged.value_bind, if_true]
    split
    · rfl
    · rfl
  | false =>
    simp only [passed, Logged.value_bind]
    split
    · rfl
    · rfl

/-- The reporter receives the signals of all verdicts, in order. -/
lemma verifyAll_value (r : Reporter) (rounds : List Round) :
    (r.verifyAll (rounds.map Round.values)).value = (rounds.map Round.verdict,
      (((rounds.map Round.verdict).flatMap Verdict.signals).foldlM receive r).value) := by
  induction rounds generalizing r with
  | nil => rfl
  | cons round rounds ih =>
    rw [List.map_cons, List.map_cons, List.flatMap_cons, List.foldlM_append, Logged.value_bind]
    simp only [verifyAll, Logged.value_bind, verify_value, ih, Logged.value_pure]
    rfl

/-- A stream grows by the messages of the signals. -/
lemma receiveAll_control (stream : List UInt8) (signals : List Signal) :
    (signals.foldlM receive (control stream)).value =
      .control (stream ++ encode (signals.map Signal.message)) := by
  have sent := callAll_control stream (signals.map Call.signal)
  rwa [callAll, List.foldlM_map, List.map_map] at sent

/-- Every verdict is right, the reporter receives what the verdicts say, and the stream of control
messages with the exit behind it tells all of it. -/
theorem verified_rounds (rounds : List Round)
    (short : ∀ r ∈ rounds, min r.actual.length r.expected.length < 2 ^ 32) :
    ∃ verdicts, List.Forall₂ Round.Judged rounds verdicts ∧
      (∀ r : Reporter, (r.verifyAll (rounds.map Round.values)).value =
        (verdicts, ((verdicts.flatMap Verdict.signals).foldlM receive r).value)) ∧
      ∃ status stream messages,
        status = (if verdicts.all Verdict.passed then 0 else 1) ∧
        ((control []).verifyAll (rounds.map Round.values)).value.2.exit status = .control stream ∧
        decode stream = .ok (messages ++ [.exit status]) ∧
        List.Forall₂ Tells (verdicts.flatMap Verdict.signals) messages ∧
        (status = 0 ↔ (∀ index actual expected, .fail index actual expected ∉ messages) ∧
          messages.count .pass = rounds.length) := by
  let verdicts := rounds.map Round.verdict
  let messages := (verdicts.flatMap Verdict.signals).map Signal.message
  let status : UInt16 := if verdicts.all Verdict.passed then 0 else 1
  refine ⟨verdicts, ?_, fun r => verifyAll_value r rounds, status,
    encode (messages ++ [.exit status]), messages, rfl, ?_, ControlMessage.decode_encode _, ?_, ?_⟩
  · exact List.forall₂_map_right_iff.mpr (List.forall₂_same.mpr fun r _ => r.judged)
  · rw [verifyAll_value, receiveAll_control, ControlMessage.encode_append]
    rfl
  · refine List.forall₂_map_right_iff.mpr (List.forall₂_same.mpr fun s mem => ?_)
    obtain ⟨v, memV, mem⟩ := List.mem_flatMap.mp mem
    obtain ⟨r, memR, rfl⟩ := List.mem_map.mp memV
    exact r.judged.tells (short r memR) mem
  · have told := Verdict.all_passed_iff verdicts
    rw [List.length_map] at told
    rw [← told]
    simp only [status]
    split
    · next all => exact iff_of_true rfl all
    · next some => exact iff_of_false (by decide) some

/-- Rounds of three kinds: one word differs in sign, two bytes agree, and a result is a prefix of
its reference. -/
def mixedRounds : List Round :=
  [⟨.signed, [-1, 4], [3, 4]⟩, ⟨.byte, [255], [255]⟩, ⟨.unsigned, [1, 2], [1, 2, 3]⟩]

/-- Of the last of these rounds only the exit status tells. -/
theorem verified_rounds_mixed :
    (∀ r ∈ mixedRounds, min r.actual.length r.expected.length < 2 ^ 32) ∧
    ∃ stream, ((control []).verifyAll (mixedRounds.map Round.values)).value.2.exit 1 =
      .control stream ∧
      decode stream = .ok [.fail 0 0xffffffff 3, .pass, .exit 1] := by
  have short : ∀ r ∈ mixedRounds, min r.actual.length r.expected.length < 2 ^ 32 := by decide
  obtain ⟨verdicts, -, received, status, stream, messages, statusEq, sent, -, -, -⟩ :=
    verified_rounds mixedRounds short
  obtain rfl : mixedRounds.map Round.verdict = verdicts := congrArg Prod.fst (received (control []))
  obtain rfl : status = 1 := statusEq
  refine ⟨short, stream, sent, ?_⟩
  obtain rfl :
      [1, 0, 2, 0, 0, 0, 0, 0, 255, 255, 255, 255, 3, 0, 0, 0, 0, 0, 2, 0, 1, 0, 1, 0] = stream :=
    Reporter.control.inj sent
  decide

end Reporter

end TileBench
