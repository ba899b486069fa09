import TileBench.Proofs.Dataset.Grammar

/-!
# Datasets that cannot be counted

The size at the front of a text is bounded by the capacity and by nothing else, and the number of
values that it asks for is three times as large. `Overflows` says where that number, or the number
of tokens that should have been there, leaves 64 bits; there reading panics. A capacity keeps every
text from that exactly if the tokens of the largest dataset can be counted.
-/

namespace TileBench.SumData

open Text Text.Numeral

variable {capacity : Nat} {tokens : List (List Char)} {bytes : List UInt8}
    {outcome : Except Failure SumData}

/-- A text with too few tokens is reported with their numbers, which are sizes. -/
def Counted (outcome : Except Failure SumData) : Prop :=
  ∀ expected found, outcome = .error (.truncated expected found) →
    found < expected ∧ expected < sizeLimit

/-- The numbers of tokens in a report are sizes where they can be counted. -/
lemma Reading.counted (reading : Reading capacity tokens outcome)
    (small : ¬ Uncounted capacity tokens) : Counted outcome := by
  rintro expected found eq
  cases reading with
  | empty =>
    cases eq
    decide
  | truncated size within few all =>
    cases eq
    exact ⟨by omega, countable_tokens size within few all small⟩
  | _ => cases eq

/-- The numbers in what bytes yield are sizes where they can be counted. -/
lemma Yields.counted (yields : Yields capacity bytes outcome) (small : ¬ Overflows capacity bytes) :
    Counted outcome := by
  cases yields with
  | notText =>
    rintro expected found eq
    cases eq
  | text eq splits reading =>
    exact reading.counted fun uncounted => small (.text eq splits uncounted)

/-- Bytes that overflow are read with a panic. -/
lemma Overflows.read_eq (overflows : Overflows capacity bytes) :
    read capacity bytes = .error .overflow := by
  obtain ⟨rfl, splits, uncounted⟩ := overflows
  rw [read_encode, splits.words_eq, uncounted.ofTokens_eq]

/-- Where the tokens of the largest dataset cannot be counted, there is a size that overflows with
nothing behind it. -/
lemma exists_overflows (large : sizeLimit ≤ 3 * capacity + 1) :
    ∃ bytes, Overflows capacity bytes := by
  have size : sizeLimit = 3 * 6148914691236517205 + 1 := rfl
  refine ⟨encode (toString 6148914691236517205), .text rfl (.last (decimal_toString _).isWord) ?_⟩
  exact .expected (isSize_toString (by omega)) (by omega) (by omega) (by decide) .nil

/-- Reading panics where there is too much to count and nowhere else; all other bytes come to what
they yield, with sizes for the numbers of tokens in a report. No bytes are read with a panic exactly
for a capacity of which the tokens can be counted. -/
theorem overflows_of_read (capacity : Nat) :
    (∀ bytes, (Overflows capacity bytes ∧ read capacity bytes = .error .overflow) ∨
      ∃ outcome, ¬ Overflows capacity bytes ∧ read capacity bytes = .ok outcome ∧
        Yields capacity bytes outcome ∧ Counted outcome) ∧
    ((∀ bytes, ∃ outcome, read capacity bytes = .ok outcome) ↔ 3 * capacity + 1 < sizeLimit) := by
  refine ⟨fun bytes => ?_, fun total => ?_, fun small bytes => ?_⟩
  · by_cases overflows : Overflows capacity bytes
    · exact .inl ⟨overflows, overflows.read_eq⟩
    · obtain ⟨outcome, yields⟩ := exists_yields capacity bytes
      exact .inr ⟨outcome, overflows, read_eq_ok_iff_counted.mpr ⟨yields, overflows⟩, yields,
        yields.counted overflows⟩
  · by_contra large
    obtain ⟨bytes, overflows⟩ := exists_overflows (Nat.not_lt.mp large)
    obtain ⟨outcome, read⟩ := total bytes
    cases read.symm.trans overflows.read_eq
  · obtain ⟨outcome, yields⟩ := exists_yields capacity bytes
    exact ⟨outcome, (read_eq_ok_iff small).mpr yields⟩

/-- A second token that is no integer is to blame whatever the size is. From one size on, reading
panics before it looks at the token. -/
theorem read_overflows_before_bad_value :
    read (sizeLimit - 1) (encode "6148914691236517205 x") =
      .ok (.error (.parse 1 "'x': invalid digit found in string")) ∧
    Yields (sizeLimit - 1) (encode "6148914691236517206 x")
      (.error (.parse 1 "'x': invalid digit found in string")) ∧
    read (sizeLimit - 1) (encode "6148914691236517206 x") = .error .overflow := by
  have size : IsSize "6148914691236517206".toList 6148914691236517206 := readSize_eq_ok_iff.mp rfl
  have bad (x : Int32) : ¬ IsInt32 ['x'] x := not_isInt32 rfl x
  have reading : Reading (sizeLimit - 1) ("6148914691236517206".toList :: ([] ++ [['x']]))
      (.error (.parse 1 "'x': invalid digit found in string")) :=
    .noValue size (by decide) (by decide) .nil bad rfl
  refine ⟨?_, .text rfl (words_eq_iff.mp rfl) reading, ?_⟩
  · rw [read_encode]
    rfl
  · rw [read_encode]
    rfl

end TileBench.SumData
