import Mathlib.Data.List.Forall2
import Mathlib.Tactic.Lemma
import TileBench.Dataset.Text
import TileBench.Proofs.Text.Numeral
import TileBench.Proofs.Text.Words

/-!
# What is read as a dataset

`Reading` says what tokens come to: a dataset, or the first of all that is wrong with them. `Yields`
says so of bytes. What is read is just that, unless there is more to count than a size can hold
(`Uncounted`, `Overflows`), where reading panics. It does not panic as long as the number of tokens
of the largest dataset is a size. Tokens after those that the size asks for are not looked at.
-/

namespace TileBench.SumData

open Text Text.Numeral

variable {capacity n : Nat} {head bad : List Char} {rest tokens good more : List (List Char)}
    {xs : List Int32}
  {d : SumData} {outcome : Except Failure SumData}

/-- `Reading capacity tokens outcome` holds when `outcome` is what `tokens` come to as a dataset of
at most `capacity` elements. -/
inductive Reading (capacity : Nat) : List (List Char) → Except Failure SumData → Prop where
  | empty : Reading capacity [] (.error (.truncated 1 0))
  | noSize {head : List Char} {rest : List (List Char)} {c : Cause} :
    (∀ n, ¬ IsSize head n) → readSize head = .error c →
      Reading capacity (head :: rest)
        (.error (.parse 0 s!"size '{String.ofList head}': {c.message}"))
  | tooLarge {head : List Char} {rest : List (List Char)} {n : Nat} :
    IsSize head n → capacity < n → Reading capacity (head :: rest) (.error (.tooLarge n capacity))
  /-- A token that is no integer comes before the lack of others after it. -/
  | noValue {head bad : List Char} {good more : List (List Char)} {n : Nat}
      {xs : List Int32} {c : Cause} :
    IsSize head n → n ≤ capacity → good.length < 3 * n → List.Forall₂ IsInt32 good xs →
      (∀ x, ¬ IsInt32 bad x) → readInt32 bad = .error c →
      Reading capacity (head :: (good ++ bad :: more))
        (.error (.parse (1 + good.length) s!"'{String.ofList bad}': {c.message}"))
  | truncated {head : List Char} {rest : List (List Char)} {n : Nat} {xs : List Int32} :
    IsSize head n → n ≤ capacity → rest.length < 3 * n → List.Forall₂ IsInt32 rest xs →
      Reading capacity (head :: rest) (.error (.truncated (1 + 3 * n) (1 + rest.length)))
  | whole {head : List Char} {values more : List (List Char)} {n : Nat} {d : SumData} :
    IsSize head n → n ≤ capacity → d.src0.length = n → d.src1.length = n → d.reference.length = n →
      List.Forall₂ IsInt32 values (d.src0 ++ d.src1 ++ d.reference) →
      Reading capacity (head :: (values ++ more)) (.ok d)

/-- What bytes come to as the text of a dataset. -/
inductive Yields (capacity : Nat) (bytes : List UInt8) : Except Failure SumData → Prop where
  | notText : (∀ text, bytes ≠ encode text) →
    Yields capacity bytes (.error (.io FileFault.notText.message))
  | text {text : String} {tokens : List (List Char)} {outcome : Except Failure SumData} :
    bytes = encode text → Splits text.toList tokens → Reading capacity tokens outcome →
      Yields capacity bytes outcome

/-- The tokens ask for more values than a size can count. The number of all tokens is worked out as
well where some are missing, to tell how many were expected. -/
inductive Uncounted (capacity : Nat) : List (List Char) → Prop where
  | values {head : List Char} {rest : List (List Char)} {n : Nat} :
    IsSize head n → n ≤ capacity → sizeLimit ≤ 3 * n → Uncounted capacity (head :: rest)
  | expected {head : List Char} {rest : List (List Char)} {n : Nat} {xs : List Int32} :
    IsSize head n → n ≤ capacity → sizeLimit ≤ 1 + 3 * n → rest.length < 3 * n →
    List.Forall₂ IsInt32 rest xs →
      Uncounted capacity (head :: rest)

/-- The bytes are those of a text whose tokens ask for too many values. -/
inductive Overflows (capacity : Nat) (bytes : List UInt8) : Prop where
  | text {text : String} {tokens : List (List Char)} :
    bytes = encode text → Splits text.toList tokens → Uncounted capacity tokens →
    Overflows capacity bytes

/-! ## Values -/

/-- Integers at the front are read, and the tokens after them under their own indices. -/
lemma readValues_append (all : List.Forall₂ IsInt32 good xs) (i : Nat) (more : List (List Char)) :
    readValues i (good ++ more) = (readValues (i + good.length) more).map (xs ++ ·) := by
  induction all generalizing i with
  | nil =>
    rw [List.nil_append, List.length_nil, Nat.add_zero]
    cases readValues i more <;> rfl
  | @cons token x good xs numeral _ ih =>
    have next : i + (token :: good).length = i + 1 + good.length := by
      rw [List.length_cons, Nat.add_right_comm, Nat.add_assoc]
    rw [List.cons_append, readValues, readInt32_eq_ok_iff.mpr numeral, next]
    dsimp only
    rw [ih]
    cases readValues (i + 1 + good.length) more <;> rfl

/-- Integers are read to the end. -/
lemma readValues_of_forall₂ (all : List.Forall₂ IsInt32 good xs) (i : Nat) :
    readValues i good = .ok xs := by
  have read := readValues_append all i []
  rw [List.append_nil] at read
  rw [read]
  exact congrArg Except.ok (List.append_nil xs)

/-- The first token that is no integer is the one that is blamed. -/
lemma readValues_of_bad {c : Cause} (all : List.Forall₂ IsInt32 good xs)
    (wrong : readInt32 bad = .error c) (i : Nat) :
    readValues i (good ++ bad :: more) =
      .error (.parse (i + good.length) s!"'{String.ofList bad}': {c.message}") := by
  rw [readValues_append all, readValues, wrong]
  rfl

/-- Tokens are integers up to the first that is none. -/
lemma exists_forall₂ (tokens : List (List Char)) : (∃ xs, List.Forall₂ IsInt32 tokens xs) ∨
    ∃ good bad more xs c, tokens = good ++ bad :: more ∧ List.Forall₂ IsInt32 good xs ∧
      readInt32 bad = .error c := by
  induction tokens with
  | nil => exact .inl ⟨[], .nil⟩
  | cons token tokens ih =>
    cases read : readInt32 token with
    | error c => exact .inr ⟨[], token, tokens, [], c, rfl, .nil, read⟩
    | ok x =>
      have numeral := readInt32_eq_ok_iff.mp read
      rcases ih with ⟨xs, all⟩ | ⟨good, bad, more, xs, c, rfl, all, wrong⟩
      · exact .inl ⟨x :: xs, .cons numeral all⟩
      · exact .inr ⟨token :: good, bad, more, x :: xs, c, rfl, .cons numeral all, wrong⟩

/-- A token that is not read is no integer. -/
lemma not_isInt32 {c : Cause} (wrong : readInt32 bad = .error c) (x : Int32) : ¬ IsInt32 bad x := by
  intro numeral
  cases wrong.symm.trans (readInt32_eq_ok_iff.mpr numeral)

/-! ## Runs of values -/

/-- Values in three runs of one length make up a dataset, also if the runs are empty. -/
lemma ofValues_append (first : d.src0.length = n) (second : d.src1.length = n)
    (third : d.reference.length = n) : ofValues n (d.src0 ++ d.src1 ++ d.reference) = d := by
  obtain ⟨xs, ys, zs⟩ := d
  dsimp only at first second third ⊢
  unfold ofValues runs
  cases n with
  | zero =>
    obtain rfl := List.eq_nil_of_length_eq_zero first
    obtain rfl := List.eq_nil_of_length_eq_zero second
    obtain rfl := List.eq_nil_of_length_eq_zero third
    rfl
  | succ n =>
    have count : (xs ++ ys ++ zs).length / max (n + 1) 1 = 3 := by
      rw [List.length_append, List.length_append, first, second, third,
        Nat.max_eq_left (Nat.succ_pos n)]
      exact Nat.div_eq_of_eq_mul_left (Nat.succ_pos n) (by omega)
    have pieces : Partition.pieces [n + 1, n + 1, n + 1] (xs ++ ys ++ zs) = [xs, ys, zs] := by
      rw [List.append_assoc, Partition.pieces, List.take_left' first, List.drop_left' first,
        Partition.pieces, List.take_left' second, List.drop_left' second, Partition.pieces,
        Partition.pieces, List.take_of_length_le (Nat.le_of_eq third)]
    rw [count, Nat.max_eq_left (Nat.succ_pos n)]
    simp only [List.replicate, pieces]
    rfl

/-- Three times as many values as a size are three runs of that size. -/
lemma exists_runs (length : xs.length = 3 * n) :
    ∃ d : SumData, xs = d.src0 ++ d.src1 ++ d.reference ∧
      d.src0.length = n ∧ d.src1.length = n ∧ d.reference.length = n := by
  refine ⟨⟨xs.take n, (xs.drop n).take n, (xs.drop n).drop n⟩, ?_, ?_, ?_, ?_⟩
  · rw [List.append_assoc, List.take_append_drop, List.take_append_drop]
  · rw [List.length_take]
    omega
  · rw [List.length_take, List.length_drop]
    omega
  · rw [List.length_drop, List.length_drop]
    omega

/-! ## Tokens -/

/-- The numeral of a size is read as it, unless it is larger than the capacity. -/
lemma readHead_of_isSize (size : IsSize head n) :
    readHead capacity head = if capacity < n then .error (.tooLarge n capacity) else .ok n := by
  rw [readHead, readSize_eq_ok_iff.mpr size]

/-- Without the numeral of a size in front nothing is read. -/
lemma ofTokens_of_noSize {c : Cause} (wrong : readSize head = .error c) :
    ofTokens capacity (head :: rest) =
    .ok (.error (.parse 0 s!"size '{String.ofList head}': {c.message}")) := by
  rw [ofTokens, readHead, wrong]
  rfl

/-- A size that is larger than the capacity is refused before any value is read. -/
lemma ofTokens_of_larger (size : IsSize head n) (larger : capacity < n) :
    ofTokens capacity (head :: rest) = .ok (.error (.tooLarge n capacity)) := by
  rw [ofTokens, readHead_of_isSize size, if_pos larger]
  rfl

/-- A size that asks for more values than can be counted panics before any value is read. -/
lemma ofTokens_of_uncountable (size : IsSize head n) (within : n ≤ capacity)
    (many : ¬ 3 * n < sizeLimit) : ofTokens capacity (head :: rest) = .error .overflow := by
  rw [ofTokens, readHead_of_isSize size, if_neg (Nat.not_lt.mpr within)]
  simp only [checkedMul, if_neg many]
  rfl

/-- A size that asks for values that can be counted is followed by these values. -/
lemma ofTokens_of_isSize (size : IsSize head n) (within : n ≤ capacity)
    (countable : 3 * n < sizeLimit) :
    ofTokens capacity (head :: rest) =
      match readValues 1 (rest.take (3 * n)) with
      | .error e => .ok (.error e)
      | .ok values =>
        if values.length < 3 * n then
          (checkedAdd 1 (3 * n)).map fun expected =>
            .error (.truncated expected (1 + values.length))
        else .ok (.ok (ofValues n values)) := by
  rw [ofTokens, readHead_of_isSize size, if_neg (Nat.not_lt.mpr within)]
  dsimp only
  rw [checkedMul, if_pos countable]
  cases read : readValues 1 (rest.take (3 * n)) with
  | error e =>
    simp only [bind, Except.bind, read]
    rfl
  | ok values =>
    simp only [bind, Except.bind, read]
    by_cases short : values.length < 3 * n
    · rw [if_pos short, if_pos short]
      cases checkedAdd 1 (3 * n) <;> rfl
    · rw [if_neg short, if_neg short]
      rfl

/-- A dataset is read whatever follows it, if the count of its values is one of 64 bits. -/
lemma ofTokens_whole {values : List (List Char)} (size : IsSize head n) (within : n ≤ capacity)
    (countable : 3 * n < sizeLimit) (first : d.src0.length = n) (second : d.src1.length = n)
    (third : d.reference.length = n)
    (all : List.Forall₂ IsInt32 values (d.src0 ++ d.src1 ++ d.reference)) :
    ofTokens capacity (head :: (values ++ more)) = .ok (.ok d) := by
  have total : (d.src0 ++ d.src1 ++ d.reference).length = 3 * n := by
    rw [List.length_append, List.length_append, first, second, third]
    omega
  have count : values.length = 3 * n := all.length_eq.trans total
  rw [ofTokens_of_isSize size within countable, List.take_left' count, readValues_of_forall₂ all]
  dsimp only
  rw [total, if_neg (Nat.lt_irrefl _), ofValues_append first second third]

/-- The values that a size asks for are counted unless they are too many. -/
lemma countable_values (size : IsSize head n) (within : n ≤ capacity)
    (counted : ¬ Uncounted capacity (head :: rest)) : 3 * n < sizeLimit :=
  Nat.lt_of_not_le fun many => counted (.values size within many)

/-- Where values are missing, the number of all tokens is counted as well. -/
lemma countable_tokens (size : IsSize head n) (within : n ≤ capacity) (few : rest.length < 3 * n)
    (all : List.Forall₂ IsInt32 rest xs) (counted : ¬ Uncounted capacity (head :: rest)) :
    1 + 3 * n < sizeLimit :=
  Nat.lt_of_not_le fun many => counted (.expected size within many few all)

/-- Where there is more to count than a size can hold, reading panics. -/
lemma Uncounted.ofTokens_eq (uncounted : Uncounted capacity tokens) :
    ofTokens capacity tokens = .error .overflow := by
  cases uncounted with
  | values size within many => exact ofTokens_of_uncountable size within (Nat.not_lt.mpr many)
  | @expected head rest n xs size within many few all =>
    by_cases countable : 3 * n < sizeLimit
    · rw [ofTokens_of_isSize size within countable, List.take_of_length_le (Nat.le_of_lt few),
        readValues_of_forall₂ all]
      dsimp only
      rw [← all.length_eq, if_pos few, checkedAdd, if_neg (Nat.not_lt.mpr many)]
      rfl
    · exact ofTokens_of_uncountable size within countable

/-- Where all can be counted, tokens are read as what they come to. -/
lemma Reading.ofTokens_eq (reading : Reading capacity tokens outcome)
    (counted : ¬ Uncounted capacity tokens) : ofTokens capacity tokens = .ok outcome := by
  cases reading with
  | empty => rfl
  | noSize _ wrong => exact ofTokens_of_noSize wrong
  | tooLarge size larger => exact ofTokens_of_larger size larger
  | @noValue head bad good more n xs c size within early all _ wrong =>
    have countable := countable_values size within counted
    -- The bad token is among those for which the size asks.
    have taken : (good ++ bad :: more).take (3 * n) =
        good ++ bad :: more.take (3 * n - good.length - 1) := by
      rw [List.take_append, List.take_of_length_le (Nat.le_of_lt early), List.take_cons (by omega)]
    rw [ofTokens_of_isSize size within countable, taken, readValues_of_bad all wrong]
  | @truncated head rest n xs size within few all =>
    have countable := countable_tokens size within few all counted
    rw [ofTokens_of_isSize size within (by omega), List.take_of_length_le (Nat.le_of_lt few),
      readValues_of_forall₂ all]
    dsimp only
    rw [← all.length_eq, if_pos few, checkedAdd, if_pos countable]
    rfl
  | @whole head values more n d size within first second third all =>
    exact ofTokens_whole size within (countable_values size within counted) first second third all

/-- Whatever a size asks for can be counted if all that the capacity allows can be. -/
lemma not_uncounted (small : 3 * capacity + 1 < sizeLimit) : ¬ Uncounted capacity tokens := by
  intro uncounted
  cases uncounted with
  | values _ within many => omega
  | expected _ within many => omega

/-- All tokens come to something. -/
lemma exists_reading (capacity : Nat) (tokens : List (List Char)) :
    ∃ outcome, Reading capacity tokens outcome := by
  cases tokens with
  | nil => exact ⟨_, .empty⟩
  | cons head rest =>
    cases read : readSize head with
    | error c =>
      refine ⟨_, .noSize (fun n size => ?_) read⟩
      cases read.symm.trans (readSize_eq_ok_iff.mpr size)
    | ok n =>
      have size := readSize_eq_ok_iff.mp read
      rcases Nat.lt_or_ge capacity n with larger | within
      · exact ⟨_, .tooLarge size larger⟩
      -- A token that is no integer counts only among those for which the size asks.
      have parted := List.take_append_drop (3 * n) rest
      have taken := List.length_take_le (3 * n) rest
      rcases exists_forall₂ (rest.take (3 * n))
        with ⟨xs, all⟩ | ⟨good, bad, more, xs, c, eq, all, wrong⟩
      · by_cases few : rest.length < 3 * n
        · rw [List.take_of_length_le (Nat.le_of_lt few)] at all
          exact ⟨_, .truncated size within few all⟩
        · have count : xs.length = 3 * n := by
            rw [← all.length_eq, List.length_take]
            omega
          obtain ⟨d, rfl, first, second, third⟩ := exists_runs count
          rw [← parted]
          exact ⟨_, .whole size within first second third all⟩
      · have early : good.length < 3 * n := by
          rw [eq, List.length_append, List.length_cons] at taken
          omega
        rw [← parted, eq, List.append_assoc, List.cons_append]
        exact ⟨_, .noValue size within early all (not_isInt32 wrong) wrong⟩

/-- Tokens are read as what they come to, and without a panic just where all can be counted. -/
lemma ofTokens_eq_ok_iff_counted :
    ofTokens capacity tokens = .ok outcome ↔
    Reading capacity tokens outcome ∧ ¬ Uncounted capacity tokens := by
  refine ⟨fun read => ?_, fun ⟨reading, counted⟩ => reading.ofTokens_eq counted⟩
  have counted : ¬ Uncounted capacity tokens := by
    intro uncounted
    cases read.symm.trans uncounted.ofTokens_eq
  obtain ⟨outcome', reading⟩ := exists_reading capacity tokens
  cases read.symm.trans (reading.ofTokens_eq counted)
  exact ⟨reading, counted⟩

/-- Tokens after those for which the size asks are not looked at. -/
lemma ofTokens_congr {rest' : List (List Char)}
    (same : ∀ n, IsSize head n → rest.take (3 * n) = rest'.take (3 * n)) :
    ofTokens capacity (head :: rest) = ofTokens capacity (head :: rest') := by
  cases read : readSize head with
  | error c => rw [ofTokens_of_noSize read, ofTokens_of_noSize read]
  | ok n =>
    have size := readSize_eq_ok_iff.mp read
    rcases Nat.lt_or_ge capacity n with larger | within
    · rw [ofTokens_of_larger size larger, ofTokens_of_larger size larger]
    · by_cases countable : 3 * n < sizeLimit
      · rw [ofTokens_of_isSize size within countable,
          ofTokens_of_isSize size within countable, same n size]
      · rw [ofTokens_of_uncountable size within countable,
          ofTokens_of_uncountable size within countable]

/-- The bytes of a text are read as its words. -/
lemma read_encode (capacity : Nat) (text : String) :
    read capacity (encode text) = ofTokens capacity (words text.toList) := by
  rw [read, decode?_encode]

/-- The bytes of a text overflow if its words do. -/
lemma overflows_encode {text : String} :
    Overflows capacity (encode text) ↔ Uncounted capacity (words text.toList) := by
  refine ⟨fun overflows => ?_, fun uncounted => .text rfl (words_eq_iff.mp rfl) uncounted⟩
  obtain ⟨eq, splits, uncounted⟩ := overflows
  obtain rfl := Option.some.inj ((decode?_encode text).symm.trans (decode?_eq_some_iff.mpr eq))
  rwa [splits.words_eq]

/-- Bytes are read as what they yield, and without a panic just where all can be counted. -/
lemma read_eq_ok_iff_counted {bytes : List UInt8} :
    read capacity bytes = .ok outcome ↔
    Yields capacity bytes outcome ∧ ¬ Overflows capacity bytes := by
  cases decoded : decode? bytes with
  | none =>
    have notText (text : String) : bytes ≠ encode text := by
      intro eq
      cases decoded.symm.trans (decode?_eq_some_iff.mpr eq)
    have failed : read capacity bytes = .ok (.error (.io FileFault.notText.message)) := by
      rw [read, decoded]
    rw [failed]
    refine ⟨fun eq => ?_, fun ⟨yields, _⟩ => ?_⟩
    · cases eq
      exact ⟨.notText notText, fun ⟨eq, _, _⟩ => notText _ eq⟩
    · cases yields with
      | notText => rfl
      | text eq => exact absurd eq (notText _)
  | some text =>
    obtain rfl := decode?_eq_some_iff.mp decoded
    rw [read_encode, ofTokens_eq_ok_iff_counted, overflows_encode]
    refine and_congr_left fun _ =>
      ⟨fun reading => .text rfl (words_eq_iff.mp rfl) reading, fun yields => ?_⟩
    cases yields with
    | notText none => exact absurd rfl (none text)
    | @text text' tokens _ eq splits reading =>
      cases (decode?_eq_some_iff.mpr eq).symm.trans decoded
      rwa [splits.words_eq]

/-- No bytes overflow if all that the capacity allows can be counted. -/
lemma not_overflows (small : 3 * capacity + 1 < sizeLimit) {bytes : List UInt8} :
    ¬ Overflows capacity bytes :=
  fun ⟨_, _, uncounted⟩ => not_uncounted small uncounted

/-- Bytes are read as what they yield if all that the capacity allows can be counted. -/
lemma read_eq_ok_iff (small : 3 * capacity + 1 < sizeLimit) {bytes : List UInt8} :
    read capacity bytes = .ok outcome ↔ Yields capacity bytes outcome := by
  rw [read_eq_ok_iff_counted, and_iff_left (not_overflows small)]

/-- All bytes yield something. -/
lemma exists_yields (capacity : Nat) (bytes : List UInt8) :
    ∃ outcome, Yields capacity bytes outcome := by
  by_cases notText : ∀ text, bytes ≠ encode text
  · exact ⟨_, .notText notText⟩
  · obtain ⟨text, eq⟩ := not_forall_not.mp notText
    obtain ⟨tokens, splits⟩ := exists_splits text.toList
    obtain ⟨outcome, reading⟩ := exists_reading capacity tokens
    exact ⟨outcome, .text eq splits reading⟩

/-- Bytes of every kind are read without a panic, as what they yield and as nothing else. What
follows the tokens for which the size asks makes no difference, and where there is no size, nothing
after the first token does. -/
theorem read_yields {capacity : Nat} (small : 3 * capacity + 1 < sizeLimit) :
    (∀ bytes, (∃ outcome, read capacity bytes = .ok outcome) ∧
      ∀ outcome, read capacity bytes = .ok outcome ↔ Yields capacity bytes outcome) ∧
    ∀ (text text' : String) (head : List Char) (rest rest' : List (List Char)),
      Splits text.toList (head :: rest) → Splits text'.toList (head :: rest') →
      (∀ n, IsSize head n → rest.take (3 * n) = rest'.take (3 * n)) →
      read capacity (encode text) = read capacity (encode text') := by
  refine ⟨fun bytes => ⟨?_, fun outcome => read_eq_ok_iff small⟩, ?_⟩
  · obtain ⟨outcome, yields⟩ := exists_yields capacity bytes
    exact ⟨outcome, (read_eq_ok_iff small).mpr yields⟩
  · intro text text' head rest rest' splits splits' same
    rw [read_encode, read_encode, splits.words_eq, splits'.words_eq]
    exact ofTokens_congr same

/-- Of a text with too few values the first that is no integer is blamed. What follows enough values
is not read. -/
theorem read_yields_bad_value : 3 * 2 + 1 < sizeLimit ∧
    Yields 2 (encode "2 1 -+3\n4 5") (.error (.parse 2 "'-+3': invalid digit found in string")) ∧
    read 2 (encode "1 1 2 3") = read 2 (encode "1 1\n2 3 x") := by
  have small : 3 * 2 + 1 < sizeLimit := by decide
  have value : read 2 (encode "2 1 -+3\n4 5") =
      .ok (.error (.parse 2 "'-+3': invalid digit found in string")) := by
    rw [read_encode]
    rfl
  have one (n : Nat) (size : IsSize ['1'] n) :
      [['1'], ['2'], ['3']].take (3 * n) = [['1'], ['2'], ['3'], ['x']].take (3 * n) := by
    cases readSize_eq_ok_iff.mpr size
    rfl
  refine ⟨small, (((read_yields small).1 _).2 _).mp value, ?_⟩
  exact (read_yields small).2 _ _ _ _ _ (words_eq_iff.mp rfl) (words_eq_iff.mp rfl) one

end TileBench.SumData
