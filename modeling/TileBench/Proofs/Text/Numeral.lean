import Mathlib.Tactic.Lemma
import TileBench.Panic
import TileBench.Proofs.Text.Words
import TileBench.Text.Numeral

/-!
# What is read as a numeral

`IsSize` and `IsInt32` say which texts are numerals of a size and of an integer of 32 bits, and of
which one. Reading accepts these texts and no others. A number is read back from the way in which it
is printed, and that is one word of a text.
-/

namespace TileBench.Text.Numeral

variable {cs : List Char} {limit value n : Nat} {excess : Cause} {x : Int32}

/-- `Decimal cs n` holds when `cs` are decimal digits, of which there is at least one, and `n` is
their value. -/
structure Decimal (cs : List Char) (n : Nat) : Prop where
  inhabited : cs ≠ []
  digits : ∀ c ∈ cs, c.isDigit = true
  value : Nat.ofDigitChars 10 cs 0 = n

/-- The numerals of a size: decimal digits, with or without a plus sign. -/
inductive IsSize : List Char → Nat → Prop where
  | plain {cs : List Char} {n : Nat} : Decimal cs n → n < sizeLimit → IsSize cs n
  | plus {cs : List Char} {n : Nat} : Decimal cs n → n < sizeLimit → IsSize ('+' :: cs) n

/-- The numerals of an integer of 32 bits: decimal digits, with or without a sign. -/
inductive IsInt32 : List Char → Int32 → Prop where
  | plain {cs : List Char} {n : Nat} {x : Int32} : Decimal cs n → x.toInt = n → IsInt32 cs x
  | plus {cs : List Char} {n : Nat} {x : Int32} : Decimal cs n → x.toInt = n → IsInt32 ('+' :: cs) x
  | minus {cs : List Char} {n : Nat} {x : Int32} :
    Decimal cs n → x.toInt = -n → IsInt32 ('-' :: cs) x

/-! ## Digits -/

/-- The decimal digits are the characters between zero and nine. -/
lemma isDigit_iff {c : Char} : c.isDigit = true ↔ '0' ≤ c ∧ c ≤ '9' := by
  rw [Char.isDigit, Bool.and_eq_true, decide_eq_true_eq, decide_eq_true_eq]
  rfl

/-- In base ten no letter is a digit. -/
lemma digit?_ten (c : Char) :
    digit? 10 c = if c.isDigit then some (c.toNat - '0'.toNat) else none := by
  unfold digit?
  by_cases digit : '0' ≤ c ∧ c ≤ '9'
  · have small : c.toNat - '0'.toNat < 10 := by
      have last : c.toNat ≤ '9'.toNat := digit.2
      have ten : '9'.toNat - '0'.toNat < 10 := by decide
      omega
    rw [if_pos digit, if_pos (isDigit_iff.mpr digit)]
    exact if_pos (decide_eq_true small)
  · rw [if_neg digit, if_neg (mt isDigit_iff.mp digit)]
    dsimp only
    split
    · simp
    · split
      · simp
      · rfl

/-- Further digits only make a value larger. -/
lemma le_ofDigitChars (cs : List Char) (value : Nat) : value ≤ Nat.ofDigitChars 10 cs value := by
  rw [Nat.ofDigitChars_eq_ofDigitChars_zero]
  exact Nat.le_trans (Nat.le_mul_of_pos_left _ (Nat.pow_pos (by decide))) (Nat.le_add_right _ _)

/-- Digits are read to the end unless their value exceeds the limit, from where on it only grows. -/
lemma accumulate_eq_ok_iff (small : value ≤ limit) : accumulate 10 limit excess value cs = .ok n ↔
    (∀ c ∈ cs, c.isDigit = true) ∧ Nat.ofDigitChars 10 cs value = n ∧ n ≤ limit := by
  induction cs generalizing value with
  | nil =>
    rw [accumulate, Nat.ofDigitChars_nil, Except.ok.injEq]
    constructor
    · rintro rfl
      exact ⟨fun _ mem => absurd mem List.not_mem_nil, rfl, small⟩
    · exact fun read => read.2.1
  | cons c cs ih =>
    rw [accumulate, digit?_ten, List.forall_mem_cons, Nat.ofDigitChars_cons, Nat.mul_comm 10 value]
    by_cases digit : c.isDigit = true
    · rw [if_pos digit]
      by_cases within : value * 10 + (c.toNat - '0'.toNat) ≤ limit
      · simp only [if_pos within, ih within, digit, true_and]
      · simp only [if_neg within, reduceCtorEq, false_iff]
        rintro ⟨-, rfl, most⟩
        exact within (Nat.le_trans (le_ofDigitChars cs _) most)
    · rw [if_neg digit]
      refine iff_of_false (fun read => ?_) fun read => digit read.1.1
      cases read

/-- Digits alone are read as a decimal of at most the limit. -/
lemma accumulate_zero (inhabited : cs ≠ []) :
    accumulate 10 limit excess 0 cs = .ok n ↔ Decimal cs n ∧ n ≤ limit := by
  rw [accumulate_eq_ok_iff (Nat.zero_le limit)]
  constructor
  · rintro ⟨digits, value, within⟩
    exact ⟨⟨inhabited, digits, value⟩, within⟩
  · rintro ⟨⟨-, digits, value⟩, within⟩
    exact ⟨digits, value, within⟩

/-- No decimal starts with a sign. -/
lemma not_decimal_sign {c : Char} (sign : c = '+' ∨ c = '-') : ¬ Decimal (c :: cs) n := by
  intro decimal
  have digit := decimal.digits c List.mem_cons_self
  rcases sign with rfl | rfl
  · cases digit
  · cases digit

/-! ## Reading -/

/-- The numerals of a size are read as that size, and nothing else is read as one. -/
theorem readSize_eq_ok_iff : readSize cs = .ok n ↔ IsSize cs n := by
  have limit : n ≤ UInt64.size - 1 ↔ n < sizeLimit := Nat.le_sub_one_iff_lt (by decide)
  unfold readSize readNat
  split
  · refine iff_of_false nofun fun numeral => ?_
    cases numeral with
    | plain decimal => exact decimal.inhabited rfl
  · refine iff_of_false nofun fun numeral => ?_
    cases numeral with
    | plain decimal => exact not_decimal_sign (.inl rfl) decimal
    | plus decimal => exact decimal.inhabited rfl
  · next cs more =>
    rw [accumulate_zero more, limit]
    refine ⟨fun read => .plus read.1 read.2, fun numeral => ?_⟩
    cases numeral with
    | plain decimal => exact absurd decimal (not_decimal_sign (.inl rfl))
    | plus decimal within => exact ⟨decimal, within⟩
  · next inhabited _ unsigned =>
    rw [accumulate_zero inhabited, limit]
    refine ⟨fun read => .plain read.1 read.2, fun numeral => ?_⟩
    cases numeral with
    | plain decimal within => exact ⟨decimal, within⟩
    | plus => exact absurd rfl (unsigned _)

/-- What is mapped succeeds with the images of what succeeds. -/
lemma map_eq_ok_iff {α β : Type} {f : α → β} {e : Except Cause α} {b : β} :
    e.map f = .ok b ↔ ∃ a, e = .ok a ∧ f a = b := by
  cases e with
  | error c => exact iff_of_false nofun nofun
  | ok a =>
    constructor
    · intro eq
      exact ⟨a, rfl, Except.ok.inj eq⟩
    · rintro ⟨_, ⟨⟩, rfl⟩
      rfl

/-- Within 32 bits an integer is its own value. -/
lemma ofInt_eq_iff {i : Int} (low : -2147483648 ≤ i) (high : i < 2147483648) :
    Int32.ofInt i = x ↔ x.toInt = i := by
  constructor
  · rintro rfl
    exact Int32.toInt_ofInt_of_le low high
  · rintro rfl
    exact Int32.ofInt_toInt x

/-- A sign may be put before digits whose limit keeps the value within 32 bits. -/
lemma read_signed {sign : Nat → Int}
    (bounds : ∀ n, n ≤ limit ↔ -2147483648 ≤ sign n ∧ sign n < 2147483648) (inhabited : cs ≠ []) :
    ((accumulate 10 limit excess 0 cs).map sign).map Int32.ofInt = .ok x ↔
      ∃ n, Decimal cs n ∧ x.toInt = sign n := by
  simp only [map_eq_ok_iff, accumulate_zero inhabited]
  constructor
  · rintro ⟨_, ⟨n, ⟨decimal, within⟩, rfl⟩, eq⟩
    obtain ⟨low, high⟩ := (bounds n).mp within
    exact ⟨n, decimal, (ofInt_eq_iff low high).mp eq⟩
  · rintro ⟨n, decimal, eq⟩
    have low := eq ▸ x.le_toInt
    have high := eq ▸ x.toInt_lt
    exact ⟨sign n, ⟨n, ⟨decimal, (bounds n).mpr ⟨low, high⟩⟩, rfl⟩, (ofInt_eq_iff low high).mpr eq⟩

/-- Digits without a minus sign are read up to the largest integer. -/
lemma read_plain (inhabited : cs ≠ []) :
    ((accumulate 10 2147483647 .tooLarge 0 cs).map Int.ofNat).map Int32.ofInt = .ok x ↔
      ∃ n : Nat, Decimal cs n ∧ x.toInt = n :=
  read_signed (fun n => by rw [Int.ofNat_eq_natCast]; omega) inhabited

/-- Digits with a minus sign are read down to the smallest integer. -/
lemma read_minus (inhabited : cs ≠ []) :
    ((accumulate 10 2147483648 .tooSmall 0 cs).map fun n => -Int.ofNat n).map Int32.ofInt = .ok x ↔
      ∃ n : Nat, Decimal cs n ∧ x.toInt = -n :=
  read_signed (fun n => by rw [Int.ofNat_eq_natCast]; omega) inhabited

/-- The numerals of an integer are read as that integer, and nothing else is read as one. -/
theorem readInt32_eq_ok_iff : readInt32 cs = .ok x ↔ IsInt32 cs x := by
  unfold readInt32 readInt
  -- The empty text, the lone signs, a plus, a minus, and a text without a sign.
  split
  · refine iff_of_false nofun fun numeral => ?_
    cases numeral with
    | plain decimal => exact decimal.inhabited rfl
  · refine iff_of_false nofun fun numeral => ?_
    cases numeral with
    | plain decimal => exact not_decimal_sign (.inl rfl) decimal
    | plus decimal => exact decimal.inhabited rfl
  · refine iff_of_false nofun fun numeral => ?_
    cases numeral with
    | plain decimal => exact not_decimal_sign (.inr rfl) decimal
    | minus decimal => exact decimal.inhabited rfl
  · next cs more =>
    rw [read_plain more]
    refine ⟨fun ⟨_, decimal, eq⟩ => .plus decimal eq, fun numeral => ?_⟩
    cases numeral with
    | plain decimal => exact absurd decimal (not_decimal_sign (.inl rfl))
    | plus decimal eq => exact ⟨_, decimal, eq⟩
  · next cs more =>
    rw [read_minus more]
    refine ⟨fun ⟨_, decimal, eq⟩ => .minus decimal eq, fun numeral => ?_⟩
    cases numeral with
    | plain decimal => exact absurd decimal (not_decimal_sign (.inr rfl))
    | minus decimal eq => exact ⟨_, decimal, eq⟩
  · next inhabited _ _ plus minus =>
    rw [read_plain inhabited]
    refine ⟨fun ⟨_, decimal, eq⟩ => .plain decimal eq, fun numeral => ?_⟩
    cases numeral with
    | plain decimal eq => exact ⟨_, decimal, eq⟩
    | plus => exact absurd rfl (plus _)
    | minus => exact absurd rfl (minus _)

/-! ## Printing -/

/-- No digit is blank. -/
lemma isBlank_of_isDigit {c : Char} (digit : c.isDigit = true) : isBlank c = false := by
  obtain ⟨low, high⟩ := isDigit_iff.mp digit
  have low : 48 ≤ c.toNat := low
  have high : c.toNat ≤ 57 := high
  simp only [isBlank, blankRanges, List.any_cons, List.any_nil, Bool.or_eq_false_iff,
    Bool.and_eq_false_iff, decide_eq_false_iff_not, and_true]
  omega

/-- A decimal is one word. -/
lemma Decimal.isWord (decimal : Decimal cs n) : IsWord cs :=
  ⟨decimal.inhabited, fun c mem => isBlank_of_isDigit (decimal.digits c mem)⟩

/-- The numeral of an integer is one word. -/
lemma IsInt32.isWord (numeral : IsInt32 cs x) : IsWord cs := by
  cases numeral with
  | plain decimal => exact decimal.isWord
  | plus decimal => exact decimal.isWord.cons (by decide)
  | minus decimal => exact decimal.isWord.cons (by decide)

/-- A natural number is printed as a decimal of its value. -/
lemma decimal_toString (n : Nat) : Decimal (toString n).toList n := by
  rw [Nat.toString_eq_ofList_toDigits, String.toList_ofList]
  refine ⟨Nat.toDigits_ne_nil, fun c mem => ?_, Nat.ofDigitChars_ten_toDigits⟩
  exact Nat.isDigit_of_mem_toDigits (by decide) (by decide) mem

/-- A size is printed as a numeral of it. -/
lemma isSize_toString (small : n < sizeLimit) : IsSize (toString n).toList n :=
  .plain (decimal_toString n) small

/-- An integer of 32 bits is printed as a numeral of it. -/
lemma isInt32_toString (x : Int32) : IsInt32 (toString x.toInt).toList x := by
  rw [Int.toString_eq_repr, Int.repr_eq_if]
  split
  · next positive =>
    exact .plain (decimal_toString x.toInt.toNat) (Int.toNat_of_nonneg positive).symm
  · next negative =>
    rw [String.toList_append]
    exact .minus (decimal_toString (-x.toInt).toNat) (by omega)

end TileBench.Text.Numeral
