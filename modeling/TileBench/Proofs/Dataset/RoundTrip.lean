import TileBench.Proofs.Dataset.Grammar

/-!
# Datasets that are written and read

The text of a dataset has its size and its values as words, also where a line has none. Read with
room for it, the text gives the dataset back. `Fits` says which datasets there are to be read, and
each of them is read from its text.
-/

namespace TileBench.SumData

open Text Text.Numeral

variable {capacity : Nat} {tokens : List (List Char)} {d : SumData}

/-- A dataset of at most `capacity` elements, whose runs have one length. Its values are counted in
64 bits, as those of every dataset in a memory are: no run there has `2 ^ 61` elements. -/
structure Fits (capacity : Nat) (d : SumData) : Prop where
  first : d.src0.length = d.size
  second : d.src1.length = d.size
  within : d.size ≤ capacity
  countable : 3 * d.size < sizeLimit

/-! ## Writing -/

/-- The words that stand for some values. -/
def numerals (xs : List Int32) : List (List Char) :=
  xs.map fun x => (toString x.toInt).toList

/-- The words for values are numerals of these values. -/
lemma forall₂_numerals (xs : List Int32) : List.Forall₂ IsInt32 (numerals xs) xs := by
  rw [numerals, List.forall₂_map_left_iff, List.forall₂_same]
  exact fun x _ => isInt32_toString x

/-- A line ends its last word, so that its words come before those of the next line. -/
lemma words_line (xs : List Int32) (rest : List Char) :
    words ((line xs).toList ++ rest) = numerals xs ++ words rest := by
  have parts : (xs.map fun x => toString x.toInt).map String.toList = numerals xs := List.map_map
  have isWord : ∀ w ∈ numerals xs, IsWord w := by
    intro w mem
    obtain ⟨x, -, rfl⟩ := List.mem_map.mp mem
    exact (isInt32_toString x).isWord
  rw [line, String.toList_append, String.toList_intercalate, parts, List.append_assoc]
  exact words_intercalate (by decide) (by decide) isWord rest

/-- The words of the text of a dataset are its size and its values, run after run. -/
lemma words_text (d : SumData) : words d.text.toList =
    (toString d.size).toList :: (numerals d.src0 ++ numerals d.src1 ++ numerals d.reference) := by
  have head : (s!"{d.size}\n" : String).toList = (toString d.size).toList ++ ['\n'] :=
    String.toList_append
  have isWord : IsWord (toString d.size).toList := (decimal_toString d.size).isWord
  have lines := words_line d.reference []
  rw [List.append_nil] at lines
  rw [text, String.toList_append, String.toList_append, String.toList_append, head]
  simp only [List.append_assoc, List.cons_append, List.nil_append]
  rw [words_word isWord (by decide), words_line, words_line, lines, words_nil, List.append_nil]

/-- A dataset that fits is read from its text. -/
lemma Fits.read_bytes (fits : Fits capacity d) : read capacity d.bytes = .ok (.ok d) := by
  have size : d.size < sizeLimit := by
    have := fits.countable
    omega
  have values := List.rel_append (forall₂_numerals d.src0) (forall₂_numerals d.src1)
  rw [bytes, read_encode, words_text, ← List.append_nil (_ ++ numerals d.reference)]
  exact ofTokens_whole (isSize_toString size) fits.within fits.countable fits.first fits.second rfl
    (List.rel_append values (forall₂_numerals d.reference))

/-! ## Reading -/

/-- What is read and can be counted fits. -/
lemma Reading.fits (reading : Reading capacity tokens (.ok d))
    (counted : ¬ Uncounted capacity tokens) : Fits capacity d := by
  cases reading with
  | whole size within first second third =>
    obtain rfl := third
    exact ⟨first, second, within, countable_values size within counted⟩

/-- Only datasets that fit are read. -/
lemma fits_of_read {bytes : List UInt8} (accepted : read capacity bytes = .ok (.ok d)) :
    Fits capacity d := by
  obtain ⟨yields, counted⟩ := read_eq_ok_iff_counted.mp accepted
  cases yields with
  | text eq splits reading =>
    exact reading.fits fun uncounted => counted (.text eq splits uncounted)

/-- What fits is read from its text as it was. Whatever bytes are read as a dataset, it fits, so
that writing it and reading it again changes nothing. -/
theorem read_written (capacity : Nat) (d : SumData) :
    (Fits capacity d → read capacity d.bytes = .ok (.ok d)) ∧
    ∀ bytes, read capacity bytes = .ok (.ok d) →
      Fits capacity d ∧ read capacity d.bytes = .ok (.ok d) := by
  refine ⟨Fits.read_bytes, fun bytes accepted => ?_⟩
  have fits := fits_of_read accepted
  exact ⟨fits, fits.read_bytes⟩

/-- The integers at both ends of the range are written and read, and so is a dataset of none. -/
theorem read_written_ends : Fits 2 ⟨[-2147483648, 2147483647], [0, -1], [1, -7]⟩ ∧
    read 2 (bytes ⟨[-2147483648, 2147483647], [0, -1], [1, -7]⟩) =
      .ok (.ok ⟨[-2147483648, 2147483647], [0, -1], [1, -7]⟩) ∧
    read 0 (encode "+0 x") = .ok (.ok ⟨[], [], []⟩) ∧
    read 0 (bytes ⟨[], [], []⟩) = .ok (.ok ⟨[], [], []⟩) := by
  have fits : Fits 2 ⟨[-2147483648, 2147483647], [0, -1], [1, -7]⟩ :=
    ⟨rfl, rfl, by decide, by decide⟩
  have none : read 0 (encode "+0 x") = .ok (.ok ⟨[], [], []⟩) := by
    rw [read_encode]
    rfl
  exact ⟨fits, (read_written 2 _).1 fits, none, ((read_written 0 _).2 _ none).2⟩

end TileBench.SumData
