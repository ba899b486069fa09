import Mathlib.Tactic.Lemma
import TileBench.Text.Basic

/-!
# How a text splits into words

`Splits` says what the words of a text are, from the front to the back, and `words_eq_iff` that
those are the words which are cut from the back. A word that a blank follows can be taken off the
front of a text.
-/

namespace TileBench.Text

variable {c : Char} {cs w : List Char} {ws : List (List Char)}

/-- A word has characters, and none of them is blank. -/
def IsWord (w : List Char) : Prop :=
  w ≠ [] ∧ ∀ c ∈ w, isBlank c = false

/-- The words of a text are its longest runs of characters that are not blank. -/
inductive Splits : List Char → List (List Char) → Prop where
  | nil : Splits [] []
  | blank {c : Char} {cs : List Char} {ws : List (List Char)} :
    isBlank c = true → Splits cs ws → Splits (c :: cs) ws
  | last {w : List Char} : IsWord w → Splits w [w]
  | word {c : Char} {w cs : List Char} {ws : List (List Char)} :
    IsWord w → isBlank c = true → Splits cs ws → Splits (w ++ c :: cs) (w :: ws)

/-- A character that is not blank is a word. -/
lemma IsWord.singleton (solid : isBlank c = false) : IsWord [c] :=
  ⟨List.cons_ne_nil _ _, List.forall_mem_singleton.mpr solid⟩

/-- A character that is not blank makes a word longer. -/
lemma IsWord.cons (solid : isBlank c = false) (word : IsWord w) : IsWord (c :: w) :=
  ⟨List.cons_ne_nil _ _, List.forall_mem_cons.mpr ⟨solid, word.2⟩⟩

/-- A character that is not blank belongs to the first word if that word starts the text. -/
lemma Splits.exists_cons (solid : isBlank c = false) (splits : Splits cs ws) :
    ∃ ws', Splits (c :: cs) ws' := by
  cases splits with
  | nil => exact ⟨_, .last (.singleton solid)⟩
  | blank blank rest => exact ⟨_, .word (.singleton solid) blank rest⟩
  | last word => exact ⟨_, .last (word.cons solid)⟩
  | word word blank rest => exact ⟨_, .word (word.cons solid) blank rest⟩

/-- Every text splits into words. -/
lemma exists_splits (cs : List Char) : ∃ ws, Splits cs ws := by
  induction cs with
  | nil => exact ⟨_, .nil⟩
  | cons c cs ih =>
    obtain ⟨ws, splits⟩ := ih
    cases solid : isBlank c with
    | true => exact ⟨_, .blank solid splits⟩
    | false => exact splits.exists_cons solid

/-- A blank closes the word behind it. -/
lemma addChar_of_blank (blank : isBlank c = true) (s : Bool × List (List Char)) :
    addChar c s = (false, s.2) := by
  obtain ⟨isOpen, ws⟩ := s
  exact if_pos blank

/-- The word before which the text has been cut is open after its first character. -/
lemma foldr_addChar (word : IsWord w) (ws : List (List Char)) :
    w.foldr addChar (false, ws) = (true, w :: ws) := by
  obtain ⟨inhabited, solid⟩ := word
  induction w with
  | nil => exact absurd rfl inhabited
  | cons c w ih =>
    obtain ⟨first, others⟩ := List.forall_mem_cons.mp solid
    rw [List.foldr_cons]
    cases w with
    | nil => simp [addChar, first]
    | cons d w => rw [ih (List.cons_ne_nil _ _) others, addChar, first, if_neg Bool.false_ne_true]

/-- The empty text has no words. -/
lemma words_nil : words [] = [] := rfl

/-- A blank in front changes no words. -/
lemma words_blank (blank : isBlank c = true) (cs : List Char) : words (c :: cs) = words cs := by
  rw [words, List.foldr_cons, addChar_of_blank blank]
  rfl

/-- A text without blanks is one word. -/
lemma words_last (word : IsWord w) : words w = [w] := by
  rw [words, foldr_addChar word]

/-- The first word of a text ends at a blank. -/
lemma words_word (word : IsWord w) (blank : isBlank c = true) (cs : List Char) :
    words (w ++ c :: cs) = w :: words cs := by
  rw [words, List.foldr_append, List.foldr_cons, addChar_of_blank blank, foldr_addChar word]
  rfl

/-- Words with a blank between them, and another blank behind the last one, are the words of a
text. -/
lemma words_intercalate {space lineEnd : Char} (between : isBlank space = true)
    (behind : isBlank lineEnd = true) (all : ∀ w ∈ ws, IsWord w) (cs : List Char) :
    words ([space].intercalate ws ++ lineEnd :: cs) = ws ++ words cs := by
  induction ws with
  | nil => exact words_blank behind cs
  | cons w ws ih =>
    obtain ⟨word, others⟩ := List.forall_mem_cons.mp all
    cases ws with
    | nil =>
      rw [List.intercalate_singleton]
      exact words_word word behind cs
    | cons w' ws =>
      rw [List.intercalate_cons_cons, List.append_assoc, List.append_assoc, List.singleton_append,
        words_word word between, ih others]
      rfl

/-- A text has the words into which it splits. -/
lemma Splits.words_eq (splits : Splits cs ws) : words cs = ws := by
  induction splits with
  | nil => exact words_nil
  | blank blank _ ih => rw [words_blank blank, ih]
  | last word => exact words_last word
  | word word blank _ ih => rw [words_word word blank, ih]

/-- A text splits into its words and into nothing else. -/
theorem words_eq_iff : words cs = ws ↔ Splits cs ws := by
  refine ⟨?_, Splits.words_eq⟩
  rintro rfl
  obtain ⟨ws, splits⟩ := exists_splits cs
  rwa [splits.words_eq]

end TileBench.Text
