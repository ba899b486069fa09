import TileBench.Proofs.Accelerator.Device

/-!
# The words of a memory

What stands at each index after an access, and after the device has added two vectors. The result of
an addition may overlap its operands; a word of an operand that lies in the part of the result
written so far is read as the sum that is there by then.
-/

namespace TileBench.Accelerator

namespace Memory

variable {m : Memory} {address : UInt32} {i j count : Nat}

/-- An access at the address of word `i` is allowed if its words are in the memory. -/
lemma start?_at (there : Device.At address i) :
    m.start? address count =
      if i + count ≤ m.wordCount then .ok i else .error (.outOfBounds address count) := by
  have aligned : address.toNat % wordBytes = 0 := by rw [there, Nat.mul_mod_left]
  have index : address.toNat / wordBytes = i := by rw [there, Nat.mul_div_cancel i (by decide)]
  rw [start?, if_neg (absurd aligned), index]

/-- The words of a memory are those of its array. -/
lemma word_of_lt (inside : i < m.words.size) : m.word i = m.words[i] := by
  simp [word, Array.getElem?_eq_getElem inside]

/-- Another word at an index changes that word and no other. -/
lemma word_put (value : UInt32) (inside : i < m.wordCount) :
    (m.put i value).word j = if i = j then value else m.word j := by
  unfold wordCount at inside
  by_cases same : i = j
  · subst same
    simp [put, word, inside]
  · simp [put, word, same]

/-- The memory with other words from index `i` on. -/
def replace (m : Memory) (i : Nat) (data : List UInt32) : Memory :=
  ⟨m.words.extract 0 i ++ data.toArray ++ m.words.extract (i + data.length) m.wordCount⟩

/-- A run is written at the address of word `i` if the memory has room for it. -/
lemma load_at {data : List UInt32} (there : Device.At address i) :
    m.load address data =
      if i + data.length ≤ m.wordCount then .ok (m.replace i data)
      else .error (.outOfBounds address data.length) := by
  rw [load, start?_at there]
  split <;> rfl

section Replace

variable {data : List UInt32} (inside : i + data.length ≤ m.wordCount)

include inside

/-- Other words leave the number of words. -/
lemma wordCount_replace : (m.replace i data).wordCount = m.wordCount := by
  unfold wordCount at inside
  simp only [replace, wordCount, Array.size_append, Array.size_extract, List.size_toArray]
  omega

/-- The words of the run stand in the run, and the others where they were. -/
lemma word_replace (j : Nat) :
    (m.replace i data).word j =
      if i ≤ j ∧ j < i + data.length then data[j - i]?.getD 0 else m.word j := by
  unfold wordCount at inside
  have front : (m.words.extract 0 i).size = i := by
    rw [Array.size_extract]
    omega
  unfold replace word
  rw [Array.append_assoc, Array.getElem?_append, Array.getElem?_append, front, List.size_toArray]
  by_cases before : j < i
  · rw [if_pos before, if_neg (by omega), Array.getElem?_extract, if_pos (by omega), Nat.zero_add]
  · rw [if_neg before]
    by_cases within : j < i + data.length
    · rw [if_pos (by omega), if_pos (by omega), List.getElem?_toArray]
    · rw [if_neg (by omega), if_neg (by omega), Array.getElem?_extract]
      unfold wordCount
      by_cases last : j < m.words.size
      · rw [if_pos (by omega), show i + data.length + (j - i - data.length) = j by omega]
      · rw [if_neg (by omega), Array.getElem?_eq_none (by omega)]

end Replace

/-- The memory holds `data` from word `i` on. -/
def Holds (m : Memory) (i : Nat) (data : List UInt32) : Prop :=
  ∀ k (inside : k < data.length), m.word (i + k) = data[k]

namespace Holds

variable {data more : List UInt32}

/-- What is held one after the other is held as one. -/
lemma append (first : m.Holds i data) (second : m.Holds (i + data.length) more) :
    m.Holds i (data ++ more) := by
  intro k inside
  rw [List.length_append] at inside
  by_cases early : k < data.length
  · rw [List.getElem_append_left early, first k early]
  · have late := second (k - data.length) (by omega)
    rw [List.getElem_append_right (by omega), ← late,
      show i + data.length + (k - data.length) = i + k by omega]

/-- A memory is known by the words that it holds. -/
lemma words_eq (all : m.Holds 0 data) (length : data.length = m.wordCount) :
    m.words.toList = data := by
  refine List.ext_getElem length.symm fun k here there => ?_
  rw [← all k there, Nat.zero_add, word_of_lt (by simpa using here), Array.getElem_toList]

/-- What is held stays so as long as none of its words change. -/
lemma congr {m' : Memory} (holds : m.Holds i data)
    (same : ∀ j, i ≤ j → j < i + data.length → m'.word j = m.word j) : m'.Holds i data := by
  intro k inside
  rw [same _ (by omega) (by omega), holds k inside]

/-- What is held is what a read of the run gives. -/
lemma readMany_eq (holds : m.Holds i data) (there : Device.At address i)
    (inside : i + data.length ≤ m.wordCount) : m.readMany address data.length = .ok data := by
  rw [readMany, start?_at there, if_pos inside]
  unfold wordCount at inside
  refine congrArg Except.ok (List.ext_getElem (by simp; omega) fun k _ there => ?_)
  simp [← holds k there, word_of_lt (show i + k < m.words.size by omega)]

end Holds

/-- A run that was written is held. -/
lemma holds_replace {data : List UInt32} (inside : i + data.length ≤ m.wordCount) :
    (m.replace i data).Holds i data := by
  intro k within
  rw [word_replace inside, if_pos (by omega), Nat.add_sub_cancel_left,
    List.getElem?_eq_getElem within, Option.getD_some]

/-- A memory holds its own words, from any word on. -/
lemma holds_drop (m : Memory) (i : Nat) : m.Holds i (m.words.toList.drop i) := by
  intro k inside
  rw [List.length_drop, Array.length_toList] at inside
  rw [word_of_lt (by omega), List.getElem_drop, Array.getElem_toList]

end Memory

namespace Device

variable {i₀ i₁ i₂ k count : Nat} {m : Memory}

/-- The sums change no word outside their part of the result. -/
lemma word_addFrom_of_outside {j : Nat} (outside : j < i₂ + k ∨ i₂ + (k + count) ≤ j)
    (inside : i₂ + (k + count) ≤ m.wordCount) : (addFrom i₀ i₁ i₂ count k m).word j = m.word j := by
  induction count generalizing k m with
  | zero => rfl
  | succ count ih =>
    rw [addFrom, ih (by omega) (by rw [Memory.wordCount_put]; omega), Memory.word_put _ (by omega),
      if_neg (by omega)]

/-- The word that the device reads as word `t` of the operand at `i`, once `new` holds the sums
before it; the sums from `k` on are new. -/
def operandAt (m new : Memory) (i₂ k i t : Nat) : UInt32 :=
  if i < i₂ ∧ i₂ + k ≤ i + t then new.word (i + t) else m.word (i + t)

/-- Every sum is that of its operands as they are read, also where the result overlaps them. -/
lemma word_addFrom {t : Nat} (from_ : k ≤ t) (upto : t < k + count)
    (inside : i₂ + (k + count) ≤ m.wordCount) :
    (addFrom i₀ i₁ i₂ count k m).word (i₂ + t) =
      operandAt m (addFrom i₀ i₁ i₂ count k m) i₂ k i₀ t +
        operandAt m (addFrom i₀ i₁ i₂ count k m) i₂ k i₁ t := by
  induction count generalizing k m with
  | zero => omega
  | succ count ih =>
    rw [addFrom]
    have size : (m.put (i₂ + k) (m.word (i₀ + k) + m.word (i₁ + k))).wordCount = m.wordCount :=
      Memory.wordCount_put ..
    have puts (j : Nat) :=
      m.word_put (j := j) (m.word (i₀ + k) + m.word (i₁ + k)) (i := i₂ + k) (by omega)
    generalize m.put (i₂ + k) (m.word (i₀ + k) + m.word (i₁ + k)) = m' at size puts
    -- The sum of this round stands to the end.
    have settled : (addFrom i₀ i₁ i₂ count (k + 1) m').word (i₂ + k) =
        m.word (i₀ + k) + m.word (i₁ + k) := by
      rw [word_addFrom_of_outside (by omega) (by omega), puts, if_pos rfl]
    by_cases first : t = k
    · subst first
      rw [settled, operandAt, operandAt, if_neg (by omega), if_neg (by omega)]
    · have reads (i : Nat) : operandAt m' (addFrom i₀ i₁ i₂ count (k + 1) m') i₂ (k + 1) i t =
          operandAt m (addFrom i₀ i₁ i₂ count (k + 1) m') i₂ k i t := by
        unfold operandAt
        by_cases here : i + t = i₂ + k
        · rw [if_neg (by omega), if_pos (by omega), here, puts, if_pos rfl, settled]
        · rw [puts, if_neg (Ne.symm here)]
          by_cases fresh : i < i₂ ∧ i₂ + k ≤ i + t
          · rw [if_pos (by omega), if_pos fresh]
          · rw [if_neg (by omega), if_neg fresh]
      rw [ih (by omega) (by omega) (by omega), reads, reads]

/-- An operand that does not reach into the result from before it is read as it was. -/
lemma operandAt_of_apart {new : Memory} {i t : Nat} (apart : i₂ ≤ i ∨ i + t < i₂ + k) :
    operandAt m new i₂ k i t = m.word (i + t) := by
  rw [operandAt, if_neg (by omega)]

/-- Operands that the result does not overlap are added word by word. -/
lemma holds_addFrom {xs ys : List UInt32} (first : m.Holds i₀ xs) (second : m.Holds i₁ ys)
    (lengthX : xs.length = count) (lengthY : ys.length = count) (apart₀ : i₀ + count ≤ i₂)
    (apart₁ : i₁ + count ≤ i₂) (inside : i₂ + count ≤ m.wordCount) :
    (addFrom i₀ i₁ i₂ count 0 m).Holds i₂ (List.zipWith (· + ·) xs ys) := by
  intro t within
  rw [List.length_zipWith, lengthX, lengthY, Nat.min_self] at within
  rw [word_addFrom (Nat.zero_le t) (by omega) (by omega), operandAt_of_apart (by omega),
    operandAt_of_apart (by omega), first t (by omega), second t (by omega), List.getElem_zipWith]

end Device

end TileBench.Accelerator
