import TileBench.Proofs.Accelerator.Overlap

/-!
# Runs of words and single words

An access to a run of words is checked as a whole and then does what accesses to the single words
would do. `Access.perform_of_ok` and `Access.perform_of_error` give the answer and the memory of
every kind of access at once. `Served` says what they are in terms of single words, and `ServedAll`
carries it along a sequence of accesses, refused ones among them.
-/

namespace TileBench.Accelerator

namespace Memory

variable {m m' : Memory} {i : Nat}

/-- `Stores n data m m'` holds when `data` is written a word at a time, at the addresses from `n`
on, and no write is refused. -/
inductive Stores : Nat → List UInt32 → Memory → Memory → Prop where
  | nil {n : Nat} {m : Memory} : Stores n [] m m
  | cons {n : Nat} {address value : UInt32} {data : List UInt32} {m m₁ m₂ : Memory} :
    address.toNat = n → m.write address value = .ok m₁ → Stores (n + wordBytes) data m₁ m₂ →
      Stores n (value :: data) m m₂

/-- A memory is known by the number of its words and by each of them. -/
lemma eq_of_word (size : m.wordCount = m'.wordCount)
    (same : ∀ j, m.word j = m'.word j) : m = m' := by
  obtain ⟨words⟩ := m
  obtain ⟨words'⟩ := m'
  refine congrArg Memory.mk (Array.ext size fun j here there => ?_)
  have word := same j
  rwa [word_of_lt here, word_of_lt there] at word

/-- Nothing replaces nothing. -/
lemma replace_nil (inside : i ≤ m.wordCount) : m.replace i [] = m := by
  refine eq_of_word (wordCount_replace inside) fun j => ?_
  rw [word_replace inside, List.length_nil, if_neg (by omega)]

/-- A run is replaced by its first word and then by the rest behind it. -/
lemma replace_cons {value : UInt32} {data : List UInt32}
    (inside : i + (value :: data).length ≤ m.wordCount) :
    m.replace i (value :: data) = (m.put i value).replace (i + 1) data := by
  rw [List.length_cons] at inside
  have later : i + 1 + data.length ≤ (m.put i value).wordCount := by
    rw [wordCount_put]
    omega
  refine eq_of_word ?_ fun j => ?_
  · rw [wordCount_replace inside, wordCount_replace later, wordCount_put]
  · rw [word_replace inside, word_replace later, word_put value (by omega), List.length_cons]
    rcases Nat.lt_trichotomy i j with behind | here | before
    · rw [if_neg (Nat.ne_of_lt behind),
        show j - i = j - (i + 1) + 1 by omega, List.getElem?_cons_succ]
      by_cases within : j < i + 1 + data.length
      · rw [if_pos (by omega), if_pos (by omega)]
      · rw [if_neg (by omega), if_neg (by omega)]
    · subst here
      rw [if_pos (by omega), if_neg (by omega), if_pos rfl, Nat.sub_self]
      rfl
    · rw [if_neg (by omega), if_neg (by omega), if_neg (by omega)]

/-- One word is a run of one. -/
lemma put_eq_replace {value : UInt32} (inside : i + 1 ≤ m.wordCount) :
    m.put i value = m.replace i [value] := by
  rw [replace_cons inside, replace_nil]
  rwa [wordCount_put]

/-- A run of one word shows that word. -/
lemma extract_one (inside : i + 1 ≤ m.wordCount) :
    (m.words.extract i (i + 1)).toList = [m.word i] := by
  unfold wordCount at inside
  rw [word_of_lt inside]
  refine List.ext_getElem (by simp; omega) fun k here there => ?_
  obtain rfl : k = 0 := Nat.lt_one_iff.mp there
  simp

/-- Replacing a run of words is writing them one by one, as long as their addresses have 32 bits. -/
lemma stores_replace {data : List UInt32} (inside : i + data.length ≤ m.wordCount)
    (fits : ∀ k < data.length, (i + k) * wordBytes < UInt32.size) :
    Stores (i * wordBytes) data m (m.replace i data) := by
  induction data generalizing i m with
  | nil =>
    rw [replace_nil (i := i) inside]
    exact .nil
  | cons value data ih =>
    rw [List.length_cons] at inside fits
    have small := fits 0 (Nat.succ_pos _)
    have there : Device.At (UInt32.ofNat (i * wordBytes)) i := UInt32.toNat_ofNat_of_lt' small
    have written : m.write (UInt32.ofNat (i * wordBytes)) value = .ok (m.put i value) := by
      rw [write, start?_at there, if_pos (by omega)]
      rfl
    rw [replace_cons inside]
    refine .cons there written ?_
    rw [← Nat.succ_mul]
    refine ih ?_ fun k below => ?_
    · rw [wordCount_put]
      omega
    · have next := fits (k + 1) (Nat.succ_lt_succ below)
      rwa [← Nat.add_assoc, Nat.add_right_comm] at next

end Memory

namespace Access

open TileBench.Accelerator.Memory (wordBytes)

variable {m m' : Memory}

/-- The address of the first word of an access. -/
def address : Access → UInt32
  | .read a | .write a _ | .readMany a _ | .load a _ | .fill a _ _ => a

/-- The words that an access puts into the memory, in the order of their addresses. -/
def written : Access → List UInt32
  | .read _ | .readMany .. => []
  | .write _ value => [value]
  | .load _ data => data
  | .fill _ count value => List.replicate count value

/-- The number of words that an access shows. -/
def shown : Access → Nat
  | .read _ => 1
  | .readMany _ count => count
  | .write .. | .load .. | .fill .. => 0

/-- The index of the first word of an access. -/
def index (a : Access) : Nat :=
  a.address.toNat / wordBytes

/-- The number of words that an access touches. -/
def count : Access → Nat
  | .read _ | .write .. => 1
  | .readMany _ count | .fill _ count _ => count
  | .load _ data => data.length

/-- An access either shows the words that it touches or replaces them. -/
lemma count_eq (a : Access) : a.count = a.shown + a.written.length := by
  cases a <;> simp [count, shown, written]

/-- An access that is not allowed changes nothing. -/
lemma perform_of_error {f : Fault} {a : Access} (refused : m.start? a.address a.count = .error f) :
    a.perform m = (.error f, m) := by
  cases a with
  | read address =>
    change m.start? address 1 = _ at refused
    rw [perform, Memory.read, refused]
    rfl
  | write address value =>
    change m.start? address 1 = _ at refused
    rw [perform, Memory.write, refused]
    rfl
  | readMany address count =>
    change m.start? address count = _ at refused
    rw [perform, Memory.readMany, refused]
    rfl
  | load address data =>
    change m.start? address data.length = _ at refused
    rw [perform, Memory.load, refused]
    rfl
  | fill address count value =>
    change m.start? address count = _ at refused
    rw [perform, Memory.fill, refused]
    rfl

/-- Every access shows words and replaces words, though some of none. -/
lemma perform_of_ok {i : Nat} {a : Access} (allowed : m.start? a.address a.count = .ok i) :
    a.perform m = (.ok (m.words.extract i (i + a.shown)).toList, m.replace i a.written) := by
  have inside := (Memory.start?_eq_ok_iff.mp allowed).2
  have nothing : (m.words.extract i (i + 0)).toList = [] := by simp
  cases a with
  | read address =>
    change m.start? address 1 = _ at allowed
    rw [perform, Memory.read, allowed, written, shown, Memory.extract_one inside,
      Memory.replace_nil (Nat.le_of_succ_le inside)]
    rfl
  | write address value =>
    change m.start? address 1 = _ at allowed
    rw [perform, Memory.write, allowed, written, shown, nothing, ← Memory.put_eq_replace inside]
    rfl
  | readMany address count =>
    change m.start? address count = _ at allowed
    rw [perform, Memory.readMany, allowed, written,
      Memory.replace_nil (Nat.le_trans (Nat.le_add_right _ _) inside)]
    rfl
  | load address data =>
    change m.start? address data.length = _ at allowed
    rw [perform, Memory.load, allowed, shown, nothing]
    rfl
  | fill address count value =>
    change m.start? address count = _ at allowed
    rw [perform, Memory.fill, allowed, shown, nothing, written, Memory.replace,
      List.length_replicate, List.toArray_replicate]
    rfl

/-- The words that an access shows are those that single reads give. -/
structure Shows (m : Memory) (a : Access) (words : List UInt32) : Prop where
  length : words.length = a.shown
  holds : m.Holds a.index words
  reads : ∀ (k : Nat) (inside : k < words.length) (later : UInt32),
    later.toNat = a.address.toNat + k * wordBytes → m.read later = .ok words[k]

/-- The words that an access puts into the memory are those that single writes leave there. -/
structure Leaves (m : Memory) (a : Access) (m' : Memory) : Prop where
  holds : m'.Holds a.index a.written
  frame : ∀ j, j < a.index ∨ a.index + a.written.length ≤ j → m'.word j = m.word j
  stores : (∀ k < a.written.length, a.address.toNat + k * wordBytes < UInt32.size) →
    Memory.Stores a.address.toNat a.written m m'

/-- `Served m a answer m'` says that `a` is carried out on `m` as a whole or not at all. -/
structure Served (m : Memory) (a : Access) (answer : Except Fault (List UInt32))
    (m' : Memory) : Prop where
  wordCount : m'.wordCount = m.wordCount
  allowed : (∃ words, answer = .ok words) ↔ m.Has a.address a.count
  refused : ∀ f, answer = .error f → m.Lacks a.address a.count f ∧ m' = m
  done : ∀ words, answer = .ok words → Shows m a words ∧ Leaves m a m'
  /-- The check in 64 bits comes to the same. -/
  span : m.wordCount < sizeLimit →
    m.span a.address a.count = answer.map fun _ => ⟨a.index, a.index + a.count⟩

/-- A sequence of accesses, each with its answer and each on the memory that the one before it
left. -/
inductive ServedAll : Memory → List Access → List (Except Fault (List UInt32)) → Memory → Prop where
  | nil {m : Memory} : ServedAll m [] [] m
  | cons {m m₁ m₂ : Memory} {a : Access} {rest : List Access} {answer : Except Fault (List UInt32)}
      {answers : List (Except Fault (List UInt32))} :
    Served m a answer m₁ → ServedAll m₁ rest answers m₂ →
    ServedAll m (a :: rest) (answer :: answers) m₂

section Allowed

variable {a : Access} (has : m.Has a.address a.count)

include has

/-- The words that an allowed access shows or replaces lie in the memory. -/
lemma index_add_le : a.index + a.shown + a.written.length ≤ m.wordCount := by
  rw [Nat.add_assoc, ← count_eq]
  exact has.2

/-- An allowed access starts at a whole word. -/
lemma index_mul : a.index * wordBytes = a.address.toNat :=
  has.at.symm

/-- The run that an allowed access shows is made of single words. -/
lemma shows_extract : Shows m a (m.words.extract a.index (a.index + a.shown)).toList := by
  have inside : a.index + a.shown ≤ m.words.size :=
    Nat.le_trans (Nat.le_add_right _ _) (index_add_le has)
  have length : (m.words.extract a.index (a.index + a.shown)).toList.length = a.shown := by
    rw [Array.length_toList, Array.size_extract]
    omega
  have holds : m.Holds a.index (m.words.extract a.index (a.index + a.shown)).toList := by
    intro k within
    rw [Memory.word_of_lt (by omega), Array.getElem_toList, Array.getElem_extract]
  refine ⟨length, holds, fun k within later eq => ?_⟩
  have there : Device.At later (a.index + k) := by
    rw [Device.At, eq, Nat.add_mul, index_mul has]
  have last : a.index + k + 1 ≤ m.wordCount := by
    unfold Memory.wordCount
    omega
  rw [Memory.read, Memory.start?_at there, if_pos last, ← holds k within]
  rfl

/-- The words that an allowed access replaces lie in the memory. -/
lemma written_le : a.index + a.written.length ≤ m.wordCount := by
  have inside := index_add_le has
  omega

/-- The run that an allowed access replaces is replaced word by word. -/
lemma leaves_replace : Leaves m a (m.replace a.index a.written) := by
  have inside := written_le has
  refine ⟨Memory.holds_replace inside, fun j outside => ?_, fun fits => ?_⟩
  · rw [Memory.word_replace inside, if_neg (by omega)]
  · rw [← index_mul has] at fits ⊢
    refine Memory.stores_replace inside fun k within => ?_
    rw [Nat.add_mul]
    exact fits k within

end Allowed

/-- Every access is carried out as a whole or not at all. -/
lemma served_perform (m : Memory) (a : Access) : Served m a (a.perform m).1 (a.perform m).2 := by
  rcases m.start?_cases a.address a.count with ⟨allowed, has⟩ | ⟨f, refused, lacks⟩
  · rw [perform_of_ok allowed]
    exact {
      wordCount := Memory.wordCount_replace (written_le has)
      allowed := iff_of_true ⟨_, rfl⟩ has
      refused := fun f eq => by cases eq
      done := fun words eq => by cases eq; exact ⟨shows_extract has, leaves_replace has⟩
      span := fun small => by rw [Memory.span_eq small, allowed]; rfl }
  · rw [perform_of_error refused]
    exact {
      wordCount := rfl
      allowed := iff_of_false (fun ⟨_, eq⟩ => by cases eq) lacks.not_has
      refused := fun f eq => by cases eq; exact ⟨lacks, rfl⟩
      done := fun words eq => by cases eq
      span := fun small => by rw [Memory.span_eq small, refused]; rfl }

/-- A sequence of accesses keeps the number of words. -/
lemma ServedAll.wordCount {accesses : List Access} {answers : List (Except Fault (List UInt32))}
    (all : ServedAll m accesses answers m') : m'.wordCount = m.wordCount := by
  induction all with
  | nil => rfl
  | cons first _ ih => rw [ih, first.wordCount]

/-- Every sequence of accesses is carried out one by one. -/
lemma servedAll (m : Memory) (accesses : List Access) :
    ServedAll m accesses (performAll m accesses).1 (performAll m accesses).2 := by
  induction accesses generalizing m with
  | nil => exact .nil
  | cons a rest ih => exact .cons (served_perform m a) (ih (a.perform m).2)

/-- Whatever accesses a program makes, each is refused with the memory as it was or does what single
reads and writes do; the memory keeps its size. -/
theorem servedAll_performAll (m : Memory) (accesses : List Access) :
    ServedAll m accesses (performAll m accesses).1 (performAll m accesses).2 ∧
      (performAll m accesses).2.wordCount = m.wordCount :=
  ⟨servedAll m accesses, (servedAll m accesses).wordCount⟩

/-- The run of no words behind the last word is allowed, and one whose end leaves 64 bits is
refused. -/
example : performAll (.zero 8) [.load 4 [7], .readMany 4 (2 ^ 64 - 1), .read 4,
    .readMany 8 0, .write 6 1] =
    ([.ok [], .error (.outOfBounds 4 (2 ^ 64 - 1)), .ok [7], .ok [], .error (.misaligned 6)],
      ⟨#[0, 7]⟩) :=
  rfl

end Access

end TileBench.Accelerator
