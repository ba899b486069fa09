import TileBench.Proofs.Accelerator.Words

/-!
# Vectors that overlap

The device adds vectors wherever their words lie. `checkSpans_cases` says which accesses it refuses:
the first of the three runs of words that the memory does not have gives the fault. The result may
lie over an operand, so that a sum is read again later as a word of the operand; `Reads` says which
word the device reads there. What an addition leaves in memory is gathered in `Sums`.
-/

namespace TileBench.Accelerator

namespace Memory

variable {m : Memory} {address : UInt32} {count : Nat} {f : Fault}

/-- The memory has `count` words at a byte address. -/
def Has (m : Memory) (address : UInt32) (count : Nat) : Prop :=
  address.toNat % wordBytes = 0 ∧ address.toNat / wordBytes + count ≤ m.wordCount

/-- Why the memory does not have `count` words at a byte address. -/
inductive Lacks (m : Memory) (address : UInt32) (count : Nat) : Fault → Prop where
  | misaligned : address.toNat % wordBytes ≠ 0 → Lacks m address count (.misaligned address)
  | outOfBounds : address.toNat % wordBytes = 0 → m.wordCount < address.toNat / wordBytes + count →
    Lacks m address count (.outOfBounds address count)

/-- The fault of the first of some runs of `count` words that the memory does not have. -/
inductive FirstLacks (m : Memory) (count : Nat) : List UInt32 → Fault → Prop where
  | here {address : UInt32} {others : List UInt32} {f : Fault} :
    m.Lacks address count f → FirstLacks m count (address :: others) f
  | later {address : UInt32} {others : List UInt32} {f : Fault} :
    m.Has address count → FirstLacks m count others f → FirstLacks m count (address :: others) f

/-- A run that the memory has starts at a word. -/
lemma Has.at (has : m.Has address count) : Device.At address (address.toNat / wordBytes) :=
  (Nat.div_mul_cancel (Nat.dvd_of_mod_eq_zero has.1)).symm

/-- No run is there and missing. -/
lemma Lacks.not_has (lacks : m.Lacks address count f) : ¬ m.Has address count := by
  rintro ⟨aligned, inside⟩
  cases lacks with
  | misaligned odd => exact odd aligned
  | outOfBounds _ beyond => exact Nat.not_le.mpr beyond inside

/-- Where one run is missing, not all are there. -/
lemma FirstLacks.not_has {addresses : List UInt32} (lacks : m.FirstLacks count addresses f) :
    ¬ ∀ address ∈ addresses, m.Has address count := by
  intro all
  induction lacks with
  | here lacks => exact lacks.not_has (all _ List.mem_cons_self)
  | later _ _ ih => exact ih fun address mem => all address (List.mem_cons_of_mem _ mem)

/-- An access is allowed or refused by what the memory has. -/
lemma start?_cases (m : Memory) (address : UInt32) (count : Nat) :
    (m.start? address count = .ok (address.toNat / wordBytes) ∧ m.Has address count) ∨
      ∃ f, m.start? address count = .error f ∧ m.Lacks address count f := by
  unfold start?
  by_cases aligned : address.toNat % wordBytes = 0
  · rw [if_neg (not_not_intro aligned)]
    by_cases inside : address.toNat / wordBytes + count ≤ m.wordCount
    · exact .inl ⟨if_pos inside, aligned, inside⟩
    · exact .inr ⟨_, if_neg inside, .outOfBounds aligned (Nat.not_le.mp inside)⟩
  · exact .inr ⟨_, if_pos aligned, .misaligned aligned⟩

end Memory

/-- The addresses of the runs of words that an addition touches, in the order in which they are
checked. -/
def Registers.spans (regs : Registers) : List UInt32 :=
  [regs.src0, regs.src1, regs.dest]

namespace Device

open TileBench.Accelerator.Memory (wordBytes)

variable {m new : Memory} {i i₀ i₁ i₂ t count : Nat}

/-- The spans are allowed together, or the first that the memory lacks is refused. -/
lemma checkSpans_cases (m : Memory) (regs : Registers) (count : Nat) :
    (checkSpans m regs.src0 regs.src1 regs.dest count = .ok () ∧
      ∀ address ∈ regs.spans, m.Has address count) ∨
    ∃ f, checkSpans m regs.src0 regs.src1 regs.dest count = .error f ∧
      m.FirstLacks count regs.spans f := by
  unfold checkSpans Registers.spans
  rcases m.start?_cases regs.src0 count with ⟨first, has₀⟩ | ⟨f, first, lacks⟩
  · rcases m.start?_cases regs.src1 count with ⟨second, has₁⟩ | ⟨f, second, lacks⟩
    · rcases m.start?_cases regs.dest count with ⟨third, has₂⟩ | ⟨f, third, lacks⟩
      · refine .inl ⟨by rw [first, second, third]; rfl, ?_⟩
        exact List.forall_mem_cons.mpr ⟨has₀,
          List.forall_mem_cons.mpr ⟨has₁, List.forall_mem_singleton.mpr has₂⟩⟩
      · exact .inr ⟨f, by rw [first, second, third]; rfl, .later has₀ (.later has₁ (.here lacks))⟩
    · exact .inr ⟨f, by rw [first, second]; rfl, .later has₀ (.here lacks)⟩
  · exact .inr ⟨f, by rw [first]; rfl, .here lacks⟩

/-- `Reads m new i₂ i t w` holds when the device reads `w` as word `t` of the operand at word `i`:
one of the `t` sums that stand from word `i₂` on by then, or what stood there from the start. -/
inductive Reads (m new : Memory) (i₂ i t : Nat) : UInt32 → Prop where
  | sum {j : Nat} : j < t → i + t = i₂ + j → Reads m new i₂ i t (new.word (i₂ + j))
  | old : (∀ j < t, i + t ≠ i₂ + j) → Reads m new i₂ i t (m.word (i + t))

/-- The result shares no word with an operand. -/
def Disjoint (i₂ i count : Nat) : Prop :=
  i₂ + count ≤ i ∨ i + count ≤ i₂

/-- What the addition of the `count` words from words `i₀` and `i₁` on leaves, with the sums from
word `i₂` on. -/
structure Sums (m : Memory) (i₀ i₁ i₂ count : Nat) (new : Memory) : Prop where
  wordCount : new.wordCount = m.wordCount
  frame : ∀ j, j < i₂ ∨ i₂ + count ≤ j → new.word j = m.word j
  sum : ∀ t < count, ∃ x y, Reads m new i₂ i₀ t x ∧ Reads m new i₂ i₁ t y ∧
    new.word (i₂ + t) = x + y
  /-- Operands into which the result does not reach from before them are added as they were. -/
  apart : (∀ i ∈ [i₀, i₁], Disjoint i₂ i count ∨ i₂ ≤ i) →
    ∀ t < count, new.word (i₂ + t) = m.word (i₀ + t) + m.word (i₁ + t)

/-- The word that the device reads of an operand is a sum that stands by then or an old word. -/
lemma reads_operandAt : Reads m new i₂ i t (operandAt m new i₂ 0 i t) := by
  unfold operandAt
  split
  next behind =>
    -- The operand starts before the result, so that the word is one of the sums before sum `t`.
    obtain ⟨j, eq⟩ := Nat.exists_eq_add_of_le behind.2
    rw [Nat.add_zero] at eq
    rw [eq]
    exact .sum (by omega) eq
  next apart => exact .old fun j _ => by omega

/-- The loop leaves the sums of the words as they are read, and nothing else changes. -/
lemma sums_addFrom (i₀ i₁ : Nat) (inside : i₂ + count ≤ m.wordCount) :
    Sums m i₀ i₁ i₂ count (addFrom i₀ i₁ i₂ count 0 m) where
  wordCount := wordCount_addFrom ..
  frame := by
    intro j outside
    exact word_addFrom_of_outside (by omega) (by omega)
  sum := by
    intro t within
    exact ⟨_, _, reads_operandAt, reads_operandAt,
      word_addFrom (Nat.zero_le t) (by omega) (by omega)⟩
  apart := by
    intro apart t within
    have operand {i : Nat} (mem : i ∈ [i₀, i₁]) :
        operandAt m (addFrom i₀ i₁ i₂ count 0 m) i₂ 0 i t = m.word (i + t) := by
      refine operandAt_of_apart ?_
      rcases apart i mem with (after | before) | after
      · exact .inl (Nat.le_trans (Nat.le_add_right _ _) after)
      · exact .inr (by omega)
      · exact .inl after
    rw [word_addFrom (Nat.zero_le t) (by omega) (by omega), operand List.mem_cons_self,
      operand (List.mem_cons_of_mem _ List.mem_cons_self)]

/-- In an addressable memory the device adds two vectors exactly if the memory has all three runs of
words. Otherwise the first that it lacks is the fault, and the memory stays as it was. -/
theorem sums_of_execute {m : Memory} (small : m.wordCount < addressableWords) (regs : Registers) :
    ((execute .add regs m).1 = .ok 0 ↔ ∀ address ∈ regs.spans, m.Has address regs.size.toNat) ∧
      ((∃ f, m.FirstLacks regs.size.toNat regs.spans f ∧
        execute .add regs m = (.error (.fault f), m)) ∨
        ∃ new, execute .add regs m = (.ok 0, new) ∧ Sums m (regs.src0.toNat / wordBytes)
          (regs.src1.toNat / wordBytes) (regs.dest.toNat / wordBytes) regs.size.toNat new) := by
  rcases checkSpans_cases m regs regs.size.toNat with ⟨checked, all⟩ | ⟨f, refused, lacks⟩
  · obtain ⟨has₀, has₁, has₂⟩ : m.Has regs.src0 regs.size.toNat ∧ m.Has regs.src1 regs.size.toNat ∧
        m.Has regs.dest regs.size.toNat := by
      simpa [Registers.spans] using all
    have added := add_eq small has₀.at has₁.at has₂.at has₀.2 has₁.2 has₂.2
    rw [execute, added]
    exact ⟨iff_of_true rfl all, .inr ⟨_, rfl, sums_addFrom _ _ has₂.2⟩⟩
  · rw [execute, add, refused]
    exact ⟨iff_of_false (fun done => by cases done) lacks.not_has, .inl ⟨f, lacks, rfl⟩⟩

/-- The result starts one word behind both operands, so that every sum is added to itself next. -/
theorem sums_of_execute_doubling :
    Memory.wordCount ⟨#[1, 0, 0, 0]⟩ < addressableWords ∧
      ∃ new, execute .add ⟨0, 0, 0, 4, 3⟩ ⟨#[1, 0, 0, 0]⟩ = (.ok 0, new) ∧
        Sums ⟨#[1, 0, 0, 0]⟩ 0 0 1 3 new ∧ new.words = #[1, 2, 4, 8] := by
  have small : Memory.wordCount ⟨#[1, 0, 0, 0]⟩ < addressableWords := by decide
  have value : execute .add ⟨0, 0, 0, 4, 3⟩ ⟨#[1, 0, 0, 0]⟩ = (.ok 0, ⟨#[1, 2, 4, 8]⟩) := rfl
  rcases (sums_of_execute small ⟨0, 0, 0, 4, 3⟩).2 with ⟨f, -, failed⟩ | ⟨new, done, sums⟩
  · cases value.symm.trans failed
  · cases value.symm.trans done
    exact ⟨small, _, value, sums, rfl⟩

end Device

end TileBench.Accelerator
