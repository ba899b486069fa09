import TileBench.Proofs.Accelerator.Overlap

/-!
# How far byte addresses reach

The device checks the spans of an addition in indices of words and then goes through them in byte
addresses of 32 bits. `Registers.Addressed` says that all the words have such addresses. An addition
whose checked spans reach further does the sums up to the last word with an address and then panics:
the memory is left with part of the sums, and the device is lost together with it. The check
suffices for a memory exactly if the memory has fewer words than there are addresses.
-/

namespace TileBench.Accelerator

open TileBench.Accelerator.Memory (wordBytes)

/-- A memory of a number of bytes has a word for each part of four. -/
lemma Memory.wordCount_zero (bytes : Nat) :
    (Memory.zero bytes).wordCount = (bytes + (wordBytes - 1)) / wordBytes :=
  Array.size_replicate

namespace Registers

variable {regs : Registers}

/-- The spans of an addition end within the byte addresses of 32 bits. So does the offset, which
moves on once more behind the last word. -/
structure Addressed (regs : Registers) : Prop where
  spans : ∀ address ∈ regs.spans, address.toNat + regs.size.toNat * wordBytes ≤ UInt32.size
  offset : regs.size.toNat * wordBytes < UInt32.size

/-- The index of the word with which the last of the spans of an addition starts. -/
def farthest (regs : Registers) : Nat :=
  max (regs.src0.toNat / wordBytes)
    (max (regs.src1.toNat / wordBytes) (regs.dest.toNat / wordBytes))

/-- What holds of all spans holds of the operands and of the result. -/
lemma forall_spans {P : UInt32 → Prop} :
    (∀ address ∈ regs.spans, P address) ↔ P regs.src0 ∧ P regs.src1 ∧ P regs.dest := by
  simp [spans]

/-- In words, all spans are addressed if the farthest is and the offset can go behind the last
word. -/
lemma addressed_iff (aligned : ∀ address ∈ regs.spans, address.toNat % wordBytes = 0) :
    regs.Addressed ↔ regs.farthest + regs.size.toNat ≤ Device.addressableWords ∧
      regs.size.toNat < Device.addressableWords := by
  obtain ⟨aligned₀, aligned₁, aligned₂⟩ := forall_spans.mp aligned
  have words : Device.addressableWords * wordBytes = UInt32.size := rfl
  unfold farthest
  unfold wordBytes at *
  refine ⟨fun ⟨ends, offset⟩ => ?_, fun ⟨far, room⟩ => ⟨forall_spans.mpr ?_, ?_⟩⟩
  · obtain ⟨end₀, end₁, end₂⟩ := forall_spans.mp ends
    unfold wordBytes at end₀ end₁ end₂ offset
    omega
  · unfold wordBytes
    omega
  · unfold wordBytes
    omega

end Registers

namespace Device

variable {m : Memory} {regs : Registers} {address offset src0 src1 dest : UInt32}
    {i i₀ i₁ i₂ k n : Nat}

/-! ## The end of the addresses -/

/-- Words behind the last address have none. -/
lemma checkedAddWord_overflow (base : At address i) (later : At offset k)
    (beyond : addressableWords ≤ i + k) : checkedAddWord address offset = .error .overflow :=
  if_neg (mt (toNat_add_lt_iff base later).mp (Nat.not_lt.mpr beyond))

/-- An address of 32 bits is that of an addressable word. -/
lemma lt_addressableWords (there : At address i) : i < addressableWords := by
  have zero : At 0 0 := rfl
  exact (toNat_add_lt_iff there zero).mp (UInt32.toNat_lt_size address)

section Loop

variable (first : At src0 i₀) (second : At src1 i₁) (third : At dest i₂)

include first second

/-- A sum of which an operand has no address panics. -/
lemma sumAt_overflow (later : At offset k) (inside : i₀ + k < m.wordCount)
    (beyond : addressableWords ≤ max i₀ i₁ + k) :
    sumAt m src0 src1 offset = .error (.panic .overflow) := by
  rcases Nat.lt_or_ge (i₀ + k) addressableWords with read | unread
  · obtain ⟨a₀, eq₀, at₀⟩ := checkedAddWord_eq first later read
    have read₀ : m.read a₀ = .ok (m.word (i₀ + k)) :=
      congrArg (Except.map m.word) (start?_of_at at₀ inside)
    rw [sumAt, eq₀, checkedAddWord_overflow second later (by omega)]
    change ((m.read a₀).mapError Stop.fault).bind (fun _ => .error (.panic .overflow)) = _
    rw [read₀]
    rfl
  · rw [sumAt, checkedAddWord_overflow first later unread]
    rfl

include third

/-- A sum of which some word has no address is not done. -/
lemma addWords_beyond (later : At offset k) (inside : max i₀ (max i₁ i₂) + k < m.wordCount)
    (beyond : addressableWords ≤ max i₀ (max i₁ i₂) + k) :
    addWords src0 src1 dest (n + 1) offset m = (.error (.panic .overflow), m) := by
  rcases Nat.lt_or_ge (max i₀ i₁ + k) addressableWords with read | unread
  · -- Both operands are read, so that it is the sum that has no place.
    have sum := sumAt_eq (m := m) first second later (by omega) (by omega)
    have put := checkedAddWord_overflow third later (by omega)
    simp only [addWords, sum, putAt, put]
  · have sum := sumAt_overflow (m := m) first second later (by omega) unread
    simp only [addWords, sum]

/-- Behind the last of all addresses there is no offset for another round. -/
lemma addWords_last (later : At offset k)
    (inside : max i₀ (max i₁ i₂) + k < min m.wordCount addressableWords)
    (last : addressableWords ≤ k + 1) :
    addWords src0 src1 dest (n + 1) offset m =
      (.error (.panic .overflow), addFrom i₀ i₁ i₂ 1 k m) := by
  have sum := sumAt_eq (m := m) first second later (by omega) (by omega)
  have put := putAt_eq (m := m) third later (by omega) (m.word (i₀ + k) + m.word (i₁ + k))
  have one : At (UInt32.ofNat wordBytes) 1 := rfl
  simp only [addWords, sum, put, checkedAddWord_overflow later one last, addFrom]

end Loop

/-- The sums can be done in two parts. -/
lemma addFrom_add (i₀ i₁ i₂ t n k : Nat) (m : Memory) :
    addFrom i₀ i₁ i₂ (t + n) k m = addFrom i₀ i₁ i₂ n (k + t) (addFrom i₀ i₁ i₂ t k m) := by
  induction t generalizing k m with
  | zero => rw [Nat.zero_add, Nat.add_zero, addFrom]
  | succ t ih => rw [Nat.succ_add, addFrom, ih, addFrom, Nat.add_assoc, Nat.add_comm 1]

/-- The loop does the sums of all words that have addresses. -/
lemma addWords_unreached {count : Nat} (first : At src0 i₀) (second : At src1 i₁)
    (third : At dest i₂) (inside : max i₀ (max i₁ i₂) + count ≤ m.wordCount)
    (unreached : addressableWords < max i₀ (max i₁ i₂) + count ∨ addressableWords ≤ count) :
    addWords src0 src1 dest count 0 m = (.error (.panic .overflow),
      addFrom i₀ i₁ i₂ (min count (addressableWords - max i₀ (max i₁ i₂))) 0 m) := by
  have zero : At 0 0 := rfl
  have starts : max i₀ (max i₁ i₂) < addressableWords :=
    Nat.max_lt.mpr ⟨lt_addressableWords first,
      Nat.max_lt.mpr ⟨lt_addressableWords second, lt_addressableWords third⟩⟩
  generalize eq : addressableWords - max i₀ (max i₁ i₂) = t
  rcases Nat.eq_zero_or_pos (max i₀ (max i₁ i₂)) with front | behind
  · -- All spans start with the first word, so that the last round is that of the last address.
    obtain ⟨t, rfl⟩ : ∃ s, t = s + 1 := ⟨t - 1, by omega⟩
    obtain ⟨n, rfl⟩ : ∃ n, count = t + (n + 1) := ⟨count - t - 1, by omega⟩
    obtain ⟨next, there, sums⟩ :=
      addWords_add (m := m) (t := t) (n := n + 1) first second third zero (by omega) (by omega)
    rw [Nat.zero_add] at there
    rw [sums, addWords_last first second third there (by rw [wordCount_addFrom]; omega) (by omega),
      Nat.min_eq_right (by omega), addFrom_add, Nat.zero_add]
  · -- Some span starts later, so that after `t` rounds its next word has no address.
    obtain ⟨n, rfl⟩ : ∃ n, count = t + (n + 1) := ⟨count - t - 1, by omega⟩
    obtain ⟨next, there, sums⟩ :=
      addWords_add (m := m) (t := t) (n := n + 1) first second third zero (by omega) (by omega)
    rw [Nat.zero_add] at there
    rw [sums, addWords_beyond first second third there
      (by rw [wordCount_addFrom]; omega) (by omega), Nat.min_eq_right (by omega)]

/-! ## What the check is worth -/

/-- An addition that is done as a whole. -/
structure Finishes (m : Memory) (regs : Registers) (new : Memory) : Prop where
  executed : execute .add regs m = (.ok 0, new)
  completed : Command.completion? .add ⟨regs, m⟩ = some ⟨.ok 0, new⟩
  sums : Sums m (regs.src0.toNat / wordBytes) (regs.src1.toNat / wordBytes)
    (regs.dest.toNat / wordBytes) regs.size.toNat new

/-- An addition that panics behind the last address, when the sums before it have been written. No
completion brings the memory back. -/
structure Abandons (m : Memory) (regs : Registers) (new : Memory) : Prop where
  executed : execute .add regs m = (.error (.panic .overflow), new)
  completed : Command.completion? .add ⟨regs, m⟩ = none
  sums : Sums m (regs.src0.toNat / wordBytes) (regs.src1.toNat / wordBytes)
    (regs.dest.toNat / wordBytes) (min regs.size.toNat (addressableWords - regs.farthest)) new

section Checked

variable (checked : checkSpans m regs.src0 regs.src1 regs.dest regs.size.toNat = .ok ())

include checked

/-- The memory has the words of all spans that pass the check. -/
lemma has_of_checkSpans : ∀ address ∈ regs.spans, m.Has address regs.size.toNat := by
  rcases checkSpans_cases m regs regs.size.toNat with ⟨-, has⟩ | ⟨f, refused, -⟩
  · exact has
  · cases checked.symm.trans refused

/-- Spans that pass the check start at words. -/
lemma aligned_of_checkSpans : ∀ address ∈ regs.spans, address.toNat % wordBytes = 0 :=
  fun address mem => (has_of_checkSpans checked address mem).1

/-- The registers of an addition that passes the check are addresses of words. -/
lemma at_of_checkSpans : At regs.src0 (regs.src0.toNat / wordBytes) ∧
    At regs.src1 (regs.src1.toNat / wordBytes) ∧
    At regs.dest (regs.dest.toNat / wordBytes) := by
  obtain ⟨has₀, has₁, has₂⟩ := Registers.forall_spans.mp (has_of_checkSpans checked)
  exact ⟨has₀.at, has₁.at, has₂.at⟩

/-- The farthest of the spans that pass the check ends in the memory. -/
lemma farthest_le : regs.farthest + regs.size.toNat ≤ m.wordCount := by
  obtain ⟨has₀, has₁, has₂⟩ := Registers.forall_spans.mp (has_of_checkSpans checked)
  have inside₀ := has₀.2
  have inside₁ := has₁.2
  have inside₂ := has₂.2
  unfold Registers.farthest
  omega

/-- An addition that passes the check comes to what its loop comes to. -/
lemma execute_of_checkSpans {outcome : Except Stop Unit} {new : Memory}
    (looped : addWords regs.src0 regs.src1 regs.dest regs.size.toNat 0 m = (outcome, new)) :
    execute .add regs m = (outcome.map fun _ => 0, new) := by
  rw [execute, add, checked]
  dsimp only
  rw [looped]

/-- An addition whose words all have addresses is done as a whole. -/
lemma finishes_of_addressed (addressed : regs.Addressed) : ∃ new, Finishes m regs new := by
  obtain ⟨first, second, third⟩ := at_of_checkSpans checked
  obtain ⟨far, room⟩ := (Registers.addressed_iff (aligned_of_checkSpans checked)).mp addressed
  have inside := farthest_le checked
  have zero : At 0 0 := rfl
  unfold Registers.farthest at far inside
  have executed :=
    execute_of_checkSpans checked (addWords_eq first second third zero (by omega) (by omega))
  refine ⟨_, executed, ?_, sums_addFrom _ _ ?_⟩
  · rw [Command.completion?, executed]
    rfl
  · omega

/-- An addition of which a word has no address is abandoned where the addresses end. -/
lemma abandons_of_not_addressed (unaddressed : ¬ regs.Addressed) : ∃ new, Abandons m regs new := by
  obtain ⟨first, second, third⟩ := at_of_checkSpans checked
  have inside := farthest_le checked
  have unreached : addressableWords < regs.farthest + regs.size.toNat ∨
      addressableWords ≤ regs.size.toNat := by
    rw [Registers.addressed_iff (aligned_of_checkSpans checked)] at unaddressed
    omega
  have executed :=
    execute_of_checkSpans checked (addWords_unreached first second third inside unreached)
  refine ⟨_, executed, ?_, sums_addFrom _ _ ?_⟩
  · rw [Command.completion?, executed]
    rfl
  · unfold Registers.farthest at inside
    omega

/-- In an addressable memory every checked addition is addressed. -/
lemma addressed_of_small (small : m.wordCount < addressableWords) : regs.Addressed := by
  have inside := farthest_le checked
  exact (Registers.addressed_iff (aligned_of_checkSpans checked)).mpr ⟨by omega, by omega⟩

end Checked

/-- As many words as there are addresses are one too many. -/
lemma exists_checked (large : addressableWords ≤ m.wordCount) : ∃ regs : Registers,
    checkSpans m regs.src0 regs.src1 regs.dest regs.size.toNat = .ok () ∧ ¬ regs.Addressed := by
  have start : m.start? 0 (0x40000000 : UInt32).toNat = .ok 0 :=
    start?_of_at rfl (Nat.le_trans (Nat.le_of_eq (Nat.zero_add _)) large)
  refine ⟨⟨0, 0, 0, 0, 0x40000000⟩, ?_, fun addressed => ?_⟩
  · rw [checkSpans, start]
    rfl
  · exact absurd addressed.offset (by decide)

/-- An addition whose spans have been checked is done as a whole if all its words have byte
addresses, with room for the offset behind them. Otherwise it panics where the addresses end, with
the sums before that written and the memory lost. For all additions in a memory the check suffices
exactly if its words are fewer than the addresses. -/
theorem finishes_of_checkSpans (m : Memory) :
    (∀ regs, checkSpans m regs.src0 regs.src1 regs.dest regs.size.toNat = .ok () →
      (regs.Addressed ∧ ∃ new, Finishes m regs new) ∨
      (¬ regs.Addressed ∧ ∃ new, Abandons m regs new)) ∧
    ((∀ regs, checkSpans m regs.src0 regs.src1 regs.dest regs.size.toNat = .ok () →
      ∃ new, Finishes m regs new) ↔ m.wordCount < addressableWords) := by
  refine ⟨fun regs checked => ?_, fun sufficient => Nat.lt_of_not_le fun large => ?_,
    fun small regs checked => ?_⟩
  · by_cases addressed : regs.Addressed
    · exact .inl ⟨addressed, finishes_of_addressed checked addressed⟩
    · exact .inr ⟨addressed, abandons_of_not_addressed checked addressed⟩
  · obtain ⟨regs, checked, unaddressed⟩ := exists_checked large
    obtain ⟨new, finishes⟩ := sufficient regs checked
    obtain ⟨new', abandons⟩ := abandons_of_not_addressed checked unaddressed
    cases finishes.completed.symm.trans abandons.completed
  · exact finishes_of_addressed checked (addressed_of_small checked small)

/-- The spans of an addition of which the first operand starts with the last word that has an
address. -/
lemma checkSpans_last {size : Nat} (few : size ≤ 2) :
    checkSpans (.zero 4294967300) 4294967292 0 0 size = .ok () := by
  have count : (Memory.zero 4294967300).wordCount = 1073741825 := Memory.wordCount_zero _
  have last : (Memory.zero 4294967300).start? 4294967292 size = .ok 1073741823 :=
    start?_of_at rfl (by omega)
  have front : (Memory.zero 4294967300).start? 0 size = .ok 0 := start?_of_at rfl (by omega)
  rw [checkSpans, last, front]
  rfl

/-- The last word that has an address is added, though the memory goes on behind it. -/
theorem finishes_of_checkSpans_last : checkSpans (.zero 4294967300) 4294967292 0 0 1 = .ok () ∧
    ∃ new, Finishes (.zero 4294967300) ⟨0, 4294967292, 0, 0, 1⟩ new := by
  have checked : checkSpans (.zero 4294967300) 4294967292 0 0 1 = .ok () :=
    checkSpans_last (by decide)
  have addressed : Registers.Addressed ⟨0, 4294967292, 0, 0, 1⟩ :=
    ⟨Registers.forall_spans.mpr (by decide), by decide⟩
  refine ⟨checked, ?_⟩
  rcases (finishes_of_checkSpans (.zero 4294967300)).1 ⟨0, 4294967292, 0, 0, 1⟩ checked with
    ⟨-, finishes⟩ | ⟨unaddressed, -⟩
  · exact finishes
  · exact absurd addressed unaddressed

/-- A memory of one word more than there are addresses has both words of a span that starts with the
last address. The check lets it pass, and the device does the first sum and panics. -/
theorem abandons_behind_last_address : checkSpans (.zero 4294967300) 4294967292 0 0 2 = .ok () ∧
    ∃ new, Abandons (.zero 4294967300) ⟨0, 4294967292, 0, 0, 2⟩ new := by
  have checked : checkSpans (.zero 4294967300) 4294967292 0 0 2 = .ok () :=
    checkSpans_last (by decide)
  refine ⟨checked, abandons_of_not_addressed checked fun addressed => ?_⟩
  exact absurd (addressed.spans 4294967292 List.mem_cons_self) (by decide)

end Device

end TileBench.Accelerator
