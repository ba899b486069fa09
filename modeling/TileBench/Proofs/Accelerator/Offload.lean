import TileBench.Kernel.Vector
import TileBench.Proofs.Accelerator.Requests
import TileBench.Proofs.Accelerator.Words

/-!
# Adding vectors on the simulated accelerator

An addition on the accelerator stages its operands in the first two of three slots of the memory,
each as long as a vector, and has the sums put into the third. If the three slots fit in the memory,
the accelerator gives the sums that the kernel on one core computes, whatever it has done before; if
not, the addition is out of bounds. `Adds` is what a program sees of it, `vectorAdd_owned` says it
of any accelerator that the program owns, and `adds_of_history` of every one that requests lead to.
-/

namespace TileBench.Accelerator

open Accelerator.Device (At addressableWords)

variable {src0 src1 dest : UInt32} {xs ys : List UInt32} {m : Memory} {count : Nat}

/-! ## Slots -/

/-- A slot has an address as long as 32 bits reach it. -/
lemma Slot.address_cases (s : Slot) (count : Nat) :
    (count * s.index < addressableWords ∧
      ∃ address, s.address count = .ok address ∧ At address (count * s.index)) ∨
    (addressableWords ≤ count * s.index ∧
      s.address count = .error (.outOfBounds 0xffffffff count)) := by
  unfold Slot.address addressableWords At Memory.wordBytes UInt32.size
  rw [← Nat.mul_assoc]
  by_cases reached : count * s.index * 4 < 4294967296
  · refine .inl ⟨by omega, UInt32.ofNat (count * s.index * 4), if_pos reached, ?_⟩
    exact UInt32.toNat_ofNat_of_lt reached
  · exact .inr ⟨by omega, if_neg reached⟩

/-- The operand words of an addition are the addresses of its slots, as long as 32 bits reach
them. -/
lemma operandWords_cases (count : Nat) :
    (∃ src0 src1 dest size, operandWords count = .ok (src0, src1, dest, size) ∧
      At src0 0 ∧ At src1 count ∧ At dest (2 * count) ∧ size.toNat = count) ∨
    (addressableWords ≤ 2 * count ∧
      operandWords count = .error (.outOfBounds 0xffffffff count)) := by
  have size : addressableWords = 1073741824 := rfl
  unfold operandWords
  obtain ⟨-, src0, eq₀, first⟩ | ⟨far, -⟩ := Slot.src0.address_cases count
  · obtain ⟨-, src1, eq₁, second⟩ | ⟨far, eq₁⟩ := Slot.src1.address_cases count
    · obtain ⟨near, dest, eq₂, third⟩ | ⟨far, eq₂⟩ := Slot.dest.address_cases count
      · simp only [Slot.index, Nat.mul_zero, Nat.mul_one] at near first second third
        have fits : count < UInt32.size := by
          simp only [UInt32.size]
          omega
        refine .inl ⟨src0, src1, dest, UInt32.ofNat count, ?_, first, second,
          Nat.mul_comm count 2 ▸ third, UInt32.toNat_ofNat_of_lt fits⟩
        rw [eq₀, eq₁, eq₂]
        exact if_pos fits
      · simp only [Slot.index] at far
        refine .inr ⟨by omega, ?_⟩
        rw [eq₀, eq₁, eq₂]
        rfl
    · simp only [Slot.index, Nat.mul_one] at far
      refine .inr ⟨by omega, ?_⟩
      rw [eq₀, eq₁]
      rfl
  · simp only [Slot.index, Nat.mul_zero] at far
    omega

/-! ## Staging -/

section Staging

variable (first : At src0 0) (second : At src1 count) (third : At dest (2 * count))
  (lengthX : xs.length = count) (lengthY : ys.length = count)

include first second third lengthX lengthY

/-- With room for three vectors both operands are staged, and the words behind them stay. -/
lemma stage_of_fits (fits : 3 * count ≤ m.wordCount) :
    ∃ staged, stage src0 src1 dest xs ys m = (.ok (), staged) ∧
      staged.Holds 0 xs ∧ staged.Holds count ys ∧
      ∀ j, 2 * count ≤ j → staged.word j = m.word j := by
  have insideX : 0 + xs.length ≤ m.wordCount := by omega
  have sizeX := Memory.wordCount_replace insideX
  have insideY : count + ys.length ≤ (m.replace 0 xs).wordCount := by omega
  have sizeY := Memory.wordCount_replace insideY
  refine ⟨(m.replace 0 xs).replace count ys, ?_, ?_, ?_, ?_⟩
  · rw [stage, Memory.load_at first, if_pos insideX]
    simp only
    rw [Memory.load_at second, if_pos insideY]
    simp only
    rw [Memory.start?_at third, if_pos (by omega)]
    rfl
  · refine (Memory.holds_replace insideX).congr fun j _ before => ?_
    rw [Memory.word_replace insideY, if_neg (by omega)]
  · exact Memory.holds_replace insideY
  · intro j behind
    rw [Memory.word_replace insideY, if_neg (by omega), Memory.word_replace insideX,
      if_neg (by omega)]

/-- Without room for three vectors staging is out of bounds. -/
lemma stage_of_short (short : m.wordCount < 3 * count) :
    ∃ address staged,
      stage src0 src1 dest xs ys m = (.error (.outOfBounds address count), staged) := by
  unfold stage
  rw [Memory.load_at first, lengthX]
  by_cases insideX : 0 + xs.length ≤ m.wordCount
  · have sizeX := Memory.wordCount_replace insideX
    rw [if_pos (by omega)]
    simp only
    rw [Memory.load_at second, lengthY]
    by_cases insideY : count + ys.length ≤ (m.replace 0 xs).wordCount
    · have sizeY := Memory.wordCount_replace insideY
      rw [if_pos (by omega)]
      simp only
      rw [Memory.start?_at third, if_neg (by omega)]
      exact ⟨dest, _, rfl⟩
    · rw [if_neg (by omega)]
      exact ⟨src1, _, rfl⟩
  · rw [if_neg (by omega)]
    exact ⟨src0, _, rfl⟩

end Staging

/-- The sums of staged operands go behind them, and nothing else changes. -/
lemma words_addFrom {staged : Memory} (holdsX : staged.Holds 0 xs) (holdsY : staged.Holds count ys)
    (lengthX : xs.length = count) (lengthY : ys.length = count)
    (fits : 3 * count ≤ staged.wordCount) (size : staged.wordCount = m.wordCount)
    (behind : ∀ j, 2 * count ≤ j → staged.word j = m.word j) :
    (Device.addFrom 0 count (2 * count) count 0 staged).words.toList =
      xs ++ ys ++ List.zipWith (· + ·) xs ys ++ m.words.toList.drop (3 * count) := by
  have sums := Device.holds_addFrom holdsX holdsY lengthX lengthY (by omega) (by omega)
    (show 2 * count + count ≤ _ by omega)
  have lengthSums : (List.zipWith (· + ·) xs ys).length = count := by
    rw [List.length_zipWith, lengthX, lengthY, Nat.min_self]
  have same (j : Nat) (outside : j < 2 * count ∨ 3 * count ≤ j) :
      (Device.addFrom 0 count (2 * count) count 0 staged).word j = staged.word j :=
    Device.word_addFrom_of_outside (by omega) (by omega)
  have frontX := holdsX.congr fun j _ within => same j (by omega)
  have frontY := holdsY.congr fun j _ within => same j (by omega)
  have rest := (m.holds_drop (3 * count)).congr fun j from3 _ =>
    (same j (by omega)).trans (behind j (by omega))
  -- Both operands, the sums and what was behind them make up the whole memory.
  refine Memory.Holds.words_eq (((frontX.append ?_).append ?_).append ?_) ?_
  · rwa [lengthX, Nat.zero_add]
  · rwa [List.length_append, lengthX, lengthY, Nat.zero_add, ← Nat.two_mul]
  · rwa [List.length_append, List.length_append, lengthX, lengthY, lengthSums, Nat.zero_add,
      show count + count + count = 3 * count by omega]
  · unfold Memory.wordCount at *
    simp only [List.length_append, List.length_drop, Array.length_toList, lengthX,
      lengthY, lengthSums]
    have kept := Device.wordCount_addFrom 0 count (2 * count) count 0 staged
    unfold Memory.wordCount at kept
    omega

/-! ## The transaction -/

/-- A simulated accelerator for additions that has nothing in progress, so that its program has the
memory. -/
def ready (registers : Registers) (m : Memory) (written : List Register) :
    Accelerator SoftwareDevice :=
  ⟨⟨.add, registers, some m, none, true⟩, .idle, written⟩

variable {registers : Registers} {written : List Register}

/-- Work on the memory of an accelerator that is ready is done at once. -/
lemma withMemory_ready {α : Type} (work : Memory → Except Fault α × Memory) :
    (ready registers m written).withMemory (SoftwareDevice.link .add) work =
      ((work m).1, ready registers (work m).2 written) := rfl

/-- The answer of a command that the device finishes comes with its memory. -/
lemma complete_value {o : Operation} {c : Command} {done : Completion}
    (completed : c.completion? o = some done) :
    (complete (SoftwareDevice.link o)
        ⟨⟨o, registers, none, some c, true⟩, .triggered, written⟩).value =
      (done.answer, ⟨⟨o, registers, some done.memory, none, true⟩, .idle, []⟩) := by
  have read : ((SoftwareDevice.link o).wait ⟨o, registers, none, some c, true⟩).value =
      (done.answer, ⟨o, registers, some done.memory, none, true⟩) :=
    SoftwareDevice.wait_value completed
  exact congrArg (fun x => (x.1, (⟨x.2, .idle, []⟩ : Accelerator SoftwareDevice))) read

/-- A transaction with the operands of an addition that the device does. -/
lemma transaction_add {size : UInt32} {m' : Memory}
    (sums : Device.add m src0 src1 dest size.toNat = (.ok (), m')) :
    ∃ registers', ((ready registers m written).transaction (SoftwareDevice.link .add)
      [(.src0, src0), (.src1, src1), (.dest, dest), (.size, size)]).value =
        (.ok 0, ready registers' m' []) := by
  -- The operands are in the registers of the command, whatever was there before.
  let command : Command := ⟨⟨0, src0, src1, dest, size⟩, m⟩
  have completed : command.completion? .add = some ⟨.ok 0, m'⟩ := by
    simp [Command.completion?, Device.execute, command, sums, Except.map]
  have loaded : ((ready registers m written).transaction (SoftwareDevice.link .add)
      [(.src0, src0), (.src1, src1), (.dest, dest), (.size, size)]).value =
        (complete (SoftwareDevice.link .add) ⟨⟨.add, command.registers, none, some command, true⟩,
          .triggered, [.size, .dest, .src1, .src0] ++ written⟩).value := rfl
  exact ⟨command.registers, loaded.trans (complete_value completed)⟩

/-! ## The addition -/

section Offloading

variable {size : UInt32} (first : At src0 0) (second : At src1 count) (third : At dest (2 * count))
  (sized : size.toNat = count) (lengthX : xs.length = count) (lengthY : ys.length = count)

include first second third lengthX lengthY

include sized in
/-- With room for three vectors the calls of an addition give the sums, and leave them behind the
operands. -/
lemma offload_of_fits (small : m.wordCount < addressableWords) (fits : 3 * count ≤ m.wordCount) :
    ∃ registers' after,
      (offload (SoftwareDevice.link .add) (ready registers m written) xs ys count
        (src0, src1, dest, size)).value =
          (.ok (List.zipWith (· + ·) xs ys), ready registers' after []) ∧
      after.words.toList = xs ++ ys ++ List.zipWith (· + ·) xs ys ++
        m.words.toList.drop (3 * count) := by
  obtain ⟨staged, staging, holdsX, holdsY, behind⟩ :=
    stage_of_fits first second third lengthX lengthY fits
  have stagedCount : staged.wordCount = m.wordCount := by
    rw [← wordCount_stage src0 src1 dest xs ys m, staging]
  have sums : Device.add staged src0 src1 dest size.toNat =
      (.ok (), Device.addFrom 0 count (2 * count) count 0 staged) := by
    rw [sized]
    exact Device.add_eq (by omega) first second third (by omega) (by omega) (by omega)
  have words := words_addFrom holdsX holdsY lengthX lengthY (by omega) stagedCount behind
  have holds := Device.holds_addFrom holdsX holdsY lengthX lengthY (by omega) (by omega)
    (show 2 * count + count ≤ _ by omega)
  have afterCount := Device.wordCount_addFrom 0 count (2 * count) count 0 staged
  generalize Device.addFrom 0 count (2 * count) count 0 staged = after at *
  have lengthSums : (List.zipWith (· + ·) xs ys).length = count := by
    rw [List.length_zipWith, lengthX, lengthY, Nat.min_self]
  have read := holds.readMany_eq third (by omega)
  rw [lengthSums] at read
  obtain ⟨registers', answered⟩ : ∃ registers', ((ready registers staged written).transaction
      (SoftwareDevice.link .add)
        [(.src0, src0), (.src1, src1), (.dest, dest), (.size, size)]).value =
      (.ok 0, ready registers' after []) := transaction_add sums
  have stagedOk : (pure ((ready registers m written).withMemory (SoftwareDevice.link .add)
      (stage src0 src1 dest xs ys)) : Logged _).value =
      (.ok (), ready registers staged written) := by
    rw [Logged.value_pure, withMemory_ready, staging]
  refine ⟨registers', after, ?_, words⟩
  rw [offload, andThen_ok stagedOk, andThen_ok answered, Logged.value_pure, withMemory_ready, read]

/-- Without room for three vectors the calls of an addition end with staging, before any register is
written. -/
lemma offload_of_short (short : m.wordCount < 3 * count) :
    ∃ address after,
      (offload (SoftwareDevice.link .add) (ready registers m written) xs ys count
        (src0, src1, dest, size)).value =
          (.error (.outOfBounds address count), ready registers after written) := by
  obtain ⟨address, staged, staging⟩ := stage_of_short first second third lengthX lengthY short
  have failed : (pure ((ready registers m written).withMemory (SoftwareDevice.link .add)
      (stage src0 src1 dest xs ys)) : Logged _).value =
        (.error (.outOfBounds address count), ready registers staged written) := by
    rw [Logged.value_pure, withMemory_ready, staging]
  exact ⟨address, staged, andThen_error failed⟩

end Offloading

/-- What a program sees of an addition by the simulated accelerator, whose memory is `before`; `b`
is the accelerator after it. -/
structure Adds (dest xs ys : List Int32) (before : Memory) (outcome : Except Fault Unit)
    (result : List Int32) (b : Accelerator SoftwareDevice) : Prop where
  idle : b.phase = .idle
  /-- The addition is done if there is room for three vectors. -/
  fits : outcome = .ok () ↔ 3 * dest.length ≤ before.wordCount
  /-- The result is that of one core, and the slots hold both operands and the result; behind them
  the memory is as it was. -/
  sums : outcome = .ok () → Kernel.add dest xs ys = .ok result ∧
    ∃ after, b.device.memory = some after ∧
      after.words.toList =
        (xs ++ ys ++ result).map Int32.toUInt32 ++ before.words.toList.drop (3 * dest.length)
  refused : ∀ e, outcome = .error e →
    result = dest ∧ ∃ address, e = .outOfBounds address dest.length

/-- Sums of integers wrap around like those of words. -/
lemma toUInt32_zipWith (xs ys : List Int32) :
    (List.zipWith (· + ·) xs ys).map Int32.toUInt32 =
      List.zipWith (· + ·) (xs.map Int32.toUInt32) (ys.map Int32.toUInt32) := by
  rw [List.map_zipWith, List.zipWith_map]
  exact congrArg (List.zipWith · xs ys) (funext fun x => funext fun y => Int32.toUInt32_add x y)

section Addition

variable {dest xs ys : List Int32} {b : Accelerator SoftwareDevice}

/-- The sums behind their operands in the memory are what an addition with room leaves. -/
lemma Adds.of_fits {after : Memory} (idle : b.phase = .idle) (holds : b.device.memory = some after)
    (fits : 3 * dest.length ≤ m.wordCount)
    (added : Kernel.add dest xs ys = .ok (List.zipWith (· + ·) xs ys))
    (words : after.words.toList = xs.map Int32.toUInt32 ++ ys.map Int32.toUInt32 ++
      (List.zipWith (· + ·) xs ys).map Int32.toUInt32 ++ m.words.toList.drop (3 * dest.length)) :
    Adds dest xs ys m (.ok ()) (List.zipWith (· + ·) xs ys) b where
  idle := idle
  fits := iff_of_true rfl fits
  sums := fun _ => ⟨added, after, holds, by rw [words, List.map_append, List.map_append]⟩
  refused := nofun

/-- A refusal by the memory is what an addition without room comes to. -/
lemma Adds.of_short (idle : b.phase = .idle) (short : m.wordCount < 3 * dest.length)
    (address : UInt32) : Adds dest xs ys m (.error (.outOfBounds address dest.length)) dest b where
  idle := idle
  fits := iff_of_false nofun (Nat.not_le_of_lt short)
  sums := nofun
  refused := by
    rintro _ ⟨⟩
    exact ⟨rfl, address, rfl⟩

variable (lengthX : xs.length = dest.length) (lengthY : ys.length = dest.length)

include lengthX lengthY

/-- An addition by an accelerator that is ready, which does not panic. -/
lemma vectorAdd_ready (small : m.wordCount < addressableWords) :
    ∃ outcome result b,
      (vectorAdd (SoftwareDevice.link .add) (ready registers m written) dest xs ys).run.value =
        .ok ((outcome, result), b) ∧ Adds dest xs ys m outcome result b := by
  have expected : ((expects (SoftwareDevice.link .add) .add).bind fun _ =>
      operandWords dest.length) = operandWords dest.length := rfl
  have lengthX' : (xs.map Int32.toUInt32).length = dest.length := by rwa [List.length_map]
  have lengthY' : (ys.map Int32.toUInt32).length = dest.length := by rwa [List.length_map]
  rw [value_vectorAdd lengthX lengthY]
  obtain ⟨src0, src1, dest', size, found, first, second, third, sized⟩ | ⟨far, refused⟩ :=
    operandWords_cases dest.length
  · rw [vectorAdd.run_of_ok (expected.trans found)]
    by_cases fits : 3 * dest.length ≤ m.wordCount
    · obtain ⟨registers', after, eq, words⟩ :=
        offload_of_fits first second third sized lengthX' lengthY' small fits
      have added : Kernel.add dest xs ys = .ok (List.zipWith (· + ·) xs ys) :=
        if_pos ⟨lengthX, lengthY⟩
      rw [← toUInt32_zipWith] at eq words
      rw [eq, summed, List.map_map, Function.comp_def]
      simp only [Int32.toInt32_toUInt32, List.map_id']
      exact ⟨_, _, _, rfl, .of_fits rfl rfl fits added words⟩
    · obtain ⟨address, after, eq⟩ :=
        offload_of_short first second third lengthX' lengthY' (Nat.lt_of_not_le fits)
      rw [eq]
      exact ⟨_, _, _, rfl, .of_short rfl (Nat.lt_of_not_le fits) address⟩
  · rw [vectorAdd.run_of_error (expected.trans refused)]
    exact ⟨_, _, _, rfl, .of_short rfl (by omega) _⟩

/-- An addition by an accelerator that its program owns and that has nothing in progress. -/
lemma vectorAdd_owned {words : Nat} (small : words < addressableWords)
    {a : Accelerator SoftwareDevice} (owned : Owned .add words a) (idle : a.phase = .idle) :
    ∃ before outcome result b, a.device.memory = some before ∧ before.wordCount = words ∧
      (vectorAdd (SoftwareDevice.link .add) a dest xs ys).run.value = .ok ((outcome, result), b) ∧
      Adds dest xs ys before outcome result b := by
  cases owned with
  | @program registers before p written _ count =>
    cases idle
    obtain ⟨outcome, result, b, run, adds⟩ := vectorAdd_ready lengthX lengthY (count ▸ small)
    exact ⟨before, outcome, result, b, rfl, count, run, adds⟩
  | command => cases idle

end Addition

/-- Whatever requests a program has made of a simulated accelerator, when nothing is in progress an
addition gives what one core computes if three vectors fit in the memory, and is out of bounds if
not. -/
theorem adds_of_history (m : Memory) (history : List Request) (a : Accelerator SoftwareDevice)
    (dest xs ys : List Int32) (small : m.wordCount < addressableWords)
    (reached : (performAll (SoftwareDevice.link .add)
      { device := { operation := .add, memory := some m } } history).value.2 = a)
    (idle : a.phase = .idle) (lengthX : xs.length = dest.length)
    (lengthY : ys.length = dest.length) :
    ∃ before outcome result b, a.device.memory = some before ∧ before.wordCount = m.wordCount ∧
      (vectorAdd (SoftwareDevice.link .add) a dest xs ys).run.value = .ok ((outcome, result), b) ∧
      Adds dest xs ys before outcome result b := by
  have fresh : Owned .add m.wordCount { device := { operation := .add, memory := some m } } :=
    .program nofun rfl
  have owned := (kept_owned small).performAll fresh history
  rw [reached] at owned
  exact vectorAdd_owned lengthX lengthY small owned idle

/-- An addition of two words that fills the memory, after one of three words that did not fit and a
write to what it left behind. -/
theorem adds_of_history_full : ∃ a, (Memory.zero 24).wordCount < addressableWords ∧
    (performAll (SoftwareDevice.link .add)
      { device := { operation := .add, memory := some (.zero 24) } }
      [.vectorAdd [0, 0, 0] [1, 2, 3] [4, 5, 6], .access (.write 4 7)]).value.2 = a ∧
    a.phase = .idle ∧ a.device.memory = some ⟨#[1, 7, 3, 4, 5, 6]⟩ ∧
    ∃ b, (vectorAdd (SoftwareDevice.link .add) a [0, 0] [-1, 2147483647] [3, 1]).run.value =
      .ok ((.ok (), [2, -2147483648]), b) ∧ b.phase = .idle := by
  refine ⟨_, by decide, rfl, rfl, rfl, ?_⟩
  obtain ⟨before, outcome, result, b, -, count, run, adds⟩ :=
    adds_of_history (.zero 24) [.vectorAdd [0, 0, 0] [1, 2, 3] [4, 5, 6], .access (.write 4 7)] _
      [0, 0] [-1, 2147483647] [3, 1] (by decide) rfl rfl rfl rfl
  obtain rfl : outcome = .ok () := adds.fits.mpr (count ▸ by decide)
  obtain ⟨added, -⟩ := adds.sums rfl
  obtain rfl : [2, -2147483648] = result := Except.ok.inj added
  exact ⟨b, run, adds.idle⟩

end TileBench.Accelerator
