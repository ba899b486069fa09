import Mathlib.Tactic.Lemma
import TileBench.Accelerator.Access
import TileBench.Accelerator.Software

/-!
# What the device does to the memory

No access changes the number of words of a memory. In a memory of fewer than `addressableWords`
words the addition of two vectors never overflows an address: once its spans are checked it is the
loop `addFrom` on word indices, and `Device.execute` gives an answer or a fault but never panics.
-/

namespace TileBench.Accelerator

/-- Whether a fault is an access that the memory refuses. -/
def Fault.isOfMemory : Fault → Bool
  | .misaligned _ | .outOfBounds .. => true
  | _ => false

namespace Memory

/-- An access that is not allowed is a fault of the memory. -/
lemma start?_error {m : Memory} {address : UInt32} {count : Nat} {f : Fault}
    (refused : m.start? address count = .error f) : f.isOfMemory = true := by
  unfold start? at refused
  split at refused
  · cases refused
    rfl
  · split at refused
    · cases refused
    · cases refused
      rfl

/-- Another word at an index leaves the number of words. -/
@[simp] lemma wordCount_put (m : Memory) (i : Nat) (value : UInt32) :
    (m.put i value).wordCount = m.wordCount := by
  simp [put, wordCount]

/-- A run that is written leaves the number of words. -/
lemma wordCount_load {m m' : Memory} {address : UInt32} {data : List UInt32}
    (loaded : m.load address data = .ok m') : m'.wordCount = m.wordCount := by
  unfold load at loaded
  cases start : m.start? address data.length with
  | error e => simp [start, Except.map] at loaded
  | ok i =>
    have inside := (start?_eq_ok_iff.mp start).2
    simp only [start, Except.map, Except.ok.injEq] at loaded
    subst loaded
    simp only [wordCount, Array.size_append, Array.size_extract, List.size_toArray] at inside ⊢
    omega

/-- A run that is filled leaves the number of words. -/
lemma wordCount_fill {m m' : Memory} {address : UInt32} {count : Nat} {value : UInt32}
    (filled : m.fill address count value = .ok m') : m'.wordCount = m.wordCount := by
  unfold fill at filled
  cases start : m.start? address count with
  | error e => simp [start, Except.map] at filled
  | ok i =>
    have inside := (start?_eq_ok_iff.mp start).2
    simp only [start, Except.map, Except.ok.injEq] at filled
    subst filled
    simp only [wordCount, Array.size_append, Array.size_extract, Array.size_replicate] at inside ⊢
    omega

/-- A word that is written leaves the number of words. -/
lemma wordCount_write {m m' : Memory} {address value : UInt32}
    (written : m.write address value = .ok m') : m'.wordCount = m.wordCount := by
  unfold write at written
  cases start : m.start? address 1 with
  | error e => simp [start, Except.map] at written
  | ok i =>
    simp only [start, Except.map, Except.ok.injEq] at written
    rw [← written, wordCount_put]

end Memory

/-- No access changes the number of words. -/
lemma Access.wordCount_perform (m : Memory) (what : Access) :
    (what.perform m).2.wordCount = m.wordCount := by
  -- A refused write leaves the memory as it is.
  have changed {x : Except Fault Memory} (same : ∀ m', x = .ok m' → m'.wordCount = m.wordCount) :
      (Access.changed m x).2.wordCount = m.wordCount := by
    cases x with
    | error e => rfl
    | ok m' => exact same m' rfl
  cases what with
  | read address => rfl
  | write address value => exact changed fun _ => Memory.wordCount_write
  | readMany address count => rfl
  | load address data => exact changed fun _ => Memory.wordCount_load
  | fill address count value => exact changed fun _ => Memory.wordCount_fill

/-- Only what fails already fails when mapped. -/
lemma map_eq_error {ε α β : Type} {x : Except ε α} {g : α → β} {e : ε} (eq : x.map g = .error e) :
    x = .error e := by
  cases x with
  | error e' =>
    cases eq
    rfl
  | ok v => cases eq

/-- An access that changes the memory fails only where the change does. -/
lemma Access.changed_eq_error {m : Memory} {x : Except Fault Memory} {f : Fault}
    (eq : (Access.changed m x).1 = .error f) : x = .error f := by
  cases x with
  | error e =>
    cases eq
    rfl
  | ok m' => cases eq

/-- Only the memory refuses an access. -/
lemma Access.perform_error {m : Memory} {what : Access} {f : Fault}
    (refused : (what.perform m).1 = .error f) : f.isOfMemory = true := by
  cases what with
  | read address => exact Memory.start?_error (map_eq_error (map_eq_error refused))
  | write address value => exact Memory.start?_error (map_eq_error (changed_eq_error refused))
  | readMany address count => exact Memory.start?_error (map_eq_error refused)
  | load address data => exact Memory.start?_error (map_eq_error (changed_eq_error refused))
  | fill address count value => exact Memory.start?_error (map_eq_error (changed_eq_error refused))

namespace Device

/-- The number of words from which on a byte address may leave 32 bits. -/
def addressableWords : Nat := UInt32.size / Memory.wordBytes

/-- Adds `count` more words from word `k` of each span on; the spans start at the given words. -/
def addFrom (i₀ i₁ i₂ : Nat) : Nat → Nat → Memory → Memory
  | 0, _, m => m
  | count + 1, k, m =>
    addFrom i₀ i₁ i₂ count (k + 1) (m.put (i₂ + k) (m.word (i₀ + k) + m.word (i₁ + k)))

/-- The sums leave the number of words. -/
@[simp] lemma wordCount_addFrom (i₀ i₁ i₂ count k : Nat) (m : Memory) :
    (addFrom i₀ i₁ i₂ count k m).wordCount = m.wordCount := by
  induction count generalizing k m with
  | zero => rfl
  | succ count ih => rw [addFrom, ih, Memory.wordCount_put]

/-- `At address i` holds when `address` is the byte address of word `i`. -/
def At (address : UInt32) (i : Nat) : Prop :=
  address.toNat = i * Memory.wordBytes

variable {address offset src0 src1 dest : UInt32} {i i₀ i₁ i₂ k : Nat} {m : Memory}

/-- The words of a span have addresses as far as the sum of base and offset does not leave 32
bits. -/
lemma toNat_add_lt_iff (base : At address i) (later : At offset k) :
    address.toNat + offset.toNat < UInt32.size ↔ i + k < addressableWords := by
  have words : addressableWords * Memory.wordBytes = UInt32.size := rfl
  unfold At at base later
  unfold Memory.wordBytes at *
  omega

/-- The address of a later word of a span, which is in the memory. -/
lemma checkedAddWord_eq (base : At address i) (later : At offset k)
    (fits : i + k < addressableWords) :
    ∃ a, checkedAddWord address offset = .ok a ∧ At a (i + k) := by
  have small := (toNat_add_lt_iff base later).mpr fits
  refine ⟨address + offset, if_pos small, ?_⟩
  rw [At, UInt32.toNat_add, Nat.mod_eq_of_lt small, base, later, Nat.add_mul]

/-- A run that starts at a word and lies in the memory is allowed. -/
lemma start?_of_at {count : Nat} (there : At address i) (inside : i + count ≤ m.wordCount) :
    m.start? address count = .ok i :=
  Memory.start?_eq_ok_iff.mpr ⟨there, inside⟩

/-- Where both words are in the memory and have addresses, their sum is formed. -/
lemma sumAt_eq (first : At src0 i₀) (second : At src1 i₁) (later : At offset k)
    (inside₀ : i₀ + k < min m.wordCount addressableWords)
    (inside₁ : i₁ + k < min m.wordCount addressableWords) :
    sumAt m src0 src1 offset = .ok (m.word (i₀ + k) + m.word (i₁ + k)) := by
  obtain ⟨a₀, eq₀, at₀⟩ := checkedAddWord_eq first later (by omega)
  obtain ⟨a₁, eq₁, at₁⟩ := checkedAddWord_eq second later (by omega)
  have read₀ : m.read a₀ = .ok (m.word (i₀ + k)) :=
    congrArg (Except.map m.word) (start?_of_at at₀ (by omega))
  have read₁ : m.read a₁ = .ok (m.word (i₁ + k)) :=
    congrArg (Except.map m.word) (start?_of_at at₁ (by omega))
  rw [sumAt, eq₀, eq₁]
  change ((m.read a₀).mapError Stop.fault).bind (fun x =>
    ((m.read a₁).mapError Stop.fault).bind fun y => .ok (x + y)) = _
  rw [read₀, read₁]
  rfl

/-- Where the word of the result is in the memory and has an address, it is written. -/
lemma putAt_eq (third : At dest i₂) (later : At offset k)
    (inside₂ : i₂ + k < min m.wordCount addressableWords) (value : UInt32) :
    putAt m dest offset value = (.ok (), m.put (i₂ + k) value) := by
  obtain ⟨a₂, eq₂, at₂⟩ := checkedAddWord_eq third later (by omega)
  have start : m.start? a₂ 1 = .ok (i₂ + k) := start?_of_at at₂ (by omega)
  simp [putAt, eq₂, start]

/-- Where the next words of all spans are in the memory and have addresses, the loop of the device
does its first sums and goes on behind them. -/
lemma addWords_add {t n : Nat} (first : At src0 i₀) (second : At src1 i₁) (third : At dest i₂)
    (later : At offset k) (inside : max i₀ (max i₁ i₂) + (k + t) ≤ min m.wordCount addressableWords)
    (room : k + t < addressableWords) :
    ∃ next, At next (k + t) ∧ addWords src0 src1 dest (t + n) offset m =
      addWords src0 src1 dest n next (addFrom i₀ i₁ i₂ t k m) := by
  induction t generalizing offset k m with
  | zero => exact ⟨offset, later, by rw [Nat.zero_add, addFrom]⟩
  | succ t ih =>
    have sum := sumAt_eq (m := m) first second later (by omega) (by omega)
    have put := putAt_eq (m := m) third later (by omega) (m.word (i₀ + k) + m.word (i₁ + k))
    -- The offset moves on in any case, since there is room for the offset behind the last of these
    -- sums.
    obtain ⟨moved, eq, there⟩ :
        ∃ moved, checkedAddWord offset (UInt32.ofNat Memory.wordBytes) = .ok moved ∧
        At moved (k + 1) := checkedAddWord_eq later rfl (by omega)
    have later_inside : max i₀ (max i₁ i₂) + (k + 1 + t) ≤
        min (m.put (i₂ + k) (m.word (i₀ + k) + m.word (i₁ + k))).wordCount addressableWords := by
      rw [Memory.wordCount_put]
      omega
    obtain ⟨next, behind, rest⟩ := ih there later_inside (by omega)
    refine ⟨next, by rwa [Nat.add_assoc, Nat.add_comm 1] at behind, ?_⟩
    rw [Nat.succ_add]
    simp only [addWords, sum, put, eq, addFrom]
    exact rest

/-- Where all words are in the memory and have addresses, the loop of the device does all its
sums. -/
lemma addWords_eq {count : Nat} (first : At src0 i₀) (second : At src1 i₁) (third : At dest i₂)
    (later : At offset k)
    (inside : max i₀ (max i₁ i₂) + (k + count) ≤ min m.wordCount addressableWords)
    (room : k + count < addressableWords) :
    addWords src0 src1 dest count offset m = (.ok (), addFrom i₀ i₁ i₂ count k m) := by
  obtain ⟨next, -, eq⟩ := addWords_add (t := count) (n := 0) first second third later inside room
  exact eq

/-- Spans that pass their checks start at words and lie in the memory. -/
lemma checkSpans_eq_ok {count : Nat} (checked : checkSpans m src0 src1 dest count = .ok ()) :
    ∃ i₀ i₁ i₂, (At src0 i₀ ∧ i₀ + count ≤ m.wordCount) ∧ (At src1 i₁ ∧ i₁ + count ≤ m.wordCount) ∧
      (At dest i₂ ∧ i₂ + count ≤ m.wordCount) := by
  unfold checkSpans at checked
  cases first : m.start? src0 count with
  | error e => simp [first, bind, Except.bind] at checked
  | ok i₀ =>
    cases second : m.start? src1 count with
    | error e => simp [first, second, bind, Except.bind] at checked
    | ok i₁ =>
      cases third : m.start? dest count with
      | error e => simp [first, second, third, bind, Except.bind] at checked
      | ok i₂ =>
        exact ⟨i₀, i₁, i₂, Memory.start?_eq_ok_iff.mp first, Memory.start?_eq_ok_iff.mp second,
          Memory.start?_eq_ok_iff.mp third⟩

/-- Spans that fail their checks do so by a fault of the memory. -/
lemma checkSpans_error {count : Nat} {f : Fault}
    (refused : checkSpans m src0 src1 dest count = .error f) : f.isOfMemory = true := by
  unfold checkSpans at refused
  cases first : m.start? src0 count with
  | error e =>
    simp only [first, bind, Except.bind, Except.error.injEq] at refused
    exact refused ▸ Memory.start?_error first
  | ok i₀ =>
    cases second : m.start? src1 count with
    | error e =>
      simp only [first, second, bind, Except.bind, Except.error.injEq] at refused
      exact refused ▸ Memory.start?_error second
    | ok i₁ =>
      cases third : m.start? dest count with
      | error e =>
        simp only [first, second, third, bind, Except.bind, Except.error.injEq] at refused
        exact refused ▸ Memory.start?_error third
      | ok i₂ => simp [first, second, third, bind, Except.bind, pure, Except.pure] at refused

/-- An addition whose spans lie in an addressable memory does all its sums. -/
lemma add_eq {count : Nat} (small : m.wordCount < addressableWords) (first : At src0 i₀)
    (second : At src1 i₁) (third : At dest i₂) (inside₀ : i₀ + count ≤ m.wordCount)
    (inside₁ : i₁ + count ≤ m.wordCount) (inside₂ : i₂ + count ≤ m.wordCount) :
    add m src0 src1 dest count = (.ok (), addFrom i₀ i₁ i₂ count 0 m) := by
  have checked : checkSpans m src0 src1 dest count = .ok () := by
    rw [checkSpans, start?_of_at first inside₀, start?_of_at second inside₁,
      start?_of_at third inside₂]
    rfl
  have zero : At 0 0 := rfl
  rw [add, checked]
  exact addWords_eq first second third zero (by omega) (by omega)

/-- An addition in an addressable memory is refused as a whole or done as a whole. -/
lemma add_cases (small : m.wordCount < addressableWords) (src0 src1 dest : UInt32) (count : Nat) :
    (∃ f, f.isOfMemory = true ∧ add m src0 src1 dest count = (.error (.fault f), m)) ∨
      ∃ i₀ i₁ i₂, add m src0 src1 dest count = (.ok (), addFrom i₀ i₁ i₂ count 0 m) := by
  cases checked : checkSpans m src0 src1 dest count with
  | error f => exact .inl ⟨f, checkSpans_error checked, by rw [add, checked]⟩
  | ok =>
    obtain ⟨i₀, i₁, i₂, ⟨first, inside₀⟩, ⟨second, inside₁⟩, ⟨third, inside₂⟩⟩ :=
      checkSpans_eq_ok checked
    exact .inr ⟨i₀, i₁, i₂, add_eq small first second third inside₀ inside₁ inside₂⟩

end Device

/-- In an addressable memory the device finishes every command; only the memory may refuse it. -/
lemma Command.exists_completion (o : Operation) (c : Command)
    (small : c.memory.wordCount < Device.addressableWords) :
    ∃ done, c.completion? o = some done ∧ done.memory.wordCount = c.memory.wordCount ∧
      ∀ f, done.answer = .error f → f.isOfMemory = true := by
  unfold Command.completion?
  cases o with
  | null => exact ⟨_, rfl, rfl, nofun⟩
  | add =>
    have cases := Device.add_cases small c.registers.src0 c.registers.src1 c.registers.dest
      c.registers.size.toNat
    rcases cases with ⟨f, ofMemory, eq⟩ | ⟨i₀, i₁, i₂, eq⟩
    · refine ⟨⟨.error f, c.memory⟩, by simp [Device.execute, eq, Except.map], rfl, ?_⟩
      rintro _ ⟨⟩
      exact ofMemory
    · refine ⟨⟨.ok 0, _⟩, by simp [Device.execute, eq, Except.map]; rfl, ?_, nofun⟩
      exact Device.wordCount_addFrom ..

/-- A device that finishes its command gives back the memory with the answer. -/
lemma SoftwareDevice.wait_value {o : Operation} {registers : Registers} {c : Command}
    {done : Completion} (completed : c.completion? o = some done) :
    ((SoftwareDevice.link o).wait ⟨o, registers, none, some c, true⟩).value =
      (done.answer, ⟨o, registers, some done.memory, none, true⟩) := by
  simp [SoftwareDevice.link, SoftwareDevice.wait, completed]

/-- A device that panics keeps the memory and stops. -/
lemma SoftwareDevice.wait_lost {o : Operation} {registers : Registers} {c : Command}
    (panicked : c.completion? o = none) :
    ((SoftwareDevice.link o).wait ⟨o, registers, none, some c, true⟩).value =
      (.error lost, ⟨o, registers, none, none, false⟩) := by
  simp [SoftwareDevice.link, SoftwareDevice.wait, panicked]

end TileBench.Accelerator
