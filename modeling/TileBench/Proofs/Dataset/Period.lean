import Mathlib.Algebra.Ring.GeomSum
import Mathlib.Data.List.Iterate
import Mathlib.NumberTheory.Multiplicity
import Mathlib.RingTheory.Int.Basic
import TileBench.Dataset.Generator

/-!
# The period of the generator

A step of the generator multiplies by one more than a multiple of four and adds an odd number. After
`k` steps the state has moved by an odd number times the sum of the first `k` powers of the
multiplier, and a power of two divides that sum just as it divides `k`. So a generator comes back to
its seed after as many steps as it has states, and not before; on the way it is in each of its
states once, and draws every word as often as every other.
-/

namespace TileBench.Generator

variable {g h : Generator} {i j k n : ℕ} {w : UInt32}

/-! ## Draws in a row -/

/-- The words that the next `count` draws give. -/
def outputs (g : Generator) (count : ℕ) : List UInt32 :=
  (List.iterate step g.step count).map output

/-- The first word is that of the next state. -/
lemma outputs_succ (g : Generator) (count : ℕ) :
    g.outputs (count + 1) = g.step.output :: g.step.outputs count := by
  rw [outputs, List.iterate, List.map_cons, outputs]

/-- So many draws give so many words. -/
lemma length_outputs (g : Generator) (count : ℕ) : (g.outputs count).length = count := by
  rw [outputs, List.length_map, List.length_iterate]

/-- Draws go on from the state that the draws before them have left. -/
lemma outputs_add (g : Generator) (m n : ℕ) :
    g.outputs (m + n) = g.outputs m ++ (step^[m] g).outputs n := by
  rw [outputs, List.iterate_add, List.map_append, ← Function.iterate_succ_apply,
    Function.iterate_succ_apply']
  rfl

/-- Here the step is any function, so that its constants do not get in the way. -/
lemma run_modify_bind {α : Type} (move : Generator → Generator) (seen : Generator → UInt32)
    (f : UInt32 → Draw α) (g : Generator) :
    ((do modify move; return seen (← get) : Draw UInt32) >>= f).run g =
      (f (seen (move g))).run (move g) :=
  rfl

/-- Draws of words go through the states one after another. -/
lemma run_drawOnto_next (count : ℕ) (drawn : List UInt32) (g : Generator) :
    (drawOnto next count drawn).run g =
      (.ok (drawn.reverse ++ g.outputs count), step^[count] g) := by
  induction count generalizing drawn g with
  | zero =>
    rw [outputs, List.iterate, List.map_nil, List.append_nil]
    rfl
  | succ count ih =>
    rw [drawOnto, next, run_modify_bind, ← next, ih, List.reverse_cons, List.append_assoc,
      List.singleton_append, outputs_succ, Function.iterate_succ_apply]

/-- Many draws of words give the words of the next states and leave the last of these. -/
lemma run_many_next (count : ℕ) (g : Generator) :
    (many count next).run g = (.ok (g.outputs count), step^[count] g) :=
  run_drawOnto_next count [] g

/-! ## How far the state moves -/

/-- How far a step moves the state. -/
def drift (g : Generator) : ℤ :=
  (multiplier.toNat - 1) * g.state.toNat + increment.toNat

/-- The sum of the first `k` powers of the multiplier. -/
def powerSum (k : ℕ) : ℤ :=
  ∑ i ∈ Finset.range k, (multiplier.toNat : ℤ) ^ i

/-- The multiplier is one more than a multiple of four. -/
lemma four_dvd_multiplier_sub_one : (4 : ℤ) ∣ multiplier.toNat - 1 := by
  decide

/-- The state moves by an odd number. -/
lemma odd_drift (g : Generator) : Odd g.drift := by
  have even : Even ((multiplier.toNat : ℤ) - 1) := by decide
  have odd : Odd (increment.toNat : ℤ) := by decide
  exact (even.mul_right _).add_odd odd

/-- As numbers, states are multiplied and added to up to a multiple of the number of states. -/
lemma toNat_step (g : Generator) : (g.step.state.toNat : ℤ) ≡
    multiplier.toNat * g.state.toNat + increment.toNat [ZMOD UInt64.size] := by
  rw [step, UInt64.toNat_add, UInt64.toNat_mul, Nat.mod_add_mod, mul_comm g.state.toNat]
  exact_mod_cast Nat.mod_modEq _ _

/-- The sum of one power more is the sum before times the multiplier, and one. -/
lemma powerSum_succ (k : ℕ) : powerSum (k + 1) = multiplier.toNat * powerSum k + 1 :=
  geom_sum_succ

/-- After `k` steps the state has moved by the drift times the sum of `k` powers. -/
lemma iterate_modEq (g : Generator) (k : ℕ) : ((step^[k] g).state.toNat : ℤ) ≡
    g.state.toNat + powerSum k * g.drift [ZMOD UInt64.size] := by
  induction k with
  | zero => simp [powerSum]
  | succ k ih =>
    rw [Function.iterate_succ_apply']
    calc ((step^[k] g).step.state.toNat : ℤ)
      _ ≡ multiplier.toNat * (step^[k] g).state.toNat + increment.toNat [ZMOD UInt64.size] :=
        toNat_step _
      _ ≡ multiplier.toNat * (g.state.toNat + powerSum k * g.drift) + increment.toNat
          [ZMOD UInt64.size] := (ih.mul_left _).add_right _
      _ = g.state.toNat + powerSum (k + 1) * g.drift := by
        rw [powerSum_succ, drift]
        ring

/-- A power of two divides the sum of `k` powers just as it divides `k`. -/
lemma two_pow_dvd_powerSum_iff : 2 ^ n ∣ powerSum k ↔ 2 ^ n ∣ k := by
  have factors : powerSum k * (multiplier.toNat - 1) = (multiplier.toNat : ℤ) ^ k - 1 ^ k := by
    rw [one_pow]
    exact geom_sum_mul _ _
  have finite : emultiplicity (2 : ℤ) (multiplier.toNat - 1) ≠ ⊤ :=
    finiteMultiplicity_iff_emultiplicity_ne_top.mp (Int.finiteMultiplicity_iff.mpr (by decide))
  have same : emultiplicity 2 (powerSum k) = emultiplicity (2 : ℤ) k := by
    have lifted := Int.two_pow_sub_pow' k four_dvd_multiplier_sub_one (by decide)
    rw [← factors, emultiplicity_mul Int.prime_two, add_comm] at lifted
    exact ENat.add_right_injective_of_ne_top finite lifted
  rw [pow_dvd_iff_le_emultiplicity, same, ← pow_dvd_iff_le_emultiplicity]
  exact_mod_cast Iff.rfl

/-- Generators are equal if their states are equal as numbers. -/
lemma eq_iff_toNat : g = h ↔ g.state.toNat = h.state.toNat := by
  cases g
  cases h
  rw [UInt64.toNat_inj, mk.injEq]

/-- A generator is back where it was after as many steps as it has states, and after their
multiples. -/
lemma iterate_eq_iff : step^[k] g = g ↔ UInt64.size ∣ k := by
  have size : (UInt64.size : ℤ) = 2 ^ 64 := rfl
  have coprime : IsCoprime ((2 : ℤ) ^ 64) g.drift :=
    (Int.isCoprime_two_left.mpr (odd_drift g)).pow_left
  have moved := iterate_modEq g k
  calc step^[k] g = g
    _ ↔ (step^[k] g).state.toNat ≡ g.state.toNat [ZMOD UInt64.size] := by
      rw [eq_iff_toNat, Int.natCast_modEq_iff, Nat.ModEq, Nat.mod_eq_of_lt (UInt64.toNat_lt_size _),
        Nat.mod_eq_of_lt (UInt64.toNat_lt_size _)]
    _ ↔ g.state.toNat + powerSum k * g.drift ≡ g.state.toNat [ZMOD UInt64.size] :=
      ⟨moved.symm.trans, moved.trans⟩
    _ ↔ 2 ^ 64 ∣ powerSum k * g.drift := by
      rw [Int.modEq_comm, Int.modEq_iff_dvd, add_sub_cancel_left, size]
    _ ↔ 2 ^ 64 ∣ powerSum k := ⟨coprime.dvd_of_dvd_mul_right, fun divides => divides.mul_right _⟩
    _ ↔ UInt64.size ∣ k := two_pow_dvd_powerSum_iff

/-! ## All states -/

/-- No state is met twice before all have been met. -/
lemma iterate_inj (small : i < UInt64.size) (small' : j < UInt64.size)
    (same : step^[i] g = step^[j] g) : i = j := by
  wlog ordered : i ≤ j generalizing i j
  · exact (this small' small same.symm (Nat.le_of_not_le ordered)).symm
  obtain ⟨k, rfl⟩ := Nat.exists_eq_add_of_le ordered
  rw [Nat.add_comm, Function.iterate_add_apply, eq_comm, iterate_eq_iff] at same
  have none := Nat.eq_zero_of_dvd_of_lt same (by omega)
  omega

/-- As many steps as there are states go through all of them. -/
lemma perm_states (g : Generator) :
    ((List.iterate step g UInt64.size).map fun h => h.state.toNat).Perm
    (List.range UInt64.size) := by
  have nodup : ((List.iterate step g UInt64.size).map fun h => h.state.toNat).Nodup := by
    rw [← List.range_map_iterate, List.map_map]
    refine List.nodup_range.map_on fun i mem j mem' same => ?_
    exact iterate_inj (List.mem_range.mp mem) (List.mem_range.mp mem') (eq_iff_toNat.mpr same)
  refine (List.subperm_of_subset nodup fun s mem => ?_).perm_of_length_le ?_
  · obtain ⟨h, -, rfl⟩ := List.mem_map.mp mem
    exact List.mem_range.mpr (UInt64.toNat_lt_size _)
  · rw [List.length_map, List.length_iterate, List.length_range]

/-- Every state is reached from every other. -/
lemma exists_iterate_eq (g h : Generator) : ∃ k < UInt64.size, step^[k] g = h := by
  have mem := (perm_states g).mem_iff.mpr (List.mem_range.mpr (UInt64.toNat_lt_size h.state))
  obtain ⟨h', reached, same⟩ := List.mem_map.mp mem
  obtain ⟨k, small, rfl⟩ := List.mem_iterate.mp reached
  exact ⟨k, small, eq_iff_toNat.mpr same⟩

/-! ## All words -/

/-- The word of a state is its upper half. -/
lemma output_eq_iff : h.output = w ↔ h.state.toNat / UInt32.size = w.toNat := by
  have upper : h.output.toNat = h.state.toNat / UInt32.size := by
    have half : h.state.toNat / UInt32.size < UInt32.size :=
      Nat.div_lt_of_lt_mul (UInt64.toNat_lt_size h.state)
    rw [output, UInt64.toNat_toUInt32, UInt64.toNat_shiftRight, Nat.shiftRight_eq_div_pow]
    exact Nat.mod_eq_of_lt half
  rw [← UInt32.toNat_inj, upper]

/-- Of the numbers in blocks of `n`, those of each block have its index as their quotient. -/
lemma countP_div (m n q : ℕ) :
    (List.range (m * n)).countP (fun i => i / n == q) = if q < m then n else 0 := by
  induction m with
  | zero => simp
  | succ m ih =>
    have block : ((List.range n).map (m * n + ·)).countP (fun i => i / n == q) =
        if m = q then n else 0 := by
      have quotient : ∀ i ∈ List.range n, (m * n + i) / n = m := by
        intro i mem
        have small := List.mem_range.mp mem
        rw [Nat.mul_comm, Nat.mul_add_div (Nat.zero_lt_of_lt small),
          Nat.div_eq_of_lt small, Nat.add_zero]
      have constant : ∀ i ∈ List.range n, ((fun i => i / n == q) ∘ (m * n + ·)) i = true ↔
          decide (m = q) = true := by
        intro i mem
        rw [Function.comp_apply, quotient i mem, beq_iff_eq, decide_eq_true_eq]
      rw [List.countP_map, List.countP_congr constant]
      by_cases here : m = q <;> simp [here]
    rw [Nat.succ_mul, List.range_add, List.countP_append, ih, block]
    split_ifs <;> omega

/-- As many draws as there are states give every word equally often. -/
lemma count_outputs (g : Generator) (w : UInt32) :
    (g.outputs UInt64.size).count w = UInt32.size := by
  have upper : (fun h : Generator => h.output == w) =
      fun h => h.state.toNat / UInt32.size == w.toNat := by
    funext h
    rw [Bool.eq_iff_iff, beq_iff_eq, beq_iff_eq, output_eq_iff]
  have blocks : UInt64.size = UInt32.size * UInt32.size := rfl
  calc (g.outputs UInt64.size).count w
    _ = (List.iterate step g.step UInt64.size).countP
      fun h => h.state.toNat / UInt32.size == w.toNat := by
      rw [outputs, List.count, List.countP_map, ← upper]
      rfl
    _ = ((List.iterate step g.step UInt64.size).map fun h => h.state.toNat).countP
          (fun s => s / UInt32.size == w.toNat) := by
      rw [List.countP_map]
      rfl
    _ = (List.range (UInt32.size * UInt32.size)).countP (fun s => s / UInt32.size == w.toNat) := by
      rw [(perm_states g.step).countP_eq, blocks]
    _ = UInt32.size := by rw [countP_div, if_pos (UInt32.toNat_lt_size w)]

/-- From every seed the generator is back at the seed after `2 ^ 64` draws and after multiples of
that, but not after any other number. On the way it is in each of its states once, and of any
`2 ^ 64` words that are drawn in a row, each word is `2 ^ 32`. -/
theorem full_period (seed : UInt64) :
    (∀ k, ((many k next).run ⟨seed⟩).2.state = seed ↔ UInt64.size ∣ k) ∧
    (∀ s, ∃! k, k < UInt64.size ∧ ((many k next).run ⟨seed⟩).2.state = s) ∧
    ∀ before after, ∃ ws, ((many (before + UInt64.size + after) next).run ⟨seed⟩).1 = .ok ws ∧
      ws.length = before + UInt64.size + after ∧
      ∀ w, ((ws.drop before).take UInt64.size).count w = UInt32.size := by
  have state {k : ℕ} {s : UInt64} : ((many k next).run ⟨seed⟩).2.state = s ↔
      step^[k] ⟨seed⟩ = ⟨s⟩ := by
    rw [run_many_next, eq_iff_toNat, UInt64.toNat_inj]
  simp only [state]
  refine ⟨fun k => iterate_eq_iff, fun s => ?_, fun before after => ?_⟩
  · obtain ⟨k, small, reached⟩ := exists_iterate_eq ⟨seed⟩ ⟨s⟩
    refine ⟨k, ⟨small, reached⟩, ?_⟩
    rintro j ⟨small', reached'⟩
    exact iterate_inj small' small (reached'.trans reached.symm)
  · refine ⟨outputs ⟨seed⟩ (before + UInt64.size + after),
      by rw [run_many_next], length_outputs _ _, fun w => ?_⟩
    rw [Nat.add_assoc, outputs_add, outputs_add, List.drop_left' (length_outputs _ _),
      List.take_left' (length_outputs _ _), count_outputs]

end TileBench.Generator
