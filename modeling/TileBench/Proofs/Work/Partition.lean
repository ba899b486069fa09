import Mathlib.Tactic.Lemma
import TileBench.Work.Partition

/-!
# Partitions cover their domain

The ranges of a partition form a chain from 0 to the size of the domain, under both policies and
where only one core works. What is cut along a chain is in order and whole: `cut_of_chain` gives
each piece, and `flatten_slices` puts the pieces together again.
-/

namespace TileBench

namespace Interval

variable {α : Type} {a b c : Nat} {rs ts : List Interval}

namespace Chain

/-- Chains that meet are a chain. -/
lemma append (first : Chain a rs b) (second : Chain b ts c) : Chain a (rs ++ ts) c := by
  induction first with
  | nil => exact second
  | cons ordered _ ih => exact .cons ordered (ih second)

/-- An interval is a chain by itself. -/
lemma singleton (ordered : a ≤ b) : Chain a [⟨a, b⟩] b :=
  .cons (r := ⟨a, b⟩) ordered (.nil b)

/-- A chain goes upwards. -/
lemma le (chain : Chain a rs b) : a ≤ b := by
  induction chain with
  | nil => exact Nat.le_refl _
  | cons ordered _ ih => exact Nat.le_trans ordered ih

/-- An interval of a chain goes upwards and stays below its end. -/
lemma ordered_of_mem {r : Interval} (chain : Chain a rs b) (mem : r ∈ rs) :
    r.start ≤ r.stop ∧ r.stop ≤ b := by
  induction chain with
  | nil => cases mem
  | cons ordered rest ih =>
    cases mem with
    | head => exact ⟨ordered, rest.le⟩
    | tail _ mem => exact ih mem

/-- A chain without intervals ends where it starts. -/
lemma eq_of_nil (chain : Chain a [] b) : a = b := by
  cases chain
  rfl

/-- The last interval of a chain stops where the chain does. -/
lemma getLast?_stop (chain : Chain a rs b) (inhabited : rs ≠ []) :
    rs.getLast?.elim 0 Interval.stop = b := by
  induction chain with
  | nil => exact absurd rfl inhabited
  | @cons r rs b ordered rest ih =>
    cases rs with
    | nil => exact rest.eq_of_nil
    | cons second rs => exact ih nofun

end Chain

/-- The part of a list that belongs to an interval of indices with `stride` elements each. -/
def slice (data : List α) (stride : Nat) (r : Interval) : List α :=
  (data.drop (r.start * stride)).take (r.size * stride)

/-- The slices along a chain, put together, are the slice from its start to its end. -/
lemma flatten_slices (data : List α) (stride : Nat) (chain : Chain a rs b) :
    (rs.map (slice data stride)).flatten = slice data stride ⟨a, b⟩ := by
  induction chain with
  | nil a => simp [slice, size]
  | @cons r rs b ordered rest ih =>
    have length : r.size * stride + (b - r.stop) * stride = (b - r.start) * stride := by
      rw [← Nat.add_mul, size, ← Nat.sub_add_comm ordered, Nat.add_sub_cancel' rest.le]
    have skipped : r.start * stride + r.size * stride = r.stop * stride := by
      rw [← Nat.add_mul, size, Nat.add_sub_cancel' ordered]
    rw [List.map_cons, List.flatten_cons, ih]
    exact calc slice data stride r ++ slice data stride ⟨r.stop, b⟩
      _ = (data.drop (r.start * stride)).take (r.size * stride + (b - r.stop) * stride) := by
        rw [List.take_add, List.drop_drop, skipped]
        rfl
      _ = slice data stride ⟨r.start, b⟩ := by
        rw [length]
        rfl

end Interval

namespace Partition

open TileBench.Interval (Chain)

variable {α : Type} {a b : Nat} {rs : List Interval}

/-- Pieces that are cut off one after another along a chain are the slices of its intervals. -/
lemma cut_of_chain {data : List α} {stride : Nat} (chain : Chain a rs b)
    (inside : b * stride ≤ data.length) (small : b * stride < sizeLimit) :
    cut stride rs (data.drop (a * stride)) = .ok (rs.map (Interval.slice data stride)) := by
  induction chain with
  | nil => rfl
  | @cons r rs b ordered rest ih =>
    have skipped : r.start * stride + r.size * stride = r.stop * stride := by
      rw [← Nat.add_mul, Interval.size, Nat.add_sub_cancel' ordered]
    have upto : r.stop * stride ≤ b * stride := Nat.mul_le_mul_right stride rest.le
    have length : checkedSub r.stop r.start = .ok r.size := if_pos ordered
    have count : checkedMul r.size stride = .ok (r.size * stride) := if_pos (by omega)
    have enough : r.size * stride ≤ (data.drop (r.start * stride)).length := by
      rw [List.length_drop]
      omega
    have others := ih inside small
    rw [← skipped, ← List.drop_drop] at others
    unfold cut
    simp only [length, count, if_pos enough, others, bind, Except.bind]
    rfl

/-! ## The ranges of a partition -/

/-- Making a partition reports an event at most. -/
lemma make_value (size cores : Nat) (policy : Policy) :
    (make size cores policy).value = of size cores policy := by
  unfold make
  dsimp only
  split
  · rfl
  · rfl

/-- Blocks of one size are a chain. -/
lemma chain_blocks (k block : Nat) :
    Chain 0 ((List.range k).map fun i => ⟨i * block, i * block + block⟩) (k * block) := by
  induction k with
  | zero => simpa using Chain.nil 0
  | succ k ih =>
    rw [List.range_succ, List.map_append, Nat.succ_mul]
    exact ih.append (Chain.singleton (Nat.le_add_right _ _))

/-- The ranges of the tail division are a chain over the domain. -/
lemma chain_tailRanges {size cores block : Nat} (fits : cores * block ≤ size)
    (inhabited : 0 < cores) : Chain 0 (tailRanges size cores block) size := by
  obtain ⟨k, rfl⟩ := Nat.exists_eq_add_of_lt inhabited
  have start : (0 + k) * block ≤ size := Nat.le_trans (Nat.mul_le_mul_right _ (Nat.le_succ _)) fits
  -- All ranges but the last are blocks, and the last one starts where they stop.
  have first : (List.range (0 + k)).map (fun i => (⟨i * block,
      if i + 1 = 0 + k + 1 then size else i * block + block⟩ : Interval)) =
      (List.range (0 + k)).map fun i => ⟨i * block, i * block + block⟩ := by
    refine List.map_congr_left fun i mem => ?_
    rw [if_neg fun last => Nat.ne_of_lt (List.mem_range.mp mem) (Nat.succ.inj last)]
  rw [tailRanges, List.range_succ, List.map_append, first, List.map_singleton, if_pos rfl]
  exact (chain_blocks _ block).append (Chain.singleton start)

/-- Blocks, and one index more from `first` on. -/
lemma sum_balanced (n block first : Nat) :
    ((List.range n).map fun i => block + if first ≤ i then 1 else 0).foldl (· + ·) 0 =
      n * block + (n - first) := by
  induction n with
  | zero => simp
  | succ n ih =>
    rw [List.range_succ, List.map_append, List.foldl_append, ih, List.map_singleton,
      List.foldl_cons, List.foldl_nil, Nat.succ_mul]
    split
    · omega
    · omega

/-- The ranges of the balanced division are a chain over the domain. -/
lemma chain_balancedRanges {cores remainder : Nat} (block : Nat) (fewer : remainder ≤ cores) :
    Chain 0 (balancedRanges cores block remainder) (cores * block + remainder) := by
  have chain := Interval.chain_consecutive 0 <| (List.range cores).map fun i =>
    block + if cores - remainder ≤ i then 1 else 0
  rwa [sum_balanced, Nat.sub_sub_self fewer] at chain

/-- The ranges of work that is not divided are a chain over the domain. -/
lemma chain_singleRanges (size cores : Nat) : Chain 0 (singleRanges size cores) size := by
  have empty (k : Nat) : Chain size (List.replicate k ⟨size, size⟩) size := by
    induction k with
    | zero => exact .nil size
    | succ k ih => exact .cons (r := ⟨size, size⟩) (Nat.le_refl _) ih
  exact .cons (r := ⟨0, size⟩) (Nat.zero_le _) (empty _)

/-- A division by a core count is a shift. -/
lemma shiftRight_of_shift? {n shift : Nat} (size : Nat) (eq : CoreCount.shift? n = some shift) :
    size >>> shift = size / n ∧ size - (size / n) <<< shift = size % n := by
  have power := CoreCount.one_shiftLeft_of_shift? eq
  rw [Nat.shiftLeft_eq, Nat.one_mul] at power
  rw [Nat.shiftRight_eq_div_pow, Nat.shiftLeft_eq, power, Nat.mul_comm, ← Nat.mod_eq_sub_mul_div]
  exact ⟨rfl, rfl⟩

/-- The ranges of a partition follow one another over its domain. -/
lemma chain_ranges (size cores : Nat) (policy : Policy) :
    Chain 0 (of size cores policy).ranges size := by
  have inhabited : 0 < max cores 1 := Nat.lt_of_lt_of_le Nat.one_pos (Nat.le_max_right _ _)
  unfold of
  dsimp only
  split
  · next shift _ eq _ =>
    -- The work is divided: the shifts are a division by the number of cores.
    obtain ⟨block, remainder⟩ := shiftRight_of_shift? size eq
    rw [block, remainder]
    cases policy with
    | tail => exact chain_tailRanges (Nat.mul_div_le _ _) inhabited
    | balanced =>
      have chain :=
        chain_balancedRanges (size / max cores 1) (Nat.le_of_lt (Nat.mod_lt size inhabited))
      rwa [Nat.div_add_mod] at chain
  · exact chain_singleRanges _ _

/-- A partition has a range for each core, and always one. -/
lemma length_ranges (size cores : Nat) (policy : Policy) :
    (of size cores policy).ranges.length = max cores 1 := by
  unfold of
  dsimp only
  split
  · cases policy with
    | tail => simp [tailRanges]
    | balanced => simp [balancedRanges]
  · simp only [singleRanges, List.length_cons, List.length_replicate]
    exact Nat.sub_add_cancel (Nat.le_max_right _ _)

/-- A partition has a range. -/
lemma ranges_ne_nil (size cores : Nat) (policy : Policy) : (of size cores policy).ranges ≠ [] := by
  intro none
  have length := length_ranges size cores policy
  rw [none, List.length_nil] at length
  exact absurd length (Nat.ne_of_lt (Nat.lt_of_lt_of_le Nat.one_pos (Nat.le_max_right _ _)))

/-- A partition covers as many indices as its domain has. -/
lemma size_of (size cores : Nat) (policy : Policy) : (of size cores policy).size = size :=
  (chain_ranges size cores policy).getLast?_stop (ranges_ne_nil size cores policy)

/-- An array of the right length is cut into the slices of the ranges. -/
lemma split_of {size cores stride : Nat} {policy : Policy} {data : List α}
    (length : data.length = size * stride) (small : size * stride < sizeLimit) :
    (of size cores policy).split data stride =
      .ok ((of size cores policy).ranges.map (Interval.slice data stride)) := by
  have cut := cut_of_chain (chain_ranges size cores policy) (Nat.le_of_eq length.symm) small
  rw [Nat.zero_mul, List.drop_zero] at cut
  simp only [split, size_of, checkedMul, if_pos small, cut]
  exact if_pos length

end Partition

end TileBench
