import Mathlib.Algebra.GroupWithZero.Nat
import Mathlib.Algebra.Order.BigOperators.Group.List
import Mathlib.Algebra.Order.Group.Nat
import TileBench.Proofs.Work.Exact

/-!
# Balance of a partition

How the indices of a domain are shared out. The sizes of the ranges are given as lists, from which
the difference between the longest and the shortest follows. That a balanced division cannot be
bettered follows from `Chain.le_mul_longest`: intervals that cut a domain are together at most as
long as their number times the longest.
-/

namespace TileBench

namespace Interval

variable {a b : Nat} {rs : List Interval}

/-- The number of indices in the longest of some intervals. -/
def longest (rs : List Interval) : Nat :=
  (rs.map size).max?.getD 0

/-- No interval is longer than the longest. -/
lemma size_le_longest {r : Interval} (mem : r ∈ rs) : r.size ≤ longest rs :=
  List.le_max?_getD_of_mem (List.mem_map_of_mem mem)

/-- The sizes along a chain add up to its length. -/
lemma Chain.sum_size (chain : Chain a rs b) : a + (rs.map size).sum = b := by
  induction chain with
  | nil => rfl
  | @cons r rs b ordered rest ih =>
    have here : r.start + r.size = r.stop := Nat.add_sub_cancel' ordered
    rw [List.map_cons, List.sum_cons, ← Nat.add_assoc, here, ih]

/-- No intervals that cut a domain are all shorter than their share of it. -/
lemma Chain.le_mul_longest {size : Nat} (chain : Chain 0 rs size) :
    size ≤ rs.length * longest rs := by
  have bound : ∀ n ∈ rs.map Interval.size, n ≤ longest rs := by
    intro n mem
    obtain ⟨r, inside, rfl⟩ := List.mem_map.mp mem
    exact size_le_longest inside
  calc size = (rs.map Interval.size).sum := by rw [← chain.sum_size, Nat.zero_add]
    _ ≤ (rs.map Interval.size).length * longest rs := List.sum_le_card_nsmul _ _ bound
    _ = rs.length * longest rs := by rw [List.length_map]

/-- Consecutive intervals have the sizes that they were laid out with. -/
lemma sizes_consecutive (start : Nat) (ns : List Nat) : (consecutive start ns).map size = ns := by
  induction ns generalizing start with
  | nil => rfl
  | cons n ns ih =>
    rw [consecutive, List.map_cons, ih, size, Nat.add_sub_cancel_left]

end Interval

namespace Partition

open TileBench.Interval (Chain longest)

variable {p : Partition} {size cores low high : Nat} {policy : Policy}

/-! ## Two sizes -/

section TwoSizes

variable (least : low ∈ p.ranges.map Interval.size) (most : high ∈ p.ranges.map Interval.size)
  (ordered : low ≤ high) (either : ∀ n ∈ p.ranges.map Interval.size, n = low ∨ n = high)

include most ordered either

/-- The larger of two sizes is that of the longest range. -/
lemma longest_eq : longest p.ranges = high := by
  have bound : ∀ n ∈ p.ranges.map Interval.size, n ≤ high := fun n mem =>
    (either n mem).elim (fun low => low ▸ ordered) Nat.le_of_eq
  rw [longest, List.max?_eq_some_iff.mpr ⟨most, bound⟩, Option.getD_some]

include least

/-- Ranges that have one of two sizes, both of which occur, differ by as much as the sizes. -/
lemma imbalance_eq : p.imbalance = high - low := by
  have bound : ∀ n ∈ p.ranges.map Interval.size, low ≤ n := fun n mem =>
    (either n mem).elim (fun low => Nat.le_of_eq low.symm) (fun high => high ▸ ordered)
  have longest := longest_eq most ordered either
  rw [Interval.longest] at longest
  rw [imbalance, longest, List.min?_eq_some_iff.mpr ⟨least, bound⟩, Option.getD_some]

end TwoSizes

/-! ## Sizes -/

/-- Blocks first, and then the blocks with one index more. -/
lemma sizes_balancedRanges {remainder : Nat} (block : Nat) (fewer : remainder ≤ cores) :
    (balancedRanges cores block remainder).map Interval.size =
      List.replicate (cores - remainder) block ++ List.replicate remainder (block + 1) := by
  obtain ⟨first, rfl⟩ := Nat.exists_eq_add_of_le' fewer
  have plain : (List.range first).map (fun i => block + if first ≤ i then 1 else 0) =
      List.replicate first block := by
    rw [List.eq_replicate_iff, List.length_map, List.length_range]
    refine ⟨rfl, fun n mem => ?_⟩
    obtain ⟨i, below, rfl⟩ := List.mem_map.mp mem
    rw [if_neg (Nat.not_le.mpr (List.mem_range.mp below)), Nat.add_zero]
  have longer : (List.range remainder).map (fun i => block + if first ≤ first + i then 1 else 0) =
      List.replicate remainder (block + 1) := by
    simp only [Nat.le_add_right, if_true, List.map_const', List.length_range]
  rw [balancedRanges, Interval.sizes_consecutive, Nat.add_sub_cancel, List.range_add,
    List.map_append, List.map_map, plain]
  exact congrArg _ longer

/-- Blocks, and what is left for the last core. -/
lemma sizes_tailRanges {block : Nat} (inhabited : 0 < cores) :
    (tailRanges size cores block).map Interval.size =
      List.replicate (cores - 1) block ++ [size - (cores - 1) * block] := by
  obtain ⟨k, rfl⟩ := Nat.exists_eq_add_of_lt inhabited
  have blocks : (List.range (0 + k)).map (fun i => Interval.size
      ⟨i * block, if i + 1 = 0 + k + 1 then size else i * block + block⟩) =
        List.replicate (0 + k) block := by
    rw [List.eq_replicate_iff, List.length_map, List.length_range]
    refine ⟨rfl, fun n mem => ?_⟩
    obtain ⟨i, below, rfl⟩ := List.mem_map.mp mem
    rw [if_neg fun last => Nat.ne_of_lt (List.mem_range.mp below) (Nat.succ.inj last),
      Interval.size, Nat.add_sub_cancel_left]
  rw [tailRanges, List.map_map, List.range_succ, List.map_append, Nat.add_sub_cancel]
  exact congr (congrArg _ blocks) (by simp [Interval.size])

/-- One range has all indices, and the others have none. -/
lemma sizes_singleRanges :
    (singleRanges size cores).map Interval.size = size :: List.replicate (cores - 1) 0 := by
  rw [singleRanges, List.map_cons, List.map_replicate, Interval.size, Interval.size, Nat.sub_zero,
    Nat.sub_self]

/-! ## Divided work -/

/-- What a balanced division of `size` indices over `cores` cores is like. -/
structure Balanced (p : Partition) (size cores : Nat) : Prop where
  /-- The last ranges have one index more, as many of them as are left over. -/
  sizes : p.ranges.map Interval.size =
    List.replicate (cores - size % cores) (size / cores) ++
      List.replicate (size % cores) (size / cores + 1)
  imbalance : p.imbalance = if cores ∣ size then 0 else 1
  /-- Cutting the domain into as many parts in another way does not make the longest shorter. -/
  shortest : ∀ rs, Chain 0 rs size → rs.length = cores → longest p.ranges ≤ longest rs

/-- What a division of `size` indices over `cores` cores is like that leaves the rest to the
last. -/
structure TailHeavy (p : Partition) (size cores : Nat) : Prop where
  sizes : p.ranges.map Interval.size =
    List.replicate (cores - 1) (size / cores) ++ [size - (cores - 1) * (size / cores)]
  imbalance : p.imbalance = size % cores

/-- What a balanced division is like follows from the sizes of its ranges. -/
lemma balanced_of_sizes (inhabited : 0 < cores) (sizes : p.ranges.map Interval.size =
    List.replicate (cores - size % cores) (size / cores) ++
      List.replicate (size % cores) (size / cores + 1)) :
    p.Balanced size cores := by
  have fewer : 0 < cores - size % cores := Nat.sub_pos_of_lt (Nat.mod_lt _ inhabited)
  have least : size / cores ∈ p.ranges.map Interval.size := by
    rw [sizes]
    exact List.mem_append_left _ (List.mem_replicate.mpr ⟨Nat.ne_of_gt fewer, rfl⟩)
  have either : ∀ n ∈ p.ranges.map Interval.size, n = size / cores ∨ n = size / cores + 1 := by
    intro n mem
    rw [sizes] at mem
    exact (List.mem_append.mp mem).imp List.eq_of_mem_replicate List.eq_of_mem_replicate
  -- Were all parts of another cutting as long as its longest, they would cover at least the domain.
  have share {rs : List Interval} (chain : Chain 0 rs size) (count : rs.length = cores) :
      cores * (size / cores) + size % cores ≤ cores * longest rs := by
    rw [Nat.div_add_mod, ← count]
    exact chain.le_mul_longest
  by_cases whole : cores ∣ size
  · have equal : ∀ n ∈ p.ranges.map Interval.size, n = size / cores ∨ n = size / cores := by
      intro n mem
      rw [sizes, Nat.mod_eq_zero_of_dvd whole, List.replicate_zero, List.append_nil] at mem
      exact .inl (List.eq_of_mem_replicate mem)
    refine ⟨sizes, ?_, fun rs chain count => ?_⟩
    · rw [if_pos whole, imbalance_eq least least (Nat.le_refl _) equal, Nat.sub_self]
    · rw [longest_eq least (Nat.le_refl _) equal]
      exact Nat.le_of_mul_le_mul_left (Nat.le_trans (Nat.le_add_right _ _) (share chain count))
        inhabited
  · have some : 0 < size % cores := Nat.pos_of_ne_zero fun none =>
      whole (Nat.dvd_of_mod_eq_zero none)
    have most : size / cores + 1 ∈ p.ranges.map Interval.size := by
      rw [sizes]
      exact List.mem_append_right _ (List.mem_replicate.mpr ⟨Nat.ne_of_gt some, rfl⟩)
    refine ⟨sizes, ?_, fun rs chain count => ?_⟩
    · rw [if_neg whole, imbalance_eq least most (Nat.le_succ _) either, Nat.add_sub_cancel_left]
    · rw [longest_eq most (Nat.le_succ _) either]
      -- What is left over has to go somewhere, so that some part is longer than a block.
      exact Nat.lt_of_mul_lt_mul_left
        (Nat.lt_of_lt_of_le (Nat.lt_add_of_pos_right some) (share chain count))

/-- What a division with a tail is like follows from the sizes of its ranges. -/
lemma tailHeavy_of_sizes (inhabited : 0 < cores) (sizes : p.ranges.map Interval.size =
    List.replicate (cores - 1) (size / cores) ++ [size - (cores - 1) * (size / cores)]) :
    p.TailHeavy size cores := by
  refine ⟨sizes, ?_⟩
  have last : size - (cores - 1) * (size / cores) = size / cores + size % cores := by
    have blocks : cores * (size / cores) = (cores - 1) * (size / cores) + size / cores := by
      rw [← Nat.succ_mul, Nat.succ_eq_add_one, Nat.sub_add_cancel inhabited]
    have split := Nat.div_add_mod size cores
    rw [blocks, Nat.add_assoc] at split
    exact Nat.sub_eq_of_eq_add (split.symm.trans (Nat.add_comm _ _))
  rw [last] at sizes
  have most : size / cores + size % cores ∈ p.ranges.map Interval.size := by
    rw [sizes]
    exact List.mem_append_right _ List.mem_cons_self
  have either : ∀ n ∈ p.ranges.map Interval.size, n = size / cores ∨
      n = size / cores + size % cores := by
    intro n mem
    rw [sizes] at mem
    exact (List.mem_append.mp mem).imp List.eq_of_mem_replicate List.mem_singleton.mp
  have least : size / cores ∈ p.ranges.map Interval.size := by
    rw [sizes]
    by_cases single : cores = 1
    · -- The only range is the last one, and nothing is left over.
      subst single
      rw [Nat.mod_one, Nat.add_zero]
      exact List.mem_append_right _ List.mem_cons_self
    · exact List.mem_append_left _ (List.mem_replicate.mpr ⟨by omega, rfl⟩)
  rw [imbalance_eq least most (Nat.le_add_right _ _) either, Nat.add_sub_cancel_left]

/-- Work that is divided by the balanced policy is balanced. -/
lemma dividedRanges_balanced {shift : Nat} (eq : CoreCount.shift? cores = some shift) :
    (⟨.balanced, dividedRanges size cores shift .balanced, false⟩ : Partition).Balanced
      size cores := by
  have inhabited : 0 < cores := (pow_of_shift? eq).2 ▸ Nat.two_pow_pos shift
  obtain ⟨block, remainder⟩ := shiftRight_of_shift? size eq
  refine balanced_of_sizes inhabited ?_
  rw [dividedRanges, block, remainder]
  exact sizes_balancedRanges _ (Nat.le_of_lt (Nat.mod_lt _ inhabited))

/-- Work that is divided by the tail policy has its rest at the end. -/
lemma dividedRanges_tail {shift : Nat} (eq : CoreCount.shift? cores = some shift) :
    (⟨.tail, dividedRanges size cores shift .tail, false⟩ : Partition).TailHeavy size cores := by
  have inhabited : 0 < cores := (pow_of_shift? eq).2 ▸ Nat.two_pow_pos shift
  refine tailHeavy_of_sizes inhabited ?_
  rw [dividedRanges, (shiftRight_of_shift? size eq).1]
  exact sizes_tailRanges inhabited

/-! ## Undivided work -/

/-- Where the work is not divided, one core has it all, though one core alone is no imbalance. -/
lemma imbalance_single : (⟨policy, singleRanges size cores, true⟩ : Partition).imbalance =
    if 1 < (singleRanges size cores).length then size else 0 := by
  have sizes : (singleRanges size cores).map Interval.size = size :: List.replicate (cores - 1) 0 :=
    sizes_singleRanges
  have most : size ∈ (singleRanges size cores).map Interval.size := sizes ▸ List.mem_cons_self
  rw [singleRanges, List.length_cons, List.length_replicate, ← singleRanges]
  by_cases several : 1 < cores - 1 + 1
  · have least : 0 ∈ (singleRanges size cores).map Interval.size := by
      rw [sizes]
      exact List.mem_cons_of_mem _ (List.mem_replicate.mpr ⟨by omega, rfl⟩)
    have either : ∀ n ∈ (singleRanges size cores).map Interval.size, n = 0 ∨ n = size := by
      intro n mem
      rw [sizes] at mem
      exact (List.mem_cons.mp mem).symm.imp_left List.eq_of_mem_replicate
    rw [if_pos several]
    exact (imbalance_eq least most (Nat.zero_le _) either).trans (Nat.sub_zero size)
  · have only : ∀ n ∈ (singleRanges size cores).map Interval.size, n = size ∨ n = size := by
      intro n mem
      rw [sizes, show cores - 1 = 0 by omega, List.replicate_zero, List.mem_singleton] at mem
      exact .inl mem
    rw [if_neg several]
    exact (imbalance_eq most most (Nat.le_refl _) only).trans (Nat.sub_self size)

/-- Over the core counts that a policy divides work over, a balanced division spreads what is left
over as evenly as any cutting of the domain can, and an even one leaves it to the last core. Where
the work is not divided, one core has it all. -/
theorem balance_of_make (size cores : Nat) :
    (Policy.balanced.supports cores = true →
      (make size cores .balanced).value.Balanced size cores) ∧
      (Policy.tail.supports cores = true → (make size cores .tail).value.TailHeavy size cores) ∧
      ∀ policy, (make size cores policy).value.fallback = true →
        (make size cores policy).value.imbalance =
          if 1 < (make size cores policy).value.ranges.length then size else 0 := by
  refine ⟨fun divides => ?_, fun divides => ?_, fun policy whole => ?_⟩
  · obtain ⟨-, shift, eq⟩ := exists_shift divides
    rw [make_value, of_divided divides eq]
    exact dividedRanges_balanced eq
  · obtain ⟨-, shift, eq⟩ := exists_shift divides
    rw [make_value, of_divided divides eq]
    exact dividedRanges_tail eq
  · rw [make_value] at whole ⊢
    cases divides : policy.supports cores with
    | true =>
      obtain ⟨-, shift, eq⟩ := exists_shift divides
      rw [of_divided divides eq] at whole
      cases whole
    | false =>
      rw [of_single divides]
      exact imbalance_single

/-- Ten indices over four cores under both policies, and over three, where one core has them all. -/
theorem balance_of_make_ten :
    Policy.balanced.supports 4 = true ∧ (make 10 4 .balanced).value.Balanced 10 4 ∧
      Policy.tail.supports 4 = true ∧ (make 10 4 .tail).value.TailHeavy 10 4 ∧
      (make 10 3 .balanced).value.fallback = true ∧ (make 10 3 .balanced).value.imbalance = 10 := by
  have four := balance_of_make 10 4
  have three := (balance_of_make 10 3).2.2 .balanced (by decide)
  exact ⟨by decide, four.1 (by decide), by decide, four.2.1 (by decide), by decide, three⟩

end Partition

end TileBench
