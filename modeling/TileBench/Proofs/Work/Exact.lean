import Mathlib.Algebra.Group.Nat.Defs
import Mathlib.Data.List.Basic
import Mathlib.Tactic.Lemma
import TileBench.Proofs.Work.Partition
import TileBench.Work.Arithmetic

/-!
# Partitions are exact

`Tiles` says of a list of intervals that every index of the domain lies in one of them and in no
other; the ranges of every partition do, since they form a chain. `compute_eq` says that working
them out never leaves 64 bits, for any size that has 64 bits. Both meet in `tiles_of_compute`.
-/

namespace TileBench

namespace Interval

variable {a b : Nat} {rs : List Interval}

/-- `Tiles rs size` holds when the intervals `rs` cut `[0, size)` into consecutive parts. -/
structure Tiles (rs : List Interval) (size : Nat) : Prop where
  first : rs.head?.map Interval.start = some 0
  ordered : ∀ r ∈ rs, r.start ≤ r.stop
  adjacent : ∀ c r next, rs[c]? = some r → rs[c + 1]? = some next → r.stop = next.start
  last : rs.getLast?.map Interval.stop = some size
  /-- Every index has one owner. -/
  owner : ∀ i < size, ∃! c : Nat, ∃ r : Interval, rs[c]? = some r ∧ r.start ≤ i ∧ i < r.stop

namespace Chain

/-- No interval of a chain starts before the chain. -/
lemma start_of_mem {r : Interval} (chain : Chain a rs b) (mem : r ∈ rs) : a ≤ r.start := by
  induction chain with
  | nil => cases mem
  | cons ordered _ ih =>
    cases mem with
    | head => exact Nat.le_refl _
    | tail _ mem => exact Nat.le_trans ordered (ih mem)

/-- The first interval of a chain starts where the chain does. -/
lemma head?_start (chain : Chain a rs b) (inhabited : rs ≠ []) :
    rs.head?.map Interval.start = some a := by
  cases chain with
  | nil => exact absurd rfl inhabited
  | cons => rfl

/-- Each interval of a chain stops where the next one starts. -/
lemma adjacent (chain : Chain a rs b) {c : Nat} {r next : Interval} (here : rs[c]? = some r)
    (there : rs[c + 1]? = some next) : r.stop = next.start := by
  induction chain generalizing c with
  | nil => cases here
  | @cons s rs b _ rest ih =>
    cases c with
    | zero =>
      cases here
      -- The next interval is the first of the rest, which starts where this one stops.
      have first := rest.head?_start (List.ne_nil_of_mem (List.mem_of_getElem? there))
      rw [List.head?_eq_getElem?] at first
      rw [Nat.zero_add, List.getElem?_cons_succ] at there
      rw [there] at first
      exact (Option.some.inj first).symm
    | succ c => exact ih here there

/-- Every index along a chain lies in one interval and in no other. -/
lemma owner (chain : Chain a rs b) {i : Nat} (low : a ≤ i) (high : i < b) :
    ∃! c : Nat, ∃ r : Interval, rs[c]? = some r ∧ r.start ≤ i ∧ i < r.stop := by
  induction chain with
  | nil => exact absurd high (Nat.not_lt.mpr low)
  | @cons s rs b ordered rest ih =>
    by_cases here : i < s.stop
    · refine ⟨0, ⟨s, rfl, low, here⟩, ?_⟩
      rintro c ⟨r, found, starts, -⟩
      cases c with
      | zero => rfl
      | succ c =>
        -- An interval further on starts behind the first one.
        have behind := rest.start_of_mem (List.mem_of_getElem? found)
        exact absurd here (Nat.not_lt.mpr (Nat.le_trans behind starts))
    · obtain ⟨c, ⟨r, found, inside⟩, only⟩ := ih (Nat.not_lt.mp here) high
      refine ⟨c + 1, ⟨r, found, inside⟩, ?_⟩
      rintro d ⟨r', found', inside'⟩
      cases d with
      | zero =>
        cases found'
        exact absurd inside'.2 here
      | succ d => exact congrArg (· + 1) (only d ⟨r', found', inside'⟩)

/-- A chain from zero tiles its domain. -/
lemma tiles {size : Nat} (chain : Chain 0 rs size) (inhabited : rs ≠ []) : Tiles rs size where
  first := chain.head?_start inhabited
  ordered _ mem := (chain.ordered_of_mem mem).1
  adjacent _ _ _ here there := chain.adjacent here there
  last := by
    have stop := chain.getLast?_stop inhabited
    cases last : rs.getLast? with
    | none => exact absurd (List.getLast?_eq_none_iff.mp last) inhabited
    | some r =>
      rw [last] at stop
      exact congrArg some stop
  owner _ below := chain.owner (Nat.zero_le _) below

end Chain

end Interval

namespace Partition

open TileBench.Interval (Chain)

variable {size cores : Nat} {policy : Policy}

/-! ## Working out the ranges -/

/-- A block of the tail division is worked out without leaving 64 bits. -/
lemma computeTail_eq {block i : Nat} (fits : cores * block ≤ size) (small : size < sizeLimit)
    (inside : i < cores) : computeTail size cores block i =
      .ok ⟨i * block, if i + 1 = cores then size else i * block + block⟩ := by
  have next : i * block + block ≤ size := calc
    i * block + block = (i + 1) * block := (Nat.succ_mul i block).symm
    _ ≤ cores * block := Nat.mul_le_mul_right block inside
    _ ≤ size := fits
  have start : checkedMul i block = .ok (i * block) :=
    if_pos (Nat.lt_of_le_of_lt (Nat.le_trans (Nat.le_add_right _ _) next) small)
  have last : checkedSub cores 1 = .ok (cores - 1) :=
    if_pos (Nat.lt_of_le_of_lt (Nat.zero_le i) inside)
  have stop : checkedAdd (i * block) block = .ok (i * block + block) :=
    if_pos (Nat.lt_of_le_of_lt next small)
  have isLast : i = cores - 1 ↔ i + 1 = cores := by omega
  unfold computeTail
  simp only [start, last, stop, isLast, bind, Except.bind]
  split
  · rfl
  · rfl

/-- The running offset is where the ranges so far stop, and it never passes the end of the last
one. -/
lemma computeBalanced_eq {block first current : Nat} {is : List Nat}
    (small : (is.map fun i => block + if first ≤ i then 1 else 0).foldl (· + ·) current
      < sizeLimit) :
    computeBalanced block first current is =
      .ok (Interval.consecutive current <| is.map fun i => block + if first ≤ i then 1 else 0) := by
  induction is generalizing current with
  | nil => rfl
  | cons i is ih =>
    rw [List.map_cons, List.foldl_cons] at small
    have bound := Nat.lt_of_le_of_lt (Interval.chain_consecutive _ _).le small
    rw [← Nat.add_assoc] at bound
    have whole : checkedAdd current block = .ok (current + block) :=
      if_pos (Nat.lt_of_le_of_lt (Nat.le_add_right _ _) bound)
    have stop : checkedAdd (current + block) (if first ≤ i then 1 else 0) = .ok _ := if_pos bound
    have rest := ih small
    rw [← Nat.add_assoc] at rest
    unfold computeBalanced
    simp only [whole, stop, rest, bind, Except.bind]
    rw [List.map_cons, Interval.consecutive, ← Nat.add_assoc]
    rfl

/-- The exponent of a supported core count is that of a power of two up to 64. -/
lemma pow_of_shift? {shift : Nat} (eq : CoreCount.shift? cores = some shift) :
    shift < 64 ∧ 2 ^ shift = cores := by
  have power := CoreCount.one_shiftLeft_of_shift? eq
  rw [Nat.shiftLeft_eq, Nat.one_mul] at power
  have supported : cores ≤ CoreCount.greatest := by
    have isSome := CoreCount.isSome_shift? cores
    rw [eq, Option.isSome_some, eq_comm, CoreCount.isSupported, decide_eq_true_eq] at isSome
    revert isSome
    simp only [CoreCount.supported, CoreCount.greatest, List.mem_cons, List.not_mem_nil, or_false]
    omega
  refine ⟨Nat.lt_of_lt_of_le shift.lt_two_pow_self ?_, power⟩
  rwa [power]

/-- The ranges of `cores` cores, where `shift` divides by their number. -/
def dividedRanges (size cores shift : Nat) : Policy → List Interval
  | .tail => tailRanges size cores (size >>> shift)
  | .balanced => balancedRanges cores (size >>> shift) (size - (size >>> shift) <<< shift)

/-- The ranges of a supported core count are worked out without leaving 64 bits. -/
lemma computeRanges_eq {shift : Nat} (small : size < sizeLimit)
    (eq : CoreCount.shift? cores = some shift) :
    computeRanges size cores shift policy = .ok (dividedRanges size cores shift policy) := by
  obtain ⟨narrow, power⟩ := pow_of_shift? eq
  have positive : 0 < cores := power ▸ Nat.two_pow_pos shift
  obtain ⟨block, remainder⟩ := shiftRight_of_shift? size eq
  have fits : cores * (size / cores) ≤ size := Nat.mul_div_le _ _
  have back : (size / cores) <<< shift = cores * (size / cores) := by
    rw [Nat.shiftLeft_eq, power, Nat.mul_comm]
  have less : size % cores ≤ cores := Nat.le_of_lt (Nat.mod_lt _ positive)
  have right : checkedShiftRight size shift = .ok (size / cores) := by
    rw [checkedShiftRight, if_pos narrow, block]
  unfold computeRanges
  simp only [right, bind, Except.bind, dividedRanges, block]
  cases policy with
  | tail => exact mapM_eq_ok fun i mem => computeTail_eq fits small (List.mem_range.mp mem)
  | balanced =>
    have left : checkedShiftLeft (size / cores) shift = .ok (cores * (size / cores)) := by
      rw [checkedShiftLeft, back, if_pos ⟨narrow, Nat.lt_of_le_of_lt fits small⟩]
    have extra : checkedSub size (cores * (size / cores)) = .ok (size % cores) := by
      rw [checkedSub, if_pos fits, ← Nat.mod_eq_sub_mul_div]
    have first : checkedSub cores (size % cores) = .ok (cores - size % cores) := if_pos less
    simp only [left, extra, first, remainder]
    refine computeBalanced_eq ?_
    rw [sum_balanced, Nat.sub_sub_self less, Nat.div_add_mod]
    exact small

/-! ## Where the work is divided -/

/-- A policy divides work over some of the supported core counts. -/
lemma exists_shift (divides : policy.supports cores = true) :
    max cores 1 = cores ∧ ∃ shift, CoreCount.shift? cores = some shift := by
  have supported : CoreCount.isSupported cores = true := by
    cases policy with
    | balanced => exact divides
    | tail =>
      rw [Policy.supports, decide_eq_true_eq] at divides
      rw [CoreCount.isSupported, decide_eq_true_eq]
      revert divides
      simp only [CoreCount.evenSplit, CoreCount.supported, List.mem_cons,
        List.not_mem_nil, or_false]
      omega
  have isSome := CoreCount.isSome_shift? cores
  rw [supported] at isSome
  obtain ⟨shift, eq⟩ := Option.isSome_iff_exists.mp isSome
  have positive : 0 < cores := (pow_of_shift? eq).2 ▸ Nat.two_pow_pos shift
  exact ⟨Nat.max_eq_left positive, shift, eq⟩

/-- Where the policy divides the work, the ranges are those of the division. -/
lemma of_divided {shift : Nat} (divides : policy.supports cores = true)
    (eq : CoreCount.shift? cores = some shift) :
    of size cores policy = ⟨policy, dividedRanges size cores shift policy, false⟩ := by
  simp only [of, (exists_shift divides).1, eq, divides]
  cases policy with
  | tail => rfl
  | balanced => rfl

/-- Where the policy does not divide the work, one core has it all. -/
lemma of_single (whole : policy.supports cores = false) :
    of size cores policy = ⟨policy, singleRanges size (max cores 1), true⟩ := by
  unfold of
  dsimp only
  rw [whole]
  cases CoreCount.shift? (max cores 1) with
  | none => rfl
  | some => rfl

/-- Nothing that a core does to work out a partition leaves 64 bits. -/
lemma compute_eq (small : size < sizeLimit) (cores : Nat) (policy : Policy) :
    compute size cores policy = .ok (of size cores policy) := by
  cases divides : policy.supports cores with
  | true =>
    obtain ⟨same, shift, eq⟩ := exists_shift divides
    simp only [compute, same, eq, divides, computeRanges_eq small eq, of_divided divides eq]
    rfl
  | false =>
    have one : checkedSub (max cores 1) 1 = .ok (max cores 1 - 1) := if_pos (Nat.le_max_right _ _)
    rw [of_single divides]
    unfold compute
    dsimp only
    rw [divides, one]
    cases CoreCount.shift? (max cores 1) with
    | none => rfl
    | some => rfl

/-- The whole domain and then empty ranges at its end. -/
lemma range?_single {c : Core} (inside : c < max cores 1) (whole : policy.supports cores = false) :
    (of size cores policy).range? c =
      some (if c = orchestrator then ⟨0, size⟩ else ⟨size, size⟩) := by
  rw [of_single whole]
  cases c with
  | zero => rfl
  | succ c =>
    have isPeer : c.succ ≠ orchestrator := Nat.succ_ne_zero c
    rw [range?, singleRanges, List.getElem?_cons_succ, if_neg isPeer]
    exact List.getElem?_replicate_of_lt (Nat.lt_sub_of_add_lt inside)

/-- A core works out every partition of a domain of 64 bits. It has one range per core; the ranges
tile the domain, and where the policy does not divide the work the first of them is the whole
domain. -/
theorem tiles_of_compute {size : Nat} (small : size < sizeLimit) (cores : Nat) (policy : Policy) :
    ∃ p, compute size cores policy = .ok p ∧ (make size cores policy).value = p ∧
      p.ranges.length = max cores 1 ∧ Interval.Tiles p.ranges size ∧
      (p.fallback = true ↔ policy.supports cores = false) ∧
      (p.fallback = true → ∀ c < max cores 1,
        p.range? c = some (if c = orchestrator then ⟨0, size⟩ else ⟨size, size⟩)) := by
  refine ⟨_, compute_eq small cores policy, make_value .., length_ranges ..,
    (chain_ranges ..).tiles (ranges_ne_nil size cores policy), ?_⟩
  cases divides : policy.supports cores with
  | true =>
    obtain ⟨-, shift, eq⟩ := exists_shift divides
    rw [of_divided divides eq]
    exact ⟨⟨nofun, nofun⟩, nofun⟩
  | false => exact ⟨by simp [of_single divides], fun _ c inside => range?_single inside divides⟩

/-- The largest domain, divided over 64 cores: each takes the 64th part of 2^64 but the first. -/
theorem tiles_of_compute_greatest : 2 ^ 64 - 1 < sizeLimit ∧ ∃ p,
    compute (2 ^ 64 - 1) 64 .balanced = .ok p ∧ Interval.Tiles p.ranges (2 ^ 64 - 1) ∧
      p.range? 0 = some ⟨0, 2 ^ 58 - 1⟩ ∧ p.range? 63 = some ⟨2 ^ 64 - 2 ^ 58 - 1, 2 ^ 64 - 1⟩ := by
  have small : 2 ^ 64 - 1 < sizeLimit := by decide
  obtain ⟨p, computed, made, -, tiles, -⟩ := tiles_of_compute small 64 .balanced
  subst made
  exact ⟨small, _, computed, tiles, by decide, by decide⟩

end Partition

end TileBench
