import Mathlib.Data.List.Zip
import TileBench.Proofs.Dataset.Generate
import TileBench.Proofs.Kernel.Shell
import TileBench.Proofs.Kernel.Split

/-!
# References

A dataset holds its operands beside a reference that is computed by other means than those of the
kernels. The two agree for every size and every seed. The reference of a product is accumulated term
by term: `partialSums` is the array at any point of that, and `accumulate_eq` follows from one step
of each loop.
-/

namespace TileBench

namespace ProductData

open Kernel (cell element_entry entry index_div index_lt index_mod productAt)

variable {n i j k : Nat} {a b : List Int32}

/-- The first terms of the sum that stands in row `i` and column `j` of a product. -/
def partialCell (n : Nat) (a b : List Int32) (i j terms : Nat) : Int32 :=
  (List.range terms).foldl (fun sum k => sum + entry n a.toArray i k * entry n b.toArray k j) 0

/-- How many terms have been added up at place `p`, when the rows before `i` are complete, and `k`
terms have been added up in row `i` and one more in its first `j` columns. -/
def termsAt (n i k j p : Nat) : Nat :=
  if p / n < i then n else if p / n = i then if p % n < j then k + 1 else k else 0

/-- The array while a product is accumulated. -/
def partialSums (n : Nat) (a b : List Int32) (i k j : Nat) : Vector Int32 (n * n) :=
  .ofFn fun p => partialCell n a b (p / n) (p % n) (termsAt n i k j p)

/-- The array depends only on how many terms have been added up at each place. -/
lemma partialSums_congr {i' k' j' : Nat}
    (same : ∀ p < n * n, termsAt n i k j p = termsAt n i' k' j' p) :
    partialSums n a b i k j = partialSums n a b i' k' j' := by
  unfold partialSums
  congr 1
  funext p
  rw [same p p.isLt]

/-- The next term of a sum is added to those before it. -/
lemma partialCell_succ (n : Nat) (a b : List Int32) (i j terms : Nat) :
    partialCell n a b i j (terms + 1) =
      entry n a.toArray i terms * entry n b.toArray terms j + partialCell n a b i j terms := by
  rw [partialCell, List.range_succ, List.foldl_append, Int32.add_comm]
  rfl

/-- One step of the innermost loop adds a term at one place. -/
lemma termsAt_succ {p : Nat} (elsewhere : i * n + j ≠ p) :
    termsAt n i k (j + 1) p = termsAt n i k j p := by
  have place : p / n * n + p % n = p := Nat.div_add_mod' p n
  unfold termsAt
  by_cases row : p / n = i
  · have column : p % n < j + 1 ↔ p % n < j := by
      rw [row] at place
      omega
    simp only [column]
  · rw [if_neg row, if_neg row]

/-- The innermost step adds the next term at one place, without an index outside an array. -/
lemma accumulateAt_partialSums (lengthB : b.length = n * n) (row : i < n) (term : k < n)
    (column : j < n) :
    accumulateAt n b.toArray i k (entry n a.toArray i k) (partialSums n a b i k j) j =
      .ok (partialSums n a b i k (j + 1)) := by
  have inside : i * n + j < n * n := index_lt row column
  have inRow : (i * n + j) / n = i := index_div column
  have inColumn : (i * n + j) % n = j := index_mod column
  have sum : (partialSums n a b i k j)[i * n + j] = partialCell n a b i j k := by
    simp [partialSums, termsAt, inRow, inColumn]
  rw [accumulateAt, element_entry lengthB term column, Kernel.readAt_eq inside, sum]
  refine (Kernel.writeAt_eq _ inside).trans (congrArg Except.ok ?_)
  rw [← partialCell_succ]
  ext p hp
  rw [Vector.getElem_set]
  by_cases here : i * n + j = p
  · subst here
    simp [partialSums, termsAt, inRow, inColumn]
  · simp [partialSums, here, termsAt_succ here]

/-- Taking one element of the left matrix adds a term in every column of its row. -/
lemma accumulateFrom_partialSums (lengthA : a.length = n * n)
    (lengthB : b.length = n * n) (row : i < n) (term : k < n) :
    accumulateFrom n a.toArray b.toArray i (partialSums n a b i k 0) k =
      .ok (partialSums n a b i (k + 1) 0) := by
  rw [accumulateFrom, element_entry lengthA row term]
  refine (foldlM_range_eq_ok (partialSums n a b i k) fun j column =>
    accumulateAt_partialSums lengthB row term column).trans ?_
  refine congrArg Except.ok (partialSums_congr fun p inside => ?_)
  have column : p % n < n := Nat.mod_lt p (Nat.lt_of_le_of_lt (Nat.zero_le i) row)
  simp [termsAt, column]

/-- Accumulated in place, a product comes to the sums of products. -/
lemma accumulate_eq (small : n * n < sizeLimit) (lengthA : a.length = n * n)
    (lengthB : b.length = n * n) :
    accumulate n a b = .ok ((List.range (n * n)).map (productAt n a b)) := by
  have zeros : Vector.replicate (n * n) 0 = partialSums n a b 0 0 0 := by
    ext p hp
    simp [partialSums, partialCell, termsAt]
  have row (i : Nat) (row : i < n) : (List.range n).foldlM (accumulateFrom n a.toArray b.toArray i)
      (partialSums n a b i 0 0) = .ok (partialSums n a b (i + 1) 0 0) := by
    refine (foldlM_range_eq_ok (partialSums n a b i · 0) fun k term =>
      accumulateFrom_partialSums lengthA lengthB row term).trans ?_
    -- The end of a row is the beginning of the next one.
    refine congrArg Except.ok (partialSums_congr fun p inside => ?_)
    unfold termsAt
    split_ifs <;> omega
  have rows : (List.range n).foldlM
      (fun sums i => (List.range n).foldlM (accumulateFrom n a.toArray b.toArray i) sums)
        (partialSums n a b 0 0 0) =
        .ok (partialSums n a b n 0 0) := foldlM_range_eq_ok (partialSums n a b · 0 0) row
  have whole : (partialSums n a b n 0 0).toList = (List.range (n * n)).map (productAt n a b) := by
    refine List.ext_getElem (by simp) fun p here there => ?_
    have row : p / n < n := Nat.div_lt_of_lt_mul (by simpa using here)
    simp [partialSums, termsAt, row, productAt, partialCell, cell]
  have cells : checkedMul n n = .ok (n * n) := if_pos small
  rw [accumulate, cells]
  rw [← zeros] at rows
  exact (congrArg (Except.map Vector.toList) rows).trans (congrArg Except.ok whole)

/-- The reference of a product is what it comes to when it is accumulated in place. -/
lemma Drawn.accumulated {d : ProductData} (drawn : d.Drawn n) (small : n * n < sizeLimit) :
    accumulate n d.a d.b = .ok d.reference := by
  rw [accumulate_eq small drawn.lengthA drawn.lengthB, drawn.reference]

/-- The reference of a product is what one core computes. -/
lemma Drawn.multiplied {d : ProductData} (drawn : d.Drawn n) (small : n * n < sizeLimit)
    {dest : List Int32} (length : dest.length = n * n) :
    Kernel.multiply n dest d.a d.b = .ok d.reference := by
  rw [Kernel.multiply_eq length drawn.lengthA drawn.lengthB small, length, drawn.reference]

end ProductData

section Vectors

variable {α : Type} {size : Nat}

/-- Operands of one length are combined. -/
lemma combine_eq (f : α → α → α) {dest xs ys : List α} (lengthX : xs.length = dest.length)
    (lengthY : ys.length = dest.length) :
    Kernel.combine f dest xs ys = .ok (List.zipWith f xs ys) :=
  if_pos ⟨lengthX, lengthY⟩

/-- The reference of a sum is what one core computes. -/
lemma SumData.Drawn.added {d : SumData} (drawn : d.Drawn size) {dest : List Int32}
    (length : dest.length = size) : Kernel.add dest d.src0 d.src1 = .ok d.reference := by
  rw [drawn.reference]
  exact combine_eq _ (drawn.length0.trans length.symm) (drawn.length1.trans length.symm)

/-- The reference of a list is what sorting gives. -/
lemma SortData.Drawn.sorted {d : SortData} (drawn : d.Drawn size) {dest : List Int32}
    (length : dest.length = size) : Kernel.sort dest d.src = .ok d.reference := by
  rw [Kernel.sort_eq, if_pos (length.trans drawn.length.symm), drawn.reference]

namespace DivisionData.Drawn

variable {d : DivisionData} (drawn : d.Drawn size)

include drawn

/-- No divisor is zero. -/
lemma ne_zero {y : UInt32} (mem : y ∈ d.src1) : y ≠ 0 := by
  rintro rfl
  exact absurd (drawn.divisors 0 mem).1 (by decide)

/-- No divisor is zero, so that functions which agree on all other divisors give the same. -/
lemma zipWith_congr {f g : UInt32 → UInt32 → UInt32} (same : ∀ x y, y ≠ 0 → f x y = g x y) :
    List.zipWith f d.src0 d.src1 = List.zipWith g d.src0 d.src1 :=
  List.zipWith_congr f g _ _ (List.forall₂_iff_zip.mpr
    ⟨drawn.length0.trans drawn.length1.symm, fun mem =>
      same _ _ (drawn.ne_zero (List.of_mem_zip mem).2)⟩)

section Kernels

variable {dest : List UInt32} (length : dest.length = size)

include length

/-- The quotients are what the kernel computes. -/
lemma divided : Kernel.divide dest d.src0 d.src1 = .ok d.quotients := by
  rw [drawn.quotients, ← drawn.zipWith_congr (f := Kernel.quotient) fun x y nonzero =>
    if_neg nonzero]
  exact combine_eq _ (drawn.length0.trans length.symm) (drawn.length1.trans length.symm)

/-- The remainders are what the kernel computes. -/
lemma remained : Kernel.remainders dest d.src0 d.src1 = .ok d.remainders := by
  rw [drawn.remainders, ← drawn.zipWith_congr (f := Kernel.remainder) fun x y nonzero =>
    if_neg nonzero]
  exact combine_eq _ (drawn.length0.trans length.symm) (drawn.length1.trans length.symm)

end Kernels

/-- Each quotient and remainder make up their dividend, without a wrap. -/
lemma euclid {i : Nat} {x y q r : UInt32} (dividend : d.src0[i]? = some x)
    (divisor : d.src1[i]? = some y) (quotient : d.quotients[i]? = some q)
    (remainder : d.remainders[i]? = some r) : q.toNat * y.toNat + r.toNat = x.toNat ∧ r < y := by
  rw [drawn.quotients, List.getElem?_zipWith, dividend, divisor] at quotient
  rw [drawn.remainders, List.getElem?_zipWith, dividend, divisor] at remainder
  obtain rfl := Option.some.inj quotient
  obtain rfl := Option.some.inj remainder
  refine ⟨?_, UInt32.mod_lt x ?_⟩
  · rw [UInt32.toNat_div, UInt32.toNat_mod, Nat.mul_comm]
    exact Nat.div_add_mod _ _
  · exact UInt32.pos_iff_ne_zero.mpr (drawn.ne_zero (List.mem_of_getElem? divisor))

end DivisionData.Drawn

end Vectors

/-- For every size and every seed, the datasets are drawn without a panic, their operands lie in
their ranges, and their references are what the kernels compute; that of a product also is what it
comes to when it is accumulated in place. -/
theorem references_of_generate (size n : Nat) (seed : UInt64) (small : n * n < sizeLimit) :
    (∃ d, SumData.generate size seed = .ok d ∧ d.Drawn size ∧
      ∀ dest, dest.length = size → Kernel.add dest d.src0 d.src1 = .ok d.reference) ∧
    (∃ d, ProductData.generate n seed = .ok d ∧ d.Drawn n ∧
      ProductData.accumulate n d.a d.b = .ok d.reference ∧
      ∀ dest, dest.length = n * n → Kernel.multiply n dest d.a d.b = .ok d.reference) ∧
    (∃ d, DivisionData.generate size seed = .ok d ∧ d.Drawn size ∧
      (∀ dest, dest.length = size → Kernel.divide dest d.src0 d.src1 = .ok d.quotients ∧
        Kernel.remainders dest d.src0 d.src1 = .ok d.remainders) ∧
      ∀ (i : Nat) (x y q r : UInt32), d.src0[i]? = some x → d.src1[i]? = some y →
        d.quotients[i]? = some q → d.remainders[i]? = some r →
        q.toNat * y.toNat + r.toNat = x.toNat ∧ r < y) ∧
    ∃ d, SortData.generate size seed = .ok d ∧ d.Drawn size ∧
      ∀ dest, dest.length = size → Kernel.sort dest d.src = .ok d.reference := by
  obtain ⟨sum, sumDrawn, sumHolds⟩ := SumData.exists_drawn size seed
  obtain ⟨product, productDrawn, productHolds⟩ := ProductData.exists_drawn small seed
  obtain ⟨division, divisionDrawn, divisionHolds⟩ := DivisionData.exists_drawn size seed
  obtain ⟨list, listDrawn, listHolds⟩ := SortData.exists_drawn size seed
  refine ⟨⟨sum, sumDrawn, sumHolds, fun dest length => sumHolds.added length⟩, ?_, ?_, ?_⟩
  · refine ⟨product, productDrawn, productHolds, productHolds.accumulated small,
      fun dest length => ?_⟩
    exact productHolds.multiplied small length
  · refine ⟨division, divisionDrawn, divisionHolds, fun dest length => ?_, ?_⟩
    · exact ⟨divisionHolds.divided length, divisionHolds.remained length⟩
    · intro i x y q r dividend divisor quotient remainder
      exact divisionHolds.euclid dividend divisor quotient remainder
  · exact ⟨list, listDrawn, listHolds, fun dest length => listHolds.sorted length⟩

/-- Two matrices with two rows, their product over a result that held something else, and a
division. -/
theorem references_of_generate_two : 2 * 2 < sizeLimit ∧
    ProductData.generate 2 42 = .ok ⟨2, [9, 3, 7, 7], [8, 3, 8, 1], [96, 30, 112, 28]⟩ ∧
    Kernel.multiply 2 [1, 1, 1, 1] [9, 3, 7, 7] [8, 3, 8, 1] = .ok [96, 30, 112, 28] ∧
    DivisionData.generate 1 42 = .ok ⟨[2440530669], [54], [45195012], [21]⟩ ∧
    Kernel.divide [7] [2440530669] [54] = .ok [45195012] := by
  obtain ⟨-, ⟨product, drawn, -, -, multiplied⟩, ⟨division, divided, -, kernels, -⟩, -⟩ :=
    references_of_generate 1 2 42 (by decide)
  have two : ProductData.generate 2 42 =
      .ok ⟨2, [9, 3, 7, 7], [8, 3, 8, 1], [96, 30, 112, 28]⟩ := rfl
  have one : DivisionData.generate 1 42 = .ok ⟨[2440530669], [54], [45195012], [21]⟩ := rfl
  obtain rfl := Except.ok.inj (two.symm.trans drawn)
  obtain rfl := Except.ok.inj (one.symm.trans divided)
  exact ⟨by decide, two, multiplied _ rfl, one, (kernels _ rfl).1⟩

end TileBench
