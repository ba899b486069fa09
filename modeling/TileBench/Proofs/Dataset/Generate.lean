import Mathlib.Tactic.Lemma
import TileBench.Dataset.Basic
import TileBench.Proofs.Kernel.Stores

/-!
# Datasets that are drawn

No dataset panics while it is drawn: `Generator.Gives` says what a draw gives in every state of the
generator. The operands have the size that was asked for and lie in their ranges, no divisor is
zero, and the product that is accumulated row by row is the matrix of the sums of products that the
kernels compute. Each dataset has a structure `Drawn` that says what it holds.
-/

namespace TileBench

namespace Generator

variable {α β : Type} {P : α → Prop} {Q : β → Prop}

/-- Whatever the state of the generator, a draw does not panic, and what it gives has a property. -/
def Gives (draw : Draw α) (P : α → Prop) : Prop :=
  ∀ g : Generator, ∃ x, (draw.run g).1 = .ok x ∧ P x

/-- What is given without a draw is given in every state. -/
lemma Gives.pure {x : α} (holds : P x) : Gives (Pure.pure x) P :=
  fun _ => ⟨x, rfl, holds⟩

/-- A draw is followed by one that may rely on what it gives. -/
lemma Gives.bind {draw : Draw α} {f : α → Draw β} (first : Gives draw P)
    (rest : ∀ x, P x → Gives (f x) Q) : Gives (draw >>= f) Q := by
  intro g
  obtain ⟨x, eq, holds⟩ := first g
  have next : (draw >>= f).run g = ExceptT.bindCont f (draw.run g).1 (draw.run g).2 := rfl
  rw [next, eq]
  exact rest x holds _

/-- From every seed a draw gives what it gives in every state. -/
lemma Gives.fromSeed {draw : Draw α} (gives : Gives draw P) (seed : UInt64) :
    ∃ x, fromSeed seed draw = .ok x ∧ P x :=
  gives ⟨seed⟩

/-- Drawing many times gives so many, each with the property. -/
lemma Gives.many {draw : Draw α} (gives : Gives draw P) (count : Nat) :
    Gives (many count draw) fun xs => xs.length = count ∧ ∀ x ∈ xs, P x := by
  -- What was drawn before has the property, too.
  have onto (drawn : List α) (held : ∀ x ∈ drawn, P x) : Gives (drawOnto draw count drawn)
      fun xs => xs.length = drawn.length + count ∧ ∀ x ∈ xs, P x := by
    induction count generalizing drawn with
    | zero => exact .pure ⟨by simp, by simpa using held⟩
    | succ count ih =>
      refine gives.bind fun x holds => ?_
      have rest := ih (x :: drawn) (List.forall_mem_cons.mpr ⟨holds, held⟩)
      rwa [List.length_cons, Nat.add_assoc, Nat.add_comm 1] at rest
  have all := onto [] nofun
  rwa [List.length_nil, Nat.zero_add] at all

/-- Drawing nothing for each element gives a function of it. -/
lemma Gives.mapM {f : α → Draw β} {g : α → β} {xs : List α}
    (each : ∀ x ∈ xs, Gives (f x) (· = g x)) : Gives (xs.mapM f) (· = xs.map g) := by
  induction xs with
  | nil => exact .pure rfl
  | cons x xs ih =>
    rw [List.mapM_cons]
    refine (each x List.mem_cons_self).bind fun y same => ?_
    refine (ih fun x mem => each x (List.mem_cons_of_mem _ mem)).bind fun ys sames => .pure ?_
    rw [same, sames, List.map_cons]

/-- Every state gives a word. -/
lemma gives_next : Gives next fun _ => True :=
  fun g => ⟨g.step.output, rfl, trivial⟩

/-- A bound that is not zero is a bound of what is drawn. -/
lemma gives_below {bound : UInt32} (positive : bound ≠ 0) : Gives (below bound) (· < bound) := by
  refine gives_next.bind fun w _ => ?_
  rw [if_neg positive]
  refine .pure (UInt32.mod_lt w ?_)
  exact UInt32.pos_iff_ne_zero.mpr positive

/-- A word of 31 bits is a natural number as an integer. -/
lemma toInt_toInt32 {w : UInt32} (narrow : w ≤ 0x7fffffff) : w.toInt32.toInt = w.toNat := by
  have half : 2 * w.toBitVec.toNat < 2 ^ 32 := by
    have bound := UInt32.le_iff_toNat_le.mp narrow
    simp only [UInt32.reduceToNat, UInt32.toNat_toBitVec] at bound ⊢
    omega
  exact BitVec.toInt_eq_toNat_of_lt half

/-- An integer is drawn from zero up to its bound. -/
lemma gives_small {bound : UInt32} (positive : bound ≠ 0) (narrow : bound ≤ 0x7fffffff) :
    Gives (small bound) fun x => 0 ≤ x ∧ x < bound.toInt32 := by
  have cut : min bound 0x7fffffff = bound := if_pos narrow
  unfold small
  rw [cut]
  refine (gives_below positive).bind fun w below => .pure ?_
  rw [Int32.le_iff_toInt_le, Int32.lt_iff_toInt_lt, toInt_toInt32 narrow,
    toInt_toInt32 (UInt32.le_trans (UInt32.le_of_lt below) narrow)]
  exact ⟨Int.natCast_nonneg _, Int.ofNat_lt.mpr (UInt32.lt_iff_toNat_lt.mp below)⟩

end Generator

open Generator

/-! ## The datasets -/

/-- Elements from zero up to, but not including, a bound. -/
def Within (bound : Int32) (xs : List Int32) : Prop :=
  ∀ x ∈ xs, 0 ≤ x ∧ x < bound

/-- Two vectors of a size and their sum. -/
structure SumData.Drawn (size : Nat) (d : SumData) : Prop where
  length0 : d.src0.length = size
  length1 : d.src1.length = size
  within0 : Within 100 d.src0
  within1 : Within 100 d.src1
  reference : d.reference = List.zipWith (· + ·) d.src0 d.src1

/-- Two vectors of any size are drawn from every seed. -/
lemma SumData.exists_drawn (size : Nat) (seed : UInt64) :
    ∃ d, SumData.generate size seed = .ok d ∧ d.Drawn size := by
  refine Gives.fromSeed ?_ seed
  have element : Gives (small 100) fun x => 0 ≤ x ∧ x < 100 := gives_small (by decide) (by decide)
  refine (element.many size).bind fun src0 first =>
    (element.many size).bind fun src1 second => .pure ?_
  exact ⟨first.1, second.1, first.2, second.2, rfl⟩

/-- A list of a size in ascending order. -/
structure SortData.Drawn (size : Nat) (d : SortData) : Prop where
  length : d.src.length = size
  within : Within 1000 d.src
  reference : d.reference = d.src.mergeSort fun x y => decide (x ≤ y)

/-- A list of any size is drawn from every seed. -/
lemma SortData.exists_drawn (size : Nat) (seed : UInt64) :
    ∃ d, SortData.generate size seed = .ok d ∧ d.Drawn size := by
  refine Gives.fromSeed ?_ seed
  have element : Gives (small 1000) fun x => 0 ≤ x ∧ x < 1000 := gives_small (by decide) (by decide)
  exact (element.many size).bind fun src drawn => .pure ⟨drawn.1, drawn.2, rfl⟩

/-- Dividends and divisors, none of them zero, with what division gives. -/
structure DivisionData.Drawn (size : Nat) (d : DivisionData) : Prop where
  length0 : d.src0.length = size
  length1 : d.src1.length = size
  divisors : ∀ y ∈ d.src1, 1 ≤ y ∧ y ≤ 1000
  quotients : d.quotients = List.zipWith (· / ·) d.src0 d.src1
  remainders : d.remainders = List.zipWith (· % ·) d.src0 d.src1

/-- Dividends and divisors of any size are drawn from every seed; no division by zero panics. -/
lemma DivisionData.exists_drawn (size : Nat) (seed : UInt64) :
    ∃ d, DivisionData.generate size seed = .ok d ∧ d.Drawn size := by
  refine Gives.fromSeed ?_ seed
  have divisor : Gives (do return (← below 1000) + 1) fun y => 1 ≤ y ∧ y ≤ 1000 := by
    refine (gives_below (by decide)).bind fun y below => .pure ?_
    simp only [UInt32.le_iff_toNat_le, UInt32.lt_iff_toNat_lt, UInt32.toNat_add, UInt32.reduceToNat]
      at below ⊢
    omega
  refine (gives_next.many size).bind fun src0 first =>
    (divisor.many size).bind fun src1 second => ?_
  have positive {p : UInt32 × UInt32} (mem : p ∈ src0.zip src1) : p.2 ≠ 0 := by
    have least := (second.2 p.2 (List.of_mem_zip mem).2).1
    rintro zero
    exact absurd (zero ▸ least) (by decide)
  have divide : Gives ((src0.zip src1).mapM fun p => generate.liftExcept (quotient p.1 p.2)) _ :=
    Gives.mapM (g := fun p => p.1 / p.2) fun p mem _ => ⟨_, if_neg (positive mem), rfl⟩
  have remain : Gives ((src0.zip src1).mapM fun p => generate.liftExcept (remainder p.1 p.2)) _ :=
    Gives.mapM (g := fun p => p.1 % p.2) fun p mem _ => ⟨_, if_neg (positive mem), rfl⟩
  refine divide.bind fun quotients div => remain.bind fun remainders rem => .pure ?_
  refine ⟨first.1, second.1, second.2, ?_, ?_⟩
  · rw [div, List.zip_eq_zipWith, List.map_zipWith]
  · rw [rem, List.zip_eq_zipWith, List.map_zipWith]

namespace ProductData

open Kernel (entry cell productAt map_rows)

variable {n : Nat}

/-- The rows of a matrix, each with all its elements. -/
lemma rows_eq {m : List Int32} (length : m.length = n * n) :
    rows n m = (List.range n).map fun i => (List.range n).map (entry n m.toArray i) := by
  have cut (start count : Nat) : Partition.pieces (List.replicate count n) (m.drop (start * n)) =
      (List.range' start count).map fun i => (m.drop (i * n)).take n := by
    induction count generalizing start with
    | zero => rfl
    | succ count ih =>
      rw [List.replicate_succ, Partition.pieces, List.drop_drop, ← Nat.succ_mul, ih,
        List.range'_succ, List.map_cons]
  have all := cut 0 n
  rw [Nat.zero_mul, List.drop_zero, ← List.range_eq_range'] at all
  rw [rows, all]
  refine List.map_congr_left fun i mem => ?_
  have last : i * n + n ≤ m.length := by
    rw [length, ← Nat.succ_mul]
    exact Nat.mul_le_mul_right n (List.mem_range.mp mem)
  refine List.ext_getElem (by simp; omega) fun j here there => ?_
  have below : i * n + j < m.length := by
    simp at there
    omega
  simp [entry, below]

/-- Rows that are accumulated add up in each column by itself. -/
lemma foldl_addMultiple (f : Nat → Int32) (xs : List (Int32 × (Nat → Int32))) :
    (xs.map fun p => (p.1, (List.range n).map p.2)).foldl (fun sums (x, y) => addMultiple sums x y)
        ((List.range n).map f) =
      (List.range n).map fun j => xs.foldl (fun sum p => sum + p.1 * p.2 j) (f j) := by
  induction xs generalizing f with
  | nil => rfl
  | cons p xs ih =>
    have step : addMultiple ((List.range n).map f) p.1 ((List.range n).map p.2) =
        (List.range n).map fun j => f j + p.1 * p.2 j := by
      rw [addMultiple, List.zipWith_map, List.zipWith_self]
      exact List.map_congr_left fun j _ => Int32.add_comm _ _
    rw [List.map_cons, List.foldl_cons]
    dsimp only
    rw [step, ih]
    rfl

/-- A row of the product holds the sums of products of its row of the left matrix. -/
lemma productRow_eq {b : List Int32} (a : Array Int32) (length : b.length = n * n) (i : Nat) :
    productRow n (rows n b) ((List.range n).map (entry n a i)) =
      (List.range n).map (cell n a b.toArray i) := by
  have zeros : List.replicate n (0 : Int32) = (List.range n).map fun _ => 0 := by simp
  have zipped : ((List.range n).map (entry n a i)).zip (rows n b) =
      ((List.range n).map fun k => (entry n a i k, entry n b.toArray k)).map
        fun p => (p.1, (List.range n).map p.2) := by
    rw [rows_eq length, List.zip_map', List.map_map]
    rfl
  rw [productRow, zipped, zeros, foldl_addMultiple]
  simp only [List.foldl_map]
  rfl

/-- Two matrices and their product. -/
structure Drawn (n : Nat) (d : ProductData) : Prop where
  size : d.size = n
  lengthA : d.a.length = n * n
  lengthB : d.b.length = n * n
  withinA : Within 10 d.a
  withinB : Within 10 d.b
  reference : d.reference = (List.range (n * n)).map (productAt n d.a d.b)

/-- Two matrices are drawn from every seed if their elements can be counted. -/
lemma exists_drawn (small : n * n < sizeLimit) (seed : UInt64) :
    ∃ d, generate n seed = .ok d ∧ d.Drawn n := by
  unfold generate checkedMul
  rw [if_pos small]
  refine Gives.fromSeed ?_ seed
  have element : Gives (Generator.small 10) fun x => 0 ≤ x ∧ x < 10 :=
    gives_small (by decide) (by decide)
  refine (element.many _).bind fun a first => (element.many _).bind fun b second => .pure ?_
  refine ⟨rfl, first.1, second.1, first.2, second.2, ?_⟩
  have cells := map_rows (n := n) (cell n a.toArray b.toArray) 0 n
  rw [Nat.zero_mul, ← List.range_eq_range', ← List.range_eq_range'] at cells
  dsimp only
  rw [rows_eq first.1, List.flatMap_map]
  simp only [productRow_eq _ second.1]
  exact cells.symm

end ProductData

end TileBench
