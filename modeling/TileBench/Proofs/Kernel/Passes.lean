import Mathlib.Data.Finset.Card
import Mathlib.Data.Int.CardIntervalMod
import TileBench.Proofs.Kernel.Shell

/-!
# What a pass leaves in order

A pass moves elements by whole gaps only, so that it changes nothing about how many elements of a
column, the positions that are whole gaps apart, are at most some bound. In the sorted columns that
the pass leaves, this count alone says which elements those are: `GapSorted.lt_card_column` and
`GapSorted.card_column_le`. Elements that were in order with any other gap before the pass therefore
are in order with it afterwards, which is `pass_keeps_gapSorted`. The array that enters a pass of
Shell's sort is sorted with all gaps before it at once.
-/

namespace TileBench.Kernel

variable {n gap i j k : Nat} {x : Int32} {v : Vector Int32 n}

/-! ## Columns -/

/-- The positions before `stop` that are whole gaps from `k`. -/
def columnBefore (n gap k stop : Nat) : Finset (Fin n) :=
  {j | j.val ≡ k [MOD gap] ∧ j.val < stop}

/-- The positions that are whole gaps from `k` and whose elements are at most `x`. -/
def column (gap k : Nat) (x : Int32) (v : Vector Int32 n) : Finset (Fin n) :=
  {j | j.val ≡ k [MOD gap] ∧ v[j] ≤ x}

/-- The positions of a column before a bound are as many as numbers there. -/
lemma card_columnBefore {stop : Nat} (inside : stop ≤ n) :
    (columnBefore n gap k stop).card = stop.count (· ≡ k [MOD gap]) := by
  rw [Nat.count_eq_card_filter_range, ← Finset.card_map Fin.valEmbedding]
  congr 1
  ext j
  simp only [columnBefore, Finset.mem_map, Finset.mem_filter, Finset.mem_univ, true_and,
    Finset.mem_range, Fin.valEmbedding_apply]
  constructor
  · rintro ⟨j, ⟨same, before⟩, rfl⟩
    exact ⟨before, same⟩
  · rintro ⟨before, same⟩
    exact ⟨⟨j, Nat.lt_of_lt_of_le before inside⟩, ⟨same, before⟩, rfl⟩

/-- Below position `k` its column has `k / gap` positions. -/
lemma count_column_self (hg : 0 < gap) (k : Nat) : k.count (· ≡ k [MOD gap]) = k / gap := by
  rw [Nat.count_modEq_card _ hg, if_neg (Nat.lt_irrefl _), Nat.add_zero]

/-- A column loses as many positions by a step down as it has before that step. -/
lemma count_column_add (hg : 0 < gap) (h k : Nat) :
    h.count (· ≡ h + k [MOD gap]) + k / gap = (h + k) / gap := by
  rw [← count_column_self hg (h + k), Nat.count_add, ← count_column_self hg k]
  congr 2
  funext j
  exact propext (Nat.ModEq.add_iff_left rfl).symm

/-! ## What a pass does not change -/

/-- A swap moves no element to another column. -/
lemma swap_modEq (hi : i < n) (hj : j < n) (same : i ≡ j [MOD gap]) (p : Fin n) :
    (Equiv.swap ⟨i, hi⟩ ⟨j, hj⟩ p).val ≡ p [MOD gap] := by
  by_cases first : p = ⟨i, hi⟩
  · rw [first, Equiv.swap_apply_left]
    exact same.symm
  · by_cases second : p = ⟨j, hj⟩
    · rw [second, Equiv.swap_apply_right]
      exact same
    · rw [Equiv.swap_apply_of_ne_of_ne first second]

/-- What stands at a place after a swap stood at the other place before. -/
lemma getElem_swap_eq (v : Vector Int32 n) (hi : i < n) (hj : j < n) (p : Fin n) :
    (v.swap i j)[p] = v[Equiv.swap ⟨i, hi⟩ ⟨j, hj⟩ p] := by
  simp only [Fin.getElem_fin, Vector.getElem_swap, Equiv.swap_apply_def, Fin.ext_iff]
  split_ifs <;> rfl

/-- A swap within a column leaves the number of its small elements. -/
lemma card_column_swap (hi : i < n) (hj : j < n) (same : i ≡ j [MOD gap]) :
    (column gap k x (v.swap i j)).card = (column gap k x v).card := by
  refine Finset.card_equiv (Equiv.swap ⟨i, hi⟩ ⟨j, hj⟩) fun p => ?_
  have inColumn : (Equiv.swap ⟨i, hi⟩ ⟨j, hj⟩ p).val ≡ k [MOD gap] ↔ p ≡ k [MOD gap] :=
    ⟨(swap_modEq hi hj same p).symm.trans, (swap_modEq hi hj same p).trans⟩
  simp only [column, Finset.mem_filter, Finset.mem_univ, true_and,
    getElem_swap_eq v hi hj, inColumn]

/-- Sifting leaves the number of small elements of every column. -/
lemma card_column_sift (hg : 0 < gap) (v : Vector Int32 n) (hi : i < n) :
    (column gap k x (sift gap hg v i hi)).card = (column gap k x v).card := by
  fun_induction sift gap hg v i hi with
  | case1 v i hi above larger ih =>
    rw [ih]
    exact card_column_swap hi _ ((Nat.modEq_sub_modulus_iff above).mpr rfl)
  | case2 => rfl
  | case3 => rfl

/-- The first steps of a pass leave the number of small elements of every column. -/
lemma card_column_sifted (hg : 0 < gap) (v : Vector Int32 n) {m : Nat} (hm : m ≤ n) :
    (column gap k x (sifted gap hg v m hm)).card = (column gap k x v).card := by
  induction m with
  | zero => rfl
  | succ m ih =>
    rw [sifted_succ, card_column_sift]
    exact ih (Nat.le_of_lt hm)

/-! ## Sorted columns -/

section Sorted

variable (hg : 0 < gap) (sorted : GapSorted gap n v)

include hg sorted

/-- The elements of a column ascend. -/
lemma GapSorted.le (below : j ≤ k) (same : j ≡ k [MOD gap]) (hk : k < n) : v[j] ≤ v[k] := by
  induction k using Nat.strongRecOn with
  | ind k ih =>
    by_cases here : j = k
    · subst here
      exact Int32.le_refl _
    · have apart : j + gap ≤ k := same.add_le_of_lt (Nat.lt_of_le_of_ne below here)
      have above : gap ≤ k := Nat.le_of_add_left_le apart
      have down : v[j] ≤ v[k - gap] :=
        ih (k - gap) (by omega) (by omega) ((Nat.modEq_sub_modulus_iff above).mpr same) (by omega)
      exact Int32.le_trans down (sorted k hk above hk)

/-- In a sorted column there are more small elements than lie below one of them. -/
lemma GapSorted.lt_card_column (hk : k < n) (bounded : v[k] ≤ x) :
    k / gap < (column gap k x v).card := by
  have upTo : columnBefore n gap k (k + 1) ⊆ column gap k x v := by
    intro j mem
    simp only [columnBefore, column, Finset.mem_filter, Finset.mem_univ, true_and] at mem ⊢
    exact ⟨mem.1, Int32.le_trans (sorted.le hg (Nat.le_of_lt_succ mem.2) mem.1 hk) bounded⟩
  have counted : (columnBefore n gap k (k + 1)).card = k / gap + 1 := by
    rw [card_columnBefore hk, Nat.count_succ, count_column_self hg, if_pos (Nat.ModEq.refl k)]
  have := Finset.card_le_card upTo
  omega

/-- In a sorted column no more small elements than lie below an element that is not small. -/
lemma GapSorted.card_column_le (hk : k < n) (larger : x < v[k]) :
    (column gap k x v).card ≤ k / gap := by
  have before : column gap k x v ⊆ columnBefore n gap k k := by
    intro j mem
    simp only [columnBefore, column, Finset.mem_filter, Finset.mem_univ, true_and] at mem ⊢
    refine ⟨mem.1, Nat.lt_of_not_le fun above => ?_⟩
    have up : v[k] ≤ v[j] := sorted.le hg above mem.1.symm j.isLt
    exact Int32.not_lt.mpr (Int32.le_trans up mem.2) larger
  have := Finset.card_le_card before
  rwa [card_columnBefore (Nat.le_of_lt hk), count_column_self hg] at this

end Sorted

/-! ## Passes with other gaps -/

section Other

variable {h : Nat}

/-- Where elements are in order with a gap, a column has at most as many of the small elements as
the column that far below it, apart from those that have nothing that far below them. -/
lemma card_column_le_add (sorted : GapSorted h n v) (inside : h + k < n) :
    (column gap (h + k) x v).card ≤ h.count (· ≡ h + k [MOD gap]) + (column gap k x v).card := by
  -- An element of the column has nothing `h` below it, or lies `h` above an element of the other.
  have split : column gap (h + k) x v ⊆ columnBefore n gap (h + k) h ∪
      {j ∈ column gap (h + k) x v | h ≤ j.val} := by
    intro j mem
    rcases Nat.lt_or_ge j.val h with low | high
    · exact Finset.mem_union_left _ (by simp_all [columnBefore, column])
    · exact Finset.mem_union_right _ (Finset.mem_filter.mpr ⟨mem, high⟩)
  -- That element is no larger, so that a step down by `h` leads into the other column.
  have down : ({j ∈ column gap (h + k) x v | h ≤ j.val} : Finset (Fin n)).card ≤
      (column gap k x v).card := by
    refine Finset.card_le_card_of_injOn
      (fun j => ⟨j - h, Nat.lt_of_le_of_lt (Nat.sub_le _ _) j.isLt⟩) ?_ ?_
    · intro j mem
      simp only [column, Finset.coe_filter, Finset.mem_filter, Finset.mem_univ, true_and,
        Set.mem_ofPred_eq] at mem ⊢
      obtain ⟨⟨same, bounded⟩, high⟩ := mem
      have lower : v[j.val - h] ≤ v[j.val] := sorted j.val j.isLt high j.isLt
      refine ⟨?_, Int32.le_trans lower bounded⟩
      rw [← Nat.add_sub_cancel' high] at same
      exact Nat.ModEq.add_left_cancel' h same
    · intro i memI j memJ same
      have highI : h ≤ i.val := (Finset.mem_filter.mp memI).2
      have highJ : h ≤ j.val := (Finset.mem_filter.mp memJ).2
      simp only [Fin.mk.injEq] at same
      exact Fin.ext (by omega)
  calc (column gap (h + k) x v).card
    _ ≤ _ := Finset.card_le_card split
    _ ≤ _ := Finset.card_union_le _ _
    _ ≤ _ := Nat.add_le_add (card_columnBefore (by omega)).le down

/-- A pass leaves in order what was in order with any other gap. -/
lemma pass_keeps_gapSorted (hg : 0 < gap) (sorted : GapSorted h n v) :
    GapSorted h n (pass gap hg v) := by
  intro k hk above _
  have passed := pass_gapSorted hg v
  have same (k : Nat) (x : Int32) :
      (column gap k x (pass gap hg v)).card = (column gap k x v).card :=
    card_column_sifted hg v (Nat.le_refl n)
  refine Int32.not_lt.mp fun larger => ?_
  have many := passed.lt_card_column hg hk (Int32.le_refl _)
  have few := passed.card_column_le hg _ larger
  rw [same] at many few
  have apart : (column gap (h + (k - h)) (pass gap hg v)[k] v).card ≤
      h.count (· ≡ h + (k - h) [MOD gap]) + (column gap (k - h) (pass gap hg v)[k] v).card :=
    card_column_le_add sorted (by omega)
  have places := count_column_add hg h (k - h)
  rw [Nat.add_sub_cancel' above] at apart places
  omega

/-- Any number of passes leave in order what was in order with some gap. -/
lemma passes_keeps_gapSorted (gs : List Nat) (sorted : GapSorted h n v) :
    GapSorted h n (passes gs v) := by
  induction gs generalizing v with
  | nil => exact sorted
  | cons gap gs ih =>
    rw [passes_cons]
    split
    next passed => exact ih (pass_keeps_gapSorted passed.1 sorted)
    next => exact ih sorted

/-- After some passes the array is sorted with all of their gaps at once. -/
lemma passes_gapSorted {gs : List Nat} (positive : ∀ gap ∈ gs, 0 < gap) (mem : h ∈ gs)
    (v : Vector Int32 n) : GapSorted h n (passes gs v) := by
  induction gs generalizing v with
  | nil => cases mem
  | cons gap gs ih =>
    rw [passes_cons]
    rcases List.mem_cons.mp mem with rfl | later
    · refine passes_keeps_gapSorted gs ?_
      split
      next passed => exact pass_gapSorted passed.1 v
      next short =>
        -- The pass is left out, and no two positions are that far apart.
        have positive := positive h List.mem_cons_self
        exact fun k hk above _ => absurd ⟨positive, Nat.lt_of_le_of_lt above hk⟩ short
    · exact ih (fun gap mem => positive gap (List.mem_cons_of_mem _ mem)) later _

end Other

/-! ## The sort -/

/-- An array that the sort has come to by some of its passes, and from which the others lead to the
result. -/
structure Midway (dest xs : List Int32) (before after : List Nat)
    (w : Vector Int32 xs.toArray.size) : Prop where
  reached : insertPasses before xs.toArray.toVector = .ok w
  rest : sortInPlace dest xs = (insertPasses after w).map Vector.toList

/-- The array after the first passes is midway to the result. -/
lemma midway_passes {dest xs : List Int32} {before after : List Nat}
    (length : dest.length = xs.length) (place : gaps = before ++ after) :
    Midway dest xs before after (passes before xs.toArray.toVector) where
  reached := insertPasses_eq ..
  rest := by
    rw [sortInPlace, if_pos length, insertPasses_eq, insertPasses_eq, place, passes,
      List.foldl_append]
    rfl

/-- After each pass of the sort the array is sorted with the gap of that pass, and still with those
of all passes before it. The last pass, which has gap one, therefore meets an array that is sorted
with the gaps 40, 13 and 4. -/
theorem gapSorted_of_passes (dest xs : List Int32) (length : dest.length = xs.length) :
    (∀ before gap after, gaps = before ++ gap :: after →
      ∃ w, Midway dest xs (before ++ [gap]) after w ∧
        GapSorted gap xs.length w ∧ ∀ larger ∈ before, GapSorted larger xs.length w) ∧
    ∃ w, Midway dest xs [40, 13, 4] [1] w ∧
      GapSorted 40 xs.length w ∧ GapSorted 13 xs.length w ∧ GapSorted 4 xs.length w := by
  have sorted {before after : List Nat} (place : gaps = before ++ after) {gap : Nat}
      (mem : gap ∈ before) :
      GapSorted gap xs.length (passes before xs.toArray.toVector) := by
    have positive : ∀ gap ∈ gaps, 0 < gap := by decide
    exact passes_gapSorted
      (fun gap mem => positive gap (place ▸ List.mem_append_left after mem)) mem _
  constructor
  · intro before gap after place
    rw [List.append_cons] at place
    refine ⟨_, midway_passes length place, sorted place ?_, fun larger mem => sorted place ?_⟩
    · exact List.mem_append_right before List.mem_cons_self
    · exact List.mem_append_left _ mem
  · have place : gaps = [40, 13, 4] ++ [1] := rfl
    exact ⟨_, midway_passes length place, sorted place (by decide), sorted place (by decide),
      sorted place (by decide)⟩

/-- A descending list after the pass with gap four, which has left in order what the pass with gap
thirteen did. -/
theorem gapSorted_of_passes_descending : gaps = [40, 13] ++ 4 :: [1] ∧ ∃ w,
    Midway (List.replicate 15 0) [14, 13, 12, 11, 10, 9, 8, 7, 6, 5, 4, 3, 2, 1, 0]
      [40, 13, 4] [1] w ∧
    w.toList = [1, 0, 4, 3, 2, 5, 8, 7, 6, 9, 12, 11, 10, 14, 13] ∧
    GapSorted 4 15 w ∧ ∀ larger ∈ [40, 13], GapSorted larger 15 w := by
  obtain ⟨w, midway, sorted, larger⟩ := (gapSorted_of_passes (List.replicate 15 0)
    [14, 13, 12, 11, 10, 9, 8, 7, 6, 5, 4, 3, 2, 1, 0] rfl).1 [40, 13] 4 [1] rfl
  refine ⟨rfl, w, midway, ?_, sorted, larger⟩
  have reached : (insertPasses [40, 13, 4]
      [14, 13, 12, 11, 10, 9, 8, 7, 6, 5, 4, 3, 2, 1, 0].toArray.toVector).map Vector.toList =
      .ok [1, 0, 4, 3, 2, 5, 8, 7, 6, 9, 12, 11, 10, 14, 13] := by decide +kernel
  exact Except.ok.inj ((congrArg (Except.map Vector.toList) midway.reached).symm.trans reached)

end TileBench.Kernel
