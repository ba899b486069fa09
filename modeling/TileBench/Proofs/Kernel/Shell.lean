import Mathlib.Data.List.Chain
import Mathlib.Tactic.Lemma
import TileBench.Kernel.Shell

/-!
# Shell's sort is a sort

A pass only swaps elements, and afterwards no element is smaller than the one a gap below it:
`GapSorted`. While an element is sifted, `Sifting` says that it alone may be out of place and that
the elements a gap above and below it are in order. The last pass has gap one, so that the result is
in ascending order, and `sortInPlace_eq` shows that the sort with a hole gives the same result
without an index outside the array.
-/

namespace TileBench.Kernel

variable {n gap i j stop : Nat} {v : Vector Int32 n}

/-- No element before `stop` is smaller than the one a gap below it. -/
def GapSorted (gap stop : Nat) (v : Vector Int32 n) : Prop :=
  ∀ (k : Nat) (h : k < n), gap ≤ k → k < stop → v[k - gap] ≤ v[k]

/-- The element at `j` is on its way down: it may be smaller than the one a gap below it, but the
elements around it are in order. -/
structure Sifting (gap stop j : Nat) (v : Vector Int32 n) : Prop where
  others : ∀ (k : Nat) (h : k < n), gap ≤ k → k < stop → k ≠ j → v[k - gap] ≤ v[k]
  across : ∀ h : j + gap < n, gap ≤ j → j + gap < stop → v[j - gap] ≤ v[j + gap]

/-! ## One element -/

/-- Sifting only swaps elements. -/
lemma sift_perm (hg : 0 < gap) (v : Vector Int32 n) (hi : i < n) : (sift gap hg v i hi).Perm v := by
  fun_induction sift gap hg v i hi with
  | case1 v i hi inside larger ih => exact ih.trans (Vector.swap_perm _ _)
  | case2 => exact .rfl
  | case3 => exact .rfl

/-- Once the element is not smaller than the one a gap below it, all are in order. -/
lemma Sifting.done (sifting : Sifting gap stop j v) (inside : j < n)
    (rests : gap ≤ j → v[j - gap] ≤ v[j]) : GapSorted gap stop v := by
  intro k hk above before
  by_cases here : k = j
  · subst here
    exact rests above
  · exact sifting.others k hk above before here

/-- A swap moves the element down by the gap, and it is still the only one out of place. -/
lemma Sifting.swap (sifting : Sifting gap stop j v) (hg : 0 < gap) (inside : j < n)
    (above : gap ≤ j) (before : j < stop) (larger : v[j] < v[j - gap]) :
    Sifting gap stop (j - gap) (v.swap j (j - gap)) := by
  have down : (v.swap j (j - gap))[j - gap] = v[j] := Vector.getElem_swap_right _ _
  have up : (v.swap j (j - gap))[j] = v[j - gap] := Vector.getElem_swap_left _ _
  have rest {k : Nat} (hk : k < n) (off : k ≠ j ∧ k ≠ j - gap) : (v.swap j (j - gap))[k] = v[k] :=
    Vector.getElem_swap_of_ne off.1 off.2
  constructor
  · intro k hk high below off
    by_cases here : k = j
    · subst here
      rw [down, up]
      exact Int32.le_of_lt larger
    · by_cases next : k = j + gap
      · subst next
        simp only [Nat.add_sub_cancel, up]
        rw [rest hk ⟨by omega, by omega⟩]
        exact sifting.across hk above below
      · rw [rest (by omega) ⟨by omega, by omega⟩, rest hk ⟨here, off⟩]
        exact sifting.others k hk high below here
  · intro hk high below
    simp only [Nat.sub_add_cancel above, up]
    rw [rest (by omega) ⟨by omega, by omega⟩]
    exact sifting.others (j - gap) (by omega) high (by omega) (by omega)

/-- Sifting puts the one element that may be out of place where it belongs. -/
lemma Sifting.sift (sifting : Sifting gap stop i v) (hg : 0 < gap) (hi : i < n)
    (before : i < stop) : GapSorted gap stop (sift gap hg v i hi) := by
  fun_induction Kernel.sift gap hg v i hi with
  | case1 v i hi above larger ih => exact ih (sifting.swap hg hi above before larger) (by omega)
  | case2 v i hi above small => exact sifting.done hi fun _ => Int32.not_lt.mp small
  | case3 v i hi below => exact sifting.done hi fun above => absurd above below

/-! ## One pass -/

/-- The first steps of a pass. -/
def sifted (gap : Nat) (hg : 0 < gap) (v : Vector Int32 n) (m : Nat) (hm : m ≤ n) :
    Vector Int32 n :=
  m.fold (fun i hi v => sift gap hg v i (Nat.lt_of_lt_of_le hi hm)) v

section Pass

variable {m : Nat} (hg : 0 < gap) (v : Vector Int32 n)

/-- The next step of a pass sifts the next element. -/
lemma sifted_succ (hm : m < n) :
    sifted gap hg v (m + 1) hm = sift gap hg (sifted gap hg v m (Nat.le_of_lt hm)) m hm :=
  Nat.fold_succ ..

/-- The first steps of a pass only swap elements. -/
lemma sifted_perm (hm : m ≤ n) : (sifted gap hg v m hm).Perm v := by
  induction m with
  | zero => exact .rfl
  | succ m ih =>
    rw [sifted_succ]
    exact (sift_perm hg _ hm).trans (ih (Nat.le_of_lt hm))

/-- The first steps of a pass put the elements that they have sifted in order. -/
lemma sifted_gapSorted (hm : m ≤ n) : GapSorted gap m (sifted gap hg v m hm) := by
  induction m with
  | zero => exact fun k _ _ before => absurd before (Nat.not_lt_zero k)
  | succ m ih =>
    have sorted := ih (Nat.le_of_lt hm)
    -- Behind the next element nothing has been sifted yet.
    have sifting : Sifting gap (m + 1) m (sifted gap hg v m (Nat.le_of_lt hm)) :=
      ⟨fun k hk above _ _ => sorted k hk above (by omega),
        fun _ _ before => absurd before (by omega)⟩
    rw [sifted_succ]
    exact sifting.sift hg hm (Nat.lt_succ_self m)

/-- A pass only swaps elements. -/
lemma pass_perm : (pass gap hg v).Perm v :=
  sifted_perm hg v (Nat.le_refl n)

/-- After a pass the elements a gap apart are in order. -/
lemma pass_gapSorted : GapSorted gap n (pass gap hg v) :=
  sifted_gapSorted hg v (Nat.le_refl n)

end Pass

/-- What is in order with gap one ascends. -/
lemma GapSorted.pairwise (sorted : GapSorted 1 n v) : v.toList.Pairwise (· ≤ ·) := by
  refine List.isChain_iff_pairwise.mp (List.isChain_iff_getElem.mpr fun k inside => ?_)
  rw [Vector.length_toList] at inside
  exact sorted (k + 1) inside (Nat.le_add_left 1 k) inside

/-! ## All passes -/

/-- The passes begin with that of the first gap, unless no two positions are so far apart. -/
lemma passes_cons (gs : List Nat) (v : Vector Int32 n) :
    passes (gap :: gs) v = passes gs (if h : 0 < gap ∧ gap < n then pass gap h.1 v else v) :=
  List.foldl_cons ..

/-- All passes together only swap elements. -/
lemma passes_perm (gs : List Nat) (v : Vector Int32 n) : (passes gs v).Perm v := by
  induction gs generalizing v with
  | nil => exact .rfl
  | cons gap gs ih =>
    rw [passes_cons]
    refine (ih _).trans ?_
    split
    · exact pass_perm _ v
    · exact .rfl

/-- The last pass has gap one; it is left out only where there are no two elements. -/
lemma passes_gaps_gapSorted (v : Vector Int32 n) : GapSorted 1 n (passes gaps v) := by
  have last : passes gaps v =
      if h : 0 < 1 ∧ 1 < n then pass 1 h.1 (passes [40, 13, 4] v) else passes [40, 13, 4] v := rfl
  rw [last]
  split
  · exact pass_gapSorted _ _
  · intro k inside above _
    omega

/-! ## The hole -/

section Hole

variable (hg : 0 < gap) (x : Int32)

/-- Inside the array there is an element to be read. -/
lemma readAt_eq (inside : i < n) : readAt v i = .ok v[i] :=
  dif_pos inside

/-- Inside the array there is a place to be written. -/
lemma writeAt_eq (inside : i < n) : writeAt v i x = .ok (v.set i x) :=
  dif_pos inside

/-- The hole goes down by the gap if the element there is larger. -/
lemma sink_of_le (above : gap ≤ j) (inside : j < n) : sink gap hg x v j =
    if v[j - gap] > x then sink gap hg x (v.set j v[j - gap]) (j - gap) else .ok (j, v) := by
  have down : checkedSub j gap = .ok (j - gap) := if_pos above
  have low : j - gap < n := Nat.lt_of_le_of_lt (Nat.sub_le j gap) inside
  rw [sink, if_pos above]
  split
  next p failed => cases failed.symm.trans down
  next k sub =>
    cases sub.symm.trans down
    rw [readAt_eq low]
    change (if v[j - gap] > x then (writeAt v j v[j - gap]).bind fun w => sink gap hg x w (j - gap)
      else .ok (j, v)) = _
    rw [writeAt_eq _ inside]
    rfl

/-- Below the gap the hole stays. -/
lemma sink_of_lt (below : j < gap) : sink gap hg x v j = .ok (j, v) := by
  rw [sink, if_neg (Nat.not_le_of_lt below)]
  rfl

include hg in
/-- To move the hole is to swap the element that is missing from it. -/
lemma swap_set (inside : j < n) (above : gap ≤ j) : (v.set j x).swap j (j - gap) =
    (v.set j v[j - gap]).set (j - gap) x := by
  have apart : j ≠ j - gap := by omega
  ext k hk
  rw [Vector.getElem_swap, Vector.getElem_set, Vector.getElem_set]
  by_cases here : k = j
  · subst here
    simp [apart, apart.symm]
  · by_cases low : k = j - gap
    · subst low
      simp [here]
    · simp [here, low, Ne.symm here, Ne.symm low]

/-- The hole comes to where the element would be sifted, and filling it does the same as sifting. -/
lemma sink_eq (v : Vector Int32 n) (inside : j < n) : ∃ k w, ∃ hk : k < n,
    sink gap hg x v j = .ok (k, w) ∧ w.set k x = sift gap hg (v.set j x) j inside := by
  induction j using Nat.strongRecOn generalizing v with
  | ind j ih =>
    by_cases above : gap ≤ j
    · have apart : j ≠ j - gap := by omega
      have low : (v.set j x)[j - gap] = v[j - gap] := Vector.getElem_set_ne _ _ apart
      have here : (v.set j x)[j] = x := Vector.getElem_set_self _
      rw [sink_of_le hg x above inside, sift, dif_pos above, low, here]
      split
      · obtain ⟨k, w, hk, eq, filled⟩ := ih (j - gap) (by omega) (v.set j v[j - gap]) (by omega)
        exact ⟨k, w, hk, eq, by rw [filled, swap_set hg x inside above]⟩
      · exact ⟨j, v, inside, rfl, rfl⟩
    · rw [sink_of_lt hg x (Nat.lt_of_not_le above), sift, dif_neg above]
      exact ⟨j, v, inside, rfl, rfl⟩

/-- Inserting an element is sifting it, with no index outside the array. -/
lemma insertAt_eq (inside : i < n) : insertAt gap hg v i = .ok (sift gap hg v i inside) := by
  obtain ⟨k, w, hk, eq, filled⟩ := sink_eq hg v[i] v inside
  rw [Vector.set_getElem_self] at filled
  rw [insertAt, readAt_eq inside]
  change (sink gap hg v[i] v i).bind (fun place => writeAt place.2 place.1 v[i]) = _
  rw [eq]
  exact (writeAt_eq _ hk).trans (congrArg Except.ok filled)

/-- The elements that a pass with a hole leaves out stay where they are. -/
lemma sift_of_lt (inside : i < n) (below : i < gap) : sift gap hg v i inside = v := by
  rw [sift, dif_neg (Nat.not_le_of_lt below)]

/-- A pass with a hole comes to what a pass by swaps does. -/
lemma insertPass_eq (v : Vector Int32 n) : insertPass gap hg v = .ok (pass gap hg v) := by
  have first {m : Nat} (hm : m ≤ n) : (List.range' gap (m - gap)).foldlM (insertAt gap hg) v =
      .ok (sifted gap hg v m hm) := by
    induction m with
    | zero => rw [Nat.zero_sub]; rfl
    | succ m ih =>
      have done := ih (Nat.le_of_lt hm)
      rw [sifted_succ]
      by_cases below : m < gap
      · rw [Nat.sub_eq_zero_of_le (Nat.le_of_lt below)] at done
        rw [Nat.sub_eq_zero_of_le below, sift_of_lt hg hm below, done]
      · rw [Nat.succ_sub (Nat.le_of_not_lt below), List.range'_concat, List.foldlM_append, done]
        simp only [Nat.one_mul, Nat.add_sub_cancel' (Nat.le_of_not_lt below)]
        exact bind_pure _ |>.trans (insertAt_eq hg hm)
  exact first (Nat.le_refl n)

end Hole

/-- The passes with a hole come to what the passes by swaps do. -/
lemma insertPasses_eq (gs : List Nat) (v : Vector Int32 n) :
    insertPasses gs v = .ok (passes gs v) := by
  refine foldlM_eq_ok (fun gap _ v => ?_) v
  by_cases h : 0 < gap ∧ gap < n
  · rw [dif_pos h, dif_pos h.1, if_pos h.2]
    exact insertPass_eq _ v
  · rw [dif_neg h]
    split
    next hg => exact if_neg fun below => h ⟨hg, below⟩
    next => rfl

/-! ## The sort -/

/-- There is one ascending order of a list. -/
lemma eq_of_ascending {xs ys : List Int32} (perm : xs.Perm ys) (ascX : xs.Pairwise (· ≤ ·))
    (ascY : ys.Pairwise (· ≤ ·)) : xs = ys :=
  perm.eq_of_pairwise (fun _ _ _ _ => Int32.le_antisymm) ascX ascY

/-- The library sort gives an ascending list. -/
lemma mergeSort_ascending (xs : List Int32) :
    (xs.mergeSort fun x y => decide (x ≤ y)).Pairwise (· ≤ ·) := by
  have sorted := @List.pairwise_mergeSort _ (fun x y : Int32 => decide (x ≤ y))
    (fun _ _ _ first second =>
      decide_eq_true (Int32.le_trans (of_decide_eq_true first) (of_decide_eq_true second)))
    (fun x y => by simpa using Int32.le_total x y) xs
  exact sorted.imp fun le => of_decide_eq_true le

/-- The passes give what the library sort gives. -/
lemma toList_passes_gaps (v : Vector Int32 n) :
    (passes gaps v).toList = v.toList.mergeSort fun x y => decide (x ≤ y) :=
  eq_of_ascending ((passes_perm gaps v).toList.trans (List.mergeSort_perm _ _).symm)
    (passes_gaps_gapSorted v).pairwise (mergeSort_ascending _)

/-- The sort by swaps gives what the library sort gives, or panics on lengths that differ. -/
lemma sort_eq (dest xs : List Int32) : sort dest xs =
    if dest.length = xs.length then .ok (xs.mergeSort fun x y => decide (x ≤ y))
    else .error .lengthMismatch := by
  unfold sort
  rw [toList_passes_gaps]
  rfl

/-- The sort with a hole gives what the sort by swaps gives. -/
lemma sortInPlace_eq (dest xs : List Int32) : sortInPlace dest xs = sort dest xs := by
  unfold sortInPlace sort
  rw [insertPasses_eq]
  rfl

/-- The sort gives the elements in ascending order, as any other sort does, unless the lengths
differ: only then it panics. In place it comes to the same, and so it uses no index outside the
array. -/
theorem sort_ascending (dest xs : List Int32) :
    (∀ ys, sort dest xs = .ok ys ↔ dest.length = xs.length ∧ ys.Perm xs ∧ ys.Pairwise (· ≤ ·)) ∧
    (sort dest xs = if dest.length = xs.length then .ok (xs.mergeSort fun x y => decide (x ≤ y))
      else .error .lengthMismatch) ∧
    sortInPlace dest xs = sort dest xs := by
  refine ⟨fun ys => ?_, sort_eq dest xs, sortInPlace_eq dest xs⟩
  rw [sort_eq]
  have perm := List.mergeSort_perm xs fun x y => decide (x ≤ y)
  have ascending := mergeSort_ascending xs
  split
  next length =>
    constructor
    · rintro ⟨⟩
      exact ⟨length, perm, ascending⟩
    · rintro ⟨-, permY, ascY⟩
      rw [eq_of_ascending (permY.trans perm.symm) ascY ascending]
  next differ => exact iff_of_false nofun fun sorted => differ sorted.1

example : sortInPlace [0, 0, 0, 0, 0] [3, -1, 3, 2, -2147483648] =
    .ok [-2147483648, -1, 2, 3, 3] := by cbv

end TileBench.Kernel
