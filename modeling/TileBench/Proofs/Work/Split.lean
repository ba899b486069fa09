import Mathlib.Data.List.Induction
import Mathlib.Tactic.Lemma
import TileBench.Proofs.Work.Exact

/-!
# Arrays cut along a partition

`Partition.split` cuts pieces off an array one after another and looks at the lengths of the ranges
only. Since the ranges form a chain, each piece holds the places of its range: `Dealt` says which
elements these are, that no place is dealt out twice, and that work on the pieces is work on the
array, where `updateAll` does it place by place.
-/

namespace TileBench

namespace Interval

variable {α : Type} {a b stride : Nat} {rs : List Interval}

/-- The places of an array that belong to an interval of indices with `stride` elements each. -/
def scale (stride : Nat) (r : Interval) : Interval :=
  ⟨r.start * stride, r.stop * stride⟩

/-- The list with the elements of an interval replaced in turn: `f k` gives the new one at place `k`
of it. -/
def update (f : Nat → α → α) (r : Interval) (data : List α) : List α :=
  (List.range r.size).foldl (fun data k => data.modify (r.start + k) (f k)) data

/-- The list with the elements of some intervals replaced, one interval after another. -/
def updateAll (f : Core → Nat → α → α) (rs : List Interval) (data : List α) : List α :=
  rs.zipIdx.foldl (fun data (r, c) => r.update (f c) data) data

/-- The places along a chain are a chain. -/
lemma Chain.scale (chain : Chain a rs b) :
    Chain (a * stride) (rs.map (scale stride)) (b * stride) := by
  induction chain with
  | nil a => exact .nil _
  | @cons r rs b ordered rest ih =>
    exact .cons (r := r.scale stride) (Nat.mul_le_mul_right stride ordered) ih

/-- A place in the second of two lists is changed there. -/
lemma modify_append (before after : List α) (k : Nat) (g : α → α) :
    (before ++ after).modify (before.length + k) g = before ++ after.modify k g :=
  List.modifyTailIdx_add _ k before after

/-- Replacing the elements of a piece is done in the piece. -/
lemma update_append (f : Nat → α → α) (before piece after : List α) :
    update f ⟨before.length, before.length + piece.length⟩ (before ++ (piece ++ after)) =
      before ++ (piece.mapIdx f ++ after) := by
  rw [update, size, Nat.add_sub_cancel_left]
  induction piece using List.reverseRecOn generalizing after with
  | nil => rfl
  | append_singleton ys y ih =>
    -- The element at the end is replaced after all the others.
    have last := modify_append (before ++ ys.mapIdx f) (y :: after) 0 (f ys.length)
    rw [List.length_append, List.length_mapIdx, Nat.add_zero, List.modify_zero_cons] at last
    rw [List.length_append, List.length_singleton, List.range_succ, List.foldl_append,
      List.append_assoc, List.singleton_append, ih, List.foldl_cons, List.foldl_nil,
      ← List.append_assoc, last, List.mapIdx_concat, List.append_assoc, List.append_assoc,
      List.singleton_append]

/-- What is behind the places of a chain is as it was, and so is what stands before them. -/
lemma Chain.updateAll_eq (f : Core → Nat → α → α) {data before : List α} (n : Nat)
    (chain : Chain a rs b) (inside : b ≤ data.length) (length : before.length = a) :
    (rs.zipIdx n).foldl (fun data (r, c) => r.update (f c) data) (before ++ data.drop a) =
      before ++ (((rs.map fun r => data.extract r.start r.stop).zipIdx n).map fun (piece, c) =>
        piece.mapIdx (f c)).flatten ++ data.drop b := by
  induction chain generalizing before n with
  | nil a => simp
  | @cons r rs b ordered rest ih =>
    have upto : r.stop ≤ data.length := Nat.le_trans rest.le inside
    have pieceLength : (data.extract r.start r.stop).length = r.stop - r.start := by
      rw [List.extract_eq_take_drop, List.length_take, List.length_drop]
      omega
    have parted : data.drop r.start = data.extract r.start r.stop ++ data.drop r.stop := by
      have whole := (List.take_append_drop (r.stop - r.start) (data.drop r.start)).symm
      rwa [List.drop_drop, Nat.add_sub_cancel' ordered, ← List.extract_eq_take_drop] at whole
    have range : r = ⟨before.length, before.length + (data.extract r.start r.stop).length⟩ := by
      rw [pieceLength, length, Nat.add_sub_cancel' ordered]
    have here := update_append (f n) before (data.extract r.start r.stop) (data.drop r.stop)
    rw [← range, ← parted, ← List.append_assoc] at here
    have written : (before ++ (data.extract r.start r.stop).mapIdx (f n)).length = r.stop := by
      rw [List.length_append, List.length_mapIdx, pieceLength, length, Nat.add_sub_cancel' ordered]
    have others := ih (n + 1) inside written
    rw [List.append_assoc before _ (List.flatten _)] at others
    exact (congrArg ((rs.zipIdx (n + 1)).foldl fun data (r, c) => r.update (f c) data) here).trans
      others

end Interval

namespace Partition

variable {α : Type}

/-- What pieces of an array are like that are dealt out along ranges with `stride` elements per
index. -/
structure Dealt (ranges : List Interval) (stride : Nat) (data : List α)
    (pieces : List (List α)) : Prop where
  /-- One piece per range, with the elements from where the range starts up to where it stops. -/
  elements : pieces = ranges.map fun r => data.extract (r.start * stride) (r.stop * stride)
  /-- Every place of the array belongs to one range and to no other. -/
  places : Interval.Tiles (ranges.map (Interval.scale stride)) data.length
  whole : pieces.flatten = data
  /-- Replacing the elements of the pieces by their indices in them replaces those of the array at
  their places. -/
  updates : ∀ f : Core → Nat → α → α, (pieces.mapIdx fun c piece => piece.mapIdx (f c)).flatten =
    Interval.updateAll f (ranges.map (Interval.scale stride)) data

/-- The slices along a chain deal out an array that is as long as the chain. -/
lemma dealt_slices {size stride : Nat} {rs : List Interval} {data : List α}
    (chain : Interval.Chain 0 rs size) (inhabited : rs ≠ [])
    (length : data.length = size * stride) :
    Dealt rs stride data (rs.map (Interval.slice data stride)) := by
  have elements : rs.map (Interval.slice data stride) =
      rs.map fun r => data.extract (r.start * stride) (r.stop * stride) := by
    refine List.map_congr_left fun r _ => ?_
    rw [Interval.slice, Interval.size, Nat.sub_mul, List.extract_eq_take_drop]
  have places : Interval.Chain (0 * stride) (rs.map (Interval.scale stride)) (size * stride) :=
    chain.scale
  rw [Nat.zero_mul, ← length] at places
  refine ⟨elements, places.tiles (mt List.map_eq_nil_iff.mp inhabited), ?_, fun f => ?_⟩
  · rw [Interval.flatten_slices data stride chain, Interval.slice, Interval.size, Nat.zero_mul,
      List.drop_zero, Nat.sub_zero, ← length, List.take_length]
  · have none : ([] : List α).length = 0 := rfl
    have updated := places.updateAll_eq f 0 (Nat.le_refl _) none
    rw [List.drop_zero, List.drop_length, List.append_nil, List.nil_append, List.nil_append,
      List.map_map] at updated
    rw [elements, List.mapIdx_eq_zipIdx_map]
    exact updated.symm

/-- An array is cut along every partition, whatever the policy and the stride, unless it is not as
long as the domain needs or that length leaves 64 bits. No piece is then too long for what is left
of the array. -/
theorem dealt_of_split (size cores : Nat) (policy : Policy) (data : List α) (stride : Nat) :
    ((∃ e, (make size cores policy).value.split data stride = .error e) ↔
        sizeLimit ≤ size * stride ∨ data.length ≠ size * stride) ∧
      ∀ pieces, (make size cores policy).value.split data stride = .ok pieces →
        Dealt (make size cores policy).value.ranges stride data pieces := by
  rw [make_value]
  by_cases small : size * stride < sizeLimit
  · by_cases length : data.length = size * stride
    · rw [split_of length small]
      refine ⟨iff_of_false ?_ ?_, ?_⟩
      · rintro ⟨e, eq⟩
        cases eq
      · exact not_or.mpr ⟨Nat.not_le.mpr small, not_not_intro length⟩
      · rintro _ ⟨⟩
        exact dealt_slices (chain_ranges size cores policy) (ranges_ne_nil size cores policy) length
    · have refused : (of size cores policy).split data stride = .error .lengthMismatch := by
        simp only [split, size_of, checkedMul, if_pos small]
        exact if_neg length
      rw [refused]
      exact ⟨iff_of_true ⟨_, rfl⟩ (.inr length), fun pieces eq => by cases eq⟩
  · have refused : (of size cores policy).split data stride = .error .overflow := by
      simp only [split, size_of, checkedMul, if_neg small]
      rfl
    rw [refused]
    exact ⟨iff_of_true ⟨_, rfl⟩ (.inl (Nat.not_lt.mp small)), fun pieces eq => by cases eq⟩

/-- Five rows of three elements, two of them for the first core. -/
theorem dealt_of_split_rows :
    (make 5 2 .balanced).value.split (List.range 15) 3 =
        .ok [[0, 1, 2, 3, 4, 5], [6, 7, 8, 9, 10, 11, 12, 13, 14]] ∧
      Dealt (make 5 2 .balanced).value.ranges 3 (List.range 15)
        [[0, 1, 2, 3, 4, 5], [6, 7, 8, 9, 10, 11, 12, 13, 14]] := by
  have cut : (make 5 2 .balanced).value.split (List.range 15) 3 =
      .ok [[0, 1, 2, 3, 4, 5], [6, 7, 8, 9, 10, 11, 12, 13, 14]] := by decide
  exact ⟨cut, (dealt_of_split 5 2 .balanced (List.range 15) 3).2 _ cut⟩

end Partition

end TileBench
