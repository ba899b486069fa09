import Mathlib.Data.List.Nodup
import Mathlib.Tactic.Lemma
import TileBench.Kernel.Matrix
import TileBench.Kernel.Vector

/-!
# What the stores of a kernel leave

Stores to different places can be made in any order. Each core stores, at every place of its piece,
the element of the result that belongs there: `addStores_eq` says so of sums and `rowStores_eq` of
the rows of a product.
-/

namespace TileBench.Kernel

/-- The stores that put a result in its places. -/
def storesAt (target : Nat → Int32) (places : List Nat) : List Store :=
  places.map fun k => ⟨k, target k⟩

section Stores

variable {stores order : List Store} {dest : List Int32} {target : Nat → Int32}

/-- The stores of a result go to its places. -/
@[simp] lemma map_place_storesAt (places : List Nat) :
    (storesAt target places).map Store.place = places := by
  simp [storesAt, Function.comp_def]

/-- The stores for pieces of the places are stores for all of them. -/
lemma flatten_storesAt (pieces : List (List Nat)) :
    (pieces.map (storesAt target)).flatten = storesAt target pieces.flatten :=
  List.map_flatten.symm

/-- The stores are made in a list as they are in an array. -/
lemma makeAll_eq (stores : List Store) (dest : List Int32) :
    makeAll stores dest = stores.foldl (fun dest s => dest.set s.place s.value) dest := by
  have step (dest : Array Int32) : (stores.foldl Store.make dest).toList =
      stores.foldl (fun dest s => dest.set s.place s.value) dest.toList := by
    induction stores generalizing dest with
    | nil => rfl
    | cons s stores ih =>
      rw [List.foldl_cons, List.foldl_cons, ih, Store.make, Array.toList_setIfInBounds]
  exact step _

/-- Stores to different places can be made in any order. -/
lemma makeAll_perm (perm : stores.Perm order) (once : (stores.map Store.place).Nodup) :
    makeAll order dest = makeAll stores dest := by
  rw [makeAll_eq, makeAll_eq]
  refine (perm.foldl_eq' (fun s memS t memT dest => ?_) dest).symm
  -- Two stores to one place are the same store.
  by_cases same : s.place = t.place
  · cases List.inj_on_of_nodup_map once memS memT same
    rfl
  · exact List.set_comm _ _ same

/-- Stores to consecutive places replace what was there. -/
lemma makeAll_range' (before rest : List Int32) :
    makeAll (storesAt target (List.range' before.length rest.length)) (before ++ rest) =
      before ++ (List.range' before.length rest.length).map target := by
  rw [makeAll_eq]
  induction rest generalizing before with
  | nil => rfl
  | cons x rest ih =>
    -- The first store settles its place, which is behind the stores that are left.
    have next := ih (before ++ [target before.length])
    simp only [List.length_append, List.length_singleton, List.append_assoc,
      List.singleton_append] at next
    simp only [List.length_cons, List.range'_succ, storesAt, List.map_cons, List.foldl_cons,
      List.set_append_right _ _ (Nat.le_refl _), Nat.sub_self, List.set_cons_zero]
    exact next

/-- Stores to all places leave nothing of what was there. -/
lemma makeAll_range : makeAll (storesAt target (List.range dest.length)) dest =
    (List.range dest.length).map target := by
  rw [List.range_eq_range']
  exact makeAll_range' [] dest

end Stores

/-! ## The share of one core -/

/-- Inside the operand there is an element. -/
lemma element_eq {xs : List Int32} {i : Nat} (inside : i < xs.length) :
    element xs.toArray i = .ok (xs[i]?.getD 0) := by
  simp [element, inside]

/-- The element of a sum. -/
def sumAt (xs ys : List Int32) (k : Nat) : Int32 :=
  xs[k]?.getD 0 + ys[k]?.getD 0

/-- The element of a product. -/
def productAt (n : Nat) (a b : List Int32) (k : Nat) : Int32 :=
  cell n a.toArray b.toArray (k / n) (k % n)

/-- The stores of a core are the sums of its range. -/
lemma addStores_eq {xs ys : List Int32} {r : Interval} (length : ys.length = xs.length)
    (inside : r.stop ≤ xs.length) :
    addStores xs ys r r.indices = .ok (storesAt (sumAt xs ys) r.indices) := by
  have zipped : r.indices.zip r.indices = r.indices.map fun i => (i, i) := by
    have zipped := List.zip_map' (l := r.indices) (f := id) (g := id)
    rwa [List.map_id] at zipped
  unfold addStores
  dsimp only
  rw [zipped, List.mapM_map]
  refine mapM_eq_ok fun i mem => ?_
  have below : i < xs.length := by
    have bound := List.mem_range'_1.mp mem
    simp only [Interval.size] at bound
    omega
  simp only [Function.comp_apply, element_eq below, element_eq (length ▸ below)]
  rfl

section Index

variable {n i j : Nat}

/-- A row and a column are a place of the matrix. -/
lemma index_lt (row : i < n) (column : j < n) : i * n + j < n * n := by
  calc i * n + j
    _ < i * n + n := Nat.add_lt_add_left column _
    _ = (i + 1) * n := (Nat.succ_mul i n).symm
    _ ≤ n * n := Nat.mul_le_mul_right n row

/-- The row of a place. -/
lemma index_div (column : j < n) : (i * n + j) / n = i := by
  rw [Nat.mul_comm, Nat.mul_add_div (Nat.lt_of_le_of_lt (Nat.zero_le j) column),
    Nat.div_eq_of_lt column, Nat.add_zero]

/-- The column of a place. -/
lemma index_mod (column : j < n) : (i * n + j) % n = j := by
  rw [Nat.mul_comm, Nat.mul_add_mod, Nat.mod_eq_of_lt column]

/-- Inside the matrix there is an element. -/
lemma element_entry {m : List Int32} (length : m.length = n * n) (row : i < n) (column : j < n) :
    element m.toArray (i * n + j) = .ok (entry n m.toArray i j) := by
  rw [element_eq (length ▸ index_lt row column), entry, List.getElem?_toArray]

end Index

/-- Inside the matrices a sum of products needs no element that is not there. -/
lemma checkedCell_eq {n i j : Nat} {a b : List Int32} (lengthA : a.length = n * n)
    (lengthB : b.length = n * n) (row : i < n) (column : j < n) :
    checkedCell n a.toArray b.toArray i j = .ok (cell n a.toArray b.toArray i j) := by
  unfold checkedCell cell
  refine foldlM_eq_ok (fun k mem sum => ?_) 0
  have mem : k < n := List.mem_range.mp mem
  rw [element_entry lengthA row mem, element_entry lengthB mem column]
  rfl

/-! ## Rows -/

section Rows

variable {α : Type} {n : Nat}

/-- The places of a row in their columns. -/
lemma row_places (i : Nat) : (List.range' (i * n) n).zipIdx =
    (List.range n).map fun j => (i * n + j, j) := by
  rw [List.zipIdx_eq_zip_range', List.length_range', List.range'_eq_map_range,
    ← List.range_eq_range']
  have zipped := List.zip_map' (l := List.range n) (f := (i * n + ·)) (g := id)
  rwa [List.map_id] at zipped

/-- What is at the places of rows is at the columns of each row. -/
lemma map_rows (f : Nat → Nat → α) (start count : Nat) :
    (List.range' (start * n) (count * n)).map (fun k => f (k / n) (k % n)) =
      (List.range' start count).flatMap fun i => (List.range n).map (f i) := by
  induction count generalizing start with
  | zero => simp
  | succ count ih =>
    have split : List.range' (start * n) ((count + 1) * n) =
        List.range' (start * n) n ++ List.range' ((start + 1) * n) (count * n) := by
      rw [Nat.succ_mul, Nat.succ_mul, Nat.add_comm, List.range'_append_1]
    have row : (List.range' (start * n) n).map (fun k => f (k / n) (k % n)) =
        (List.range n).map (f start) := by
      rw [List.range'_eq_map_range, List.map_map]
      refine List.map_congr_left fun j mem => ?_
      rw [Function.comp_apply, index_div (List.mem_range.mp mem), index_mod (List.mem_range.mp mem)]
    rw [split, List.map_append, row, ih, List.range'_succ, List.flatMap_cons]

/-- The places of rows are cut into the places of each row. -/
lemma wholeRows_range' (start count : Nat) (positive : 0 < n) :
    wholeRows n (List.range' (start * n) (count * n)) =
      (List.range' start count).map fun i => List.range' (i * n) n := by
  have rows : (List.range' (start * n) (count * n)).length / n = count := by
    rw [List.length_range', Nat.mul_div_cancel _ positive]
  rw [wholeRows, rows, List.range'_eq_map_range (s := start), List.map_map]
  refine List.map_congr_left fun k mem => ?_
  have left : n ≤ count * n - k * n := by
    rw [← Nat.sub_mul]
    exact Nat.le_mul_of_pos_left _ (Nat.sub_pos_of_lt (List.mem_range.mp mem))
  rw [List.drop_range', Nat.mul_one, List.take_range'_of_length_ge left, ← Nat.add_mul]
  rfl

end Rows

/-- The stores of one row. -/
def rowAt (n : Nat) (a b : List Int32) (i : Nat) : List Store :=
  (List.range n).map fun j => ⟨i * n + j, cell n a.toArray b.toArray i j⟩

/-- The stores of rows are the stores at their places. -/
lemma flatMap_rowAt (n : Nat) (a b : List Int32) (r : Interval) :
    r.indices.flatMap (rowAt n a b) =
      storesAt (productAt n a b) (List.range' (r.start * n) (r.size * n)) := by
  have rows := map_rows (n := n) (fun i j => (⟨i * n + j, cell n a.toArray b.toArray i j⟩ : Store))
    r.start r.size
  simp only [Nat.div_add_mod'] at rows
  exact rows.symm

/-- The stores of a core are the rows of its range. -/
lemma rowStores_eq {n : Nat} {a b : List Int32} {r : Interval} (lengthA : a.length = n * n)
    (lengthB : b.length = n * n) (inside : r.stop ≤ n) :
    rowStores n a b r (List.range' (r.start * n) (r.size * n)) =
      .ok (storesAt (productAt n a b) (List.range' (r.start * n) (r.size * n))) := by
  -- A matrix without columns has no places, but the width of its rows is still one.
  rcases Nat.eq_zero_or_pos n with rfl | positive
  · rw [Nat.mul_zero, Nat.mul_zero]
    rfl
  · have zipped : (r.indices.map fun i => List.range' (i * n) n).zip r.indices =
        r.indices.map fun i => (List.range' (i * n) n, i) := by
      have zipped := List.zip_map' (l := r.indices) (f := fun i => List.range' (i * n) n) (g := id)
      rwa [List.map_id] at zipped
    have computed : (r.indices.map fun i => (List.range' (i * n) n, i)).mapM
        (fun x => x.1.zipIdx.mapM fun y => do
          return (⟨y.1, ← checkedCell n a.toArray b.toArray x.2 y.2⟩ : Store)) =
        .ok (r.indices.map (rowAt n a b)) := by
      rw [List.mapM_map]
      refine mapM_eq_ok fun i mem => ?_
      have row : i < n := by
        have bound := List.mem_range'_1.mp mem
        simp only [Interval.size] at bound
        omega
      rw [Function.comp_apply, row_places, List.mapM_map]
      refine mapM_eq_ok fun j mem => ?_
      rw [Function.comp_apply, checkedCell_eq lengthA lengthB row (List.mem_range.mp mem)]
      rfl
    have rows : wholeRows n (List.range' (r.start * n) (r.size * n)) =
        r.indices.map fun i => List.range' (i * n) n := wholeRows_range' _ _ positive
    unfold rowStores
    dsimp only
    rw [Nat.max_eq_left positive, rows, zipped, computed, ← flatMap_rowAt, List.flatMap_def]
    rfl

end TileBench.Kernel
