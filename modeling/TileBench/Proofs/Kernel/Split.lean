import TileBench.Kernel.Split
import TileBench.Proofs.Kernel.Stores
import TileBench.Proofs.Tile.ForkJoin
import TileBench.Proofs.Tile.Progress
import TileBench.Proofs.Tile.Sequential
import TileBench.Proofs.Work.Partition

/-!
# Kernels on many cores compute what they compute on one

A kernel whose work `Fills` the places of every range gives the same result on any tile, under any
policy and in whatever order its jobs run: `Settled` says what every order of steps leaves, and the
headline `onTile_eq_onCore` applies it to sums and products.
-/

namespace TileBench.Kernel

open Tile (Machine)

/-- The places of the elements that belong to an interval of indices with `stride` elements each. -/
def places (stride : Nat) (r : Interval) : List Nat :=
  List.range' (r.start * stride) (r.size * stride)

/-- Work that stores at each place of any range of a domain what `target` has there. -/
def Fills (work : Work) (size stride : Nat) (target : Nat → Int32) : Prop :=
  ∀ r : Interval, r.stop ≤ size → work r (places stride r) = .ok (storesAt target (places stride r))

/-- Every place of a result is written once, by the core whose range has its index. -/
structure Written (ranges : List Interval) (stride size : Nat)
    (recorded : List (List Store)) : Prop where
  cores : recorded.length = ranges.length
  once : recorded.flatten.map Store.place = List.range size
  owner : ∀ (c : Core) (stores : List Store) (r : Interval), recorded[c]? = some stores →
    ranges[c]? = some r → ∀ s ∈ stores, r.start ≤ s.place / stride ∧ s.place / stride < r.stop

/-- What the jobs of a kernel do on a tile in every order of steps: they come to an end, the
fork-join succeeds, every place is written once, and the stores give the result whichever comes
first. -/
structure Settled (tile : Tile) (jobs : List (Job Store)) (p : Partition) (stride : Nat)
    (dest result : List Int32) : Prop where
  ends : ∀ (deeds : List (Tile.Deed Store)) (m : Machine Store),
    Machine.Run (.ofTile tile) deeds m →
    m.stance.isEngaged = true → (∃ new m', Machine.Step m new m') ∧
      ∀ new m', Machine.Step m new m' → m'.work < m.work
  answer : ∀ r recorded, tile.Gives jobs r recorded → r = .ok (.ok ())
  written : ∀ r recorded, tile.Gives jobs r recorded → Written p.ranges stride dest.length recorded
  leaves : ∀ r recorded, tile.Gives jobs r recorded →
    ∀ order, recorded.flatten.Perm order → makeAll order dest = result

section Shares

variable {work : Work} {size stride cores : Nat} {target : Nat → Int32} {policy : Policy}
  {dest : List Int32} {r : Interval}

/-- The slice of all places that belongs to a range are the places of the range. -/
lemma slice_range {length : Nat} (inside : r.stop * stride ≤ length) :
    Interval.slice (List.range length) stride r = places stride r := by
  have left : r.size * stride ≤ length - r.start * stride := by
    rw [Interval.size, Nat.sub_mul]
    exact Nat.sub_le_sub_right inside _
  rw [Interval.slice, List.range_eq_range', List.drop_range',
    List.take_range'_of_length_ge left, places, Nat.zero_add, Nat.mul_one]

/-- Every range of a partition lies in the domain. -/
lemma inside_of_mem (mem : r ∈ (Partition.of size cores policy).ranges) : r.stop ≤ size :=
  ((Partition.chain_ranges size cores policy).ordered_of_mem mem).2

/-- The pieces of all places are the places of the ranges. -/
lemma slices_of (size cores stride : Nat) (policy : Policy) :
    (Partition.of size cores policy).ranges.map
        (Interval.slice (List.range (size * stride)) stride) =
      (Partition.of size cores policy).ranges.map (places stride) := by
  refine List.map_congr_left fun r mem => ?_
  exact slice_range (Nat.mul_le_mul_right _ (inside_of_mem mem))

/-- The places of all ranges are the places of the result. -/
lemma flatten_places (size cores stride : Nat) (policy : Policy) :
    ((Partition.of size cores policy).ranges.map (places stride)).flatten =
      List.range (size * stride) := by
  have whole : Interval.slice (List.range (size * stride)) stride ⟨0, size⟩ =
      places stride ⟨0, size⟩ :=
    slice_range (Nat.le_refl _)
  rw [← slices_of, Interval.flatten_slices _ _ (Partition.chain_ranges size cores policy),
    whole, places, Interval.size, Nat.zero_mul, Nat.sub_zero, ← List.range_eq_range']

/-- What the cores store. -/
def shares (target : Nat → Int32) (stride : Nat) (p : Partition) : List (List Store) :=
  p.ranges.map fun r => storesAt target (places stride r)

/-- What the cores store together is a store at each place of the result. -/
lemma flatten_shares (target : Nat → Int32) (size cores stride : Nat) (policy : Policy) :
    (shares target stride (Partition.of size cores policy)).flatten =
      storesAt target (List.range (size * stride)) := by
  rw [← flatten_places size cores stride policy, ← flatten_storesAt, List.map_map]
  rfl

/-- The jobs of a kernel make the shares of the cores as their values, without a panic. -/
lemma jobs_eq (fills : Fills work size stride target) (small : size * stride < sizeLimit) :
    jobs work (Partition.of size cores policy) (size * stride) stride =
      .ok ((shares target stride (Partition.of size cores policy)).map Job.values) := by
  have each : (Partition.of size cores policy).ranges.map
        (fun r => storeJob (work r (places stride r))) =
      (shares target stride (Partition.of size cores policy)).map Job.values := by
    rw [shares, List.map_map]
    refine List.map_congr_left fun r mem => ?_
    rw [fills r (inside_of_mem mem)]
    rfl
  have zipped (ranges : List Interval) :
      List.zipWith (fun piece r => storeJob (work r piece)) (ranges.map (places stride)) ranges =
        ranges.map fun r => storeJob (work r (places stride r)) := by
    rw [List.zipWith_map_left, List.zipWith_self]
  unfold jobs
  rw [Partition.split_of List.length_range small, slices_of, ← each, ← zipped]
  rfl

/-- Every place is written once, by its owner. -/
lemma written_shares : Written (Partition.of size cores policy).ranges stride (size * stride)
    (shares target stride (Partition.of size cores policy)) where
  cores := by simp [shares]
  once := by rw [flatten_shares, map_place_storesAt]
  owner := by
    intro c stores r here range s mem
    simp only [shares, List.getElem?_map, range, Option.map_some, Option.some.injEq] at here
    subst here
    obtain ⟨k, place, rfl⟩ := List.mem_map.mp mem
    obtain ⟨first, last⟩ := List.mem_range'_1.mp place
    -- A range with a place in it is not empty, and neither is a row.
    have some : 0 < r.size * stride := by omega
    have positive : 0 < stride := Nat.pos_of_mul_pos_left some
    have stop : r.start * stride + r.size * stride = r.stop * stride := by
      have ordered : r.start < r.stop := Nat.lt_of_sub_pos (Nat.pos_of_mul_pos_right some)
      rw [← Nat.add_mul, Interval.size, Nat.add_sub_cancel' (Nat.le_of_lt ordered)]
    exact ⟨(Nat.le_div_iff_mul_le positive).mpr first,
      (Nat.div_lt_iff_lt_mul positive).mpr (stop ▸ last)⟩

/-- The shares together leave the result. -/
lemma makeAll_shares (length : dest.length = size * stride) :
    makeAll (shares target stride (Partition.of size cores policy)).flatten dest =
      (List.range dest.length).map target := by
  rw [flatten_shares, ← length, makeAll_range]

/-- Every core has a share. -/
lemma length_shares (target : Nat → Int32) (size stride : Nat) (policy : Policy) (tile : Tile) :
    (shares target stride (Partition.of size tile.cores policy)).length = tile.cores := by
  rw [shares, List.length_map, Partition.length_ranges]
  exact Nat.max_eq_left (Nat.succ_pos _)

/-- A kernel on a tile gives the result with the partition and leaves the tile as it was. -/
lemma onTile_value (tile : Tile) (fills : Fills work size stride target)
    (length : dest.length = size * stride) (small : dest.length < sizeLimit) :
    (onTile tile policy size stride dest work).run.value =
      .ok (.ok (Partition.of size tile.cores policy, (List.range dest.length).map target),
        tile) := by
  have ran := Tile.run_values {} (length_shares target size stride policy tile)
  unfold onTile
  rw [Checked.value_bind_logged, Partition.make_value, length, jobs_eq fills (length ▸ small),
    Checked.value_bind_ok, Checked.value_bind_logged, ran, ← length]
  dsimp only
  rw [makeAll_shares length]
  rfl

/-- The jobs that make the shares settle in every order of steps. -/
lemma settled_shares (tile : Tile) (length : dest.length = size * stride) :
    Settled tile ((shares target stride (Partition.of size tile.cores policy)).map Job.values)
      (Partition.of size tile.cores policy) stride dest ((List.range dest.length).map target) := by
  have given : ∀ r recorded,
      tile.Gives ((shares target stride (Partition.of size tile.cores policy)).map Job.values)
        r recorded →
      r = .ok (.ok ()) ∧
        recorded = shares target stride (Partition.of size tile.cores policy) := by
    rintro r recorded gives
    -- The run may come after others, on a tile whose threads are not those of the first one.
    obtain ⟨tile', caller, cores, rfl, rfl⟩ := gives.exists_run
    have ran := Tile.run_values caller
      ((length_shares target size stride policy tile).trans cores.symm)
    rw [ran]
    exact ⟨rfl, rfl⟩
  refine ⟨?_, fun r recorded gives => (given r recorded gives).1, ?_, ?_⟩
  · intro deeds m run engaged
    have inhabited : 0 < m.lanes.length := by
      rw [run.length_eq]
      simp [Machine.ofTile]
    exact ⟨run.books.exists_step inhabited, fun _ _ step => step.work_lt engaged⟩
  · intro r recorded gives
    rw [(given r recorded gives).2, length]
    exact written_shares
  · intro r recorded gives order perm
    rw [(given r recorded gives).2] at perm
    -- No place is written twice, so that the order of the stores does not matter.
    rw [makeAll_perm perm, makeAll_shares length]
    rw [flatten_shares, map_place_storesAt]
    exact List.nodup_range

end Shares

/-! ## The two kernels -/

/-- Adding fills the places of every range with sums. -/
lemma fills_addStores {xs ys : List Int32} (length : ys.length = xs.length) :
    Fills (addStores xs ys) xs.length 1 (sumAt xs ys) := by
  intro r inside
  have indices : places 1 r = r.indices := by
    rw [places, Nat.mul_one, Nat.mul_one, Interval.indices]
  rw [indices, addStores_eq length inside]

/-- Sums on one core are the sums of the elements. -/
lemma add_eq {dest xs ys : List Int32} (lengthX : xs.length = dest.length)
    (lengthY : ys.length = dest.length) :
    add dest xs ys = .ok ((List.range dest.length).map (sumAt xs ys)) := by
  have sums : List.zipWith (· + ·) xs ys = (List.range dest.length).map (sumAt xs ys) := by
    refine List.ext_getElem (by simp [lengthX, lengthY]) fun k here there => ?_
    rw [List.length_zipWith] at here
    have inX : k < xs.length := Nat.lt_of_lt_of_le here (Nat.min_le_left _ _)
    have inY : k < ys.length := Nat.lt_of_lt_of_le here (Nat.min_le_right _ _)
    simp [sumAt, inX, inY]
  rw [add, combine, if_pos ⟨lengthX, lengthY⟩, sums]

/-- Multiplying fills the places of every range of rows with the product. -/
lemma fills_rowStores {n : Nat} {a b : List Int32} (lengthA : a.length = n * n)
    (lengthB : b.length = n * n) : Fills (rowStores n a b) n n (productAt n a b) :=
  fun _ inside => rowStores_eq lengthA lengthB inside

/-- The product on one core is made of the sums of products. -/
lemma multiply_eq {n : Nat} {dest a b : List Int32} (length : dest.length = n * n)
    (lengthA : a.length = n * n) (lengthB : b.length = n * n) (small : n * n < sizeLimit) :
    multiply n dest a b = .ok ((List.range dest.length).map (productAt n a b)) := by
  have rows := map_rows (n := n) (cell n a.toArray b.toArray) 0 n
  rw [Nat.zero_mul, ← List.range_eq_range', ← List.range_eq_range'] at rows
  rw [length]
  unfold multiply checkedMul
  rw [if_pos small]
  exact (if_pos ⟨length, lengthA, lengthB⟩).trans (congrArg Except.ok rows.symm)

/-- Sums on a tile are the sums of the elements. -/
lemma addOnTile_value {dest xs ys : List Int32} (tile : Tile) (policy : Policy)
    (lengthX : xs.length = dest.length) (lengthY : ys.length = dest.length)
    (small : dest.length < sizeLimit) :
    (addOnTile tile policy dest xs ys).run.value =
      .ok (.ok (.of dest.length tile.cores policy, (List.range dest.length).map (sumAt xs ys)),
        tile) := by
  have fills : Fills (addStores xs ys) dest.length 1 (sumAt xs ys) :=
    lengthX ▸ fills_addStores (lengthY.trans lengthX.symm)
  rw [addOnTile, if_pos ⟨lengthX, lengthY⟩, onTile_value tile fills (Nat.mul_one _).symm small]

/-- The product on a tile is made of the sums of products. -/
lemma multiplyOnTile_value {n : Nat} {dest a b : List Int32} (tile : Tile) (policy : Policy)
    (length : dest.length = n * n) (lengthA : a.length = n * n) (lengthB : b.length = n * n)
    (small : n * n < sizeLimit) :
    (multiplyOnTile tile policy n dest a b).run.value =
      .ok (.ok (.of n tile.cores policy, (List.range dest.length).map (productAt n a b)),
        tile) := by
  rw [multiplyOnTile, checkedMul, if_pos small, Checked.value_bind_ok,
    if_pos ⟨length, lengthA, lengthB⟩,
    onTile_value tile (fills_rowStores lengthA lengthB) length (length ▸ small)]

/-- Sums and products on a tile are what one core computes, with any number of cores, under both
policies and whatever the result held before, and so they are in every order in which the jobs of
the cores run. -/
theorem onTile_eq_onCore (tile : Tile) (policy : Policy) :
    (∀ dest xs ys : List Int32, xs.length = dest.length → ys.length = dest.length →
      dest.length < sizeLimit → ∃ result parts,
        add dest xs ys = .ok result ∧
        (addOnTile tile policy dest xs ys).run.value =
          .ok (.ok (.of dest.length tile.cores policy, result), tile) ∧
        jobs (addStores xs ys) (.of dest.length tile.cores policy) dest.length 1 = .ok parts ∧
        Settled tile parts (.of dest.length tile.cores policy) 1 dest result) ∧
    (∀ (n : Nat) (dest a b : List Int32), dest.length = n * n → a.length = n * n →
      b.length = n * n → n * n < sizeLimit → ∃ result parts,
        multiply n dest a b = .ok result ∧
        (multiplyOnTile tile policy n dest a b).run.value =
          .ok (.ok (.of n tile.cores policy, result), tile) ∧
        jobs (rowStores n a b) (.of n tile.cores policy) dest.length n = .ok parts ∧
        Settled tile parts (.of n tile.cores policy) n dest result) := by
  refine ⟨fun dest xs ys lengthX lengthY small => ?_,
    fun n dest a b length lengthA lengthB small => ?_⟩
  · have fills : Fills (addStores xs ys) dest.length 1 (sumAt xs ys) :=
      lengthX ▸ fills_addStores (lengthY.trans lengthX.symm)
    have length : dest.length = dest.length * 1 := (Nat.mul_one _).symm
    refine ⟨_, _, add_eq lengthX lengthY, ?_, ?_, settled_shares tile length⟩
    · rw [addOnTile, if_pos ⟨lengthX, lengthY⟩, onTile_value tile fills length small]
    · have parts : jobs (addStores xs ys) (.of dest.length tile.cores policy) _ 1 = _ :=
        jobs_eq fills (length ▸ small)
      rwa [← length] at parts
  · have fills := fills_rowStores lengthA lengthB
    refine ⟨_, _, multiply_eq length lengthA lengthB small, ?_, ?_, settled_shares tile length⟩
    · rw [multiplyOnTile, checkedMul, if_pos small, Checked.value_bind_ok,
        if_pos ⟨length, lengthA, lengthB⟩, onTile_value tile fills length (length ▸ small)]
    · rw [length]
      exact jobs_eq fills small

/-- Three sums and the product of two matrices on two cores. The second core takes two of the sums,
and it takes its job only when the caller waits for it. -/
theorem onTile_eq_onCore_two : ∃ parts recorded,
    jobs (addStores [1, 2, 3] [10, 20, 30]) (.of 3 2 .tail) 3 1 = .ok parts ∧
    Tile.Gives ⟨[{ binding := some 1 }]⟩ parts (.ok (.ok ())) recorded ∧
    (∀ order, recorded.flatten.Perm order → makeAll order [7, 7, 7] = [11, 22, 33]) ∧
    (multiplyOnTile ⟨[{ binding := some 1 }]⟩ .balanced 2
        [0, 0, 0, 0] [1, 2, 3, 4] [5, 6, 7, 8]).run.value =
      .ok (.ok (.of 2 2 .balanced, [19, 22, 43, 50]), ⟨[{ binding := some 1 }]⟩) := by
  obtain ⟨sums, parts, added, -, cut, settled⟩ :=
    (onTile_eq_onCore ⟨[{ binding := some 1 }]⟩ .tail).1
      [7, 7, 7] [1, 2, 3] [10, 20, 30] rfl rfl (by decide)
  obtain ⟨product, -, multiplied, value, -, -⟩ :=
    (onTile_eq_onCore ⟨[{ binding := some 1 }]⟩ .balanced).2
      2 [0, 0, 0, 0] [1, 2, 3, 4] [5, 6, 7, 8] rfl rfl rfl (by decide)
  cases added
  cases multiplied
  have same : parts = [Job.values [⟨0, 11⟩], Job.values [⟨1, 22⟩, ⟨2, 33⟩]] :=
    (Except.ok.inj cut).symm
  subst same
  have fits : [Job.values [(⟨0, 11⟩ : Store)], Job.values [⟨1, 22⟩, ⟨2, 33⟩]].length ≤ 2 :=
    Nat.le_refl _
  have forked := ((Machine.Run.refl (Machine.ofTile ⟨[{ binding := some 1 }]⟩)).tail
    (.enter rfl : Machine.Step _ [.enter {}] _)).tail (.fork rfl fits)
  have handed := ((forked.tail (.hand (c := 1) rfl .fork rfl (by decide) rfl rfl)).tail
    (.mark (c := 1) rfl rfl)).tail (.own rfl rfl rfl)
  have joined := ((((handed.tail (.await (c := 1) rfl .gather rfl rfl)).tail
    (.take (c := 1) rfl rfl rfl)).tail (.finish (c := 1) rfl rfl rfl)).tail
    (.collect (c := 1) rfl rfl rfl)).tail (.gathered rfl)
  have left := ((joined.tail (.ended rfl : Machine.Step _ [.ended (.ok ())] _)).tail
    (.closeIdle (c := 1) rfl rfl rfl)).tail (.leave (c := 2) rfl (by decide) rfl)
  have gives : Tile.Gives ⟨[{ binding := some 1 }]⟩ _ (.ok (.ok ())) _ :=
    ⟨_, [], _, _, _, _, left, rfl⟩
  exact ⟨_, _, cut, gives, settled.leaves _ _ gives, value⟩

end TileBench.Kernel
