import TileBench.Proofs.Accelerator.Offload
import TileBench.Proofs.Dataset.References
import TileBench.Proofs.Verify.Rounds
import TileBench.Suite.Run

/-!
# Every run verifies

A run with the simulated accelerator is refused before anything is verified, for one of the reasons
that `Refuses` names, or every result equals its reference: `Agrees` says what the measured region
leaves. `Ends` follows an attempt through its steps, and there is one lemma for each benchmark. The
headline is `verified_of_run`.
-/

namespace TileBench.Suite

open Accelerator (Attachment SoftwareDevice)

variable {α β : Type} {s : Settings} {files : Files} {elapsed size : Nat}

/-! ## Attempts -/

/-- An attempt does not panic, and ends with a result or a failure. -/
def Ends (x : Attempt α) (y : Except Failure α) : Prop :=
  x.run.run.value = .ok y

namespace Ends

variable {x : Attempt α} {f : α → Attempt β} {v : α} {y : Except Failure α}
    {z : Except Failure β} {e : Failure}

/-- An attempt that only returns ends with what it returns. -/
lemma pure : Ends (Pure.pure v) (.ok v) := rfl

/-- An attempt that may only fail ends as it fails or not. -/
lemma ofExcept : Ends (MonadExcept.ofExcept y) y := by
  cases y <;> rfl

/-- Events do not change how an attempt ends. -/
lemma ofLogged (x : Logged α) : Ends (liftM x) (.ok x.value) := rfl

/-- A checked computation that does not panic ends an attempt with its value. -/
lemma ofChecked {x : Checked α} (eq : x.run.value = .ok v) : Ends (liftM x) (.ok v) :=
  Checked.value_bind_of_eq eq _

/-- A computation that could panic and does not ends an attempt with its value. -/
lemma ofPanic {x : Except Panic α} (eq : x = .ok v) : Ends (liftM x) (.ok v) := by
  rw [eq]
  rfl

/-- A step that ends with a value is followed by the next. -/
lemma bind (first : Ends x (.ok v)) (rest : Ends (f v) z) : Ends (x >>= f) z :=
  (Checked.value_bind_of_eq first _).trans rest

/-- A step that fails ends the attempt. -/
lemma bind_error (first : Ends x (.error e)) : Ends (x >>= f) (.error e) :=
  Checked.value_bind_of_eq first _

/-- Timing a step does not change how it ends. -/
lemma timed (label : String) (elapsed : Nat) (ends : Ends x y) :
    Ends (timed label elapsed x) y := by
  unfold Suite.timed
  refine bind (ofLogged _) ?_
  cases y with
  | error e => exact bind_error ends
  | ok v => exact bind ends (bind (ofLogged _) pure)

end Ends

/-! ## What is measured -/

/-- The size of a run. -/
def problemSize (b : Benchmark) (s : Settings) : Nat :=
  s.size.getD b.defaultSize

/-- The partition of a run that spreads over the cores of a tile. -/
def partitionOf (b : Benchmark) (s : Settings) : Partition :=
  .of (problemSize b s) s.cores (s.policy.getD b.defaultPolicy)

/-- The number of results of a benchmark: a division gives quotients and remainders. -/
def resultCount : Benchmark → Nat
  | .divide => 2
  | _ => 1

/-- Why a run is refused: the tile cannot be built with so many cores, or the default memory of
`2 ^ 18` words has no room for three vectors. -/
inductive Refuses (b : Benchmark) (s : Settings) : Failure → Prop where
  | cores : b.isMultiCore = true → CoreCount.isSupported s.cores = false →
    Refuses b s (.tile (.unsupportedCoreCount s.cores))
  | memory {address : UInt32} : b = .offloadAdd → 2 ^ 18 < 3 * problemSize b s →
    Refuses b s (.accelerator (.outOfBounds address (problemSize b s)))

/-- What the measured region of a run leaves: every result equals its reference. -/
structure Agrees (b : Benchmark) (s : Settings) (m : Measured) : Prop where
  cores : m.cores = if b.isMultiCore then s.cores else 1
  size : m.size = problemSize b s
  partition : m.partition = if b.isMultiCore then some (partitionOf b s) else none
  count : m.results.length = resultCount b
  equal : ∀ r ∈ m.results, r.1 = r.2

/-- What the measured region of a run comes to: it is refused, or every result equals its
reference. -/
inductive Comes (b : Benchmark) (s : Settings) : Except Failure Measured → Prop where
  | refused {e : Failure} : Refuses b s e → Comes b s (.error e)
  | measured {m : Measured} : (∀ e, ¬Refuses b s e) → Agrees b s m → Comes b s (.ok m)

/-- A benchmark on one core is refused only for want of memory. -/
lemma Comes.onCore {b : Benchmark} {results : List (List Int × List Int)}
    (single : b.isMultiCore = false) (fits : b = .offloadAdd → 3 * problemSize b s ≤ 2 ^ 18)
    (count : results.length = resultCount b) (equal : ∀ r ∈ results, r.1 = r.2)
    (release : Logged Unit) : Comes b s (.ok { size := problemSize b s, results, release }) := by
  refine .measured (fun e refused => ?_) ⟨?_, rfl, ?_, count, equal⟩
  · cases refused with
    | cores multi => exact absurd (single.symm.trans multi) nofun
    | memory offload short => exact absurd (fits offload) (Nat.not_le_of_lt short)
  · rw [single]
    rfl
  · rw [single]
    rfl

/-- A single result equals its reference. -/
lemma forall_equal {xs ys : List Int} (same : xs = ys) : ∀ r ∈ [(xs, ys)], r.1 = r.2 :=
  fun _ mem => List.mem_singleton.mp mem ▸ same

/-! ## On one core -/

/-- A blank result has the size that is asked for. -/
lemma length_blank [OfNat α 0] (size : Nat) : (blank size : List α).length = size :=
  List.length_replicate

/-- Two vectors are drawn with the sum that one core computes. -/
lemma exists_sums (size : Nat) :
    ∃ d, SumData.generate size Generator.defaultSeed = .ok d ∧ d.size = size ∧
      d.src0.length = (blank size : List Int32).length ∧
      d.src1.length = (blank size : List Int32).length ∧
      Kernel.add (blank size) d.src0 d.src1 = .ok d.reference := by
  obtain ⟨d, drawn, holds⟩ := SumData.exists_drawn size Generator.defaultSeed
  have length := length_blank (α := Int32) size
  refine ⟨d, drawn, ?_, holds.length0.trans length.symm, holds.length1.trans length.symm,
    holds.added length⟩
  rw [SumData.size, holds.reference, List.length_zipWith, holds.length0,
    holds.length1, Nat.min_self]

/-- Sums on one core agree with their reference. -/
lemma ends_add (elapsed : Nat) (s : Settings) : ∃ x, Comes .add s x ∧
    Ends (do
      let d ← SumData.generate (problemSize .add s) Generator.defaultSeed
      measureAdd d elapsed) x := by
  obtain ⟨d, drawn, size, -, -, added⟩ := exists_sums (problemSize .add s)
  rw [← size] at added
  refine ⟨_, ?_, .bind (.ofPanic drawn) (.bind (.timed _ _ (.ofPanic added)) .pure)⟩
  rw [size]
  exact .onCore (by decide) (by nofun) rfl (forall_equal rfl) _

/-- The product on one core agrees with its reference. -/
lemma ends_multiply (elapsed : Nat) (s : Settings)
    (small : problemSize .multiply s * problemSize .multiply s < sizeLimit) :
    ∃ x, Comes .multiply s x ∧ Ends (measureMultiply (problemSize .multiply s) elapsed) x := by
  obtain ⟨d, drawn, holds⟩ := ProductData.exists_drawn small Generator.defaultSeed
  have multiplied := holds.multiplied small (length_blank _)
  refine ⟨_, ?_, .bind (.ofPanic drawn) (.bind (.timed _ _ (.ofPanic multiplied)) .pure)⟩
  exact .onCore (by decide) (by nofun) rfl (forall_equal rfl) _

/-- Quotients and remainders agree with their references. -/
lemma ends_divide (elapsed : Nat) (s : Settings) :
    ∃ x, Comes .divide s x ∧ Ends (measureDivide (problemSize .divide s) elapsed) x := by
  obtain ⟨d, drawn, holds⟩ :=
    DivisionData.exists_drawn (problemSize .divide s) Generator.defaultSeed
  have divided := holds.divided (length_blank _)
  have remained := holds.remained (length_blank _)
  refine ⟨_, ?_, .bind (.ofPanic drawn)
    (.bind (.timed _ _ (.bind (.ofPanic divided) (.bind (.ofPanic remained) .pure))) .pure)⟩
  refine .onCore (by decide) (by nofun) rfl ?_ _
  exact List.forall_mem_cons.mpr ⟨rfl, forall_equal rfl⟩

/-- The sorted list agrees with its reference. -/
lemma ends_sort (elapsed : Nat) (s : Settings) :
    ∃ x, Comes .sort s x ∧ Ends (measureSort (problemSize .sort s) elapsed) x := by
  obtain ⟨d, drawn, holds⟩ := SortData.exists_drawn (problemSize .sort s) Generator.defaultSeed
  have done := holds.sorted (length_blank _)
  refine ⟨_, ?_, .bind (.ofPanic drawn) (.bind (.timed _ _ (.ofPanic done)) .pure)⟩
  exact .onCore (by decide) (by nofun) rfl (forall_equal rfl) _

/-! ## On a tile -/

/-- A tile has the cores of its topology. -/
lemma cores_start (t : Topology) : (Tile.start t).value.cores = t.cores := by
  have length : (t.peers.map fun c => ({ binding := some c } : Thread)).length + 1 = t.cores := by
    rw [Topology.peers, List.length_map, List.length_range', Nat.sub_add_cancel t.cores_pos]
  exact length

/-- Settings give a topology if their number of cores is supported. -/
lemma topology_eq (s : Settings) : s.topology =
    if supported : CoreCount.isSupported s.cores = true then .ok ⟨s.cores, supported⟩
    else .error (.tile (.unsupportedCoreCount s.cores)) := by
  unfold Settings.topology Topology.ofCount
  split
  · rfl
  · rfl

/-- A kernel on a tile comes to its result, if the tile can be built. -/
lemma ends_onTile {b : Benchmark} (elapsed : Nat) (s : Settings) (multi : b.isMultiCore = true)
    (single : resultCount b = 1) (reference : List Int32)
    {kernel : Tile → Checked (Except Tile.Fault (Partition × List Int32) × Tile)}
    (ran : ∀ tile : Tile, tile.cores = s.cores →
      (kernel tile).run.value = .ok (.ok (partitionOf b s, reference), tile)) :
    ∃ x, Comes b s x ∧
      Ends (measureOnTile s b.name (problemSize b s) elapsed reference kernel) x := by
  unfold measureOnTile
  rw [topology_eq]
  by_cases supported : CoreCount.isSupported s.cores = true
  · rw [dif_pos supported]
    refine ⟨_, ?_, .bind .ofExcept (.bind (.ofLogged _)
      (.bind (.timed _ _ (.bind (.ofChecked (ran _ (cores_start _))) .pure)) .pure))⟩
    refine .measured (fun e refused => ?_) ⟨?_, rfl, ?_, ?_, forall_equal rfl⟩
    · cases refused with
      | cores _ unsupported => exact absurd (supported.symm.trans unsupported) nofun
      | memory offload => exact absurd (offload ▸ multi) (by decide)
    · rw [if_pos multi]
      exact cores_start _
    · rw [if_pos multi]
    · exact single.symm
  · rw [dif_neg supported]
    refine ⟨_, ?_, .bind_error .ofExcept⟩
    exact .refused (.cores multi (Bool.eq_false_iff.mpr supported))

/-- Sums on a tile agree with their reference, or the tile cannot be built. -/
lemma ends_tileAdd (elapsed : Nat) (s : Settings) (small : problemSize .tileAdd s < sizeLimit) :
    ∃ x, Comes .tileAdd s x ∧ Ends (do
      let d ← SumData.generate (problemSize .tileAdd s) Generator.defaultSeed
      measureOnTile s Benchmark.tileAdd.name (problemSize .tileAdd s) elapsed d.reference
        fun tile => Kernel.addOnTile tile (s.policy.getD Benchmark.tileAdd.defaultPolicy)
          (blank (problemSize .tileAdd s)) d.src0 d.src1) x := by
  obtain ⟨d, drawn, -, lengthX, lengthY, added⟩ := exists_sums (problemSize .tileAdd s)
  rw [Kernel.add_eq lengthX lengthY, Except.ok.injEq] at added
  rw [← length_blank (α := Int32) (problemSize .tileAdd s)] at small
  obtain ⟨x, comes, ends⟩ :=
    ends_onTile (b := .tileAdd) elapsed s rfl rfl d.reference fun tile cores => by
      rw [Kernel.addOnTile_value tile _ lengthX lengthY small, added, cores, length_blank]
      rfl
  exact ⟨x, comes, .bind (.ofPanic drawn) ends⟩

/-- The product on a tile agrees with its reference, or the tile cannot be built. -/
lemma ends_tileMultiply (elapsed : Nat) (s : Settings)
    (small : problemSize .tileMultiply s * problemSize .tileMultiply s < sizeLimit) :
    ∃ x, Comes .tileMultiply s x ∧ Ends (do
      let d ← ProductData.generate (problemSize .tileMultiply s) Generator.defaultSeed
      measureOnTile s Benchmark.tileMultiply.name (problemSize .tileMultiply s) elapsed d.reference
        fun tile => Kernel.multiplyOnTile tile (s.policy.getD Benchmark.tileMultiply.defaultPolicy)
          (problemSize .tileMultiply s)
          (blank (problemSize .tileMultiply s * problemSize .tileMultiply s)) d.a d.b) x := by
  obtain ⟨d, drawn, holds⟩ := ProductData.exists_drawn small Generator.defaultSeed
  obtain ⟨x, comes, ends⟩ :=
    ends_onTile (b := .tileMultiply) elapsed s rfl rfl d.reference fun tile cores => by
      rw [Kernel.multiplyOnTile_value tile _ (length_blank _) holds.lengthA holds.lengthB small,
        length_blank, holds.reference, cores]
      rfl
  exact ⟨x, comes, .bind (.ofPanic drawn) ends⟩

/-! ## On an accelerator -/

/-- A simulated accelerator that was just brought up. -/
def fresh (operation : Accelerator.Operation) : SoftwareDevice :=
  { operation, memory := some (.zero SoftwareDevice.defaultMemoryBytes) }

section Accelerated

variable {operation : Accelerator.Operation} {label : String}
  {kernel : Attachment → Checked (Except Accelerator.Fault α × Attachment)}
  {results : α → List (List Int × List Int)}

/-- What a run on an accelerator comes to by the answer of its kernel. -/
def answered (size : Nat) (results : α → List (List Int × List Int)) :
    Except Accelerator.Fault α → Except Failure Measured
  | .error f => .error (.accelerator f)
  | .ok result => .ok { size, results := results result, release := Attachment.release .software }

/-- A run on a simulated accelerator comes to what the answer of its kernel says. -/
lemma measureOnAccelerator_value {answer : Except Accelerator.Fault α} {d : SoftwareDevice}
    (software : s.selection = .software) (ran : (kernel (.software (fresh operation))).run.value =
      .ok (answer, .software d)) :
    (measureOnAccelerator s files operation label size elapsed kernel results).run.value =
      .ok (answered size results answer, files) := by
  unfold measureOnAccelerator
  rw [software]
  change ((liftM (Region.on label) : Checked Region) >>= fun region =>
    kernel (.software (fresh operation)) >>= _).run.value = _
  rw [Checked.value_bind_logged, Checked.value_bind_of_eq ran]
  cases answer with
  | error f => rfl
  | ok result => rfl

/-- Work through the link of a simulated accelerator. -/
lemma use_value {work : {σ : Type} → Accelerator.Link σ → σ → Checked (α × σ)}
    {d d' : SoftwareDevice} {answer : α}
    (worked : (work (SoftwareDevice.link d.operation) d).run.value = .ok (answer, d')) :
    ((Attachment.software d).use work).run.value = .ok (answer, .software d') :=
  Checked.value_bind_of_eq worked _

end Accelerated

/-- Sums on the accelerator agree with their reference, or the memory has no room. -/
lemma offloadAdd_value (elapsed : Nat) (s : Settings) (files : Files)
    (software : s.selection = .software) :
    ∃ x, Comes .offloadAdd s x ∧
      (measureOffloadAdd s files (problemSize .offloadAdd s) elapsed).run.value =
        .ok (x, files) := by
  obtain ⟨d, drawn, -, lengthX, lengthY, added⟩ := exists_sums (problemSize .offloadAdd s)
  have words : (Accelerator.Memory.zero SoftwareDevice.defaultMemoryBytes).wordCount = 2 ^ 18 :=
    Array.size_replicate
  obtain ⟨outcome, result, a, run, adds⟩ :
      ∃ outcome result a, (Accelerator.vectorAdd (SoftwareDevice.link .add)
          { device := fresh .add } (blank (problemSize .offloadAdd s)) d.src0 d.src1).run.value =
            .ok ((outcome, result), a) ∧
        Accelerator.Adds (blank (problemSize .offloadAdd s)) d.src0 d.src1
          (.zero SoftwareDevice.defaultMemoryBytes) outcome result a :=
    Accelerator.vectorAdd_ready lengthX lengthY (words ▸ by decide)
  have fits := adds.fits
  rw [words, length_blank] at fits
  have measured : (measureOffloadAdd s files (problemSize .offloadAdd s) elapsed).run.value =
      .ok (answered (problemSize .offloadAdd s) (fun sums => [(signed sums, signed d.reference)])
        (outcome.map fun _ => result), files) := by
    unfold measureOffloadAdd
    rw [drawn, Checked.value_bind_ok]
    exact measureOnAccelerator_value software (use_value (Checked.value_bind_of_eq run _))
  refine ⟨_, ?_, measured⟩
  cases outcome with
  | ok =>
    obtain ⟨same, -⟩ := adds.sums rfl
    obtain rfl : d.reference = result := Except.ok.inj (added.symm.trans same)
    exact .onCore (by decide) (fun _ => fits.mp rfl) rfl (forall_equal rfl) _
  | error e =>
    obtain ⟨-, address, rfl⟩ := adds.refused e rfl
    rw [length_blank]
    exact .refused (.memory rfl (Nat.lt_of_not_le fun room => nomatch fits.mpr room))

/-- The echo agrees with the word that was sent. -/
lemma echo_value (elapsed : Nat) (s : Settings) (files : Files)
    (software : s.selection = .software) :
    ∃ x, Comes .echo s x ∧ (measureEcho s files (problemSize .echo s) elapsed).run.value =
      .ok (x, files) := by
  have measured : (measureEcho s files (problemSize .echo s) elapsed).run.value =
      .ok (answered (problemSize .echo s) (fun w => [(unsigned [w], unsigned [pattern])])
        (.ok pattern), files) := by
    unfold measureEcho
    exact measureOnAccelerator_value software (use_value rfl)
  exact ⟨_, .onCore (by decide) (by nofun) rfl (forall_equal rfl) _, measured⟩

/-! ## Whole runs -/

/-- The measured region of a run comes to what it should, and leaves the files alone. -/
lemma measure_value (b : Benchmark) (s : Settings) (files : Files) (elapsed : Nat)
    (software : s.selection = .software) (small : problemSize b s < sizeLimit)
    (square : b = .tileMultiply ∨ b = .multiply → problemSize b s * problemSize b s < sizeLimit) :
    ∃ x, Comes b s x ∧ (measure b s files elapsed).run.value = .ok (x, files) := by
  have apart {x : Except Failure Measured} {attempt : Attempt Measured} (comes : Comes b s x)
      (ends : Ends attempt x) :
      ∃ x, Comes b s x ∧ (measure.apart files attempt).run.value = .ok (x, files) :=
    ⟨x, comes, Checked.value_bind_of_eq ends _⟩
  cases b with
  | tileAdd =>
    obtain ⟨x, comes, ends⟩ := ends_tileAdd elapsed s small
    exact apart comes ends
  | tileMultiply =>
    obtain ⟨x, comes, ends⟩ := ends_tileMultiply elapsed s (square (.inl rfl))
    exact apart comes ends
  | add =>
    obtain ⟨x, comes, ends⟩ := ends_add elapsed s
    exact apart comes ends
  | multiply =>
    obtain ⟨x, comes, ends⟩ := ends_multiply elapsed s (square (.inr rfl))
    exact apart comes ends
  | divide =>
    obtain ⟨x, comes, ends⟩ := ends_divide elapsed s
    exact apart comes ends
  | sort =>
    obtain ⟨x, comes, ends⟩ := ends_sort elapsed s
    exact apart comes ends
  | offloadAdd => exact offloadAdd_value elapsed s files software
  | echo => exact echo_value elapsed s files software

/-- Results that equal their references pass, and the reporter receives a pass for each. -/
lemma verifyAll_equal {results : List (List Int × List Int)} (equal : ∀ r ∈ results, r.1 = r.2)
    (reporter : Reporter) : (reporter.verifyAll results).value = (results.map fun r => .of r.1 r.2,
      ((List.replicate results.length Signal.pass).foldlM Reporter.receive reporter).value) := by
  induction results generalizing reporter with
  | nil => rfl
  | cons r rest ih =>
    obtain ⟨first, others⟩ := List.forall_mem_cons.mp equal
    have signals := Verdict.signals_of_passed (Verdict.passed_of_iff.mpr first)
    simp only [Reporter.verifyAll, Logged.value_bind, Reporter.verify_value, signals, ih others]
    rfl

/-- A report of a run that verified: the verdicts passed, and the reporter received a pass for each
of them. -/
structure Verified (b : Benchmark) (s : Settings) (elapsed : Nat) (reporter : Reporter)
    (report : Report) (after : Reporter) : Prop where
  name : report.name = b.name
  cores : report.cores = if b.isMultiCore then s.cores else 1
  size : report.size = problemSize b s
  partition : report.partition = if b.isMultiCore then some (partitionOf b s).text else none
  elapsed : report.elapsed = elapsed
  count : report.verdicts.length = resultCount b
  passed : ∀ v ∈ report.verdicts, v.passed = true
  received : after =
    ((List.replicate (resultCount b) Signal.pass).foldlM Reporter.receive reporter).value

/-- Results that agree with their references are reported as passed. -/
lemma Agrees.verified {b : Benchmark} {m : Measured} (agrees : Agrees b s m) (elapsed : Nat)
    (reporter : Reporter) :
    ∃ report after, (conclude b.name elapsed reporter m).value = (report, after) ∧
      Verified b s elapsed reporter report after := by
  have verdicts := verifyAll_equal agrees.equal reporter
  rw [agrees.count] at verdicts
  refine ⟨_, _, rfl, rfl, agrees.cores, agrees.size, ?_, rfl, ?_, ?_, ?_⟩
  · change m.partition.map Partition.text = _
    rw [agrees.partition]
    split
    · rfl
    · rfl
  · change (reporter.verifyAll m.results).value.1.length = _
    rw [verdicts, List.length_map, agrees.count]
  · change ∀ v ∈ (reporter.verifyAll m.results).value.1, _
    rw [verdicts]
    intro v mem
    obtain ⟨r, there, rfl⟩ := List.mem_map.mp mem
    exact Verdict.passed_of_iff.mpr (agrees.equal r there)
  · change (reporter.verifyAll m.results).value.2 = _
    rw [verdicts]

/-- A run with the simulated accelerator either reports that every result equals its reference, or
is refused before anything is verified: because the tile cannot be built, or because the memory has
no room. -/
theorem verified_of_run (b : Benchmark) (s : Settings) (files : Files) (elapsed : Nat)
    (reporter : Reporter) (software : s.selection = .software) (small : problemSize b s < sizeLimit)
    (square : b = .tileMultiply ∨ b = .multiply → problemSize b s * problemSize b s < sizeLimit) :
    ∃ finished, (run b s files elapsed reporter).run.value = .ok finished ∧ finished.files = files ∧
      ((∃ report, finished.result = .ok report ∧ (∀ e, ¬Refuses b s e) ∧
          Verified b s elapsed reporter report finished.reporter) ∨
        ∃ e, finished.result = .error e ∧ Refuses b s e ∧ finished.reporter = reporter) := by
  obtain ⟨x, comes, measured⟩ := measure_value b s files elapsed software small square
  have ran : (run b s files elapsed reporter).run.value =
      .ok (finish b.name elapsed reporter files x).value :=
    Checked.value_bind_of_eq measured _
  refine ⟨_, ran, ?_⟩
  cases comes with
  | refused refuses => exact ⟨rfl, .inr ⟨_, rfl, refuses, rfl⟩⟩
  | @measured m none agrees =>
    obtain ⟨report, after, concluded, verified⟩ := agrees.verified elapsed reporter
    have finished :
        (finish b.name elapsed reporter files (.ok m)).value = ⟨.ok report, after, files⟩ := by
      rw [finish, Logged.value_bind, concluded]
      rfl
    rw [finished]
    exact ⟨rfl, .inl ⟨report, rfl, none, verified⟩⟩

/-- The settings of ten elements that are spread evenly. -/
def tenOver (cores : Nat) : Settings :=
  { cores, size := some 10, policy := some .balanced, selection := .software }

/-- Four cores share the ten sums, and no tile has six cores. -/
theorem verified_of_run_tenOver :
    (∃ finished report, (run .tileAdd (tenOver 4) {} 7 (.collect 0 [])).run.value = .ok finished ∧
      finished.result = .ok report ∧ report.partition = some "[0,2) [2,4) [4,7) [7,10)" ∧
      report.verdicts.map Verdict.passed = [true] ∧ finished.reporter = .collect 1 []) ∧
    ∃ finished, (run .tileAdd (tenOver 6) {} 7 (.collect 0 [])).run.value = .ok finished ∧
      finished.result = .error (.tile (.unsupportedCoreCount 6)) ∧
      finished.reporter = .collect 0 [] := by
  constructor
  · obtain ⟨finished, ran, -, ⟨report, result, -, verified⟩ | ⟨e, -, refuses, -⟩⟩ :=
      verified_of_run .tileAdd (tenOver 4) {} 7 (.collect 0 []) rfl (by decide) (by nofun)
    · refine ⟨finished, report, ran, result, verified.partition.trans (by decide), ?_,
        verified.received⟩
      obtain ⟨v, one⟩ := List.length_eq_one_iff.mp verified.count
      have passed := verified.passed
      rw [one] at passed ⊢
      exact congrArg (fun b => [b]) (passed v (List.mem_singleton_self v))
    · cases refuses with
      | cores _ unsupported => exact absurd unsupported (by decide)
      | memory offload => exact absurd offload nofun
  · obtain ⟨finished, ran, -, ⟨report, -, none, -⟩ | ⟨e, result, refuses, reporter⟩⟩ :=
      verified_of_run .tileAdd (tenOver 6) {} 7 (.collect 0 []) rfl (by decide) (by nofun)
    · exact absurd (.cores rfl (by decide)) (none _)
    · cases refuses with
      | cores => exact ⟨finished, ran, result, reporter⟩
      | memory offload => exact absurd offload nofun

end TileBench.Suite
