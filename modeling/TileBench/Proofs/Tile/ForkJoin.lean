import TileBench.Proofs.Tile.Scope
import TileBench.Tile.Run

/-!
# What a fork-join computes

A fork-join on cores that are free runs each job once, on the core that stands at its place, and
answers with the failure of the first core whose job panicked. `forkJoin_value` gives the whole
scope after it, and `run_values` what a run leaves whose body is one fork-join of jobs that return.
-/

namespace TileBench.Scope

open TileBench.Tile (Fault)

variable {β : Type}

/-- A core that has been handed a job. -/
def holding (share : CoreState β × Job β) : CoreState β :=
  { share.1 with job := some share.2 }

/-- A core that has run a job. -/
def settled (share : CoreState β × Job β) : CoreState β :=
  finished share.1 (share.2 share.1.thread).value.1 (share.2 share.1.thread).value.2

/-- The failure of the first job that panicked; the jobs ran on consecutive cores from `c` on. -/
def firstFailure : Core → List (CoreState β × Job β) → Except Fault Unit
  | _, [] => .ok ()
  | c, share :: shares =>
    ((share.2 share.1.thread).value.1.ending.mapError fun p =>
      .jobPanicked c p.message).bind fun _ =>
      firstFailure (c + 1) shares

variable {before after : List (CoreState β)} {shares : List (CoreState β × Job β)}
  {share : CoreState β × Job β}

/-- The core behind some others is the one at their number. -/
lemma cores_at (state : CoreState β) :
    (⟨before ++ state :: after⟩ : Scope β).cores[before.length]? = some state := by
  simp

/-- Changing the core behind some others changes it where it stands. -/
lemma update_at (state : CoreState β) (f : CoreState β → CoreState β) :
    (⟨before ++ state :: after⟩ : Scope β).update before.length f =
      ⟨before ++ f state :: after⟩ := by
  have modified : (before ++ state :: after).modify before.length f =
      before ++ f state :: after := by
    induction before with
    | nil => rfl
    | cons first before ih => simpa using ih
  rw [update, modified]

/-- A free peer takes a job where it stands. -/
lemma spawn_at {state : CoreState β} (after : List (CoreState β)) (job : Job β) (peer : before ≠ [])
    (free : state.job = none) :
    ((⟨before ++ state :: after⟩ : Scope β).spawn before.length job).value =
      (.ok (), ⟨before ++ holding (state, job) :: after⟩) := by
  have inside : ¬ (⟨before ++ state :: after⟩ : Scope β).size ≤ before.length := by
    simp [size]
  have idle : ¬ (before.length = orchestrator ∨
      (⟨before ++ state :: after⟩ : Scope β).isSpawned before.length = true) := by
    rw [isSpawned_eq (cores_at state), free]
    exact fun taken =>
      taken.elim (fun core => peer (List.length_eq_zero_iff.mp core)) Bool.false_ne_true
  rw [spawn_value, if_neg inside, if_neg idle, hold, update_at]
  rfl

/-- Free cores take the jobs that are handed to them one after another. -/
lemma spawnAll_value (before after : List (CoreState β)) (peer : before ≠ [])
    (free : ∀ share ∈ shares, share.1.job = none) :
    ((⟨before ++ (shares.map Prod.fst ++ after)⟩ : Scope β).spawnAll before.length
        (shares.map Prod.snd)).value =
      (.ok (), ⟨before ++ (shares.map holding ++ after)⟩) := by
  induction shares generalizing before with
  | nil => rfl
  | cons share shares ih =>
    -- The core that has taken its job joins those before the next one.
    have spawned :=
      spawn_at (shares.map Prod.fst ++ after) share.2 peer (free share List.mem_cons_self)
    have rest := ih (before ++ [holding share]) (by simp) fun share mem =>
      free share (List.mem_cons_of_mem _ mem)
    simp only [List.append_assoc, List.singleton_append, List.length_append,
      List.length_singleton] at rest
    simp only [List.map_cons, List.cons_append, spawnAll, Logged.value_bind, spawned]
    exact rest

/-- A join runs the job of the core where it stands. -/
lemma join_at : ((⟨before ++ holding share :: after⟩ : Scope β).join before.length).value =
    ((share.2 share.1.thread).value.1.ending.mapError fun p => .jobPanicked before.length p.message,
      ⟨before ++ settled share :: after⟩) := by
  have inside : ¬ (⟨before ++ holding share :: after⟩ : Scope β).size ≤ before.length := by
    simp [size]
  have busy : ¬ (⟨before ++ holding share :: after⟩ : Scope β).isSpawned before.length = false := by
    rw [isSpawned_eq (cores_at _)]
    exact Ne.symm Bool.false_ne_true
  rw [join_value, if_neg inside, if_neg busy, finish_eq (cores_at (holding share)), update_at]
  rfl

/-- Joins run the jobs and give the first failure. -/
lemma joinAll_value (before after : List (CoreState β)) (shares : List (CoreState β × Job β)) :
    ((⟨before ++ (shares.map holding ++ after)⟩ : Scope β).joinAll
      (List.range' before.length shares.length)).value =
    (firstFailure before.length shares, ⟨before ++ (shares.map settled ++ after)⟩) := by
  induction shares generalizing before with
  | nil => rfl
  | cons share shares ih =>
    have rest := ih (before ++ [settled share])
    simp only [List.append_assoc, List.singleton_append, List.length_append,
      List.length_singleton] at rest
    simp only [List.map_cons, List.cons_append, List.length_cons, List.range'_succ, joinAll,
      Logged.value_bind, Logged.value_pure, join_at, rest, firstFailure]

/-- A fork-join on free cores runs each job on the core at its place and answers with the first
failure. -/
lemma forkJoin_value (core : CoreState β) (own : Job β) (after : List (CoreState β))
    (free : ∀ share ∈ shares, share.1.job = none)
    (returns : (own core.thread).value.1.ending = .ok ()) :
    ((⟨core :: (shares.map Prod.fst ++ after)⟩ : Scope β).forkJoin
      (own :: shares.map Prod.snd)).value =
      (.ok (firstFailure 1 shares), ⟨settled (core, own) :: (shares.map settled ++ after)⟩) := by
  have fits : (own :: shares.map Prod.snd).length ≤
      (⟨core :: (shares.map Prod.fst ++ after)⟩ : Scope β).size := by
    simp [size]
  have spawned := spawnAll_value [core] after (by simp) free
  have joined := joinAll_value [settled (core, own)] after shares
  have ran : ((⟨core :: (shares.map holding ++ after)⟩ : Scope β).runOwn own).value =
      (.ok (), ⟨settled (core, own) :: (shares.map holding ++ after)⟩) := by
    rw [runOwn_value]
    exact Prod.ext returns rfl
  simp only [List.singleton_append, List.length_singleton] at spawned joined
  rw [forkJoin_cons fits, forkRest]
  simp only [spawned, ran, Nat.sub_self, Nat.zero_add, List.length_map, joined]

/-- Where no core has a job, closing a scope does nothing. -/
lemma close_free {s : Scope β} (free : ∀ state ∈ s.cores, state.job = none) :
    s.close.value = s := by
  have idle (c : Core) : s.isSpawned c = false := by
    cases here : s.cores[c]? with
    | none => simp [isSpawned, here]
    | some state =>
      rw [isSpawned_eq here, free state (List.mem_of_getElem? here), Option.isSome_none]
  unfold close
  induction List.range s.size with
  | nil => rfl
  | cons c cs ih => rw [List.foldlM_cons, Logged.value_bind, closeCore_idle (idle c), ih]

end TileBench.Scope

namespace TileBench.Tile

open Scope

variable {β : Type}

/-- A worker beside what its job records. -/
def shareOf (task : Thread × List β) : CoreState β × Job β :=
  ({ thread := task.1 }, Job.values task.2)

/-- Jobs that only record values do not fail. -/
lemma firstFailure_values (c : Core) (tasks : List (Thread × List β)) :
    firstFailure c (tasks.map shareOf) = .ok () := by
  induction tasks generalizing c with
  | nil => rfl
  | cons task tasks ih => exact ih (c + 1)

/-- A fork-join of jobs that only record values leaves each list with its core. -/
lemma forkJoin_values (core : CoreState β) (own : List β) (tasks : List (Thread × List β)) :
    ((⟨core :: tasks.map fun task => { thread := task.1 }⟩ : Scope β).forkJoin
        (Job.values own :: tasks.map fun task => Job.values task.2)).value =
      (.ok (.ok ()), ⟨⟨core.thread, none, core.recorded ++ own⟩ ::
        tasks.map fun task => ⟨task.1, none, task.2⟩⟩) := by
  have free : ∀ share ∈ tasks.map shareOf, share.1.job = none := by
    intro share mem
    obtain ⟨task, -, rfl⟩ := List.mem_map.mp mem
    rfl
  have value := forkJoin_value core (Job.values own) [] free rfl
  simp only [List.map_map, List.append_nil, firstFailure_values] at value
  exact value

/-- There is nothing to close behind a fork-join whose cores have all been joined. -/
lemma close_values (thread : Thread) (own : List β) (tasks : List (Thread × List β)) :
    (⟨⟨thread, none, own⟩ :: tasks.map fun task => ⟨task.1, none, task.2⟩⟩ : Scope β).close.value =
      ⟨⟨thread, none, own⟩ :: tasks.map fun task => ⟨task.1, none, task.2⟩⟩ := by
  refine close_free fun state mem => ?_
  cases mem with
  | head => rfl
  | tail _ mem =>
    obtain ⟨task, -, rfl⟩ := List.mem_map.mp mem
    rfl

/-- A run whose body is a fork-join of jobs that record values, one job per core. -/
lemma run_values {tile : Tile} {values : List (List β)} (caller : Thread)
    (count : values.length = tile.cores) :
    (tile.run caller fun s => s.forkJoin (values.map Job.values)).value =
      ⟨.ok (.ok ()), values, caller, tile⟩ := by
  obtain ⟨workers⟩ := tile
  cases values with
  | nil => cases count
  | cons own values =>
    obtain ⟨tasks, rfl, rfl⟩ : ∃ tasks : List (Thread × List β),
        tasks.map Prod.fst = workers ∧ tasks.map Prod.snd = values := by
      have same : values.length = workers.length := Nat.succ.inj count
      exact ⟨workers.zip values, List.map_fst_zip (Nat.le_of_eq same.symm),
        List.map_snd_zip (Nat.le_of_eq same)⟩
    have joined :=
      forkJoin_values { thread := { caller with binding := some orchestrator } } own tasks
    have cores : (scope ⟨tasks.map Prod.fst⟩ caller : Scope β) =
        ⟨{ thread := { caller with binding := some orchestrator } } ::
          tasks.map fun task => { thread := task.1 }⟩ := by
      simp [scope]
    have handed : (own :: tasks.map Prod.snd).map Job.values =
        Job.values own :: tasks.map fun task => Job.values task.2 := by
      simp
    rw [run, Logged.value_bind, cores, handed, joined, Logged.value_bind, close_values]
    simp [ended, Function.comp_def]

end TileBench.Tile
