import TileBench.Proofs.Tile.Scope
import TileBench.Tile.Nested

/-!
# Who a thread takes itself to be

A thread is bound to core 0 while it is in a run, and to what it was bound to before once the run is
over; a worker is bound to its core for good. `Job.Steady` says what this means for a job: it leaves
the binding of its thread as it found it, and all that it records fits it.
-/

namespace TileBench

/-- A job leaves the binding of its thread alone, and all that it records fits the binding. -/
def Job.Steady (job : Job Sighting) : Prop :=
  ∀ thread, (job thread).value.2.binding = thread.binding ∧
    ∀ s ∈ (job thread).value.1.recorded, s.At thread.binding

/-- What a core recorded fits its number. -/
def AtCore (c : Core) (recorded : List Sighting) : Prop :=
  ∀ s ∈ recorded, s.At (some c)

/-- What is recorded in two parts fits if both do. -/
lemma AtCore.append {c : Core} {recorded more : List Sighting} (first : AtCore c recorded)
    (second : AtCore c more) : AtCore c (recorded ++ more) :=
  fun s mem => (List.mem_append.mp mem).elim (first s) (second s)

/-- The thread of a core is bound to it, its job is steady, and what it recorded fits it. -/
structure CoreState.Sound (c : Core) (state : CoreState Sighting) : Prop where
  bound : state.thread.binding = some c
  steady : ∀ job, state.job = some job → job.Steady
  recorded : AtCore c state.recorded

/-- A core that has done nothing yet. -/
lemma CoreState.Sound.idle {c : Core} {thread : Thread} (bound : thread.binding = some c) :
    CoreState.Sound c { thread } :=
  ⟨bound, nofun, nofun⟩

/-- A steady job leaves its core sound. -/
lemma CoreState.Sound.finished {c : Core} {state : CoreState Sighting} {job : Job Sighting}
    (sound : state.Sound c) (steady : job.Steady) :
    (Scope.finished state (job state.thread).value.1 (job state.thread).value.2).Sound c := by
  obtain ⟨binding, fits⟩ := steady state.thread
  rw [sound.bound] at binding fits
  exact ⟨binding, nofun, sound.recorded.append fits⟩

namespace Scope

/-- All cores of a scope are sound, of which there is at least the caller. -/
structure Sound (s : Scope Sighting) : Prop where
  positive : 0 < s.size
  cores : ∀ (c : Core) (state : CoreState Sighting), s.cores[c]? = some state → state.Sound c

namespace Sound

variable {s : Scope Sighting} {c : Core} {job : Job Sighting}

/-- A change to one core that keeps it sound keeps the scope sound. -/
lemma update {f : CoreState Sighting → CoreState Sighting} (sound : s.Sound)
    (keeps : ∀ state, s.cores[c]? = some state → (f state).Sound c) : (s.update c f).Sound where
  positive := by
    rw [size_update]
    exact sound.positive
  cores d state here := by
    rw [getElem?_update] at here
    split at here
    next same =>
      subst same
      obtain ⟨old, there, rfl⟩ := Option.map_eq_some_iff.mp here
      exact keeps old there
    next other => exact sound.cores d state here

/-- The caller is core 0. -/
lemma exists_caller (sound : s.Sound) :
    ∃ state, s.cores[orchestrator]? = some state ∧ s.caller = state.thread ∧
      state.Sound orchestrator := by
  have here := List.getElem?_eq_getElem sound.positive
  refine ⟨_, here, ?_, sound.cores _ _ here⟩
  unfold caller
  rw [show s.cores[orchestrator]? = _ from here]
  rfl

/-- The caller is bound to core 0. -/
lemma caller_bound (sound : s.Sound) : s.caller.binding = some orchestrator := by
  obtain ⟨state, -, eq, caller⟩ := sound.exists_caller
  rw [eq, caller.bound]

/-- Handing over a steady job keeps the scope sound. -/
lemma spawn (sound : s.Sound) (steady : job.Steady) : (s.spawn c job).value.2.Sound := by
  rw [spawn_value]
  split
  · exact sound
  · split
    · exact sound
    · refine sound.update fun state here => ?_
      have core := sound.cores c state here
      exact ⟨core.bound, fun _ same => Option.some.inj same ▸ steady, core.recorded⟩

/-- Running the job of a core keeps the scope sound. -/
lemma finish (sound : s.Sound) : (s.finish c).2.Sound := by
  cases here : s.cores[c]? with
  | none =>
    unfold Scope.finish
    rwa [here]
  | some state =>
    obtain ⟨thread, _ | job, recorded⟩ := state
    · unfold Scope.finish
      rwa [here]
    · have core := sound.cores c _ here
      rw [finish_eq here]
      exact sound.update fun _ _ => core.finished (core.steady job rfl)

/-- A join keeps the scope sound. -/
lemma join (sound : s.Sound) : (s.join c).value.2.Sound := by
  rw [join_value]
  split
  · exact sound
  · split
    · exact sound
    · exact sound.finish

/-- Closing one core keeps the scope sound. -/
lemma closeCore (sound : s.Sound) : (s.closeCore c).value.Sound := by
  cases busy : s.isSpawned c with
  | false => rwa [closeCore_idle busy]
  | true =>
    rw [closeCore_busy busy]
    exact sound.finish

/-- The end of a scope leaves it sound. -/
lemma close (sound : s.Sound) : s.close.value.Sound := by
  unfold Scope.close
  induction List.range s.size generalizing s with
  | nil => exact sound
  | cons c cs ih =>
    rw [List.foldlM_cons, Logged.value_bind]
    exact ih sound.closeCore

/-- Handing over steady jobs keeps the scope sound. -/
lemma spawnAll {jobs : List (Job Sighting)} (sound : s.Sound) (steady : ∀ job ∈ jobs, job.Steady) :
    (s.spawnAll c jobs).value.2.Sound := by
  induction jobs generalizing s c with
  | nil => exact sound
  | cons job jobs ih =>
    have first : (s.spawn c job).value.2.Sound := sound.spawn (steady job List.mem_cons_self)
    rw [Scope.spawnAll, Logged.value_bind]
    generalize (s.spawn c job).value = reply at first
    obtain ⟨_ | _, t⟩ := reply
    · exact first
    · exact ih first fun job mem => steady job (List.mem_cons_of_mem _ mem)

/-- Joins keep the scope sound. -/
lemma joinAll {cores : List Core} (sound : s.Sound) : (s.joinAll cores).value.2.Sound := by
  induction cores generalizing s with
  | nil => exact sound
  | cons c cores ih =>
    rw [Scope.joinAll, Logged.value_bind, Logged.value_bind]
    exact ih sound.join

/-- A steady share of the caller keeps the scope sound. -/
lemma runOwn (sound : s.Sound) (steady : job.Steady) : (s.runOwn job).value.2.Sound := by
  obtain ⟨state, here, caller, core⟩ := sound.exists_caller
  rw [runOwn_value, caller]
  refine sound.update fun state' here' => ?_
  obtain rfl := Option.some.inj (here.symm.trans here')
  exact core.finished steady

/-- The rest of a fork-join of steady jobs keeps the scope sound. -/
lemma forkRest {own : Job Sighting} {rest : List (Job Sighting)} (sound : s.Sound)
    (steady : own.Steady) (others : ∀ job ∈ rest, job.Steady) :
    (s.forkRest own c rest).2.Sound := by
  have spawned : (s.spawnAll c rest).value.2.Sound := sound.spawnAll others
  unfold Scope.forkRest
  generalize (s.spawnAll c rest).value = reply at spawned
  obtain ⟨_ | _, t⟩ := reply
  · exact spawned
  · have ran : (t.runOwn own).value.2.Sound := spawned.runOwn steady
    dsimp only
    generalize (t.runOwn own).value = reply at ran
    obtain ⟨_ | _, u⟩ := reply
    · exact ran
    · exact ran.joinAll

/-- A fork-join of steady jobs keeps the scope sound. -/
lemma forkJoin {jobs : List (Job Sighting)} (sound : s.Sound) (steady : ∀ job ∈ jobs, job.Steady) :
    (s.forkJoin jobs).value.2.Sound := by
  by_cases many : s.size < jobs.length
  · rwa [forkJoin_many many]
  · cases jobs with
    | nil => rwa [forkJoin_nil]
    | cons own rest =>
      rw [forkJoin_cons (Nat.not_lt.mp many)]
      exact sound.forkRest (steady own List.mem_cons_self) fun job mem =>
        steady job (List.mem_cons_of_mem _ mem)

/-- The caller may see something on a thread that has kept its binding. -/
lemma note {v : Sighting} {thread : Thread} (sound : s.Sound) (fits : v.At (some orchestrator))
    (bound : thread.binding = some orchestrator) : (s.note v thread).Sound := by
  refine sound.update fun state here => ?_
  have core := sound.cores _ state here
  exact ⟨bound, core.steady, core.recorded.append fun s mem => List.mem_singleton.mp mem ▸ fits⟩

end Sound

end Scope

namespace Tile

/-- Every worker of a tile is bound to its core. -/
def Sound (tile : Tile) : Prop :=
  ∀ i thread, tile.workers[i]? = some thread → thread.binding = some (i + 1)

/-- The workers of a new tile are bound to their cores. -/
lemma sound_start (t : Topology) : (Tile.start t).value.Sound := by
  intro i thread here
  change (t.peers.map _)[i]? = some thread at here
  rw [List.getElem?_map] at here
  obtain ⟨c, there, rfl⟩ := Option.map_eq_some_iff.mp here
  obtain ⟨-, rfl⟩ := List.getElem?_eq_some_iff.mp there
  simp [Topology.peers, Nat.add_comm]

variable {tile : Tile} {caller : Thread}

/-- On a sound tile a scope starts sound. -/
lemma Sound.scope (sound : tile.Sound) (caller : Thread) :
    (tile.scope caller : Scope Sighting).Sound where
  positive := Nat.succ_pos _
  cores c state here := by
    cases c with
    | zero =>
      obtain rfl := Option.some.inj here
      exact .idle rfl
    | succ i =>
      simp only [Tile.scope, List.map_cons, List.getElem?_cons_succ, List.getElem?_map] at here
      obtain ⟨thread, there, rfl⟩ := Option.map_eq_some_iff.mp here
      exact .idle (sound i thread there)

/-- A run on a tile gives the calling thread its binding back, what each core recorded fits it, and
the workers keep their cores. -/
structure Ended.Sound {α : Type} (caller : Thread) (ended : Ended Sighting α) : Prop where
  restored : ended.caller.binding = caller.binding
  recorded : ∀ c seen, ended.recorded[c]? = some seen → AtCore c seen
  tile : ended.tile.Sound

/-- A run whose body keeps its scope sound gives back what it should. -/
lemma Sound.run {α : Type} {program : Scope Sighting → Logged (Except Payload α × Scope Sighting)}
    (sound : tile.Sound) (caller : Thread)
    (keeps : ∀ s : Scope Sighting, s.Sound → (program s).value.2.Sound) :
    (tile.run caller program).value.Sound caller := by
  have closed := (keeps _ (sound.scope caller)).close
  constructor
  · rfl
  · intro c seen here
    change (List.map _ _)[c]? = _ at here
    obtain ⟨state, there, rfl⟩ := Option.map_eq_some_iff.mp (List.getElem?_map .. ▸ here)
    exact (closed.cores c state there).recorded
  · intro i thread here
    change (List.map _ (List.tail _))[i]? = _ at here
    rw [List.getElem?_map, List.getElem?_tail] at here
    obtain ⟨state, there, rfl⟩ := Option.map_eq_some_iff.mp here
    exact (closed.cores (i + 1) state there).bound

/-- What a thread saw of a run fits its binding. -/
lemma Ended.Sound.at {caller : Thread} {ended : Ended Sighting Unit} (sound : ended.Sound caller) :
    Sighting.At caller.binding (.ofRun caller ended) := by
  unfold Sighting.ofRun
  rw [sound.restored]
  exact .run sound.recorded

end Tile

mutual

/-- Every job that is built from runs is steady. -/
theorem JobCode.steady : (code : JobCode) → code.job.Steady
  | .done, thread => ⟨rfl, nofun⟩
  | .panic p, thread => ⟨rfl, nofun⟩
  | .observe next, thread => by
    obtain ⟨binding, fits⟩ := (next thread.binding).steady thread
    refine ⟨binding, fun s mem => ?_⟩
    rcases List.mem_cons.mp mem with rfl | mem
    · exact .bound _
    · exact fits s mem
  | .run tile body next, thread => by
    have ended := tile.sound.run thread body.sound
    obtain ⟨binding, fits⟩ := (next (tile.tile.run thread body.carryOut).value.result).steady
      (tile.tile.run thread body.carryOut).value.caller
    rw [ended.restored] at binding fits
    refine ⟨binding, fun s mem => ?_⟩
    rcases List.mem_cons.mp mem with rfl | mem
    · exact ended.at
    · exact fits s mem

/-- Every body that is built from runs keeps its scope sound. -/
theorem BodyCode.sound : (code : BodyCode) → (s : Scope Sighting) → s.Sound →
    (code.carryOut s).value.2.Sound
  | .done, s, sound => sound
  | .panic p, s, sound => sound
  | .observe next, s, sound => by
    refine (next s.caller.binding).sound _ (sound.note ?_ sound.caller_bound)
    rw [sound.caller_bound]
    exact .bound _
  | .run tile body next, s, sound => by
    have ended := tile.sound.run s.caller body.sound
    refine (next _).sound _ (sound.note ?_ (ended.restored.trans sound.caller_bound))
    rw [← sound.caller_bound]
    exact ended.at
  | .spawn c job next, s, sound => (next _).sound _ (sound.spawn job.steady)
  | .join c next, s, sound => (next _).sound _ sound.join
  | .forkJoin count jobs next, s, sound => by
    refine (next _).sound _ (sound.forkJoin fun job mem => ?_)
    obtain ⟨i, -, rfl⟩ := List.mem_map.mp mem
    exact (jobs i).steady

/-- Every tile that runs have been made on is sound. -/
theorem TileCode.sound : (code : TileCode) → code.tile.Sound
  | .start t => Tile.sound_start t
  | .after tile caller body => (tile.sound.run caller body.sound).tile

end

end TileBench
