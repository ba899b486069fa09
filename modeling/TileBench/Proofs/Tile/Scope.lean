import Mathlib.Tactic.Lemma
import TileBench.Tile.Scope

/-!
# The calls of a scope, step by step

A scope does a whole fork-join, or closes, in one go. Here each is cut at the points between its
parts: `forkRest` is what is left of a fork-join that still hands over jobs, `gatherRest` of one
that joins, and `closeFrom` of the end of a scope; each takes the next part off the front.
-/

namespace TileBench.Scope

open TileBench.Tile (Fault)

variable {β : Type} {s : Scope β} {c : Core} {job : Job β}

/-- The scope once a core has been handed a job. -/
def hold (s : Scope β) (c : Core) (job : Job β) : Scope β :=
  s.update c fun state => { state with job := some job }

/-- The scope once a core has run a job of its own accord. -/
def settle (s : Scope β) (c : Core) (o : Outcome β) (thread : Thread) : Scope β :=
  s.update c fun state => finished state o thread

/-! ## One core -/

/-- Changing a core changes that core and no other. -/
lemma getElem?_update (f : CoreState β → CoreState β) (d : Core) :
    (s.update c f).cores[d]? = if c = d then f <$> s.cores[d]? else s.cores[d]? := by
  simp [update, List.getElem?_modify]
  split <;> simp

/-- Changing a core leaves the number of cores. -/
@[simp] lemma size_update (f : CoreState β → CoreState β) : (s.update c f).size = s.size := by
  simp [update, size]

/-- A core counts as spawned while it has a job. -/
lemma isSpawned_eq {state : CoreState β} (here : s.cores[c]? = some state) :
    s.isSpawned c = state.job.isSome := by
  simp [isSpawned, here]

/-- A job is refused where there is no such core or the core is taken, and held otherwise. -/
lemma spawn_value :
    (s.spawn c job).value = if s.size ≤ c then (.error (.coreOutOfRange c s.size), s)
      else if c = orchestrator ∨ s.isSpawned c = true then (.error (.coreBusy c), s)
      else (.ok (), s.hold c job) := by
  unfold spawn hold
  split
  · rfl
  · split
    · rfl
    · rfl

/-- A join is refused where there is no such core or the core has no job, and finishes it
otherwise. -/
lemma join_value :
    (s.join c).value = if s.size ≤ c then (.error (.coreOutOfRange c s.size), s)
      else if s.isSpawned c = false then (.error (.notSpawned c), s)
      else s.finish c := by
  unfold join
  split
  · rfl
  · split
    · rfl
    · rfl

/-- To finish a core is to run its job, which tells how it ended. -/
lemma finish_eq {thread : Thread} {recorded : List β}
    (here : s.cores[c]? = some ⟨thread, some job, recorded⟩) :
    s.finish c = ((job thread).value.1.ending.mapError fun p => .jobPanicked c p.message,
      s.update c fun _ =>
        ⟨(job thread).value.2, none, recorded ++ (job thread).value.1.recorded⟩) := by
  unfold finish
  rw [here]
  dsimp only
  cases (job thread).value.1.ending with
  | ok => rfl
  | error p => rfl

/-! ## Fork-join -/

/-- What is left of a fork-join that has `rest` to hand over, from core `next` on. -/
def forkRest (own : Job β) (next : Core) (rest : List (Job β)) (s : Scope β) :
    Except Payload (Except Fault Unit) × Scope β :=
  match (s.spawnAll next rest).value with
  | (.error e, s) => (.ok (.error e), s)
  | (.ok (), s) =>
    match (s.runOwn own).value with
    | (.error p, s) => (.error p, s)
    | (.ok (), s) =>
      let (outcome, s) := (s.joinAll (List.range' 1 (next - 1 + rest.length))).value
      (.ok outcome, s)

/-- What is left of a fork-join that has `cores` to join, with its answer so far. -/
def gatherRest (cores : List Core) (first : Except Fault Unit) (s : Scope β) :
    Except Payload (Except Fault Unit) × Scope β :=
  let (outcome, s) := (s.joinAll cores).value
  (.ok (first.bind fun _ => outcome), s)

/-- More jobs than cores are refused before any is handed over. -/
lemma forkJoin_many {jobs : List (Job β)} (many : s.size < jobs.length) :
    (s.forkJoin jobs).value = (.ok (.error (.coreOutOfRange (jobs.length - 1) s.size)), s) := by
  simp [forkJoin, many]

/-- A fork-join of no jobs does nothing. -/
lemma forkJoin_nil : (s.forkJoin []).value = (.ok (.ok ()), s) := by
  simp [forkJoin]

/-- A fork-join that fits hands over all jobs but the first from core 1 on. -/
lemma forkJoin_cons {own : Job β} {rest : List (Job β)} (fits : (own :: rest).length ≤ s.size) :
    (s.forkJoin (own :: rest)).value = s.forkRest own 1 rest := by
  unfold forkJoin forkRest
  rw [if_neg (Nat.not_lt.mpr fits)]
  dsimp only
  rw [Logged.value_bind, Nat.sub_self, Nat.zero_add]
  rcases (s.spawnAll 1 rest).value with ⟨_ | _, t⟩
  · rfl
  · dsimp only
    rw [Logged.value_bind]
    rcases (t.runOwn own).value with ⟨_ | _, u⟩
    · rfl
    · rfl

/-- The next job is handed over, and the others after it. -/
lemma forkRest_spawn {own : Job β} {rest : List (Job β)} {t : Scope β} (next : 0 < c)
    (spawned : (s.spawn c job).value = (.ok (), t)) :
    s.forkRest own c (job :: rest) = t.forkRest own (c + 1) rest := by
  have all : (s.spawnAll c (job :: rest)).value = (t.spawnAll (c + 1) rest).value := by
    rw [spawnAll, Logged.value_bind, spawned]
  -- Both join the same cores in the end.
  have count : c - 1 + (job :: rest).length = c + 1 - 1 + rest.length := by
    rw [List.length_cons, Nat.add_sub_cancel, ← Nat.add_assoc, Nat.add_right_comm,
      Nat.sub_add_cancel next]
  unfold forkRest
  rw [all, count]

/-- A job that is refused ends the fork-join; the jobs handed over before stay where they are. -/
lemma forkRest_refuse {own : Job β} {rest : List (Job β)} {e : Fault}
    (refused : (s.spawn c job).value = (.error e, s)) :
    s.forkRest own c (job :: rest) = (.ok (.error e), s) := by
  have all : (s.spawnAll c (job :: rest)).value = (.error e, s) := by
    rw [spawnAll, Logged.value_bind, refused]
    rfl
  unfold forkRest
  rw [all]

/-- The caller runs its own share on its own thread. -/
lemma runOwn_value : (s.runOwn job).value =
    ((job s.caller).value.1.ending, s.settle orchestrator (job s.caller).value.1
      (job s.caller).value.2) :=
  rfl

/-- Once its own share has returned, the caller joins the other cores in order. -/
lemma forkRest_own {own : Job β} {next : Core} (returns : (own s.caller).value.1.ending = .ok ()) :
    s.forkRest own next [] =
      (s.settle orchestrator (own s.caller).value.1 (own s.caller).value.2).gatherRest
        (List.range' 1 (next - 1)) (.ok ()) := by
  have none : (s.spawnAll next ([] : List (Job β))).value = (.ok (), s) := rfl
  unfold forkRest gatherRest
  rw [none]
  dsimp only
  rw [runOwn_value, returns]
  rfl

/-- A panic of its own share unwinds the caller before any join. -/
lemma forkRest_ownPanic {own : Job β} {next : Core} {p : Payload}
    (panics : (own s.caller).value.1.ending = .error p) :
    s.forkRest own next [] =
      (.error p, s.settle orchestrator (own s.caller).value.1 (own s.caller).value.2) := by
  have none : (s.spawnAll next ([] : List (Job β))).value = (.ok (), s) := rfl
  unfold forkRest
  rw [none]
  dsimp only
  rw [runOwn_value, panics]

/-- With no core left to join the answer stands. -/
lemma gatherRest_nil {first : Except Fault Unit} : s.gatherRest [] first = (.ok first, s) := by
  cases first <;> rfl

/-- The next core is joined whatever the answer so far, and the first failure stays. -/
lemma gatherRest_join {cores : List Core} {first x : Except Fault Unit} {t : Scope β}
    (joined : (s.join c).value = (x, t)) :
    s.gatherRest (c :: cores) first = t.gatherRest cores (first.bind fun _ => x) := by
  have all : (s.joinAll (c :: cores)).value =
      (x.bind fun _ => (t.joinAll cores).value.1, (t.joinAll cores).value.2) := by
    rw [joinAll, Logged.value_bind, joined]
    rfl
  unfold gatherRest
  rw [all]
  cases first <;> rfl

/-! ## The number of cores -/

/-- Handing over a job leaves the number of cores. -/
lemma size_spawn : (s.spawn c job).value.2.size = s.size := by
  rw [spawn_value]
  split
  · rfl
  · split
    · rfl
    · exact size_update _

/-- Finishing a core leaves the number of cores. -/
lemma size_finish : (s.finish c).2.size = s.size := by
  unfold finish
  split
  · dsimp only
    split
    · exact size_update _
    · exact size_update _
  · rfl

/-- A join leaves the number of cores. -/
lemma size_join : (s.join c).value.2.size = s.size := by
  rw [join_value]
  split
  · rfl
  · split
    · rfl
    · exact size_finish

/-- Handing over jobs leaves the number of cores. -/
lemma size_spawnAll {jobs : List (Job β)} : (s.spawnAll c jobs).value.2.size = s.size := by
  induction jobs generalizing s c with
  | nil => rfl
  | cons job jobs ih =>
    have size : (s.spawn c job).value.2.size = s.size := size_spawn
    rw [spawnAll, Logged.value_bind]
    generalize (s.spawn c job).value = reply at size ⊢
    obtain ⟨_ | _, t⟩ := reply
    · exact size
    · exact ih.trans size

/-- Joins leave the number of cores. -/
lemma size_joinAll {cores : List Core} : (s.joinAll cores).value.2.size = s.size := by
  induction cores generalizing s with
  | nil => rfl
  | cons c cores ih =>
    rw [joinAll, Logged.value_bind, Logged.value_bind]
    exact ih.trans size_join

/-- The rest of a fork-join leaves the number of cores. -/
lemma size_forkRest {own : Job β} {rest : List (Job β)} :
    (s.forkRest own c rest).2.size = s.size := by
  have spawned : (s.spawnAll c rest).value.2.size = s.size := size_spawnAll
  unfold forkRest
  generalize (s.spawnAll c rest).value = reply at spawned ⊢
  obtain ⟨_ | _, t⟩ := reply
  · exact spawned
  · have ran : (t.runOwn own).value.2.size = t.size := size_update _
    dsimp only
    generalize (t.runOwn own).value = reply at ran ⊢
    obtain ⟨_ | _, u⟩ := reply
    · exact ran.trans spawned
    · exact size_joinAll.trans (ran.trans spawned)

/-- A fork-join leaves the number of cores. -/
lemma size_forkJoin {jobs : List (Job β)} : (s.forkJoin jobs).value.2.size = s.size := by
  by_cases many : s.size < jobs.length
  · rw [forkJoin_many many]
  · cases jobs with
    | nil => rw [forkJoin_nil]
    | cons own rest => rw [forkJoin_cons (Nat.not_lt.mp many), size_forkRest]

/-! ## The end of a scope -/

/-- What is left of the end of a scope that has passed the cores before `next`. -/
def closeFrom (next : Core) (s : Scope β) : Scope β :=
  ((List.range' next (s.size - next)).foldlM closeCore s).value

/-- The end of a scope does nothing to a core without a job. -/
lemma closeCore_idle (idle : s.isSpawned c = false) : (s.closeCore c).value = s := by
  simp [closeCore, idle]

/-- The end of a scope finishes a core that has a job. -/
lemma closeCore_busy (busy : s.isSpawned c = true) : (s.closeCore c).value = (s.finish c).2 := by
  unfold closeCore
  rw [if_pos busy, Logged.value_bind]
  rcases s.finish c with ⟨_ | _, t⟩
  · rfl
  · rfl

/-- Closing one core leaves the number of cores. -/
lemma size_closeCore : (s.closeCore c).value.size = s.size := by
  cases busy : s.isSpawned c with
  | false => rw [closeCore_idle busy]
  | true => rw [closeCore_busy busy, size_finish]

/-- The end of a scope leaves the number of cores. -/
lemma size_close : s.close.value.size = s.size := by
  unfold close
  induction List.range s.size generalizing s with
  | nil => rfl
  | cons c cs ih =>
    rw [List.foldlM_cons, Logged.value_bind, ih, size_closeCore]

/-- Once all cores have been passed the scope is closed. -/
lemma closeFrom_all (last : s.size ≤ c) : s.closeFrom c = s := by
  unfold closeFrom
  rw [Nat.sub_eq_zero_of_le last]
  rfl

/-- The next core is closed, and the others after it. -/
lemma closeFrom_cons {t : Scope β} (here : c < s.size) (closed : (s.closeCore c).value = t)
    (same : t.size = s.size) : s.closeFrom c = t.closeFrom (c + 1) := by
  have count : s.size - c = t.size - (c + 1) + 1 := by
    rw [same]
    have inside : c < s.size := here
    unfold Core at *
    omega
  unfold closeFrom
  rw [count, List.range'_succ, List.foldlM_cons, Logged.value_bind, closed]

/-- Core 0 never has a job when the scope ends, so that closing starts behind it. -/
lemma close_value (idle : s.isSpawned orchestrator = false) (inside : 0 < s.size) :
    s.close.value = s.closeFrom 1 := by
  have all : s.close.value = s.closeFrom 0 := by
    unfold close closeFrom
    rw [List.range_eq_range', Nat.sub_zero]
  rw [all]
  exact closeFrom_cons inside (closeCore_idle idle) rfl

end TileBench.Scope
