import TileBench.Proofs.Tile.Scope
import TileBench.Tile.Run

/-!
# What a fork-join leaves outstanding

Which cores have a job that has not been joined, before and after each call of a scope. A join takes
the job off its core whatever it answers, and hand-overs go on until a core refuses (`HandedOver`).
A fork-join that a core refuses on the way leaves its first jobs with their cores:
`spawned_of_forkJoin` says when, and with which.
-/

namespace TileBench.Scope

open TileBench.Tile (Fault)

variable {β : Type} {s t : Scope β} {c d : Core} {job : Job β}

/-! ## One core -/

/-- A core that is not there has no job. -/
lemma isSpawned_of_size_le (beyond : s.size ≤ c) : s.isSpawned c = false := by
  rw [isSpawned, List.getElem?_eq_none beyond]
  rfl

/-- Changing a core changes no other. -/
lemma isSpawned_update_of_ne (f : CoreState β → CoreState β) (other : d ≠ c) :
    (s.update c f).isSpawned d = s.isSpawned d := by
  rw [isSpawned, getElem?_update, if_neg (Ne.symm other)]
  rfl

/-- A core that is handed a job has one. -/
lemma isSpawned_hold (inside : c < s.size) :
    (s.hold c job).isSpawned d = (s.isSpawned d || decide (d = c)) := by
  by_cases same : d = c
  · subst same
    have here := List.getElem?_eq_getElem inside
    rw [hold, isSpawned, getElem?_update, if_pos rfl, here]
    simp
  · rw [hold, isSpawned_update_of_ne _ same, decide_eq_false same, Bool.or_false]

/-- A core that has run its job has none any more. -/
lemma isSpawned_update_none {f : CoreState β → CoreState β}
    (settles : ∀ state, (f state).job = none) :
    (s.update c f).isSpawned d = (s.isSpawned d && decide (d ≠ c)) := by
  by_cases same : d = c
  · subst same
    rw [isSpawned, getElem?_update, if_pos rfl]
    cases s.cores[d]? with
    | none => simp
    | some state => simp [settles]
  · rw [isSpawned_update_of_ne _ same, decide_eq_true same, Bool.and_true]

/-- Taking away the job of a core that has none changes nothing. -/
lemma isSpawned_eq_and_of_free (free : s.isSpawned c = false) :
    s.isSpawned d = (s.isSpawned d && decide (d ≠ c)) := by
  by_cases same : d = c
  · rw [same, free, Bool.false_and]
  · rw [decide_eq_true same, Bool.and_true]

/-- A join takes the job off its core, whatever it answers. -/
lemma isSpawned_join : (s.join c).value.2.isSpawned d = (s.isSpawned d && decide (d ≠ c)) := by
  rw [join_value]
  by_cases beyond : s.size ≤ c
  · rw [if_pos beyond]
    exact isSpawned_eq_and_of_free (isSpawned_of_size_le beyond)
  · rw [if_neg beyond]
    cases busy : s.isSpawned c with
    | false =>
      rw [if_pos rfl]
      exact isSpawned_eq_and_of_free busy
    | true =>
      rw [if_neg Bool.noConfusion]
      obtain ⟨⟨thread, held, recorded⟩, here⟩ : ∃ state, s.cores[c]? = some state :=
        ⟨_, List.getElem?_eq_getElem (Nat.not_le.mp beyond)⟩
      rw [isSpawned_eq here] at busy
      cases held with
      | none => cases busy
      | some job =>
        rw [finish_eq here]
        exact isSpawned_update_none fun _ => rfl

/-- Joins take the jobs off their cores. -/
lemma isSpawned_joinAll (cores : List Core) :
    (s.joinAll cores).value.2.isSpawned d = (s.isSpawned d && decide (d ∉ cores)) := by
  induction cores generalizing s with
  | nil => simp [joinAll]
  | cons c cores ih =>
    rw [joinAll, Logged.value_bind, Logged.value_bind]
    refine (ih (s := (s.join c).value.2)).trans ?_
    rw [isSpawned_join, Bool.and_assoc, ← Bool.decide_and]
    simp only [List.mem_cons, not_or]

/-- The own share of the caller leaves the other cores alone. -/
lemma isSpawned_runOwn (free : s.isSpawned orchestrator = false) :
    (s.runOwn job).value.2.isSpawned d = s.isSpawned d := by
  rw [runOwn_value]
  exact (isSpawned_update_none fun _ => rfl).trans (isSpawned_eq_and_of_free free).symm

/-! ## Hand-overs -/

/-- What handing `count` jobs to the cores from `c` on gives: each of them takes its job, or the
first that is busy refuses, and those before it keep theirs. -/
inductive HandedOver (s : Scope β) (c count : Nat) (t : Scope β) : Except Fault Unit → Prop where
  | all : (∀ e, c ≤ e → e < c + count → s.isSpawned e = false) →
    (∀ d, t.isSpawned d = (s.isSpawned d || decide (c ≤ d ∧ d < c + count))) →
    HandedOver s c count t (.ok ())
  | refused {e : Nat} : c ≤ e → e < c + count → s.isSpawned e = true →
    (∀ d, c ≤ d → d < e → s.isSpawned d = false) →
    (∀ d, t.isSpawned d = (s.isSpawned d || decide (c ≤ d ∧ d < e))) →
    HandedOver s c count t (.error (.coreBusy e))

/-- One more core in front, which takes its job. -/
lemma HandedOver.cons {c count : Nat} {x : Except Fault Unit} (free : s.isSpawned c = false)
    (inside : c < s.size) (rest : HandedOver (s.hold c job) (c + 1) count t x) :
    HandedOver s c (count + 1) t x := by
  have before (d : Nat) (behind : c < d) : (s.hold c job).isSpawned d = s.isSpawned d := by
    rw [isSpawned_hold inside, decide_eq_false (Nat.ne_of_gt behind), Bool.or_false]
  -- The core in front and the cores behind it are one run of cores.
  have marks (d : Nat) (e : Nat) (low : c < e) (after : t.isSpawned d =
      ((s.hold c job).isSpawned d || decide (c + 1 ≤ d ∧ d < e))) :
      t.isSpawned d = (s.isSpawned d || decide (c ≤ d ∧ d < e)) := by
    rw [after, isSpawned_hold inside, Bool.or_assoc, ← Bool.decide_or]
    refine congrArg _ (decide_eq_decide.mpr ?_)
    unfold Core
    omega
  cases rest with
  | all others after =>
    refine .all (fun e low high => ?_) fun d => ?_
    · rcases Nat.eq_or_lt_of_le low with rfl | behind
      · exact free
      · rw [← before e behind]
        exact others e behind (by omega)
    · exact marks d _ (by omega) ((after d).trans (by rw [Nat.add_right_comm, Nat.add_assoc]))
  | @refused e low high busy others after =>
    rw [before e low] at busy
    refine .refused (Nat.le_of_lt low) (by omega) busy (fun d first last => ?_) fun d =>
      marks d e low (after d)
    rcases Nat.eq_or_lt_of_le first with rfl | behind
    · exact free
    · rw [← before d behind]
      exact others d behind last

/-- Jobs are handed over one after another until a core refuses. -/
lemma handedOver_spawnAll {c : Nat} {jobs : List (Job β)} (peer : 0 < c)
    (inside : c + jobs.length ≤ s.size) :
    HandedOver s c jobs.length (s.spawnAll c jobs).value.2 (s.spawnAll c jobs).value.1 := by
  induction jobs generalizing s c with
  | nil =>
    refine .all (fun e low high => absurd low (Nat.not_le.mpr high)) fun d => ?_
    rw [decide_eq_false fun within => Nat.not_lt.mpr within.1 within.2, Bool.or_false]
    rfl
  | cons job jobs ih =>
    rw [List.length_cons] at inside ⊢
    have here : c < s.size := by omega
    rw [spawnAll, Logged.value_bind, spawn_value, if_neg (Nat.not_le.mpr here)]
    cases busy : s.isSpawned c with
    | true =>
      rw [if_pos (.inr rfl)]
      refine .refused (Nat.le_refl c) (by omega) busy
        (fun d low high => absurd low (Nat.not_le.mpr high)) ?_
      intro d
      rw [decide_eq_false fun within => Nat.not_lt.mpr within.1 within.2, Bool.or_false]
      rfl
    | false =>
      have idle : ¬ (c = orchestrator ∨ false = true) := fun taken =>
        taken.elim (Nat.ne_of_gt peer) Bool.noConfusion
      rw [if_neg idle]
      refine (ih (Nat.succ_pos c) ?_).cons busy here
      rw [hold, size_update]
      omega

/-! ## Fork-join -/

/-- Core `c` is the first of the cores that a fork-join of `jobs` would hand a job to that has one
already. -/
structure Stops (s : Scope β) (jobs : List (Job β)) (c : Core) : Prop where
  fits : jobs.length ≤ s.size
  peer : 0 < c
  used : c < jobs.length
  busy : s.isSpawned c = true
  first : ∀ d, 0 < d → d < c → s.isSpawned d = false

/-- There is one first core that has a job already. -/
lemma Stops.unique {jobs : List (Job β)} {c d : Core} (stops : s.Stops jobs c)
    (other : s.Stops jobs d) : c = d := by
  rcases Nat.lt_trichotomy c d with before | same | behind
  · cases stops.busy.symm.trans (other.first c stops.peer before)
  · exact same
  · cases other.busy.symm.trans (stops.first d other.peer behind)

/-- A fork-join that returns leaves every core as it was, or is refused by a busy core and leaves
the jobs that it had handed over by then. -/
lemma forkJoin_spawned {jobs : List (Job β)} {answer : Except Fault Unit}
    (idle : s.isSpawned orchestrator = false)
    (returns : (s.forkJoin jobs).value = (.ok answer, t)) :
    ((∀ c, ¬ s.Stops jobs c) ∧ ∀ d, t.isSpawned d = s.isSpawned d) ∨
      ∃ c, s.Stops jobs c ∧ answer = .error (.coreBusy c) ∧
        ∀ d, t.isSpawned d = (s.isSpawned d || decide (0 < d ∧ d < c)) := by
  by_cases many : s.size < jobs.length
  · rw [forkJoin_many many] at returns
    cases returns
    exact .inl ⟨fun c stops => Nat.not_lt.mpr stops.fits many, fun _ => rfl⟩
  · have fits := Nat.not_lt.mp many
    cases jobs with
    | nil =>
      rw [forkJoin_nil] at returns
      cases returns
      exact .inl ⟨fun c stops => Nat.not_lt_zero c stops.used, fun _ => rfl⟩
    | cons own rest =>
      have handed :
          HandedOver s 1 rest.length (s.spawnAll 1 rest).value.2 (s.spawnAll 1 rest).value.1 := by
        refine handedOver_spawnAll Nat.one_pos ?_
        rw [Nat.add_comm]
        exact fits
      have count : (own :: rest).length = 1 + rest.length := Nat.add_comm ..
      rw [forkJoin_cons fits, forkRest] at returns
      generalize (s.spawnAll 1 rest).value = reply at returns handed
      obtain ⟨x, u⟩ := reply
      cases handed with
      | @refused e low high busy first marks =>
        cases returns
        refine .inr ⟨e, ⟨fits, low, ?_, busy, first⟩, rfl, marks⟩
        rw [count]
        exact high
      | all free marks =>
        dsimp only at returns
        have ran : (u.runOwn own).value.2.isSpawned = u.isSpawned := by
          funext d
          refine isSpawned_runOwn ?_
          rw [marks, idle]
          rfl
        generalize (u.runOwn own).value = reply at returns ran
        obtain ⟨_ | _, v⟩ := reply
        -- A panic of the own share unwinds the caller.
        · cases returns
        · refine .inl ⟨fun c stops => ?_, fun d => ?_⟩
          · cases stops.busy.symm.trans (free c stops.peer (count ▸ stops.used))
          · cases returns
            have ran : v.isSpawned d = (s.isSpawned d || decide (1 ≤ d ∧ d < 1 + rest.length)) :=
              (congrFun ran d).trans (marks d)
            have among :
                decide (d ∉ List.range' 1 rest.length) = decide (¬ (1 ≤ d ∧ d < 1 + rest.length)) :=
              decide_eq_decide.mpr (not_congr List.mem_range'_1)
            rw [isSpawned_joinAll, ran, Nat.sub_self, Nat.zero_add, among]
            by_cases within : 1 ≤ d ∧ d < 1 + rest.length
            · rw [free d within.1 within.2, decide_eq_false (not_not_intro within), Bool.and_false]
            · rw [decide_eq_false within, decide_eq_true within, Bool.or_false, Bool.and_true]

/-- A fork-join that returns leaves the cores outstanding that were outstanding before, exactly
unless a core that it comes to after the first peer has a job already. It is then refused by the
first such core, and the peers before that one keep the jobs that they were handed. -/
theorem spawned_of_forkJoin {s s' : Scope β} {jobs : List (Job β)} {answer : Except Fault Unit}
    (idle : s.isSpawned orchestrator = false)
    (returns : (s.forkJoin jobs).value = (.ok answer, s')) :
    ((∀ d, s'.isSpawned d = s.isSpawned d) ↔ ∀ c, s.Stops jobs c → c = 1) ∧
      ∀ c, s.Stops jobs c → answer = .error (.coreBusy c) ∧
        ∀ d, s'.isSpawned d = (s.isSpawned d || decide (0 < d ∧ d < c)) := by
  rcases forkJoin_spawned idle returns with ⟨none, same⟩ | ⟨c, stops, refused, marks⟩
  · exact ⟨iff_of_true same fun c stops => absurd stops (none c),
      fun c stops => absurd stops (none c)⟩
  · refine ⟨⟨fun same d other => ?_, fun only d => ?_⟩, fun d other => ?_⟩
    · cases other.unique stops
      rcases Nat.lt_or_eq_of_le (Nat.succ_le_of_lt stops.peer) with later | first
      -- Had a later core refused, the first peer would have been free and would now keep its job.
      · have kept := same 1
        rw [marks, stops.first 1 Nat.one_pos later, decide_eq_true ⟨Nat.one_pos, later⟩] at kept
        cases kept
      · exact first.symm
    · rw [marks, only c stops,
        decide_eq_false fun within => Nat.not_lt.mpr within.1 within.2, Bool.or_false]
    · cases other.unique stops
      exact ⟨refused, marks⟩

/-- A run on four cores whose caller has spawned a job on core 2. -/
def secondBusy : Scope Nat :=
  ((Tile.start ⟨4, by decide⟩).value.scope {} |>.spawn 2 (Job.value 7)).value.2

/-- A fork-join of three jobs is refused by core 2, and core 1 keeps the job it was handed. -/
theorem spawned_of_forkJoin_secondBusy :
    secondBusy.isSpawned orchestrator = false ∧
      (secondBusy.forkJoin [Job.value 1, Job.value 2, Job.value 3]).value =
        (.ok (.error (.coreBusy 2)), secondBusy.hold 1 (Job.value 2)) ∧
      ∀ d, (secondBusy.hold 1 (Job.value 2)).isSpawned d =
        (secondBusy.isSpawned d || decide (0 < d ∧ d < 2)) := by
  have stops : secondBusy.Stops [Job.value 1, Job.value 2, Job.value 3] 2 := {
    fits := by decide
    peer := by decide
    used := by decide
    busy := rfl
    first := fun d low high => by
      obtain rfl : d = 1 := Nat.le_antisymm (Nat.le_of_lt_succ high) low
      rfl }
  exact ⟨rfl, rfl, ((spawned_of_forkJoin rfl rfl).2 2 stops).2⟩

/-- Not every fork-join that returns leaves the cores as they were, even where no job panics. -/
theorem forkJoin_leaves_outstanding :
    ¬ ∀ (s s' : Scope Nat) (jobs : List (Job Nat)) (answer : Except Fault Unit),
      s.isSpawned orchestrator = false →
      (∀ job ∈ jobs, ∀ thread, (job thread).value.1.ending = .ok ()) →
      (s.forkJoin jobs).value = (.ok answer, s') → ∀ d, s'.isSpawned d = s.isSpawned d := by
  intro restored
  have returning : ∀ job ∈ [Job.value 1, Job.value 2, Job.value 3], ∀ thread,
      (job thread).value.1.ending = .ok () := by
    simp [Job.value, Job.values]
  have kept := restored secondBusy _ _ _ rfl returning rfl 1
  cases kept

end TileBench.Scope
