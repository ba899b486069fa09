import Mathlib.Algebra.GroupWithZero.Nat
import Mathlib.Tactic.Lemma
import TileBench.Proofs.Tile.Accounting

/-!
# Calls are answered and runs end

No schedule keeps the caller waiting for ever. `Books.exists_step` says that the machine is never
stuck: a core that the caller waits for always has its outcome ready or a step to take.
`Step.work_lt` says that every step inside a call or at the end of a scope, be it the caller's or a
worker's, leaves less to do, so that after `Machine.work` steps at the most the body is asked again
or the run is over.
-/

namespace TileBench.Tile

variable {β : Type}

/-! ## The machine is never stuck -/

namespace Machine

/-- The worker of a core that the caller waits for can step, or its outcome can be collected. -/
lemma Books.exists_step_waiting {deeds : List (Deed β)} {m : Machine β} {c : Core} {p : Plan β}
    (books : Books deeds m) (waiting : m.stance = .waiting c p) : ∃ new m', Step m new m' := by
  obtain ⟨-, inside⟩ := books.tidy.peer c (by simp [waiting])
  have here := List.getElem?_eq_getElem inside
  have pending := books.accounted c _ here
  -- The caller counts on one thing from the core, and whichever it is allows a step.
  rw [expected_eq_one (.inr (by simp [waiting]))] at pending
  generalize m.lanes[c] = lane at here pending
  have ledger := books.ledger c lane here
  generalize deeds.filter (·.concerns c) = done at ledger
  cases ledger with
  | idle slot running outcome served => simp [Lane.pending, slot, running, outcome] at pending
  | handed slot running outcome served => exact ⟨_, _, .take here slot running⟩
  | taken slot running outcome served => exact ⟨_, _, .finish here running outcome⟩
  | finished slot running outcome served => exact ⟨_, _, .collect waiting here outcome⟩

/-- A hand-over is accepted or refused at once: the slot of a core that is not marked is empty. -/
lemma Books.exists_step_spawns {deeds : List (Deed β)} {m : Machine β} {c : Core} {job : Job β}
    {p q : Plan β} (books : Books deeds m) (ready : m.stance = .ready p)
    (spawns : p.Spawns c job q) : ∃ new m', Step m new m' := by
  by_cases inside : c < m.lanes.length
  · have here := List.getElem?_eq_getElem inside
    by_cases core : c = orchestrator
    · exact ⟨_, _, .refuseSpawn ready spawns (.orchestrator inside core)⟩
    · cases marked : m.lanes[c].isSpawned with
      | true => exact ⟨_, _, .refuseSpawn ready spawns (.busy here marked)⟩
      | false =>
        -- No mark means that nothing is left on the core, so that its slot is empty.
        have pending := books.accounted c _ here
        rw [expected_eq_zero marked (by simp [ready])] at pending
        obtain ⟨slot, -, -⟩ := Lane.empty_of_pending_eq_zero pending
        exact ⟨_, _, .hand ready spawns here core marked slot⟩
  · exact ⟨_, _, .refuseSpawn ready spawns (.outOfRange (Nat.not_lt.mp inside))⟩

/-- A join is refused, or the caller goes to wait for the core. -/
lemma exists_step_joins {m : Machine β} {c : Core} {p q : Plan β} (ready : m.stance = .ready p)
    (joins : p.Joins c q) : ∃ new m', Step m new m' := by
  by_cases inside : c < m.lanes.length
  · have here := List.getElem?_eq_getElem inside
    cases marked : m.lanes[c].isSpawned with
    | true => exact ⟨_, _, .await ready joins here marked⟩
    | false => exact ⟨_, _, .refuseJoin ready joins (.idle here marked)⟩
  · exact ⟨_, _, .refuseJoin ready joins (.outOfRange (Nat.not_lt.mp inside))⟩

/-- The machine can always go on, whatever its caller does. -/
lemma Books.exists_step {deeds : List (Deed β)} {m : Machine β} (books : Books deeds m)
    (inhabited : 0 < m.lanes.length) : ∃ new m', Step m new m' := by
  have caller := List.getElem?_eq_getElem inhabited
  -- Where the caller stands and what it plans say which rule applies.
  cases stance : m.stance with
  | outside => exact ⟨[.enter {}], _, .enter stance⟩
  | handing c job p =>
    obtain ⟨-, inside⟩ := books.tidy.peer c (by simp [stance])
    exact ⟨_, _, .mark stance (List.getElem?_eq_getElem inside)⟩
  | waiting c p => exact books.exists_step_waiting stance
  | ready p =>
    cases p with
    | body => exact ⟨[.ended (.ok ())], _, .ended stance⟩
    | fork jobs own next rest =>
      cases rest with
      | cons job rest => exact books.exists_step_spawns stance .fork
      | nil =>
        cases ending : (own m.lanes[0].thread).value.1.ending with
        | ok => exact ⟨_, _, .own stance caller ending⟩
        | error e => exact ⟨_, _, .ownPanic stance caller ending⟩
    | gather jobs cores first =>
      cases cores with
      | cons c cores => exact exists_step_joins stance .gather
      | nil => exact ⟨_, _, .gathered stance⟩
    | close c =>
      by_cases inside : c < m.lanes.length
      · have here := List.getElem?_eq_getElem inside
        cases marked : m.lanes[c].isSpawned with
        | true => exact ⟨_, _, .closeBusy stance here marked⟩
        | false => exact ⟨_, _, .closeIdle stance here marked⟩
      · exact ⟨_, _, .leave stance (Nat.not_lt.mp inside) caller⟩

end Machine

/-! ## Every step leaves less to do -/

/-- The steps that the worker of a core still takes on its own. -/
def Lane.work (lane : Lane β) : Nat :=
  2 * lane.slot.toList.length + lane.running.toList.length

/-- A bound on the steps that a plan still takes on a tile with `n` cores, until the body is asked
again or the run is over. -/
def Plan.work (n : Nat) : Plan β → Nat
  | .body => 0
  | .fork _ _ next rest => 2 * next + 6 * rest.length + 2
  | .gather _ cores _ => 2 * cores.length + 1
  | .close c => 2 * (n - c) + 1

/-- The same for a stance. -/
def Stance.work (n : Nat) : Stance β → Nat
  | .outside => 0
  | .ready p => p.work n
  | .handing _ _ p | .waiting _ p => p.work n + 1

/-- Whether the caller is inside a call or at the end of a scope, where it has no choice. -/
def Stance.isEngaged : Stance β → Bool
  | .outside | .ready .body => false
  | _ => true

namespace Machine

/-- A bound on the steps until the body is asked again or the run is over. -/
def work (m : Machine β) : Nat :=
  (m.lanes.map Lane.work).sum + m.stance.work m.lanes.length

/-- A sum over cores changes as the one core that is replaced. -/
lemma sum_map_set {lanes : List (Lane β)} {c : Core} {old new : Lane β} (f : Lane β → Nat)
    (here : lanes[c]? = some old) :
    ((lanes.set c new).map f).sum + f old = (lanes.map f).sum + f new := by
  induction lanes generalizing c with
  | nil => simp at here
  | cons first lanes ih =>
    cases c with
    | zero =>
      simp only [List.getElem?_cons_zero, Option.some.injEq] at here
      subst here
      simp only [List.set_cons_zero, List.map_cons, List.sum_cons]
      omega
    | succ c =>
      have rest := ih (by simpa using here)
      simp only [List.set_cons_succ, List.map_cons, List.sum_cons]
      omega

/-- There is less to do once one core and the stance together have less to do. -/
lemma work_update_lt {m : Machine β} {c : Core} {old new : Lane β} {stance : Stance β}
    (here : m.lanes[c]? = some old)
    (less : new.work + stance.work m.lanes.length < old.work + m.stance.work m.lanes.length) :
    (m.update c new stance).work < m.work := by
  have lanes : ((m.lanes.set c new).map Lane.work).sum + old.work =
      (m.lanes.map Lane.work).sum + new.work :=
    sum_map_set Lane.work here
  simp only [work, length_update, stance_update]
  simp only [update]
  omega

/-- There is less to do once the stance has less to do. -/
lemma work_turn_lt {m : Machine β} {stance : Stance β}
    (less : stance.work m.lanes.length < m.stance.work m.lanes.length) :
    (m.turn stance).work < m.work := by
  simp only [work, lanes_turn, stance_turn]
  omega

end Machine

namespace Plan

/-- A fork-join that hands over a job has less to do by more than the job's own steps. -/
lemma Spawns.work_le {n : Nat} {p q : Plan β} {c : Core} {job : Job β} (spawns : p.Spawns c job q)
    (engaged : (Stance.ready p).isEngaged = true) : q.work n + 4 ≤ p.work n := by
  cases spawns with
  | body => cases engaged
  | fork =>
    simp only [work, List.length_cons]
    omega

/-- A hand-over that is refused ends its fork-join, which leaves less to do. -/
lemma Spawns.work_afterSpawn_lt {n : Nat} {p q : Plan β} {c : Core} {job : Job β} {e : Fault}
    (spawns : p.Spawns c job q) (engaged : (Stance.ready p).isEngaged = true) :
    (p.afterSpawn (.error e)).work n < p.work n := by
  cases spawns with
  | body => cases engaged
  | fork =>
    simp only [afterSpawn, work]
    omega

/-- A fork-join that joins a core has less to do by two steps, the wait and the answer. -/
lemma Joins.work_le {n : Nat} {p q : Plan β} {c : Core} (joins : p.Joins c q)
    (engaged : (Stance.ready p).isEngaged = true) : q.work n + 2 ≤ p.work n := by
  cases joins with
  | body => cases engaged
  | gather =>
    simp only [work, List.length_cons]
    omega

/-- A hand-over that is accepted leaves the rest of the plan to do. -/
@[simp] lemma work_afterSpawn_ok (n : Nat) (p : Plan β) :
    (p.afterSpawn (.ok ())).work n = p.work n := by
  cases p <;> rfl

/-- The answer to a join leaves the rest of the plan to do, whatever it is. -/
@[simp] lemma work_afterJoin (n : Nat) (p : Plan β) (a : Except Fault Unit) :
    (p.afterJoin a).work n = p.work n := by
  cases p <;> rfl

end Plan

namespace Machine

/-- Inside a call and at the end of a scope every step leaves less to do. -/
lemma Step.work_lt {m m' : Machine β} {deeds : List (Deed β)} (st : Step m deeds m')
    (engaged : m.stance.isEngaged = true) : m'.work < m.work := by
  cases st with
  | take here slot running =>
    apply work_update_lt here
    simp only [Lane.work, slot, running, Option.toList_some, Option.toList_none,
      List.length_singleton, List.length_nil]
    omega
  | finish here running outcome =>
    apply work_update_lt here
    simp only [Lane.work, running, Option.toList_some, Option.toList_none, List.length_singleton,
      List.length_nil]
    omega
  -- What the body is free to do is no step of a call.
  | enter outside => simp [outside, Stance.isEngaged] at engaged
  | hand ready spawns here peer free slot =>
    rw [ready] at engaged
    have less := spawns.work_le (n := m.lanes.length) engaged
    apply work_update_lt here
    simp only [Lane.work, slot, ready, Stance.work, Option.toList_some, Option.toList_none,
      List.length_singleton, List.length_nil]
    omega
  | mark handing here =>
    apply work_update_lt here
    simp only [Lane.work, handing, Stance.work, Plan.work_afterSpawn_ok]
    omega
  | refuseSpawn ready spawns refuses =>
    rw [ready] at engaged
    apply work_turn_lt
    rw [ready]
    exact spawns.work_afterSpawn_lt engaged
  | await ready joins here marked =>
    rw [ready] at engaged
    have less := joins.work_le (n := m.lanes.length) engaged
    apply work_update_lt here
    simp only [Lane.work, ready, Stance.work]
    omega
  | refuseJoin ready joins refuses =>
    rw [ready] at engaged
    have less := joins.work_le (n := m.lanes.length) engaged
    apply work_turn_lt
    simp only [ready, Stance.work, Plan.work_afterJoin]
    omega
  | collect waiting here outcome =>
    apply work_update_lt here
    simp only [Lane.work, waiting, Stance.work, Plan.work_afterJoin]
    omega
  | forkTooMany ready many => simp [ready, Stance.isEngaged] at engaged
  | forkNone ready => simp [ready, Stance.isEngaged] at engaged
  | fork ready fits => simp [ready, Stance.isEngaged] at engaged
  | own ready here returns =>
    apply work_update_lt here
    simp only [Lane.work, ready, Stance.work, Plan.work, List.length_range', List.length_nil]
    omega
  | ownPanic ready here panics =>
    apply work_update_lt here
    simp only [Lane.work, ready, Stance.work, Plan.work]
    omega
  | gathered ready =>
    apply work_turn_lt
    simp only [ready, Stance.work, Plan.work]
    omega
  | ended ready => simp [ready, Stance.isEngaged] at engaged
  | closeBusy ready here marked =>
    have inside := (List.getElem?_eq_some_iff.mp here).1
    apply work_update_lt here
    simp only [Lane.work, ready, Stance.work, Plan.work]
    omega
  | closeIdle ready here free =>
    have inside := (List.getElem?_eq_some_iff.mp here).1
    apply work_turn_lt
    simp only [ready, Stance.work, Plan.work]
    omega
  | leave ready last here =>
    apply work_turn_lt
    simp only [ready, Stance.work, Plan.work]
    omega

end Machine

end TileBench.Tile
