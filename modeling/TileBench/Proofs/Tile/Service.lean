import Mathlib.Tactic.Lemma
import TileBench.Proofs.Tile.Progress

/-!
# Service of the tile

What the tile promises its caller, over any number of runs, whatever the bodies call and however
they end, whatever the jobs do and in whatever order the caller and the workers step:
`Machine.Accounts` gathers it, and `accounts_of_run` says that it holds, that the machine is never
stuck and that no call and no end of a scope goes on for ever.
-/

namespace TileBench.Tile

variable {β : Type}

namespace Machine

/-- The accounts of a tile whose machine has come to `m` by `deeds`. -/
structure Accounts (deeds : List (Deed β)) (m : Machine β) : Prop where
  /-- A core that the caller is not busy with holds one job or outcome if it is marked, else
  nothing. -/
  marked : ∀ (c : Core) (lane : Lane β), m.lanes[c]? = some lane → m.stance.isAt c = false →
    lane.pending = if lane.isSpawned then 1 else 0
  /-- Between a hand-over and the mark, and between removing the mark and collecting, it holds
  one. -/
  instant : ∀ (c : Core) (lane : Lane β), m.lanes[c]? = some lane → m.stance.isAt c = true →
    lane.isSpawned = false ∧ lane.pending = 1
  /-- Core 0 is never marked and never holds anything. -/
  caller : ∀ lane : Lane β, m.lanes[orchestrator]? = some lane →
    lane.isSpawned = false ∧ lane.pending = 0
  /-- Every accepted job was handed to its core once. -/
  handed : ∀ c, HandLedger c (m.stance.handed? c) (deeds.filter (·.isHandOver c))
  /-- Every job that was handed to a core is taken, run and collected once, by that core; at most
  the last one is still on its way. -/
  served : ∀ (c : Core) (lane : Lane β), m.lanes[c]? = some lane →
    lane.Ledger c (deeds.filter (·.concerns c))
  /-- Once a run has returned, nothing is on its way. -/
  returned : m.stance = .outside → ∀ c, c < m.lanes.length → Served c (deeds.filter (·.concerns c))
  /-- A join that tells how a job ended tells it of the job that the core was handed last, which was
  over by then; nothing of an earlier job or run is left. -/
  joined : ∀ (before after : List (Deed β)) (c : Core) (a : Except Fault Unit),
    deeds = before ++ .joined c a :: after → TellsEnding c a →
    ∃ earlier job thread, Served c earlier ∧
      before.filter (·.concerns c) = earlier ++ service c job thread ∧
      a = answer c (job thread).value.1

/-- A core that the end of the scope has passed, or on which nothing was ever spawned, holds
nothing. -/
lemma Books.pending_eq_zero {deeds : List (Deed β)} {m : Machine β} {c : Core} {lane : Lane β}
    (books : Books deeds m) (here : m.lanes[c]? = some lane)
    (clears : m.stance.Clears m.lanes.length c) (away : m.stance.isAt c = false) :
    lane.isSpawned = false ∧ lane.pending = 0 := by
  have free := books.tidy.unmarked c lane here clears
  exact ⟨free, (books.accounted c lane here).trans (expected_eq_zero free away)⟩

/-- The accounts follow from the books. -/
lemma Run.accounts {tile : Tile} {m : Machine β} {deeds : List (Deed β)}
    (run : Run (ofTile tile) deeds m) : Accounts deeds m where
  marked := by
    intro c lane here away
    rw [run.books.accounted c lane here]
    simp [expected, away]
  instant := by
    intro c lane here there
    have free := run.books.tidy.unmarked c lane here (.inr (.inr there))
    exact ⟨free, (run.books.accounted c lane here).trans (expected_eq_one (.inr there))⟩
  caller := by
    intro lane here
    refine run.books.pending_eq_zero here (.inl rfl) ?_
    cases there : m.stance.isAt orchestrator with
    | false => rfl
    | true => exact absurd rfl (run.books.tidy.peer _ there).1
  handed := run.books.handOver
  served := run.books.ledger
  returned := by
    intro outside c inside
    have here := List.getElem?_eq_getElem inside
    have clears : m.stance.Clears m.lanes.length c := .inr (.inl (by rw [outside]; exact inside))
    obtain ⟨-, pending⟩ := run.books.pending_eq_zero here clears (by simp [outside])
    exact (run.books.ledger c _ here).served pending
  joined := fun before after c a eq tells => run.joined eq tells

end Machine

/-- Over any number of runs on a tile, whatever the caller and the workers do and in whatever order,
every job is accounted for. The machine can always go on, and inside a call or at the end of a scope
every step brings its end nearer. -/
theorem accounts_of_run (t : Topology) (deeds : List (Deed β)) (m : Machine β)
    (run : Machine.Run (.ofTile (Tile.start t).value) deeds m) :
    m.lanes.length = t.cores ∧ m.Accounts deeds ∧
      (∃ new m', Machine.Step m new m') ∧
      (m.stance.isEngaged = true → ∀ new m', Machine.Step m new m' → m'.work < m.work) := by
  have length : m.lanes.length = t.cores := by
    rw [run.length_eq]
    simpa [Machine.ofTile, Tile.start, Topology.peers] using Nat.sub_add_cancel t.cores_pos
  refine ⟨length, run.accounts, ?_, ?_⟩
  · exact run.books.exists_step (length ▸ t.cores_pos)
  · exact fun engaged new m' st => st.work_lt engaged

/-- A run whose body unwinds and leaves a job that panicked, and a second run that joins a job of
its own on the same core. -/
theorem accounts_of_run_reused :
    ∃ (deeds : List (Deed Nat)) (m : Machine Nat),
      Machine.Run (.ofTile (Tile.start ⟨2, by decide⟩).value) deeds m ∧
      .finish 1 { ending := .error (.text "lost") } ∈ deeds ∧ .joined 1 (.ok ()) ∈ deeds ∧
      m.lanes.length = 2 ∧ m.Accounts deeds ∧
      (∃ new m', Machine.Step m new m') ∧
      (m.stance.isEngaged = true → ∀ new m', Machine.Step m new m' → m'.work < m.work) := by
  have first :=
    (Machine.Run.refl (Machine.ofTile (β := Nat) (Tile.start ⟨2, by decide⟩).value)).tail
      (.enter rfl : Machine.Step _ [.enter {}] _)
  have lost := ((first.tail (.hand rfl .body rfl (by decide) rfl rfl :
    Machine.Step _ [.hand 1 (Job.panic (.text "lost"))] _)).tail (.take (c := 1) rfl rfl rfl)).tail
    (.mark (c := 1) rfl rfl)
  have unwound := ((lost.tail (.ended rfl : Machine.Step _ [.ended (.error .other)] _)).tail
    (.closeBusy (c := 1) rfl rfl rfl)).tail (.finish (c := 1) rfl rfl rfl)
  have second := ((unwound.tail (.collect (c := 1) rfl rfl rfl)).tail
    (.leave (c := 2) rfl (by decide) rfl)).tail (.enter rfl : Machine.Step _ [.enter {}] _)
  have handed := ((second.tail (.hand rfl .body rfl (by decide) rfl rfl :
    Machine.Step _ [.hand 1 (Job.value 7)] _)).tail
    (.mark (c := 1) rfl rfl)).tail (.await (c := 1) rfl .body rfl rfl)
  have joined := ((handed.tail (.take (c := 1) rfl rfl rfl)).tail
    (.finish (c := 1) rfl rfl rfl)).tail (.collect (c := 1) rfl rfl rfl)
  exact ⟨_, _, joined, by simp [Job.panic],
    List.mem_append_right _ (.tail _ (.head _)),
    accounts_of_run _ _ _ joined⟩

end TileBench.Tile
