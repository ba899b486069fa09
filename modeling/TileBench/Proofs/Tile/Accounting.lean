import Mathlib.Tactic.Lemma
import TileBench.Proofs.Tile.Step

/-!
# Every job is accounted for

What happens to the jobs of one core over any number of runs. `Served` says that a list of deeds is
made of whole services, in which a job is handed over, taken, finished and collected; `Lane.Ledger`
ties what a core holds to the service that is under way. `Machine.Books` is the invariant of a run
of the machine: the accounts, the ledgers and the hand-overs. Each part is kept by a step because of
`Step.moves`, so that the rules of the machine are not looked at again, and `Run.books` puts the
steps together. From it follows what a join reports.
-/

namespace TileBench.Tile

variable {β : Type}

/-- The deeds by which core `c` serves one job, which runs on the thread of the core. -/
def service (c : Core) (job : Job β) (thread : Thread) : List (Deed β) :=
  [.hand c job, .take c job, .finish c (job thread).value.1, .collect c (job thread).value.1]

/-- Deeds on core `c` that serve every job from the hand-over to the collected outcome, one job
after another, and each inside one run. -/
inductive Served (c : Core) : List (Deed β) → Prop where
  | nil : Served c []
  | turn {deeds : List (Deed β)} {d : Deed β} :
    Served c deeds → d.isTurn = true → Served c (deeds ++ [d])
  | serve {deeds : List (Deed β)} (job : Job β) (thread : Thread) :
    Served c deeds → Served c (deeds ++ service c job thread)

/-- Hand-overs to core `c`, each of which ends in a mark before the next one starts. -/
inductive Marked (c : Core) : List (Deed β) → Prop where
  | nil : Marked c []
  | mark {deeds : List (Deed β)} (job : Job β) :
    Marked c deeds → Marked c (deeds ++ [.hand c job, .mark c job])

/-- `Ledger c lane deeds` holds when core `c` holds what `deeds` left there: nothing once every job
has been served, and otherwise the last job that was handed over, or its outcome. -/
inductive Lane.Ledger (c : Core) : Lane β → List (Deed β) → Prop where
  | idle {lane : Lane β} {deeds : List (Deed β)} :
    lane.slot = none → lane.running = none → lane.outcome = none → Served c deeds →
    Ledger c lane deeds
  | handed {lane : Lane β} {deeds : List (Deed β)} {job : Job β} :
    lane.slot = some job → lane.running = none → lane.outcome = none → Served c deeds →
    Ledger c lane (deeds ++ [.hand c job])
  | taken {lane : Lane β} {deeds : List (Deed β)} {job : Job β} :
    lane.slot = none → lane.running = some job → lane.outcome = none → Served c deeds →
    Ledger c lane (deeds ++ [.hand c job, .take c job])
  | finished {lane : Lane β} {deeds : List (Deed β)} {job : Job β} {thread : Thread} :
    lane.slot = none → lane.running = none → lane.outcome = some (job thread).value.1 →
    Served c deeds →
    Ledger c lane (deeds ++ [.hand c job, .take c job, .finish c (job thread).value.1])

/-- The same for the hand-over that the caller has in its hands. -/
inductive HandLedger (c : Core) : Option (Job β) → List (Deed β) → Prop where
  | none {deeds : List (Deed β)} : Marked c deeds → HandLedger c none deeds
  | some {deeds : List (Deed β)} {job : Job β} : Marked c deeds →
    HandLedger c (some job) (deeds ++ [.hand c job])

namespace Lane

/-- What a core holds changes with what the caller counts on. -/
lemma Moves.pending {c : Core} {old new : Lane β} {e e' : Nat} {deeds : List (Deed β)}
    (moves : old.Moves c e deeds new e') (pending : old.pending = e) : new.pending = e' := by
  cases moves with
  | keep holds =>
    obtain ⟨slot, running, outcome⟩ := holds
    rw [← pending, Lane.pending, Lane.pending, slot, running, outcome]
  | turn _ holds =>
    obtain ⟨slot, running, outcome⟩ := holds
    rw [← pending, Lane.pending, Lane.pending, slot, running, outcome]
  | hand =>
    simp only [Lane.pending] at pending ⊢
    simp only [Option.toList_some, List.length_singleton]
    omega
  | take slot running =>
    rw [← pending]
    simp [Lane.pending, slot, running]
  | finish running outcome =>
    rw [← pending]
    simp [Lane.pending, running, outcome]
  | collect outcome =>
    simp only [Lane.pending, outcome] at pending ⊢
    simp only [Option.toList_some, Option.toList_none, List.length_singleton, List.length_nil]
      at pending ⊢
    omega

/-- A core that holds nothing has served every job. -/
lemma Ledger.served {c : Core} {lane : Lane β} {deeds : List (Deed β)}
    (ledger : lane.Ledger c deeds) (pending : lane.pending = 0) : Served c deeds := by
  cases ledger with
  | idle slot running outcome served => exact served
  | handed slot running outcome served => simp [Lane.pending, slot] at pending
  | taken slot running outcome served => simp [Lane.pending, running] at pending
  | finished slot running outcome served => simp [Lane.pending, outcome] at pending

/-- The ledger of a core depends only on what it holds. -/
lemma Ledger.congr {c : Core} {old new : Lane β} {deeds : List (Deed β)}
    (ledger : old.Ledger c deeds) (holds : new.HoldsAs old) : new.Ledger c deeds := by
  obtain ⟨slot, running, outcome⟩ := holds
  cases ledger with
  | idle hs hr ho served =>
    exact .idle (slot.trans hs) (running.trans hr) (outcome.trans ho) served
  | handed hs hr ho served =>
    exact .handed (slot.trans hs) (running.trans hr) (outcome.trans ho) served
  | taken hs hr ho served =>
    exact .taken (slot.trans hs) (running.trans hr) (outcome.trans ho) served
  | finished hs hr ho served =>
    exact .finished (slot.trans hs) (running.trans hr) (outcome.trans ho) served

/-- A core that holds no more than it should has an empty slot, no running job and no outcome. -/
lemma empty_of_pending_eq_zero {lane : Lane β} (pending : lane.pending = 0) :
    lane.slot = none ∧ lane.running = none ∧ lane.outcome = none := by
  simp only [Lane.pending, Nat.add_eq_zero_iff, List.length_eq_zero_iff, Option.toList_eq_nil_iff]
    at pending
  exact ⟨pending.1.1, pending.1.2, pending.2⟩

/-- Whatever happens to a core, its ledger goes on. -/
lemma Moves.ledger {c : Core} {old new : Lane β} {e e' : Nat} {before deeds : List (Deed β)}
    (moves : old.Moves c e deeds new e') (pending : old.pending = e)
    (ledger : old.Ledger c before) : new.Ledger c (before ++ deeds) := by
  cases moves with
  | keep holds =>
    rw [List.append_nil]
    exact ledger.congr holds
  | turn isTurn holds =>
    obtain ⟨slot, running, outcome⟩ := empty_of_pending_eq_zero pending
    have served := ledger.served pending
    exact (Ledger.idle slot running outcome (served.turn isTurn)).congr holds
  | hand =>
    obtain ⟨slot, running, outcome⟩ := empty_of_pending_eq_zero pending
    exact .handed rfl running outcome (ledger.served pending)
  | @take job _ slot running =>
    -- What the core holds before the move says which rule of the ledger it stands in.
    cases ledger with
    | idle hs _ _ _ => cases slot.symm.trans hs
    | taken _ hr _ _ => cases running.symm.trans hr
    | finished hs _ _ _ => cases slot.symm.trans hs
    | handed hs hr ho served =>
      cases slot.symm.trans hs
      rw [List.append_assoc]
      exact .taken rfl rfl ho served
  | @finish job thread _ running outcome =>
    cases ledger with
    | idle _ hr _ _ => cases running.symm.trans hr
    | handed _ hr _ _ => cases running.symm.trans hr
    | finished _ hr _ _ => cases running.symm.trans hr
    | taken hs hr ho served =>
      cases running.symm.trans hr
      rw [List.append_assoc]
      exact .finished hs rfl rfl served
  | @collect o recorded outcome =>
    cases ledger with
    | idle _ _ ho _ => cases outcome.symm.trans ho
    | handed _ _ ho _ => cases outcome.symm.trans ho
    | taken _ _ ho _ => cases outcome.symm.trans ho
    | finished hs hr ho served =>
      cases outcome.symm.trans ho
      rw [List.append_assoc]
      exact .idle hs hr rfl (served.serve _ _)

end Lane

/-- Whatever happens to a hand-over, its ledger goes on. -/
lemma HandsOver.ledger {c : Core} {h h' : Option (Job β)} {before deeds : List (Deed β)}
    (turn : HandsOver c h deeds h') (ledger : HandLedger c h before) :
    HandLedger c h' (before ++ deeds) := by
  cases turn with
  | keep =>
    rw [List.append_nil]
    exact ledger
  | hand =>
    cases ledger with
    | none marked => exact .some marked
  | mark =>
    cases ledger with
    | some marked =>
      rw [List.append_assoc]
      exact .none (marked.mark _)

namespace Machine

/-- What holds of the machine once `deeds` have been done on a tile that was at rest. -/
structure Books (deeds : List (Deed β)) (m : Machine β) : Prop where
  tidy : m.Tidy
  accounted : m.Accounted
  ledger : ∀ (c : Core) (lane : Lane β), m.lanes[c]? = some lane →
    lane.Ledger c (deeds.filter (·.concerns c))
  handOver : ∀ c, HandLedger c (m.stance.handed? c) (deeds.filter (·.isHandOver c))

/-- The books of a tile at rest are empty and in order. -/
lemma books_ofTile (tile : Tile) : Books [] (ofTile tile : Machine β) where
  tidy := tidy_ofTile tile
  accounted := by
    intro c lane here
    simp only [ofTile, List.getElem?_map, Option.map_eq_some_iff] at here
    obtain ⟨thread, -, rfl⟩ := here
    rfl
  ledger := by
    intro c lane here
    simp only [ofTile, List.getElem?_map, Option.map_eq_some_iff] at here
    obtain ⟨thread, -, rfl⟩ := here
    exact .idle rfl rfl rfl .nil
  handOver := fun _ => .none .nil

/-- A core after a step is a core before the step that moved. -/
lemma Step.moved {m m' : Machine β} {new : List (Deed β)} (st : Step m new m') (tidy : m.Tidy)
    {c : Core} {lane' : Lane β} (there : m'.lanes[c]? = some lane') :
    ∃ lane, m.lanes[c]? = some lane ∧
      lane.Moves c (m.expected c lane) (new.filter (·.concerns c)) lane' (m'.expected c lane') := by
  obtain ⟨inside, -⟩ := List.getElem?_eq_some_iff.mp there
  rw [st.length_eq] at inside
  have here := List.getElem?_eq_getElem inside
  obtain ⟨other, same, moves⟩ := st.moves tidy c _ here
  cases there.symm.trans same
  exact ⟨_, here, moves⟩

/-- Every step keeps the books. -/
lemma Step.books {m m' : Machine β} {deeds new : List (Deed β)} (st : Step m new m')
    (books : Books deeds m) : Books (deeds ++ new) m' where
  tidy := st.tidy books.tidy
  accounted := by
    intro c lane' there
    obtain ⟨lane, here, moves⟩ := st.moved books.tidy there
    exact moves.pending (books.accounted c lane here)
  ledger := by
    intro c lane' there
    obtain ⟨lane, here, moves⟩ := st.moved books.tidy there
    rw [List.filter_append]
    exact moves.ledger (books.accounted c lane here) (books.ledger c lane here)
  handOver := by
    intro c
    rw [List.filter_append]
    exact (st.handsOver c).ledger (books.handOver c)

/-- After every run the books are in order. -/
lemma Run.books {tile : Tile} {m : Machine β} {deeds : List (Deed β)}
    (run : Run (ofTile tile) deeds m) : Books deeds m := by
  induction run with
  | refl => exact books_ofTile tile
  | tail _ st ih => exact st.books ih

/-! ## Joins -/

/-- The answers that tell how a job on a core ended. -/
def TellsEnding (c : Core) (a : Except Fault Unit) : Prop :=
  a = .ok () ∨ ∃ message, a = .error (.jobPanicked c message)

/-- A refused join does not tell how a job ended. -/
lemma RefusesJoin.not_tellsEnding {m : Machine β} {c : Core} {e : Fault}
    (refuses : RefusesJoin m c e) : ¬ TellsEnding c (.error e) := by
  rintro (ok | ⟨message, panicked⟩)
  · cases ok
  · cases refuses with
    | outOfRange outside => cases panicked
    | idle here free => cases panicked

end Machine

/-- The answer to a hand-over is not the answer to a join. -/
lemma Plan.joined_notMem_spawnDeeds {p : Plan β} {c d : Core} {job : Job β}
    {a b : Except Fault Unit} : .joined c a ∉ p.spawnDeeds d job b := by
  cases p with
  | fork jobs own next rest => cases b <;> simp [Plan.spawnDeeds]
  | body => simp [Plan.spawnDeeds]
  | gather jobs cores first => simp [Plan.spawnDeeds]
  | close next => simp [Plan.spawnDeeds]

/-- A join is answered first of all, for its own core. -/
lemma Plan.joinDeeds_eq_append {p : Plan β} {c d : Core} {a b : Except Fault Unit}
    {mid after : List (Deed β)} (eq : p.joinDeeds d b = mid ++ .joined c a :: after) :
    mid = [] ∧ c = d ∧ a = b := by
  cases mid with
  | nil =>
    cases p with
    | body =>
      cases eq
      exact ⟨rfl, rfl, rfl⟩
    | gather jobs cores first =>
      cases eq
      exact ⟨rfl, rfl, rfl⟩
    | fork jobs own next rest => cases eq
    | close next => cases eq
  | cons first mid =>
    cases p <;> simp [Plan.joinDeeds, List.cons_eq_append_iff] at eq

namespace Machine

/-- The answer to a join is shown by the step that refuses it, or right after the outcome has been
collected. -/
lemma Step.joined {m m' : Machine β} {new mid after : List (Deed β)} {c : Core}
    {a : Except Fault Unit} (st : Step m new m') (eq : new = mid ++ .joined c a :: after) :
    (∃ e, a = .error e ∧ RefusesJoin m c e) ∨
      ∃ lane o, m.lanes[c]? = some lane ∧ lane.outcome = some o ∧ mid = [.collect c o] ∧
        a = answer c o := by
  -- Only a refused join and a collected outcome show the answer to a join.
  have shown : .joined c a ∈ new := by simp [eq]
  cases st
  case refuseJoin d e p q ready joins refuses =>
    obtain ⟨-, rfl, rfl⟩ := Plan.joinDeeds_eq_append eq
    exact .inl ⟨e, rfl, refuses⟩
  case collect d lane o p waiting here outcome =>
    cases mid with
    | nil => simp at eq
    | cons first mid =>
      obtain ⟨rfl, rest⟩ := List.cons_eq_cons.mp eq
      obtain ⟨rfl, rfl, rfl⟩ := Plan.joinDeeds_eq_append rest
      exact .inr ⟨lane, o, here, outcome, rfl, rfl⟩
  case mark d lane job p handing here => simp [Plan.joined_notMem_spawnDeeds] at shown
  case refuseSpawn d job e p q ready spawns refuses =>
    exact absurd shown Plan.joined_notMem_spawnDeeds
  all_goals simp at shown

/-- A deed among those of a run and a step was done by the step or before it. -/
lemma append_eq_append_cons {deeds new before after : List (Deed β)} {d : Deed β}
    (eq : deeds ++ new = before ++ d :: after) :
    (∃ rest, deeds = before ++ d :: rest) ∨ ∃ mid,
    before = deeds ++ mid ∧ new = mid ++ d :: after := by
  rcases List.append_eq_append_iff.mp eq with ⟨mid, rfl, rfl⟩ | ⟨rest, rfl, split⟩
  · exact .inr ⟨mid, rfl, rfl⟩
  · cases rest with
    | nil => exact .inr ⟨[], by simp, by simpa using split.symm⟩
    | cons first rest =>
      obtain ⟨rfl, -⟩ := List.cons_eq_cons.mp split
      exact .inl ⟨rest, rfl⟩

/-- A join that tells how a job ended tells it of the job that was handed to the core last; that job
was served by the core, in this run, before the join is answered. -/
lemma Run.joined {tile : Tile} {m : Machine β} {deeds : List (Deed β)}
    (run : Run (ofTile tile) deeds m) {before after : List (Deed β)} {c : Core}
    {a : Except Fault Unit} (eq : deeds = before ++ .joined c a :: after)
    (tells : TellsEnding c a) :
    ∃ earlier job thread, Served c earlier ∧
      before.filter (·.concerns c) = earlier ++ service c job thread ∧
      a = answer c (job thread).value.1 := by
  induction run generalizing after with
  | refl => simp at eq
  | @tail m₁ m₂ deeds new run st ih =>
    -- Either an earlier step has shown the answer, or this one has.
    rcases append_eq_append_cons eq with ⟨rest, split⟩ | ⟨mid, rfl, split⟩
    · exact ih split
    · rcases st.joined split with ⟨fault, rfl, refuses⟩ | ⟨lane, o, here, outcome, rfl, rfl⟩
      · exact absurd tells refuses.not_tellsEnding
      · have ledger := run.books.ledger c lane here
        -- A core with an outcome in it is in the last rule of the ledger, which names the job.
        generalize concerned : deeds.filter (·.concerns c) = done at ledger
        cases ledger with
        | idle _ _ ho _ => cases outcome.symm.trans ho
        | handed _ _ ho _ => cases outcome.symm.trans ho
        | taken _ _ ho _ => cases outcome.symm.trans ho
        | @finished earlier job thread hs hr ho served =>
          cases outcome.symm.trans ho
          refine ⟨earlier, job, thread, served, ?_, rfl⟩
          rw [List.filter_append, concerned, List.append_assoc]
          simp [service]

end Machine

end TileBench.Tile
