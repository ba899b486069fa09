import TileBench.Proofs.Tile.Identity
import TileBench.Proofs.Tile.Sequential

/-!
# Bindings however the tile steps

On the machine the caller and the workers step in any order, through any number of runs.
`Lane.Sound` says of one core what `CoreState.Sound` says in a scope; every step keeps it, and what
a step does fits it (`Deed.Fits`). `Step.boundary` says which steps begin and end a run, from which
it follows that a run gives the calling thread back the binding that it came with. The headline is
`identified_of_programs`.
-/

namespace TileBench.Tile

/-- The thread of a core is bound to it, the caller's while a run is on; the jobs that it holds are
steady, and what was recorded there fits it. -/
structure Lane.Sound (engaged : Prop) (c : Core) (lane : Lane Sighting) : Prop where
  bound : c ≠ orchestrator ∨ engaged → lane.thread.binding = some c
  slot : ∀ job, lane.slot = some job → c ≠ orchestrator ∧ job.Steady
  running : ∀ job, lane.running = some job → c ≠ orchestrator ∧ job.Steady
  outcome : ∀ o, lane.outcome = some o → AtCore c o.recorded
  recorded : AtCore c lane.recorded

/-- The job that a deed brings to a core. -/
def Deed.job? {β : Type} : Deed β → Option (Job β)
  | .hand _ job | .own job _ => some job
  | _ => none

/-- What a deed shows of the thread that did it fits the core. -/
def Deed.Fits : Deed Sighting → Prop
  | .finish c o => ∃ (job : Job Sighting) (thread : Thread),
      thread.binding = some c ∧ o = (job thread).value.1 ∧ AtCore c o.recorded
  | .own job ending => ∃ thread : Thread,
      thread.binding = some orchestrator ∧ ending = (job thread).value.1.ending
  | .leave recorded _ => ∀ c seen, recorded[c]? = some seen → AtCore c seen
  | _ => True

/-- Whether a deed begins or ends a run. -/
def Deed.isBoundary {β : Type} : Deed β → Bool
  | .enter _ | .leave .. => true
  | _ => false

namespace Machine

/-! ## One step -/

/-- Every core is sound. -/
def Sound (m : Machine Sighting) : Prop :=
  ∀ (c : Core) (lane : Lane Sighting), m.lanes[c]? = some lane → lane.Sound (m.stance ≠ .outside) c

section Steps

variable {m m' : Machine Sighting} {c : Core} {lane new : Lane Sighting} {stance : Stance Sighting}
  {deeds : List (Deed Sighting)}

/-- A turn of the caller leaves every core sound. -/
lemma Sound.turn (sound : m.Sound) (engaged : stance ≠ .outside → m.stance ≠ .outside) :
    (m.turn stance).Sound := fun c lane here =>
  { sound c lane here with bound := fun which =>
    (sound c lane here).bound (which.imp_right engaged) }

/-- A change to one core, after which the caller is in a run only if it was before. -/
lemma Sound.update (sound : m.Sound) (here : m.lanes[c]? = some lane)
    (engaged : stance ≠ .outside → m.stance ≠ .outside) (core : new.Sound (m.stance ≠ .outside) c) :
    (m.update c new stance).Sound := by
  intro d other there
  rw [getElem?_update here] at there
  split at there
  next same =>
    cases there
    subst same
    exact { core with bound := fun which => core.bound (which.imp_right engaged) }
  next =>
    have core := sound d other there
    exact { core with bound := fun which => core.bound (which.imp_right engaged) }

/-- A run starts with sound cores. -/
lemma Sound.entered (sound : m.Sound) (caller : Thread) : (m.entered caller).Sound := by
  intro c lane here
  rw [lanes_entered] at here
  obtain ⟨old, there, rfl⟩ := Option.map_eq_some_iff.mp here
  have core := sound c old there
  by_cases own : c = orchestrator
  · subst own
    exact ⟨fun _ => rfl, core.slot, core.running, core.outcome, nofun⟩
  · rw [if_neg own]
    exact ⟨fun _ => core.bound (.inl own), core.slot, core.running, core.outcome, nofun⟩

/-- The caller's thread once it has run its own share of a fork-join. -/
lemma Sound.own {own : Job Sighting} (sound : m.Sound) (here : m.lanes[orchestrator]? = some lane)
    (engaged : m.stance ≠ .outside) (steady : own.Steady) :
    Lane.Sound (m.stance ≠ .outside) orchestrator
      { lane with
        thread := (own lane.thread).value.2
        recorded := lane.recorded ++ (own lane.thread).value.1.recorded } := by
  have core := sound _ lane here
  obtain ⟨binding, fits⟩ := steady lane.thread
  rw [core.bound (.inr engaged)] at binding fits
  exact ⟨fun _ => binding, core.slot, core.running, core.outcome, core.recorded.append fits⟩

/-- Every step keeps the cores sound if the jobs that it brings are steady. -/
lemma Step.sound (st : Step m deeds m') (sound : m.Sound)
    (steady : ∀ d ∈ deeds, ∀ job, d.job? = some job → job.Steady) : m'.Sound := by
  cases st
  case take c lane job here slot running =>
    have core := sound c lane here
    refine sound.update here id ⟨core.bound, nofun, ?_, core.outcome, core.recorded⟩
    rintro _ ⟨⟩
    exact core.slot job slot
  case finish c lane job here running outcome =>
    have core := sound c lane here
    obtain ⟨peer, ran⟩ := core.running job running
    -- The job is steady, so that the thread is bound to the core as before.
    obtain ⟨binding, fits⟩ := ran lane.thread
    rw [core.bound (.inl peer)] at binding fits
    refine sound.update here id ⟨fun _ => binding, core.slot, nofun, ?_, core.recorded⟩
    rintro _ ⟨⟩
    exact fits
  case enter caller outside => exact sound.entered caller
  case hand c lane job p q ready spawns here peer free empty =>
    have core := sound c lane here
    refine sound.update here (by simp [ready]) ⟨core.bound, ?_, core.running, core.outcome,
      core.recorded⟩
    rintro _ ⟨⟩
    exact ⟨peer, steady _ (.head _) job rfl⟩
  case mark c lane job p handing here =>
    exact sound.update here (by simp [handing]) { sound c lane here with }
  case refuseSpawn c job e p q ready spawns refuses => exact sound.turn (by simp [ready])
  case await c lane p q ready joins here marked =>
    exact sound.update here (by simp [ready]) { sound c lane here with }
  case refuseJoin c e p q ready joins refuses => exact sound.turn (by simp [ready])
  case collect c lane o p waiting here outcome =>
    have core := sound c lane here
    refine sound.update here (by simp [waiting]) ⟨core.bound, core.slot, core.running, nofun, ?_⟩
    exact core.recorded.append (core.outcome o outcome)
  case forkTooMany => exact sound
  case forkNone => exact sound
  case fork own rest ready fits => exact sound.turn (by simp [ready])
  case own lane jobs own next ready here returns =>
    exact sound.update here (by simp [ready])
      (sound.own here (by simp [ready]) (steady _ (.head _) own rfl))
  case ownPanic lane jobs own next e ready here panics =>
    exact sound.update here (by simp [ready])
      (sound.own here (by simp [ready]) (steady _ (.head _) own rfl))
  case gathered jobs first ready => exact sound.turn (by simp [ready])
  case ended result ready => exact sound.turn (by simp [ready])
  case closeBusy c lane ready here marked =>
    exact sound.update here (by simp [ready]) { sound c lane here with }
  case closeIdle c lane ready here free => exact sound.turn (by simp [ready])
  case leave c lane ready last here => exact sound.turn (by simp)

/-- The answer to a hand-over shows no thread. -/
lemma fits_spawnDeeds {job : Job Sighting} {a : Except Fault Unit} (p : Plan Sighting) :
    ∀ d ∈ p.spawnDeeds c job a, d.Fits := by
  cases p with
  | fork => cases a <;> simp [Plan.spawnDeeds, Deed.Fits]
  | _ => simp [Plan.spawnDeeds, Deed.Fits]

/-- The answer to a join shows no thread. -/
lemma fits_joinDeeds {a : Except Fault Unit} (p : Plan Sighting) :
    ∀ d ∈ p.joinDeeds c a, d.Fits := by
  cases p <;> simp [Plan.joinDeeds, Deed.Fits]

/-- What a step shows of the thread that made it fits the core. -/
lemma Step.fits (st : Step m deeds m') (sound : m.Sound) : ∀ d ∈ deeds, d.Fits := by
  have one {d : Deed Sighting} {more : List (Deed Sighting)} (first : d.Fits)
      (others : ∀ d ∈ more, d.Fits) :
      ∀ d' ∈ d :: more, d'.Fits := List.forall_mem_cons.mpr ⟨first, others⟩
  cases st
  case take => exact one trivial nofun
  case finish c lane job here running outcome =>
    have core := sound c lane here
    obtain ⟨peer, ran⟩ := core.running job running
    obtain ⟨-, fits⟩ := ran lane.thread
    rw [core.bound (.inl peer)] at fits
    exact one ⟨job, lane.thread, core.bound (.inl peer), rfl, fits⟩ nofun
  case own lane jobs own next ready here returns =>
    exact one ⟨lane.thread, (sound _ lane here).bound (.inr (by simp [ready])), returns.symm⟩ nofun
  case ownPanic lane jobs own next e ready here panics =>
    refine one ⟨lane.thread, (sound _ lane here).bound (.inr (by simp [ready])), panics.symm⟩ ?_
    exact one trivial nofun
  case leave c lane ready last here =>
    refine one (fun c seen recorded => ?_) nofun
    obtain ⟨lane, there, rfl⟩ := Option.map_eq_some_iff.mp (List.getElem?_map .. ▸ recorded)
    exact (sound c lane there).recorded
  case mark => exact one trivial (fits_spawnDeeds _)
  case refuseSpawn => exact fits_spawnDeeds _
  case refuseJoin => exact fits_joinDeeds _
  case collect => exact one trivial (fits_joinDeeds _)
  all_goals simp [Deed.Fits]

/-- A step begins a run, ends one, or does neither and leaves the former binding of the caller as it
is. -/
inductive Turns (m : Machine Sighting) : List (Deed Sighting) → Machine Sighting → Prop where
  | enter {caller : Thread} {m' : Machine Sighting} :
    m.stance = .outside → m'.former = caller.binding → Turns m [.enter caller] m'
  | leave {recorded : List (List Sighting)} {thread : Thread} {m' : Machine Sighting} :
    m.stance ≠ .outside → m'.stance = .outside → thread.binding = m.former →
    Turns m [.leave recorded thread] m'
  | stay {deeds : List (Deed Sighting)} {m' : Machine Sighting} :
    (∀ d ∈ deeds, d.isBoundary = false) → (m'.stance ≠ .outside → m.stance ≠ .outside) →
    m'.former = m.former → Turns m deeds m'

/-- The answer to a hand-over begins and ends no run. -/
lemma isBoundary_spawnDeeds {job : Job Sighting} {a : Except Fault Unit} (p : Plan Sighting) :
    ∀ d ∈ p.spawnDeeds c job a, d.isBoundary = false := by
  cases p with
  | fork => cases a <;> simp [Plan.spawnDeeds, Deed.isBoundary]
  | _ => simp [Plan.spawnDeeds, Deed.isBoundary]

/-- The answer to a join begins and ends no run. -/
lemma isBoundary_joinDeeds {a : Except Fault Unit} (p : Plan Sighting) :
    ∀ d ∈ p.joinDeeds c a, d.isBoundary = false := by
  cases p <;> simp [Plan.joinDeeds, Deed.isBoundary]

/-- Every step begins a run, ends one, or does neither. -/
lemma Step.turns (st : Step m deeds m') : Turns m deeds m' := by
  cases st
  case enter caller outside => exact .enter outside rfl
  case leave c lane ready last here => exact .leave (by simp [ready]) rfl rfl
  case mark handing here =>
    exact .stay (List.forall_mem_cons.mpr ⟨rfl, isBoundary_spawnDeeds _⟩) (by simp [handing]) rfl
  case refuseSpawn ready spawns refuses =>
    exact .stay (isBoundary_spawnDeeds _) (by simp [ready]) rfl
  case refuseJoin ready joins refuses => exact .stay (isBoundary_joinDeeds _) (by simp [ready]) rfl
  case collect waiting here outcome =>
    exact .stay (List.forall_mem_cons.mpr ⟨rfl, isBoundary_joinDeeds _⟩) (by simp [waiting]) rfl
  all_goals exact .stay (by simp [Deed.isBoundary]) (by simp_all) rfl

/-! ## Whole runs -/

/-- The last run that `deeds` begin was begun by a thread that was bound to `former`. -/
def Began (deeds : List (Deed Sighting)) (former : Option Core) : Prop :=
  ∃ (before : List (Deed Sighting)) (caller : Thread) (between : List (Deed Sighting)),
    deeds = before ++ .enter caller :: between ∧ (∀ d ∈ between, d.isBoundary = false) ∧
      caller.binding = former

/-- A run that has begun goes on as long as nothing begins or ends one. -/
lemma Began.append {former : Option Core} (began : Began deeds former) {more : List (Deed Sighting)}
    (inner : ∀ d ∈ more, d.isBoundary = false) : Began (deeds ++ more) former := by
  obtain ⟨before, caller, between, rfl, quiet, bound⟩ := began
  refine ⟨before, caller, between ++ more, by simp, fun d mem => ?_, bound⟩
  exact (List.mem_append.mp mem).elim (quiet d) (inner d)

end Steps

/-- The cores of a sound tile are sound. -/
lemma sound_ofTile {tile : Tile} (sound : tile.Sound) : (ofTile tile : Machine Sighting).Sound := by
  intro c lane here
  obtain ⟨thread, there, rfl⟩ := Option.map_eq_some_iff.mp (List.getElem?_map .. ▸ here)
  refine ⟨fun which => ?_, nofun, nofun, nofun, nofun⟩
  cases c with
  | zero => exact which.elim (absurd rfl) (absurd rfl)
  | succ i => exact sound i thread there

section Runs

variable {tile : Tile} {m : Machine Sighting} {deeds : List (Deed Sighting)}

/-- Every run of steady jobs keeps the cores sound and shows only what fits. -/
lemma Run.sound (sound : tile.Sound) (run : Run (ofTile tile) deeds m)
    (steady : ∀ d ∈ deeds, ∀ job, d.job? = some job → job.Steady) :
    m.Sound ∧ ∀ d ∈ deeds, d.Fits := by
  induction run with
  | refl => exact ⟨sound_ofTile sound, nofun⟩
  | @tail m₁ m₂ deeds new _ st ih =>
    obtain ⟨before, fits⟩ := ih fun d mem => steady d (List.mem_append_left _ mem)
    refine ⟨st.sound before fun d mem => steady d (List.mem_append_right _ mem), fun d mem => ?_⟩
    exact (List.mem_append.mp mem).elim (fits d) (st.fits before d)

/-- The machine keeps what the caller was bound to before the run. -/
lemma Run.began (run : Run (ofTile tile) deeds m) : m.stance ≠ .outside → Began deeds m.former := by
  induction run with
  | refl => exact fun engaged => absurd rfl engaged
  | @tail m₁ m₂ deeds new _ st ih =>
    intro engaged
    cases st.turns with
    | enter outside former => exact ⟨deeds, _, [], rfl, nofun, former.symm⟩
    | leave _ outside => exact absurd outside engaged
    | stay quiet same former =>
      rw [former]
      exact (ih (same engaged)).append quiet

/-- Every run gives the calling thread its binding back. -/
lemma Run.restored (run : Run (ofTile tile) deeds m) {before after : List (Deed Sighting)}
    {recorded : List (List Sighting)} {thread : Thread}
    (eq : deeds = before ++ .leave recorded thread :: after) : Began before thread.binding := by
  induction run generalizing after with
  | refl => simp at eq
  | @tail m₁ m₂ deeds new run st ih =>
    -- Either an earlier step has ended the run, or this one has.
    rcases append_eq_append_cons eq with ⟨rest, split⟩ | ⟨mid, rfl, split⟩
    · exact ih split
    · cases st.turns with
      | enter => simp [List.cons_eq_append_iff] at split
      | leave engaged _ bound =>
        cases mid with
        | nil =>
          cases split
          rw [List.append_nil, bound]
          exact run.began engaged
        | cons d mid => simp at split
      | stay quiet =>
        have boundary := quiet (.leave recorded thread) (by simp [split])
        cases boundary

end Runs

/-- What a tile that has come to `m` by `deeds` shows of the threads. -/
structure Identified (deeds : List (Deed Sighting)) (m : Machine Sighting) : Prop where
  /-- A worker is bound to its core, and the calling thread to core 0 while a run is on. -/
  bound : ∀ (c : Core) (lane : Lane Sighting), m.lanes[c]? = some lane →
    c ≠ orchestrator ∨ m.stance ≠ .outside → lane.thread.binding = some c
  /-- So were they when a job ended, and when a share of a fork-join ran on the caller. -/
  fits : ∀ d ∈ deeds, d.Fits
  /-- A run, whether its body returned or unwound, gives the calling thread its binding back. -/
  restored : ∀ (before after : List (Deed Sighting)) (recorded : List (List Sighting))
      (thread : Thread),
    deeds = before ++ .leave recorded thread :: after → Began before thread.binding

end Machine

/-- A program that is built from runs leaves the binding of its thread as it found it and sees no
other, and each core of a run that it makes sees its own number, whatever the tile of the run was
used for before. So it is for the threads of a tile however the caller and the workers step, through
any number of runs. -/
theorem identified_of_programs (tile : TileCode) :
    (∀ job : JobCode, job.job.Steady) ∧
    (∀ (caller : Thread) (body : BodyCode),
      (tile.tile.run caller body.carryOut).value.Sound caller) ∧
    ∀ (deeds : List (Deed Sighting)) (m : Machine Sighting),
      Machine.Run (.ofTile tile.tile) deeds m →
      (∀ d ∈ deeds, ∀ job, d.job? = some job → ∃ code : JobCode, job = code.job) →
      m.Identified deeds := by
  refine ⟨JobCode.steady, fun caller body => tile.sound.run caller body.sound,
    fun deeds m run programs => ?_⟩
  obtain ⟨sound, fits⟩ := run.sound tile.sound fun d mem job there => by
    obtain ⟨code, rfl⟩ := programs d mem job there
    exact code.steady
  exact ⟨fun c lane here => (sound c lane here).bound, fits, fun _ _ _ _ => run.restored⟩

/-- A job that runs a body of its own, and unwinds with it. -/
def unwinding : JobCode :=
  .run (.start .single) (.observe fun _ => .panic (.text "lost")) fun
    | .ok () => .done
    | .error p => .panic p

/-- A job that looks at its binding and does nothing else. -/
def looking : JobCode :=
  .observe fun _ => .done

/-- A job unwinds on a core, as the body of the run does that it is in; the next run has a job on
the same core again. -/
theorem identified_of_programs_reused :
    ∃ (deeds : List (Deed Sighting)) (m : Machine Sighting),
      Machine.Run (.ofTile (TileCode.start ⟨2, by decide⟩).tile) deeds m ∧
      .finish 1 ⟨[.run (some 1) [[.bound (some 0)]] (some 1)], .error (.text "lost")⟩ ∈ deeds ∧
      .finish 1 ⟨[.bound (some 1)], .ok ()⟩ ∈ deeds ∧ m.Identified deeds := by
  have first :=
    (Machine.Run.refl (Machine.ofTile (β := Sighting) (TileCode.start ⟨2, by decide⟩).tile)).tail
      (.enter rfl : Machine.Step _ [.enter {}] _)
  have lost := ((first.tail (.hand rfl .body rfl (by decide) rfl rfl :
    Machine.Step _ [.hand 1 unwinding.job] _)).tail (.take (c := 1) rfl rfl rfl)).tail
    (.mark (c := 1) rfl rfl)
  have unwound := ((lost.tail (.ended rfl : Machine.Step _ [.ended (.error .other)] _)).tail
    (.closeBusy (c := 1) rfl rfl rfl)).tail (.finish (c := 1) rfl rfl rfl)
  have second := ((unwound.tail (.collect (c := 1) rfl rfl rfl)).tail
    (.leave (c := 2) rfl (by decide) rfl)).tail (.enter rfl : Machine.Step _ [.enter {}] _)
  have handed := ((second.tail (.hand rfl .body rfl (by decide) rfl rfl :
    Machine.Step _ [.hand 1 looking.job] _)).tail
    (.mark (c := 1) rfl rfl)).tail (.await (c := 1) rfl .body rfl rfl)
  have joined := ((handed.tail (.take (c := 1) rfl rfl rfl)).tail
    (.finish (c := 1) rfl rfl rfl)).tail (.collect (c := 1) rfl rfl rfl)
  have identified := (identified_of_programs (.start ⟨2, by decide⟩)).2.2 _ _ joined
  refine ⟨_, _, joined, ?_, ?_, identified ?_⟩
  · iterate 9 apply List.mem_append_left
    exact List.mem_append_right _ (.head _)
  · exact List.mem_append_left _ (List.mem_append_right _ (.head _))
  · simp only [List.forall_mem_append, List.forall_mem_cons, Plan.spawnDeeds, Plan.joinDeeds,
      Deed.job?, List.not_mem_nil, reduceCtorEq, false_imp_iff, implies_true, and_true, true_and,
      Option.some.injEq, forall_eq']
    exact ⟨⟨_, rfl⟩, ⟨_, rfl⟩⟩

end TileBench.Tile
