import Mathlib.Tactic.Lemma
import TileBench.Tile.Machine

/-!
# What a step does to one core

Every later fact about the tile machine looks at one core at a time. `Lane.Moves` lists what can
happen to a core, with what the caller counts on from it before and after, and `Step.moves` says
that a step of the machine does one of these things to each core. The case analysis over the rules
of `Machine.Step` is made here: `Step.unmarked` for the marks that a closing scope has already
passed, `Step.moves` for the contents of the cores and `Step.handing` for the hand-over that the
caller has in its hands.
-/

namespace TileBench.Tile

variable {β : Type}

namespace Deed

/-- Whether a deed moves a job or an outcome of a core; the start and the end of a run concern every
core. -/
def concerns (c : Core) : Deed β → Bool
  | .hand d _ | .take d _ | .finish d _ | .collect d _ => decide (d = c)
  | .enter _ | .leave .. => true
  | _ => false

/-- Whether a deed belongs to the handing-over of a job to a core. -/
def isHandOver (c : Core) : Deed β → Bool
  | .hand d _ | .mark d _ => decide (d = c)
  | _ => false

/-- Whether a deed starts or ends a run. -/
def isTurn : Deed β → Bool
  | .enter _ | .leave .. => true
  | _ => false

section

variable (c d : Core) (job : Job β) (o : Outcome β) (a : Except Fault Unit)

/-- A hand-over brings a job to its core. -/
@[simp] lemma concerns_hand : (hand d job).concerns c = decide (d = c) := rfl

/-- A mark moves no job. -/
@[simp] lemma concerns_mark : (mark d job).concerns c = false := rfl

/-- Taking a job moves it from the slot of its core. -/
@[simp] lemma concerns_take : (take d job).concerns c = decide (d = c) := rfl

/-- A job that is over leaves its outcome on its core. -/
@[simp] lemma concerns_finish : (finish d o).concerns c = decide (d = c) := rfl

/-- Collecting takes the outcome off its core. -/
@[simp] lemma concerns_collect : (collect d o).concerns c = decide (d = c) := rfl

/-- A share of the caller moves no job. -/
@[simp] lemma concerns_own (ending : Except Payload Unit) :
    (own job ending).concerns c = false := rfl

/-- An answer moves no job. -/
@[simp] lemma concerns_reply (call : Call β) (r : Reply) : (reply call r).concerns c = false := rfl

/-- The end of the body moves no job. -/
@[simp] lemma concerns_ended (r : Except Payload Unit) :
    (ended r : Deed β).concerns c = false := rfl

/-- The start of a run concerns every core. -/
@[simp] lemma concerns_enter (t : Thread) : (enter t : Deed β).concerns c = true := rfl

/-- The end of a run concerns every core. -/
@[simp] lemma concerns_leave (r : List (List β)) (t : Thread) : (leave r t).concerns c = true := rfl

/-- A hand-over starts with the job. -/
@[simp] lemma isHandOver_hand : (hand d job).isHandOver c = decide (d = c) := rfl

/-- A hand-over is completed by the mark. -/
@[simp] lemma isHandOver_mark : (mark d job).isHandOver c = decide (d = c) := rfl

/-- Collecting is not part of a hand-over. -/
@[simp] lemma isHandOver_collect : (collect d o).isHandOver c = false := rfl

end

end Deed

namespace Plan

/-- The answer to a hand-over moves no job. -/
@[simp] lemma concerns_spawnDeeds (p : Plan β) (c d : Core) (job : Job β) (a : Except Fault Unit) :
    (p.spawnDeeds c job a).filter (·.concerns d) = [] := by
  cases p with
  | fork jobs own next rest => cases a <;> rfl
  | body => rfl
  | gather jobs cores first => rfl
  | close next => rfl

/-- The answer to a join moves no job. -/
@[simp] lemma concerns_joinDeeds (p : Plan β) (c d : Core) (a : Except Fault Unit) :
    (p.joinDeeds c a).filter (·.concerns d) = [] := by
  cases p <;> rfl

/-- The answer to a hand-over is not part of it. -/
@[simp] lemma isHandOver_spawnDeeds (p : Plan β) (c d : Core) (job : Job β)
    (a : Except Fault Unit) : (p.spawnDeeds c job a).filter (·.isHandOver d) = [] := by
  cases p with
  | fork jobs own next rest => cases a <;> rfl
  | body => rfl
  | gather jobs cores first => rfl
  | close next => rfl

/-- The answer to a join hands nothing over. -/
@[simp] lemma isHandOver_joinDeeds (p : Plan β) (c d : Core) (a : Except Fault Unit) :
    (p.joinDeeds c a).filter (·.isHandOver d) = [] := by
  cases p <;> rfl

end Plan

namespace Machine

/-- Changing a core sets the stance that comes with it. -/
@[simp] lemma stance_update (m : Machine β) (c : Core) (lane : Lane β) (stance : Stance β) :
    (m.update c lane stance).stance = stance := rfl

/-- A turn sets the stance. -/
@[simp] lemma stance_turn (m : Machine β) (stance : Stance β) :
    (m.turn stance).stance = stance := rfl

/-- A turn leaves the cores as they are. -/
@[simp] lemma lanes_turn (m : Machine β) (stance : Stance β) :
    (m.turn stance).lanes = m.lanes := rfl

/-- Changing a core leaves the number of cores. -/
@[simp] lemma length_update (m : Machine β) (c : Core) (lane : Lane β) (stance : Stance β) :
    (m.update c lane stance).lanes.length = m.lanes.length := by
  simp [update]

/-- Starting a run leaves the number of cores. -/
@[simp] lemma length_entered (m : Machine β) (caller : Thread) :
    (m.entered caller).lanes.length = m.lanes.length := by
  simp [entered]

/-- Changing a core changes that core and no other. -/
lemma getElem?_update {m : Machine β} {c d : Core} {old lane : Lane β} {stance : Stance β}
    (here : m.lanes[c]? = some old) :
    (m.update c lane stance).lanes[d]? = if d = c then some lane else m.lanes[d]? := by
  obtain ⟨inside, -⟩ := List.getElem?_eq_some_iff.mp here
  by_cases hd : d = c
  · subst hd
    simp [update, inside]
  · simp [update, hd, List.getElem?_set_ne (Ne.symm hd)]

/-- A core at the start of a run holds what it held before. -/
lemma getElem?_entered {m : Machine β} (caller : Thread) {c : Core} {lane : Lane β}
    (here : m.lanes[c]? = some lane) :
    ∃ thread, (m.entered caller).lanes[c]? = some (fresh { lane with thread }) := by
  by_cases hc : c = orchestrator
  · subst hc
    exact ⟨{ caller with binding := some orchestrator }, by simp [entered, here]⟩
  · refine ⟨lane.thread, ?_⟩
    simp [entered, here, Ne.symm hc]

/-- No step changes the number of cores. -/
lemma Step.length_eq {m m' : Machine β} {deeds : List (Deed β)} (st : Step m deeds m') :
    m'.lanes.length = m.lanes.length := by
  cases st <;> simp

/-- No run changes the number of cores. -/
lemma Run.length_eq {m m' : Machine β} {deeds : List (Deed β)} (run : Run m deeds m') :
    m'.lanes.length = m.lanes.length := by
  induction run with
  | refl => rfl
  | tail _ st ih => exact st.length_eq.trans ih

/-! ## Marks -/

end Machine

/-- The cores that the end of a scope has passed. -/
def Plan.passed : Plan β → Nat
  | .close c => c
  | _ => 0

/-- The cores that the end of a scope has passed, all `n` of them when no run is going on. -/
def Stance.passed (n : Nat) : Stance β → Nat
  | .outside => n
  | .ready p | .handing _ _ p | .waiting _ p => p.passed

namespace Plan

/-- The answer to a hand-over passes no core. -/
@[simp] lemma passed_afterSpawn (p : Plan β) (a : Except Fault Unit) :
    (p.afterSpawn a).passed = p.passed := by
  cases p with
  | fork jobs own next rest => cases a <;> rfl
  | body => rfl
  | gather jobs cores first => rfl
  | close next => rfl

/-- The answer to a join passes no core. -/
@[simp] lemma passed_afterJoin (p : Plan β) (a : Except Fault Unit) :
    (p.afterJoin a).passed = p.passed := by
  cases p <;> rfl

/-- A plan that hands over jobs has passed no core, before and after. -/
lemma Spawns.passed {p q : Plan β} {c : Core} {job : Job β} (spawns : p.Spawns c job q) :
    p.passed = 0 ∧ q.passed = 0 := by
  cases spawns <;> exact ⟨rfl, rfl⟩

/-- A plan that joins has passed no core, before and after. -/
lemma Joins.passed {p q : Plan β} {c : Core} (joins : p.Joins c q) :
    p.passed = 0 ∧ q.passed = 0 := by
  cases joins <;> exact ⟨rfl, rfl⟩

end Plan

/-- The cores that carry no mark where the caller stands: core 0, those that the end of the scope
has passed, and the one that the caller is at. -/
def Stance.Clears (n : Nat) (stance : Stance β) (c : Core) : Prop :=
  c = orchestrator ∨ c < stance.passed n ∨ stance.isAt c = true

/-- Between its calls the caller is at no core. -/
@[simp] lemma Stance.isAt_ready (p : Plan β) (c : Core) : (Stance.ready p).isAt c = false := rfl

/-- Outside a run the caller is at no core. -/
@[simp] lemma Stance.isAt_outside (c : Core) : (Stance.outside : Stance β).isAt c = false := rfl

/-- The caller that hands over a job is at its core. -/
@[simp] lemma Stance.isAt_handing (p : Plan β) (job : Job β) (c d : Core) :
    (Stance.handing c job p).isAt d = decide (c = d) := rfl

/-- The caller that waits for a core is at it. -/
@[simp] lemma Stance.isAt_waiting (p : Plan β) (c d : Core) :
    (Stance.waiting c p).isAt d = decide (c = d) := rfl

/-- The body has passed no core, so that of those that it is not at only core 0 is clear. -/
lemma Stance.Clears.eq_orchestrator {n : Nat} {stance : Stance β} {c : Core}
    (clears : stance.Clears n c) (zero : stance.passed n = 0) (away : stance.isAt c = false) :
    c = orchestrator := by
  rcases clears with core | low | there
  · exact core
  · rw [zero] at low
    cases low
  · cases away.symm.trans there

namespace Machine

/-- The marks and the stance of the caller fit each other, and the caller hands jobs to peers and
waits for peers only. -/
structure Tidy (m : Machine β) : Prop where
  unmarked : ∀ (c : Core) (lane : Lane β), m.lanes[c]? = some lane →
    m.stance.Clears m.lanes.length c → lane.isSpawned = false
  peer : ∀ c, m.stance.isAt c = true → c ≠ orchestrator ∧ c < m.lanes.length
  handing : ∀ (c : Core) (job : Job β) (p : Plan β), m.stance = .handing c job p → p.passed = 0

/-- A tile at rest is tidy. -/
lemma tidy_ofTile (tile : Tile) : (ofTile tile : Machine β).Tidy where
  unmarked := by
    intro c lane here _
    simp only [ofTile, List.getElem?_map, Option.map_eq_some_iff] at here
    obtain ⟨thread, -, rfl⟩ := here
    rfl
  peer := by
    intro c there
    cases there
  handing := by
    intro c job p there
    cases there

/-- A marked core is a peer that the end of the scope has not passed. -/
lemma Tidy.of_marked {m : Machine β} {c : Core} {lane : Lane β} (tidy : m.Tidy)
    (here : m.lanes[c]? = some lane) (marked : lane.isSpawned = true) :
    ¬ m.stance.Clears m.lanes.length c := by
  intro clears
  have unmarked := tidy.unmarked c lane here clears
  rw [marked] at unmarked
  cases unmarked

section Free

variable {m : Machine β} {c : Core} {p : Plan β} {d : Core} {lane : Lane β}

/-- Outside a run no core is marked. -/
lemma Tidy.free_of_outside (tidy : m.Tidy) (outside : m.stance = .outside)
    (here : m.lanes[d]? = some lane) : lane.isSpawned = false := by
  refine tidy.unmarked d lane here (.inr (.inl ?_))
  rw [outside]
  exact (List.getElem?_eq_some_iff.mp here).1

/-- The core that the caller waits for has lost its mark. -/
lemma Tidy.free_of_waiting (tidy : m.Tidy) (waiting : m.stance = .waiting c p)
    (here : m.lanes[c]? = some lane) : lane.isSpawned = false :=
  tidy.unmarked c lane here (.inr (.inr (by simp [waiting])))

/-- Once the end of the scope has passed all cores none is marked. -/
lemma Tidy.free_of_last (tidy : m.Tidy) (ready : m.stance = .ready (.close c))
    (last : m.lanes.length ≤ c) (here : m.lanes[d]? = some lane) : lane.isSpawned = false := by
  refine tidy.unmarked d lane here (.inr (.inl ?_))
  rw [ready]
  exact Nat.lt_of_lt_of_le (List.getElem?_eq_some_iff.mp here).1 last

end Free

/-- A machine stays tidy when one core changes, if the mark and the stance after it fit. -/
lemma Tidy.update {m : Machine β} {c : Core} {old lane : Lane β} {stance : Stance β}
    (tidy : m.Tidy) (here : m.lanes[c]? = some old)
    (self : stance.Clears m.lanes.length c → lane.isSpawned = false)
    (others : ∀ d, d ≠ c → stance.Clears m.lanes.length d → m.stance.Clears m.lanes.length d)
    (peer : ∀ d, stance.isAt d = true → d ≠ orchestrator ∧ d < m.lanes.length)
    (handing : ∀ d job p, stance = .handing d job p → p.passed = 0) :
    (m.update c lane stance).Tidy where
  unmarked := by
    intro d other there clears
    rw [getElem?_update here] at there
    rw [stance_update, length_update] at clears
    by_cases hd : d = c
    · subst hd
      simp only [if_true, Option.some.injEq] at there
      subst there
      exact self clears
    · rw [if_neg hd] at there
      exact tidy.unmarked d other there (others d hd clears)
  peer := by simpa using peer
  handing := by simpa using handing

/-- A machine stays tidy when the caller goes to a peer that carries no mark. -/
lemma Tidy.goTo {m : Machine β} {c : Core} {old lane : Lane β} {stance : Stance β}
    (tidy : m.Tidy) (here : m.lanes[c]? = some old) (peer : c ≠ orchestrator)
    (free : lane.isSpawned = false) (stands : ∀ d, stance.isAt d = decide (c = d))
    (passed : ∀ d, d ≠ c → d < stance.passed m.lanes.length → m.stance.Clears m.lanes.length d)
    (handing : ∀ d job p, stance = .handing d job p → p.passed = 0) :
    (m.update c lane stance).Tidy := by
  refine tidy.update here (fun _ => free) ?_ ?_ handing
  · intro d hd clears
    rcases clears with core | low | there
    · exact .inl core
    · exact passed d hd low
    · rw [stands] at there
      exact absurd (of_decide_eq_true there).symm hd
  · intro d there
    rw [stands] at there
    obtain rfl : c = d := of_decide_eq_true there
    exact ⟨peer, (List.getElem?_eq_some_iff.mp here).1⟩

/-- A machine stays tidy when only the stance changes, if the new stance fits. -/
lemma Tidy.turn {m : Machine β} {stance : Stance β} (tidy : m.Tidy)
    (unmarked : ∀ (c : Core) (lane : Lane β), m.lanes[c]? = some lane →
      c < stance.passed m.lanes.length → lane.isSpawned = false)
    (away : ∀ d, stance.isAt d = false) : (m.turn stance).Tidy where
  unmarked := by
    intro c lane here clears
    rcases clears with core | low | there
    · exact tidy.unmarked c lane here (.inl core)
    · exact unmarked c lane here low
    · cases (away c).symm.trans there
  peer := by
    intro d there
    cases (away d).symm.trans there
  handing := by
    intro d job p there
    have absent := away d
    rw [show stance = .handing d job p from there] at absent
    simp at absent

/-- In the body, and in a fork-join between its calls, the caller has passed no core. -/
lemma Tidy.turn_of_zero {m : Machine β} {stance : Stance β} (tidy : m.Tidy)
    (zero : stance.passed m.lanes.length = 0) (away : ∀ d, stance.isAt d = false) :
    (m.turn stance).Tidy := by
  refine tidy.turn ?_ away
  intro d lane _ low
  rw [zero] at low
  cases low

/-- Every step keeps the machine tidy. -/
lemma Step.tidy {m m' : Machine β} {deeds : List (Deed β)} (st : Step m deeds m') (tidy : m.Tidy) :
    m'.Tidy := by
  cases st with
  | @take c lane job here slot running =>
    exact tidy.update here (tidy.unmarked c lane here) (fun _ _ clears => clears)
      tidy.peer tidy.handing
  | @finish c lane job here running outcome =>
    exact tidy.update here (tidy.unmarked c lane here) (fun _ _ clears => clears)
      tidy.peer tidy.handing
  | enter outside =>
    refine ⟨?_, nofun, nofun⟩
    intro c lane here _
    simp only [entered, List.getElem?_map, Option.map_eq_some_iff] at here
    obtain ⟨old, -, rfl⟩ := here
    rfl
  | @hand c lane job p q ready spawns here peer free slot =>
    -- The job comes from the body, so that the end of the scope has passed no core.
    obtain ⟨-, zero⟩ := spawns.passed
    refine tidy.goTo here peer free (fun _ => rfl) ?_ ?_
    · intro d _ low
      simp [Stance.passed, zero] at low
    · intro d job' p' there
      cases there
      exact zero
  | @mark c lane job p handing here =>
    have zero := tidy.handing c job p handing
    have peer := tidy.peer c (by simp [handing])
    have none : (Stance.ready (p.afterSpawn (.ok ()))).passed m.lanes.length = 0 := by
      simp [Stance.passed, zero]
    -- The marked core is a peer, and the caller is at no core any more: only core 0 has to be
    -- clear.
    refine tidy.update here ?_ ?_ nofun nofun
    · intro clears
      exact absurd (clears.eq_orchestrator none rfl) peer.1
    · intro d _ clears
      exact .inl (clears.eq_orchestrator none rfl)
  | refuseSpawn ready spawns refuses =>
    obtain ⟨zero, -⟩ := spawns.passed
    exact tidy.turn_of_zero ((Plan.passed_afterSpawn _ _).trans zero) (fun _ => rfl)
  | @await c lane p q ready joins here marked =>
    obtain ⟨-, zero⟩ := joins.passed
    refine tidy.goTo here ?_ rfl (fun _ => rfl) ?_ nofun
    · exact fun core => tidy.of_marked here marked (.inl core)
    · intro d _ low
      simp [Stance.passed, zero] at low
  | refuseJoin ready joins refuses =>
    obtain ⟨-, zero⟩ := joins.passed
    exact tidy.turn_of_zero ((Plan.passed_afterJoin _ _).trans zero) (fun _ => rfl)
  | @collect c lane o p waiting here outcome =>
    have free := tidy.free_of_waiting waiting here
    refine tidy.update here (fun _ => free) ?_ nofun nofun
    intro d hd clears
    rcases clears with core | low | there
    · exact .inl core
    · exact .inr (.inl (by simpa [Stance.passed, waiting] using low))
    · cases there
  | forkTooMany ready many => exact tidy
  | forkNone ready => exact tidy
  | fork ready fits => exact tidy.turn_of_zero rfl (fun _ => rfl)
  | @own lane jobs own next ready here returns =>
    exact tidy.update here (fun _ => tidy.unmarked _ lane here (.inl rfl))
      (fun d _ clears => .inl (clears.eq_orchestrator rfl rfl)) nofun nofun
  | @ownPanic lane jobs own next e ready here panics =>
    exact tidy.update here (fun _ => tidy.unmarked _ lane here (.inl rfl))
      (fun d _ clears => .inl (clears.eq_orchestrator rfl rfl)) nofun nofun
  | gathered ready => exact tidy.turn_of_zero rfl (fun _ => rfl)
  | ended ready =>
    refine tidy.turn ?_ (fun _ => rfl)
    intro c lane here low
    exact tidy.unmarked c lane here (.inl (Nat.lt_one_iff.mp low))
  | @closeBusy c lane ready here marked =>
    refine tidy.goTo here ?_ rfl (fun _ => rfl) ?_ nofun
    · exact fun core => tidy.of_marked here marked (.inl core)
    -- The bound moves past `c`, whose mark is gone; the cores below it were clear before.
    · intro d hd low
      refine .inr (.inl ?_)
      rw [ready]
      exact Nat.lt_of_le_of_ne (Nat.le_of_lt_succ low) hd
  | @closeIdle c lane ready here free =>
    refine tidy.turn ?_ (fun _ => rfl)
    intro d other there low
    by_cases hd : d = c
    · subst hd
      cases here.symm.trans there
      exact free
    · refine tidy.unmarked d other there (.inr (.inl ?_))
      rw [ready]
      exact Nat.lt_of_le_of_ne (Nat.le_of_lt_succ low) hd
  | leave ready last here =>
    exact tidy.turn (fun _ _ there _ => tidy.free_of_last ready last there) (fun _ => rfl)

end Machine

/-! ## Contents of the cores -/

/-- Two states of a core that hold the same. -/
def Lane.HoldsAs (lane other : Lane β) : Prop :=
  lane.slot = other.slot ∧ lane.running = other.running ∧ lane.outcome = other.outcome

/-- What can happen to core `c` in a step: `Moves c old e deeds new e'` takes the core from `old` to
`new` by `deeds`, and what the caller counts on from `e` to `e'`. -/
inductive Lane.Moves (c : Core) : Lane β → Nat → List (Deed β) → Lane β → Nat → Prop where
  | keep {old new : Lane β} {e : Nat} : new.HoldsAs old → Moves c old e [] new e
  /-- A run starts or ends. The caller counts on nothing then. -/
  | turn {old new : Lane β} {d : Deed β} :
    d.isTurn = true → new.HoldsAs old → Moves c old 0 [d] new 0
  | hand {old : Lane β} {job : Job β} :
    Moves c old 0 [.hand c job] { old with slot := some job } 1
  | take {old : Lane β} {job : Job β} {e : Nat} : old.slot = some job → old.running = none →
    Moves c old e [.take c job] { old with slot := none, running := some job } e
  | finish {old : Lane β} {job : Job β} {thread : Thread} {e : Nat} :
    old.running = some job → old.outcome = none →
    Moves c old e [.finish c (job old.thread).value.1]
      { old with thread, running := none, outcome := some (job old.thread).value.1 } e
  | collect {old : Lane β} {o : Outcome β} {recorded : List β} : old.outcome = some o →
    Moves c old 1 [.collect c o] { old with outcome := none, recorded } 0

namespace Machine

/-- The caller counts on nothing from a core that is not marked while it is at no core. -/
lemma expected_eq_zero {m : Machine β} {c : Core} {lane : Lane β} (free : lane.isSpawned = false)
    (away : m.stance.isAt c = false) : m.expected c lane = 0 := by
  simp [expected, free, away]

/-- What the caller counts on from a core depends on the mark and on whether the caller is at the
core. -/
lemma expected_congr {m m' : Machine β} {c : Core} {old new : Lane β}
    (mark : new.isSpawned = old.isSpawned) (there : m'.stance.isAt c = m.stance.isAt c) :
    m'.expected c new = m.expected c old := by
  simp [expected, mark, there]

/-- The caller counts on one thing from a core that is marked or that it is at. -/
lemma expected_eq_one {m : Machine β} {c : Core} {lane : Lane β}
    (counts : lane.isSpawned = true ∨ m.stance.isAt c = true) : m.expected c lane = 1 := by
  simp [expected, counts]

/-- What a step of the whole machine does to each of its cores. -/
def Moves (m : Machine β) (deeds : List (Deed β)) (m' : Machine β) : Prop :=
  ∀ (c : Core) (lane : Lane β), m.lanes[c]? = some lane → ∃ lane', m'.lanes[c]? = some lane' ∧
    lane.Moves c (m.expected c lane) (deeds.filter (·.concerns c)) lane' (m'.expected c lane')

/-- A step that changes core `c` leaves every other core alone. -/
lemma Moves.update {m : Machine β} {c : Core} {old new : Lane β} {stance : Stance β}
    {deeds : List (Deed β)} (here : m.lanes[c]? = some old)
    (self : old.Moves c (m.expected c old) (deeds.filter (·.concerns c)) new
      ((m.update c new stance).expected c new))
    (others : ∀ d, d ≠ c → deeds.filter (·.concerns d) = [] ∧ stance.isAt d = m.stance.isAt d) :
    m.Moves deeds (m.update c new stance) := by
  intro d lane there
  rw [getElem?_update here]
  by_cases hd : d = c
  · subst hd
    cases here.symm.trans there
    exact ⟨new, by simp, self⟩
  · obtain ⟨none, same⟩ := others d hd
    refine ⟨lane, by rw [if_neg hd, there], ?_⟩
    have kept : (m.update c new stance).expected d lane = m.expected d lane := by
      simp [expected, same]
    rw [none, kept]
    exact .keep ⟨rfl, rfl, rfl⟩

/-- A step that changes only the stance, from one where the caller is at no core to another. -/
lemma Moves.stay {m : Machine β} {stance : Stance β} {deeds : List (Deed β)}
    (none : ∀ d, deeds.filter (·.concerns d) = [])
    (same : ∀ d, stance.isAt d = m.stance.isAt d) : m.Moves deeds (m.turn stance) := by
  intro c lane here
  have kept : (m.turn stance).expected c lane = m.expected c lane := by
    simp [expected, same]
  refine ⟨lane, here, ?_⟩
  rw [none, kept]
  exact .keep ⟨rfl, rfl, rfl⟩

/-- A step that changes core `c` but neither its mark nor where the caller is. -/
lemma Moves.update_same {m : Machine β} {c : Core} {old new : Lane β} {stance : Stance β}
    {deeds : List (Deed β)} (here : m.lanes[c]? = some old) (mark : new.isSpawned = old.isSpawned)
    (same : ∀ d, stance.isAt d = m.stance.isAt d)
    (self : ∀ e, old.Moves c e (deeds.filter (·.concerns c)) new e)
    (others : ∀ d, d ≠ c → deeds.filter (·.concerns d) = []) :
    m.Moves deeds (m.update c new stance) := by
  refine .update here ?_ fun d hd => ⟨others d hd, same d⟩
  have kept : (m.update c new stance).expected c new = m.expected c old :=
    expected_congr mark (same c)
  rw [kept]
  exact self _

/-- A step of a tidy machine moves each core in one of the ways of `Lane.Moves`. -/
lemma Step.moves {m m' : Machine β} {deeds : List (Deed β)} (st : Step m deeds m') (tidy : m.Tidy) :
    m.Moves deeds m' := by
  cases st with
  | @take c lane job here slot running =>
    refine .update_same here rfl (fun _ => rfl) ?_ ?_
    · intro e
      simpa using Lane.Moves.take slot running
    · intro d hd
      simp [Ne.symm hd]
  | @finish c lane job here running outcome =>
    refine .update_same here rfl (fun _ => rfl) ?_ ?_
    · intro e
      simpa using Lane.Moves.finish running outcome
    · intro d hd
      simp [Ne.symm hd]
  | @enter caller outside =>
    intro c lane here
    obtain ⟨thread, there⟩ := getElem?_entered caller here
    have free := tidy.free_of_outside outside here
    refine ⟨_, there, ?_⟩
    rw [expected_eq_zero free (by simp [outside]), expected_eq_zero rfl rfl]
    exact .turn rfl ⟨rfl, rfl, rfl⟩
  | @hand c lane job p q ready spawns here peer free slot =>
    refine .update here ?_ ?_
    · rw [expected_eq_zero free (by simp [ready]), expected_eq_one (.inr (by simp))]
      simpa using Lane.Moves.hand
    · intro d hd
      simp [ready, Ne.symm hd]
  | @mark c lane job p handing here =>
    refine .update here ?_ ?_
    -- The caller counts on one thing all along: first because it is at the core, then because of
    -- the mark.
    · rw [expected_eq_one (.inr (by simp [handing])), expected_eq_one (.inl rfl)]
      have none : (.mark c job :: p.spawnDeeds c job (.ok ())).filter (·.concerns c) = [] := by simp
      rw [none]
      exact .keep ⟨rfl, rfl, rfl⟩
    · intro d hd
      simp [handing, Ne.symm hd]
  | refuseSpawn ready spawns refuses => exact .stay (by simp) (by simp [ready])
  | @await c lane p q ready joins here marked =>
    refine .update here ?_ ?_
    · rw [expected_eq_one (.inl marked), expected_eq_one (.inr (by simp))]
      exact .keep ⟨rfl, rfl, rfl⟩
    · intro d hd
      simp [ready, Ne.symm hd]
  | refuseJoin ready joins refuses => exact .stay (by simp) (by simp [ready])
  | @collect c lane o p waiting here outcome =>
    have free := tidy.free_of_waiting waiting here
    refine .update here ?_ ?_
    · rw [expected_eq_one (.inr (by simp [waiting])), expected_eq_zero (by exact free) (by simp)]
      simpa using Lane.Moves.collect outcome
    · intro d hd
      simp [waiting, Ne.symm hd]
  | forkTooMany ready many => exact .stay (by simp) (fun _ => rfl)
  | forkNone ready => exact .stay (by simp) (fun _ => rfl)
  | fork ready fits => exact .stay (by simp) (by simp [ready])
  | own ready here returns =>
    exact .update_same here rfl (by simp [ready]) (fun _ => .keep ⟨rfl, rfl, rfl⟩) (fun _ _ => rfl)
  | ownPanic ready here panics =>
    exact .update_same here rfl (by simp [ready]) (fun _ => .keep ⟨rfl, rfl, rfl⟩) (fun _ _ => rfl)
  | gathered ready => exact .stay (by simp) (by simp [ready])
  | ended ready => exact .stay (by simp) (by simp [ready])
  | @closeBusy c lane ready here marked =>
    refine .update here ?_ ?_
    · rw [expected_eq_one (.inl marked), expected_eq_one (.inr (by simp))]
      exact .keep ⟨rfl, rfl, rfl⟩
    · intro d hd
      simp [ready, Ne.symm hd]
  | @closeIdle c lane ready here free => exact .stay (by simp) (by simp [ready])
  | @leave c lane ready last here =>
    intro d other there
    -- The end of the scope has passed every core, so that nothing is counted on before or after.
    have free := tidy.free_of_last ready last there
    refine ⟨other, there, ?_⟩
    rw [expected_eq_zero free (by simp [ready]), expected_eq_zero free rfl]
    exact .turn rfl ⟨rfl, rfl, rfl⟩

end Machine

/-! ## Hand-overs -/

/-- The job that the caller has handed to a core that it is still to mark. -/
def Stance.handed? (c : Core) : Stance β → Option (Job β)
  | .handing d job _ => if d = c then some job else none
  | _ => none

/-- What can happen to the hand-over to core `c` in a step: nothing, or it starts, or it is
completed. -/
inductive HandsOver (c : Core) : Option (Job β) → List (Deed β) → Option (Job β) → Prop where
  | keep {h : Option (Job β)} : HandsOver c h [] h
  | hand {job : Job β} : HandsOver c none [.hand c job] (some job)
  | mark {job : Job β} : HandsOver c (some job) [.mark c job] none

/-- A step keeps, starts or completes the hand-over to a core. -/
lemma Machine.Step.handsOver {m m' : Machine β} {deeds : List (Deed β)} (c : Core)
    (st : Machine.Step m deeds m') :
    HandsOver c (m.stance.handed? c) (deeds.filter (·.isHandOver c)) (m'.stance.handed? c) := by
  cases st with
  -- A hand-over is started and completed by `hand` and `mark`; no other rule touches it.
  | take here slot running => exact .keep
  | finish here running outcome => exact .keep
  | enter outside =>
    rw [outside]
    exact .keep
  | @hand d lane job p q ready spawns here peer free slot =>
    rw [ready]
    by_cases hd : d = c
    · subst hd
      simpa [Stance.handed?] using HandsOver.hand
    · simpa [Stance.handed?, hd] using HandsOver.keep
  | @mark d lane job p handing here =>
    rw [handing]
    by_cases hd : d = c
    · subst hd
      simpa [Stance.handed?] using HandsOver.mark
    · simpa [Stance.handed?, hd] using HandsOver.keep
  | refuseSpawn ready spawns refuses =>
    rw [ready, Plan.isHandOver_spawnDeeds]
    exact .keep
  | await ready joins here marked =>
    rw [ready]
    exact .keep
  | refuseJoin ready joins refuses =>
    rw [ready, Plan.isHandOver_joinDeeds]
    exact .keep
  | @collect d lane o p waiting here outcome =>
    have none : (.collect d o :: p.joinDeeds d (answer d o)).filter (·.isHandOver c) = [] := by
      simp
    rw [waiting, none]
    exact .keep
  | forkTooMany ready many =>
    rw [ready]
    exact .keep
  | forkNone ready =>
    rw [ready]
    exact .keep
  | fork ready fits =>
    rw [ready]
    exact .keep
  | own ready here returns =>
    rw [ready]
    exact .keep
  | ownPanic ready here panics =>
    rw [ready]
    exact .keep
  | gathered ready =>
    rw [ready]
    exact .keep
  | ended ready =>
    rw [ready]
    exact .keep
  | closeBusy ready here marked =>
    rw [ready]
    exact .keep
  | closeIdle ready here free =>
    rw [ready]
    exact .keep
  | leave ready last here =>
    rw [ready]
    exact .keep

end TileBench.Tile
