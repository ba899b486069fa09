import TileBench.Proofs.Tile.Accounting
import TileBench.Proofs.Tile.Scope

/-!
# The machine does what a scope does

A scope runs a job when its core is joined, the machine in any order. What a body sees is the same:
every step of the machine is matched by at most one call on a scope, which `Step.simulates` shows
and `Run.sequential` carries through a run. `Shows` relates the cores of the machine to those of a
scope, and `Fits` says what the caller still owes to the call that it is in.
-/

namespace TileBench.Tile

variable {β : Type}

/-- Makes a call on a scope. -/
def Call.perform (s : Scope β) : Call β → Reply × Scope β
  | .spawn c job => ((.ok (s.spawn c job).value.1), (s.spawn c job).value.2)
  | .join c => ((.ok (s.join c).value.1), (s.join c).value.2)
  | .forkJoin jobs => (s.forkJoin jobs).value

/-- Whether a deed is seen from outside the tile: a run starts or ends, or a call of its body is
over. -/
def Deed.isSeen : Deed β → Bool
  | .enter _ | .reply .. | .ended _ | .leave .. => true
  | _ => false

/-- Where a tile stands that does one thing at a time. -/
inductive Standing (β : Type) where
  | outside (tile : Tile)
  /-- In a run, whose scope is `s`; the calling thread was bound to `former`. -/
  | inside (s : Scope β) (former : Option Core)
  /-- The body is over, and the scope has yet to be closed. -/
  | closing (s : Scope β) (former : Option Core)

/-- One thing that the tile does, as it is seen. -/
inductive Standing.Step : Standing β → Deed β → Standing β → Prop where
  | enter {tile : Tile} {caller : Thread} :
    Step (.outside tile) (.enter caller) (.inside (tile.scope caller) caller.binding)
  | reply {s : Scope β} {former : Option Core} (call : Call β) :
    Step (.inside s former) (.reply call (call.perform s).1) (.inside (call.perform s).2 former)
  | ended {s : Scope β} {former : Option Core} {result : Except Payload Unit} :
    Step (.inside s former) (.ended result) (.closing s former)
  | leave {s : Scope β} {former : Option Core} :
    Step (.closing s former)
      (.leave (s.close.value.cores.map CoreState.recorded)
        { s.close.value.caller with binding := former })
      (.outside ⟨s.close.value.cores.tail.map CoreState.thread⟩)

/-- Things that the tile does one after another. -/
inductive Standing.Run : Standing β → List (Deed β) → Standing β → Prop where
  | refl (st : Standing β) : Run st [] st
  | tail {st st₁ st₂ : Standing β} {deeds : List (Deed β)} {d : Deed β} :
    Run st deeds st₁ → Standing.Step st₁ d st₂ → Run st (deeds ++ [d]) st₂

/-- `Shows lane state` holds when a core of the machine is where a core of a scope is that still has
its job until it is joined. -/
inductive Lane.Shows : Lane β → CoreState β → Prop where
  | idle {thread : Thread} {recorded : List β} {marked : Bool} :
    Shows ⟨thread, none, none, none, marked, recorded⟩ ⟨thread, none, recorded⟩
  | handed {thread : Thread} {recorded : List β} {marked : Bool} {job : Job β} :
    Shows ⟨thread, some job, none, none, marked, recorded⟩ ⟨thread, some job, recorded⟩
  | taken {thread : Thread} {recorded : List β} {marked : Bool} {job : Job β} :
    Shows ⟨thread, none, some job, none, marked, recorded⟩ ⟨thread, some job, recorded⟩
  | finished {thread : Thread} {recorded : List β} {marked : Bool} {job : Job β} :
    Shows ⟨(job thread).value.2, none, none, some (job thread).value.1, marked, recorded⟩
      ⟨thread, some job, recorded⟩

/-- Marks make no difference to what a core holds. -/
lemma Lane.Shows.remark {lane : Lane β} {state : CoreState β} {marked : Bool}
    (shows : lane.Shows state) : Lane.Shows { lane with isSpawned := marked } state := by
  cases shows with
  | idle => exact .idle
  | handed => exact .handed
  | taken => exact .taken
  | finished => exact .finished

/-- What a core has recorded shows the same on both sides. -/
lemma Lane.Shows.recorded_eq {lane : Lane β} {state : CoreState β} (shows : lane.Shows state) :
    lane.recorded = state.recorded := by
  cases shows <;> rfl

/-- What the caller owes to the call that it is in: `s` is the scope by now, and the call was made
on the scope of the standing. -/
inductive Stance.Fits : Stance β → Scope β → Standing β → Prop where
  | outside {s : Scope β} : Fits .outside s (.outside ⟨s.cores.tail.map CoreState.thread⟩)
  | body {s : Scope β} {former : Option Core} : Fits (.ready .body) s (.inside s former)
  | fork {s s₀ : Scope β} {former : Option Core} {jobs rest : List (Job β)} {own : Job β}
    {next : Core} :
    (s₀.forkJoin jobs).value = s.forkRest own next rest → 0 < next →
    Fits (.ready (.fork jobs own next rest)) s (.inside s₀ former)
  | gather {s s₀ : Scope β} {former : Option Core} {jobs : List (Job β)} {cores : List Core}
    {first : Except Fault Unit} :
    (s₀.forkJoin jobs).value = s.gatherRest cores first →
    Fits (.ready (.gather jobs cores first)) s (.inside s₀ former)
  | close {s s₀ : Scope β} {former : Option Core} {next : Core} :
    s₀.close.value = s.closeFrom next → Fits (.ready (.close next)) s (.closing s₀ former)
  | handingBody {s s₀ : Scope β} {former : Option Core} {c : Core} {job : Job β} :
    (s₀.spawn c job).value = (.ok (), s) → Fits (.handing c job .body) s (.inside s₀ former)
  | handingFork {s s₀ : Scope β} {former : Option Core} {c : Core} {job own : Job β}
    {jobs rest : List (Job β)} {next : Core} :
    (s₀.forkJoin jobs).value = s.forkRest own next rest → 0 < next →
    Fits (.handing c job (.fork jobs own next rest)) s (.inside s₀ former)
  | waitingBody {s s₀ : Scope β} {former : Option Core} {c : Core} :
    (s₀.join c).value = s.finish c → Fits (.waiting c .body) s (.inside s₀ former)
  | waitingGather {s s₀ : Scope β} {former : Option Core} {c : Core} {jobs : List (Job β)}
    {cores : List Core} {first : Except Fault Unit} :
    (s₀.forkJoin jobs).value =
      (s.finish c).2.gatherRest cores (first.bind fun _ => (s.finish c).1) →
    Fits (.waiting c (.gather jobs cores first)) s (.inside s₀ former)
  | waitingClose {s s₀ : Scope β} {former : Option Core} {c next : Core} :
    s₀.close.value = (s.finish c).2.closeFrom next →
    Fits (.waiting c (.close next)) s (.closing s₀ former)

/-- What the calling thread was bound to before the run. -/
def Standing.former : Standing β → Option Core
  | .outside _ => none
  | .inside _ former | .closing _ former => former

/-- A call that gives a reply and a scope is a step with that reply to that scope. -/
lemma Standing.Step.of_eq {s t : Scope β} {former : Option Core} {call : Call β} {r : Reply}
    (eq : call.perform s = (r, t)) :
    Standing.Step (.inside s former) (.reply call r) (.inside t former) := by
  have step : Standing.Step (.inside s former) (.reply call (call.perform s).1)
      (.inside (call.perform s).2 former) := .reply call
  rwa [eq] at step

namespace Machine

/-- The cores of the machine show those of a scope, and a core has a job if it is marked or the
caller is at it. -/
structure Shows (m : Machine β) (s : Scope β) : Prop where
  size : s.size = m.lanes.length
  lane : ∀ (c : Core) (lane : Lane β) (state : CoreState β), m.lanes[c]? = some lane →
    s.cores[c]? = some state →
    lane.Shows state ∧ state.job.isSome = (lane.isSpawned || m.stance.isAt c)

/-- The machine is where a tile is that does one thing at a time. -/
structure Sequential (m : Machine β) (st : Standing β) : Prop where
  former : m.stance ≠ .outside → m.former = st.former
  scope : ∃ s, m.Shows s ∧ m.stance.Fits s st

namespace Shows

variable {m : Machine β} {s : Scope β} {c : Core} {lane : Lane β}

/-- Every core of the machine shows one of the scope. -/
lemma exists_state (shows : m.Shows s) (here : m.lanes[c]? = some lane) :
    ∃ state, s.cores[c]? = some state ∧ lane.Shows state ∧
      state.job.isSome = (lane.isSpawned || m.stance.isAt c) := by
  have inside : c < s.cores.length := by
    rw [show s.cores.length = m.lanes.length from shows.size]
    exact (List.getElem?_eq_some_iff.mp here).1
  exact ⟨s.cores[c], by simp [inside], shows.lane c lane _ here (by simp [inside])⟩

/-- The caller turns to something else, at the same core as before or at none. -/
lemma turn {stance : Stance β} (shows : m.Shows s) (same : ∀ d, stance.isAt d = m.stance.isAt d) :
    (m.turn stance).Shows s where
  size := shows.size
  lane := by
    intro c lane state here there
    rw [stance_turn, same]
    exact shows.lane c lane state here there

/-- One core of the machine changes, and at most the same core of the scope. -/
lemma change {new : Lane β} {stance : Stance β} {t : Scope β} {state : CoreState β}
    (shows : m.Shows s) (here : m.lanes[c]? = some lane) (size : t.size = s.size)
    (there : t.cores[c]? = some state) (same : ∀ d, d ≠ c → t.cores[d]? = s.cores[d]?)
    (now : new.Shows state) (mark : state.job.isSome = (new.isSpawned || stance.isAt c))
    (others : ∀ d, d ≠ c → stance.isAt d = m.stance.isAt d) :
    (m.update c new stance).Shows t where
  size := by rw [size, shows.size, length_update]
  lane := by
    intro d lane' state' here' there'
    rw [getElem?_update here] at here'
    by_cases hd : d = c
    · subst hd
      rw [if_pos rfl] at here'
      cases here'
      cases there.symm.trans there'
      exact ⟨now, mark⟩
    · rw [if_neg hd] at here'
      rw [same d hd] at there'
      rw [stance_update, others d hd]
      exact shows.lane d lane' state' here' there'

/-- A core of the machine changes, and shows the same core of the scope as before. -/
lemma move {new : Lane β} {stance : Stance β} {state : CoreState β} (shows : m.Shows s)
    (here : m.lanes[c]? = some lane) (there : s.cores[c]? = some state) (now : new.Shows state)
    (mark : state.job.isSome = (new.isSpawned || stance.isAt c))
    (others : ∀ d, d ≠ c → stance.isAt d = m.stance.isAt d) : (m.update c new stance).Shows s :=
  shows.change here rfl there (fun _ _ => rfl) now mark others

/-- A core of the machine changes, and with it the same core of the scope. -/
lemma update {new : Lane β} {stance : Stance β} {f : CoreState β → CoreState β}
    {state : CoreState β} (shows : m.Shows s) (here : m.lanes[c]? = some lane)
    (there : s.cores[c]? = some state) (now : new.Shows (f state))
    (mark : (f state).job.isSome = (new.isSpawned || stance.isAt c))
    (others : ∀ d, d ≠ c → stance.isAt d = m.stance.isAt d) :
    (m.update c new stance).Shows (s.update c f) := by
  refine shows.change here (Scope.size_update f) ?_ ?_ now mark others
  · rw [Scope.getElem?_update, if_pos rfl, there]
    rfl
  · intro d hd
    rw [Scope.getElem?_update, if_neg (Ne.symm hd)]

/-- While the caller is at no core, a core has a job exactly if it is marked. -/
lemma isSpawned_eq (shows : m.Shows s) (here : m.lanes[c]? = some lane)
    (away : m.stance.isAt c = false) : s.isSpawned c = lane.isSpawned := by
  obtain ⟨state, there, -, mark⟩ := shows.exists_state here
  rw [Scope.isSpawned_eq there, mark, away, Bool.or_false]

/-- A core without a mark holds nothing while the caller is at no core. -/
lemma exists_idle (shows : m.Shows s) (here : m.lanes[c]? = some lane)
    (away : m.stance.isAt c = false) (free : lane.isSpawned = false) :
    lane = ⟨lane.thread, none, none, none, false, lane.recorded⟩ ∧
      s.cores[c]? = some ⟨lane.thread, none, lane.recorded⟩ := by
  obtain ⟨state, there, now, mark⟩ := shows.exists_state here
  rw [free, away] at mark
  cases now with
  | idle =>
    cases free
    exact ⟨rfl, there⟩
  | handed => cases mark
  | taken => cases mark
  | finished => cases mark

/-- Both sides have recorded the same, core by core. -/
lemma recorded_eq (shows : m.Shows s) :
    m.lanes.map Lane.recorded = s.cores.map CoreState.recorded := by
  refine List.ext_getElem ?_ fun c here there => ?_
  · rw [List.length_map, List.length_map, ← shows.size]
    rfl
  · rw [List.length_map] at here there
    rw [List.getElem_map, List.getElem_map]
    exact (shows.lane c _ _ (List.getElem?_eq_getElem here)
      (List.getElem?_eq_getElem there)).1.recorded_eq

/-- A core of the machine is a core of the scope. -/
lemma inside (shows : m.Shows s) (here : m.lanes[c]? = some lane) : ¬ s.size ≤ c := by
  rw [shows.size]
  exact Nat.not_le.mpr (List.getElem?_eq_some_iff.mp here).1

/-- A free peer accepts a job on the scope as well. -/
lemma spawn_accept {job : Job β} (shows : m.Shows s) (here : m.lanes[c]? = some lane)
    (away : m.stance.isAt c = false) (peer : c ≠ orchestrator) (free : lane.isSpawned = false) :
    (s.spawn c job).value = (.ok (), s.hold c job) := by
  have idle : ¬ (c = orchestrator ∨ s.isSpawned c = true) := by
    rw [shows.isSpawned_eq here away, free]
    exact fun taken => taken.elim peer nofun
  rw [Scope.spawn_value, if_neg (shows.inside here), if_neg idle]

/-- The scope refuses a job for the same reason as the machine. -/
lemma spawn_refuse {job : Job β} {e : Fault} (shows : m.Shows s) (away : m.stance.isAt c = false)
    (refuses : RefusesSpawn m c e) : (s.spawn c job).value = (.error e, s) := by
  rw [Scope.spawn_value, shows.size]
  cases refuses with
  | outOfRange beyond => rw [if_pos beyond]
  | orchestrator inside core => rw [if_neg (Nat.not_le.mpr inside), if_pos (.inl core)]
  | busy here marked =>
    have taken : s.isSpawned c = true := (shows.isSpawned_eq here away).trans marked
    rw [if_neg (shows.size ▸ shows.inside here), if_pos (.inr taken)]

/-- A marked core is joined on the scope as well. -/
lemma join_accept (shows : m.Shows s) (here : m.lanes[c]? = some lane)
    (away : m.stance.isAt c = false) (marked : lane.isSpawned = true) :
    (s.join c).value = s.finish c := by
  have busy : ¬ s.isSpawned c = false := by
    rw [shows.isSpawned_eq here away, marked]
    nofun
  rw [Scope.join_value, if_neg (shows.inside here), if_neg busy]

/-- The scope refuses a join for the same reason as the machine. -/
lemma join_refuse {e : Fault} (shows : m.Shows s) (away : m.stance.isAt c = false)
    (refuses : RefusesJoin m c e) : (s.join c).value = (.error e, s) := by
  rw [Scope.join_value, shows.size]
  cases refuses with
  | outOfRange beyond => rw [if_pos beyond]
  | idle here free =>
    have idle : s.isSpawned c = false := (shows.isSpawned_eq here away).trans free
    rw [if_neg (shows.size ▸ shows.inside here), if_pos idle]

end Shows

/-! ## One step -/

/-- The machine after a step is where the tile is after at most one thing, which is what is seen of
the step. -/
def Simulates (m' : Machine β) (deeds : List (Deed β)) (st : Standing β) : Prop :=
  deeds.filter Deed.isSeen = [] ∧ m'.Sequential st ∨
    ∃ d st', deeds.filter Deed.isSeen = [d] ∧ Standing.Step st d st' ∧ m'.Sequential st'

section Steps

variable {m : Machine β} {s : Scope β} {st : Standing β} {c : Core} {lane : Lane β} {job : Job β}
  {p q : Plan β}

/-- A worker changes nothing that a scope shows. -/
lemma Sequential.work {new : Lane β} (sequential : m.Sequential st) (here : m.lanes[c]? = some lane)
    (same : new.isSpawned = lane.isSpawned) (now : ∀ state, lane.Shows state → new.Shows state) :
    (m.update c new m.stance).Sequential st := by
  obtain ⟨former, s, shows, fits⟩ := sequential
  obtain ⟨state, there, held, mark⟩ := shows.exists_state here
  refine ⟨former, s, shows.move here there (now state held) ?_ (fun _ _ => rfl), fits⟩
  rw [same]
  exact mark

/-- When a job is put into a slot the scope holds it, and nothing is seen yet. -/
lemma simulates_hand (sequential : m.Sequential st) (ready : m.stance = .ready p)
    (spawns : p.Spawns c job q) (here : m.lanes[c]? = some lane) (peer : c ≠ orchestrator)
    (free : lane.isSpawned = false) :
    Simulates (m.update c { lane with slot := some job } (.handing c job q)) [.hand c job] st := by
  obtain ⟨former, s, shows, fits⟩ := sequential
  replace former := former (by simp [ready])
  have away : m.stance.isAt c = false := by
    rw [ready]
    rfl
  obtain ⟨empty, there⟩ := shows.exists_idle here away free
  -- The scope takes the job now; the mark that is still to come changes nothing that it shows.
  have accepted : (s.spawn c job).value = (.ok (), s.hold c job) :=
    shows.spawn_accept here away peer free
  have shows' :
      (m.update c { lane with slot := some job } (.handing c job q)).Shows (s.hold c job) := by
    refine shows.update here there ?_ (by simp) ?_
    · rw [empty]
      exact .handed
    · intro d hd
      simp [ready, Ne.symm hd]
  rw [ready] at fits
  refine .inl ⟨rfl, fun _ => former, _, shows', ?_⟩
  cases spawns with
  | body =>
    cases fits
    exact .handingBody accepted
  | fork =>
    cases fits with
    | fork owes next =>
      rw [Scope.forkRest_spawn next accepted] at owes
      exact .handingFork owes (Nat.succ_pos _)

/-- When the core is marked the hand-over has been accepted; a call of the body is over by that. -/
lemma simulates_mark (sequential : m.Sequential st) (handing : m.stance = .handing c job p)
    (here : m.lanes[c]? = some lane) :
    Simulates (m.update c { lane with isSpawned := true } (.ready (p.afterSpawn (.ok ()))))
      (.mark c job :: p.spawnDeeds c job (.ok ())) st := by
  obtain ⟨former, s, shows, fits⟩ := sequential
  replace former := former (by simp [handing])
  obtain ⟨state, there, now, mark⟩ := shows.exists_state here
  have shows' :
      (m.update c { lane with isSpawned := true } (.ready (p.afterSpawn (.ok ())))).Shows s := by
    refine shows.move here there now.remark ?_ ?_
    · simp [mark, handing]
    · intro d hd
      simp [handing, Ne.symm hd]
  rw [handing] at fits
  cases fits with
  | handingBody spawned =>
    refine .inr ⟨_, _, rfl, .of_eq (t := s) ?_, fun _ => former, s, shows', .body⟩
    rw [Call.perform, spawned]
  | handingFork owes next => exact .inl ⟨rfl, fun _ => former, s, shows', .fork owes next⟩

/-- A hand-over that the machine refuses is refused on the scope. -/
lemma simulates_refuseSpawn {e : Fault} (sequential : m.Sequential st) (ready : m.stance = .ready p)
    (spawns : p.Spawns c job q) (refuses : RefusesSpawn m c e) :
    Simulates (m.turn (.ready (p.afterSpawn (.error e)))) (p.spawnDeeds c job (.error e)) st := by
  obtain ⟨former, s, shows, fits⟩ := sequential
  replace former := former (by simp [ready])
  have refused : (s.spawn c job).value = (.error e, s) :=
    shows.spawn_refuse (by simp [ready]) refuses
  have shows' : (m.turn (.ready (p.afterSpawn (.error e)))).Shows s := shows.turn (by simp [ready])
  rw [ready] at fits
  cases spawns with
  | body =>
    cases fits
    refine .inr ⟨_, _, rfl, .of_eq (t := s) ?_, fun _ => former, s, shows', .body⟩
    rw [Call.perform, refused]
  | fork =>
    cases fits with
    | fork owes next =>
      rw [Scope.forkRest_refuse refused] at owes
      exact .inr ⟨_, _, rfl, .of_eq owes, fun _ => former, s, shows', .body⟩

/-- Going to wait for a core is seen by nobody. -/
lemma simulates_await (sequential : m.Sequential st) (ready : m.stance = .ready p)
    (joins : p.Joins c q) (here : m.lanes[c]? = some lane) (marked : lane.isSpawned = true) :
    Simulates (m.update c { lane with isSpawned := false } (.waiting c q)) [] st := by
  obtain ⟨former, s, shows, fits⟩ := sequential
  replace former := former (by simp [ready])
  have away : m.stance.isAt c = false := by simp [ready]
  obtain ⟨state, there, now, mark⟩ := shows.exists_state here
  have accepted := shows.join_accept here away marked
  have shows' : (m.update c { lane with isSpawned := false } (.waiting c q)).Shows s := by
    refine shows.move here there now.remark ?_ ?_
    · simp [mark, marked]
    · intro d hd
      simp [ready, Ne.symm hd]
  rw [ready] at fits
  refine .inl ⟨rfl, fun _ => former, s, shows', ?_⟩
  cases joins with
  | body =>
    cases fits
    exact .waitingBody accepted
  | gather =>
    cases fits with
    | gather owes =>
      rw [Scope.gatherRest_join accepted] at owes
      exact .waitingGather owes

/-- A join that the machine refuses is refused on the scope. -/
lemma simulates_refuseJoin {e : Fault} (sequential : m.Sequential st) (ready : m.stance = .ready p)
    (joins : p.Joins c q) (refuses : RefusesJoin m c e) :
    Simulates (m.turn (.ready (q.afterJoin (.error e)))) (q.joinDeeds c (.error e)) st := by
  obtain ⟨former, s, shows, fits⟩ := sequential
  replace former := former (by simp [ready])
  have refused := shows.join_refuse (by simp [ready]) refuses
  have shows' : (m.turn (.ready (q.afterJoin (.error e)))).Shows s := shows.turn (by simp [ready])
  rw [ready] at fits
  cases joins with
  | body =>
    cases fits
    refine .inr ⟨_, _, rfl, .of_eq (t := s) ?_, fun _ => former, s, shows', .body⟩
    rw [Call.perform, refused]
  | gather =>
    cases fits with
    | gather owes =>
      rw [Scope.gatherRest_join refused] at owes
      exact .inl ⟨rfl, fun _ => former, s, shows', .gather owes⟩

/-- When the outcome is collected the scope has run the job, and the join is over. -/
lemma simulates_collect {o : Outcome β} (sequential : m.Sequential st)
    (waiting : m.stance = .waiting c p) (here : m.lanes[c]? = some lane)
    (free : lane.isSpawned = false) (outcome : lane.outcome = some o) :
    Simulates (m.update c { lane with outcome := none, recorded := lane.recorded ++ o.recorded }
      (.ready (p.afterJoin (answer c o)))) (.collect c o :: p.joinDeeds c (answer c o)) st := by
  obtain ⟨former, s, shows, fits⟩ := sequential
  replace former := former (by simp [waiting])
  obtain ⟨state, there, now, -⟩ := shows.exists_state here
  cases now with
  -- The worker has run the job when it liked and the scope runs it now, both on the same thread.
  | @finished thread recorded marked job =>
    cases outcome
    have finish := Scope.finish_eq there
    have others : ∀ d, d ≠ c → (Stance.ready (p.afterJoin (answer c (job thread).value.1))).isAt d =
        m.stance.isAt d := by
      intro d hd
      simp [waiting, Ne.symm hd]
    have shows' := shows.update here there
      (f := fun _ => ⟨(job thread).value.2, none, recorded ++ (job thread).value.1.recorded⟩)
      .idle (by simpa using free) others
    rw [waiting] at fits
    cases fits with
    | waitingBody owes =>
      refine .inr ⟨_, _, rfl, .of_eq (t := (s.finish c).2) ?_, fun _ => former, _, shows', ?_⟩
      · rw [Call.perform, owes, finish]
        rfl
      · rw [finish]
        exact .body
    | waitingGather owes =>
      rw [finish] at owes
      exact .inl ⟨rfl, fun _ => former, _, shows', .gather owes⟩
    | waitingClose owes =>
      rw [finish] at owes
      exact .inl ⟨rfl, fun _ => former, _, shows', .close owes⟩
  | _ => cases outcome

/-- The caller runs its own share on both sides, whatever comes of it. -/
lemma Shows.own (shows : m.Shows s) (ready : m.stance = .ready p)
    (here : m.lanes[orchestrator]? = some lane) (free : lane.isSpawned = false)
    (own : Job β) (q : Plan β) :
    s.caller = lane.thread ∧
      (m.update orchestrator
        { lane with
          thread := (own lane.thread).value.2
          recorded := lane.recorded ++ (own lane.thread).value.1.recorded } (.ready q)).Shows
        (s.settle orchestrator (own lane.thread).value.1 (own lane.thread).value.2) := by
  obtain ⟨empty, there⟩ := shows.exists_idle here (by simp [ready]) free
  refine ⟨by simp [Scope.caller, there], shows.update here there ?_ ?_ ?_⟩
  · rw [empty]
    exact .idle
  · simp [Scope.finished, free]
  · intro d _
    simp [ready]

/-- When its own share returns the caller goes on to join. -/
lemma simulates_own {jobs : List (Job β)} {own : Job β} {next : Core} (sequential : m.Sequential st)
    (ready : m.stance = .ready (.fork jobs own next [])) (here : m.lanes[orchestrator]? = some lane)
    (free : lane.isSpawned = false) (returns : (own lane.thread).value.1.ending = .ok ()) :
    Simulates (m.update orchestrator
      { lane with
        thread := (own lane.thread).value.2
        recorded := lane.recorded ++ (own lane.thread).value.1.recorded }
      (.ready (.gather jobs (List.range' 1 (next - 1)) (.ok ())))) [.own own (.ok ())] st := by
  obtain ⟨former, s, shows, fits⟩ := sequential
  replace former := former (by simp [ready])
  obtain ⟨caller, shows'⟩ :=
    shows.own ready here free own (.gather jobs (List.range' 1 (next - 1)) (.ok ()))
  rw [ready] at fits
  cases fits with
  | fork owes _ =>
    -- All jobs are handed over on both sides, so that the own share comes next.
    rw [Scope.forkRest_own (by rw [caller]; exact returns), caller] at owes
    exact .inl ⟨rfl, fun _ => former, _, shows', .gather owes⟩

/-- When its own share panics the fork-join is over, and its jobs stay where they are. -/
lemma simulates_ownPanic {jobs : List (Job β)} {own : Job β} {next : Core} {e : Payload}
    (sequential : m.Sequential st)
    (ready : m.stance = .ready (.fork jobs own next [])) (here : m.lanes[orchestrator]? = some lane)
    (free : lane.isSpawned = false) (panics : (own lane.thread).value.1.ending = .error e) :
    Simulates (m.update orchestrator
      { lane with
        thread := (own lane.thread).value.2
        recorded := lane.recorded ++ (own lane.thread).value.1.recorded }
      (.ready .body)) [.own own (.error e), .reply (.forkJoin jobs) (.error e)] st := by
  obtain ⟨former, s, shows, fits⟩ := sequential
  replace former := former (by simp [ready])
  obtain ⟨caller, shows'⟩ := shows.own ready here free own .body
  rw [ready] at fits
  cases fits with
  | fork owes _ =>
    rw [Scope.forkRest_ownPanic (by rw [caller]; exact panics), caller] at owes
    exact .inr ⟨_, _, rfl, .of_eq owes, fun _ => former, _, shows', .body⟩

/-- A step after which the caller stands elsewhere and nothing is seen. -/
lemma simulates_turn {stance : Stance β} (sequential : m.Sequential st)
    (same : ∀ d, stance.isAt d = m.stance.isAt d) (run : m.stance ≠ .outside)
    (fits : ∀ s, m.Shows s → m.stance.Fits s st → stance.Fits s st) :
    Simulates (m.turn stance) [] st := by
  obtain ⟨former, s, shows, owes⟩ := sequential
  exact .inl ⟨rfl, fun _ => former run, s, shows.turn same, fits s shows owes⟩

/-- At the start of a run every core holds nothing and has recorded nothing. -/
lemma lanes_entered (caller : Thread) : (m.entered caller).lanes[c]? = m.lanes[c]?.map fun lane =>
    fresh (if c = orchestrator then
      { lane with thread := { caller with binding := some orchestrator } } else lane) := by
  unfold entered
  rw [List.getElem?_map, List.getElem?_modify]
  cases m.lanes[c]? with
  | none => rfl
  | some lane =>
    by_cases core : orchestrator = c
    · simp [core]
    · simp [core, Ne.symm core]

/-- A run starts with a fresh scope on the threads of the tile. -/
lemma simulates_enter {caller : Thread} (sequential : m.Sequential st)
    (outside : m.stance = .outside) (size : 0 < m.lanes.length)
    (free : ∀ (c : Core) (lane : Lane β), m.lanes[c]? = some lane → lane.isSpawned = false) :
    Simulates (m.entered caller) [.enter caller] st := by
  obtain ⟨-, s, shows, fits⟩ := sequential
  rw [outside] at fits
  cases fits
  have length : s.cores.length = m.lanes.length := shows.size
  refine .inr ⟨_, _, rfl, .enter, fun _ => rfl, _, ⟨?_, ?_⟩, .body⟩
  · rw [length_entered, ← length]
    simp only [Scope.size, Tile.scope, List.length_map, List.length_cons, List.length_tail]
    omega
  · intro c lane state here there
    rw [lanes_entered, Option.map_eq_some_iff] at here
    obtain ⟨old, here, rfl⟩ := here
    obtain ⟨empty, before⟩ := shows.exists_idle here (by simp [outside]) (free c old here)
    rw [empty]
    cases c with
    | zero =>
      cases there
      exact ⟨.idle, rfl⟩
    | succ c =>
      simp only [Tile.scope, List.map_cons, List.getElem?_cons_succ, List.getElem?_map,
        List.getElem?_tail, before, Option.map_some, Option.some.injEq] at there
      subst there
      exact ⟨.idle, rfl⟩

/-- The end of a scope goes to wait for a core that is marked, which nobody sees. -/
lemma simulates_closeBusy (sequential : m.Sequential st) (ready : m.stance = .ready (.close c))
    (here : m.lanes[c]? = some lane) (marked : lane.isSpawned = true) :
    Simulates (m.update c { lane with isSpawned := false } (.waiting c (.close (c + 1))))
      [] st := by
  obtain ⟨former, s, shows, fits⟩ := sequential
  replace former := former (by simp [ready])
  obtain ⟨state, there, now, mark⟩ := shows.exists_state here
  have busy : s.isSpawned c = true := (shows.isSpawned_eq here (by simp [ready])).trans marked
  rw [ready] at fits
  cases fits with
  | close owes =>
    rw [Scope.closeFrom_cons (Nat.not_le.mp (shows.inside here)) (Scope.closeCore_busy busy)
      Scope.size_finish] at owes
    refine .inl ⟨rfl, fun _ => former, s, shows.move here there now.remark ?_ ?_,
      .waitingClose owes⟩
    · simp [mark, marked]
    · intro d hd
      simp [ready, Ne.symm hd]

/-- The run is over when the end of the scope has passed all cores. -/
lemma simulates_leave (sequential : m.Sequential st) (ready : m.stance = .ready (.close c))
    (last : m.lanes.length ≤ c) (here : m.lanes[orchestrator]? = some lane)
    (free : ∀ (c : Core) (lane : Lane β), m.lanes[c]? = some lane → lane.isSpawned = false) :
    Simulates (m.turn .outside)
      [.leave (m.lanes.map Lane.recorded) { lane.thread with binding := m.former }] st := by
  obtain ⟨former, s, shows, fits⟩ := sequential
  replace former := former (by simp [ready])
  have shows' : (m.turn .outside).Shows s := shows.turn (by simp [ready])
  obtain ⟨-, there⟩ := shows.exists_idle here (by simp [ready]) (free _ _ here)
  have caller : s.caller = lane.thread := by simp [Scope.caller, there]
  rw [ready] at fits
  cases fits with
  | @close _ s₀ binding _ owes =>
    rw [Scope.closeFrom_all (shows.size ▸ last)] at owes
    have step : Standing.Step (.closing s₀ binding) _ _ := .leave
    rw [owes, caller, ← shows.recorded_eq] at step
    rw [former]
    exact .inr ⟨_, _, rfl, step, nofun, s, shows', .outside⟩

end Steps

/-- Every step of the machine is at most one step of a tile that does one thing at a time. -/
lemma Step.simulates {m m' : Machine β} {deeds : List (Deed β)} {st : Standing β}
    (step : Step m deeds m') (tidy : m.Tidy) (size : 0 < m.lanes.length)
    (sequential : m.Sequential st) : Simulates m' deeds st := by
  cases step with
  | take here slot running =>
    -- What a worker does is not seen before its core is joined.
    refine .inl ⟨rfl, sequential.work here rfl fun state now => ?_⟩
    cases now with
    | handed =>
      cases slot
      exact .taken
    | _ => cases slot
  | finish here running outcome =>
    refine .inl ⟨rfl, sequential.work here rfl fun state now => ?_⟩
    cases now with
    | taken =>
      cases running
      exact .finished
    | _ => cases running
  | enter outside =>
    exact simulates_enter sequential outside size fun _ _ here => tidy.free_of_outside outside here
  | hand ready spawns here peer free => exact simulates_hand sequential ready spawns here peer free
  | mark handing here => exact simulates_mark sequential handing here
  | refuseSpawn ready spawns refuses => exact simulates_refuseSpawn sequential ready spawns refuses
  | await ready joins here marked => exact simulates_await sequential ready joins here marked
  | refuseJoin ready joins refuses => exact simulates_refuseJoin sequential ready joins refuses
  | @collect c lane o p waiting here outcome =>
    exact simulates_collect sequential waiting here (tidy.free_of_waiting waiting here) outcome
  | @forkTooMany jobs ready many =>
    obtain ⟨former, s, shows, fits⟩ := sequential
    have owes : (s.forkJoin jobs).value = _ := Scope.forkJoin_many (shows.size ▸ many)
    rw [ready] at fits
    cases fits
    refine .inr ⟨_, _, rfl, .of_eq (shows.size ▸ owes), former, s, shows, ?_⟩
    rw [ready]
    exact .body
  | forkNone ready =>
    obtain ⟨former, s, shows, fits⟩ := sequential
    rw [ready] at fits
    cases fits
    refine .inr ⟨_, _, rfl, .of_eq Scope.forkJoin_nil, former, s, shows, ?_⟩
    rw [ready]
    exact .body
  | fork ready fits =>
    refine simulates_turn sequential (by simp [ready]) (by simp [ready]) fun s shows owes => ?_
    rw [ready] at owes
    cases owes
    exact .fork (Scope.forkJoin_cons (shows.size ▸ fits)) Nat.one_pos
  | own ready here returns =>
    exact simulates_own sequential ready here (tidy.unmarked _ _ here (.inl rfl)) returns
  | ownPanic ready here panics =>
    exact simulates_ownPanic sequential ready here (tidy.unmarked _ _ here (.inl rfl)) panics
  | gathered ready =>
    obtain ⟨former, s, shows, fits⟩ := sequential
    replace former := former (by simp [ready])
    have shows' : (m.turn (.ready .body)).Shows s := shows.turn (by simp [ready])
    rw [ready] at fits
    cases fits with
    | gather owes =>
      exact .inr ⟨_, _, rfl, .of_eq (owes.trans Scope.gatherRest_nil),
        fun _ => former, s, shows', .body⟩
  | ended ready =>
    obtain ⟨former, s, shows, fits⟩ := sequential
    replace former := former (by simp [ready])
    have shows' : (m.turn (.ready (.close 1))).Shows s := shows.turn (by simp [ready])
    rw [ready] at fits
    cases fits
    refine .inr ⟨_, _, rfl, .ended, fun _ => former, s, shows', .close (Scope.close_value ?_ ?_)⟩
    · -- Core 0 never has a job, so that the scope may start to close with core 1.
      have here : m.lanes[orchestrator]? = some _ := List.getElem?_eq_getElem size
      rw [shows.isSpawned_eq here (by simp [ready])]
      exact tidy.unmarked _ _ here (.inl rfl)
    · exact shows.size ▸ size
  | closeBusy ready here marked => exact simulates_closeBusy sequential ready here marked
  | closeIdle ready here free =>
    refine simulates_turn sequential (by simp [ready]) (by simp [ready]) fun s shows owes => ?_
    have idle : s.isSpawned _ = false := (shows.isSpawned_eq here (by simp [ready])).trans free
    rw [ready] at owes
    cases owes with
    | close owes =>
      rw [Scope.closeFrom_cons (Nat.not_le.mp (shows.inside here)) (Scope.closeCore_idle idle) rfl]
        at owes
      exact .close owes
  | leave ready last here =>
    exact simulates_leave sequential ready last here fun _ _ there =>
      tidy.free_of_last ready last there

/-- The cores of a tile on which no run goes on. -/
def restingScope (tile : Tile) : Scope β :=
  ⟨({} :: tile.workers).map fun thread => { thread }⟩

/-- A machine at rest stands where its tile does. -/
lemma sequential_ofTile (tile : Tile) : (ofTile tile : Machine β).Sequential (.outside tile) where
  former := (absurd rfl ·)
  scope := by
    refine ⟨restingScope tile, ⟨by simp [ofTile, Scope.size, restingScope], ?_⟩, ?_⟩
    · intro c lane state here there
      simp only [ofTile, restingScope, List.getElem?_map, Option.map_eq_some_iff] at here there
      obtain ⟨thread, here, rfl⟩ := here
      obtain ⟨thread', there, rfl⟩ := there
      cases here.symm.trans there
      exact ⟨.idle, rfl⟩
    · have workers :
          (restingScope tile : Scope β).cores.tail.map CoreState.thread = tile.workers := by
        simp [restingScope, Function.comp_def]
      have fits := Stance.Fits.outside (s := (restingScope tile : Scope β))
      rwa [workers] at fits

/-- What is seen of a run of the machine is what a tile does that does one thing at a time. -/
lemma Run.sequential {tile : Tile} {m : Machine β} {deeds : List (Deed β)}
    (run : Run (ofTile tile) deeds m) :
    ∃ st, Standing.Run (.outside tile) (deeds.filter Deed.isSeen) st ∧ m.Sequential st := by
  induction run with
  | refl => exact ⟨_, .refl _, sequential_ofTile tile⟩
  | @tail m₁ m₂ deeds new run step ih =>
    obtain ⟨st, before, sequential⟩ := ih
    have size : 0 < m₁.lanes.length := by
      rw [run.length_eq]
      simp [ofTile]
    rw [List.filter_append]
    -- A step that is not seen leaves the tile where it stands.
    rcases step.simulates run.books.tidy size sequential
      with ⟨none, after⟩ | ⟨d, st', one, seen, after⟩
    · rw [none, List.append_nil]
      exact ⟨st, before, after⟩
    · rw [one]
      exact ⟨st', before.tail seen, after⟩

end Machine

/-! ## Whole runs -/

/-- The last of several things was done after the others. -/
lemma Standing.Run.of_concat {st st' : Standing β} {deeds : List (Deed β)} {d : Deed β}
    (run : Standing.Run st (deeds ++ [d]) st') :
    ∃ st₁, Standing.Run st deeds st₁ ∧ Standing.Step st₁ d st' := by
  generalize eq : deeds ++ [d] = all at run
  cases run with
  | refl => simp at eq
  | tail before step =>
    obtain ⟨rfl, ⟨⟩⟩ := List.append_inj' eq rfl
    exact ⟨_, before, step⟩

/-- The number of cores of a tile. -/
def Standing.cores : Standing β → Nat
  | .outside tile => tile.cores
  | .inside s _ | .closing s _ => s.size

/-- Nothing that a tile does changes the number of its cores. -/
lemma Standing.Step.cores_eq {st st' : Standing β} {d : Deed β} (step : Standing.Step st d st')
    (inside : 0 < st.cores) : st'.cores = st.cores := by
  cases step with
  | enter => simp [Standing.cores, Tile.scope, Scope.size, Tile.cores]
  | reply call =>
    cases call with
    | spawn c job => exact Scope.size_spawn
    | join c => exact Scope.size_join
    | forkJoin jobs => exact Scope.size_forkJoin
  | ended => rfl
  | @leave s former =>
    have size : s.close.value.cores.length = s.size := Scope.size_close
    have tail : (s.close.value.cores.tail.map CoreState.thread).length = s.size - 1 := by
      rw [List.length_map, List.length_tail, size]
    exact (congrArg (· + 1) tail).trans (Nat.sub_add_cancel inside)

/-- However long a tile runs, it keeps the number of its cores. -/
lemma Standing.Run.cores_eq {st st' : Standing β} {deeds : List (Deed β)}
    (run : Standing.Run st deeds st') (inside : 0 < st.cores) : st'.cores = st.cores := by
  induction run with
  | refl => rfl
  | tail _ step ih => exact (step.cores_eq (ih ▸ inside)).trans ih

/-- `Gives tile jobs r recorded` holds when the machine of a tile, in some order of steps and after
whatever ran on it before, goes through a run whose body is one fork-join of `jobs`; the fork-join
answers `r`, and the cores record `recorded`. -/
def Gives (tile : Tile) (jobs : List (Job β)) (r : Reply) (recorded : List (List β)) : Prop :=
  ∃ deeds earlier m caller result thread, Machine.Run (.ofTile tile) deeds m ∧
    deeds.filter Deed.isSeen =
      earlier ++ [.enter caller, .reply (.forkJoin jobs) r, .ended result, .leave recorded thread]

/-- However the caller and the workers step, a fork-join gives what it gives one thing at a time. -/
lemma Gives.exists_run {tile : Tile} {jobs : List (Job β)} {r : Reply} {recorded : List (List β)}
    (gives : tile.Gives jobs r recorded) :
    ∃ (tile' : Tile) (caller : Thread), tile'.cores = tile.cores ∧
      (tile'.run caller fun s => s.forkJoin jobs).value.result = r ∧
      (tile'.run caller fun s => s.forkJoin jobs).value.recorded = recorded := by
  obtain ⟨deeds, earlier, m, caller, result, thread, run, seen⟩ := gives
  obtain ⟨st, all, -⟩ := run.sequential
  have split : deeds.filter Deed.isSeen = (((earlier ++ [.enter caller]) ++
      [.reply (.forkJoin jobs) r]) ++ [.ended result]) ++ [.leave recorded thread] := by
    simp [seen]
  rw [split] at all
  -- The last four things seen are the run in question; before it the tile is between two runs.
  obtain ⟨_, all, left⟩ := all.of_concat
  obtain ⟨_, all, ended⟩ := all.of_concat
  obtain ⟨_, all, replied⟩ := all.of_concat
  obtain ⟨_, before, entered⟩ := all.of_concat
  cases entered with
  | @enter tile' _ =>
    refine ⟨tile', caller, before.cores_eq (Nat.succ_pos _), ?_⟩
    cases replied
    cases ended
    cases left
    exact ⟨rfl, rfl⟩

end TileBench.Tile
