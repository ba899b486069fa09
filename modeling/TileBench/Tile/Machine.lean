import TileBench.Tile.Run

/-!
# The tile as a machine

A `Scope` runs a job when its core is joined. On a tile the workers run beside the caller: a job is
handed over in a slot, the worker takes it, runs it and leaves its outcome, and the caller collects
the outcome. Here the caller and the workers step in any order, through any number of runs on one
tile. The body of a run makes any calls and returns or unwinds; a fork-join is the hand-overs, the
own share and the joins that it makes, and the end of a scope joins what the body left.
`Machine.Run` collects the deeds of all; `Lane.pending` counts what a core holds, and
`Machine.Accounted` says that a core holds one thing exactly while the caller counts on it.
-/

namespace TileBench.Tile

/-- One core of the machine. -/
structure Lane (β : Type) where
  thread : Thread
  /-- The job that was handed over and has not been taken. -/
  slot : Option (Job β) := none
  running : Option (Job β) := none
  /-- The outcome that has not been collected. -/
  outcome : Option (Outcome β) := none
  /-- Whether the caller has marked the core as spawned. -/
  isSpawned : Bool := false
  /-- What the collected outcomes of this run recorded, in order. -/
  recorded : List β := []

/-- A call that the body of a run makes. -/
inductive Call (β : Type) where
  | spawn (c : Core) (job : Job β)
  | join (c : Core)
  | forkJoin (jobs : List (Job β))

/-- What a call gives the body: its answer, or the panic of the own share of a fork-join. -/
abbrev Reply := Except Payload (Except Fault Unit)

/-- What the caller goes on with. -/
inductive Plan (β : Type) where
  /-- The body of the run, which is free to make any call. -/
  | body
  /-- A fork-join of `jobs` that has `rest` still to hand over, from core `next` on. -/
  | fork (jobs : List (Job β)) (own : Job β) (next : Core) (rest : List (Job β))
  /-- A fork-join of `jobs` that has `cores` still to join; `answer` is its answer so far. -/
  | gather (jobs : List (Job β)) (cores : List Core) (answer : Except Fault Unit)
  /-- The end of the scope, which looks at the cores from `next` on. -/
  | close (next : Core)

/-- Where the caller stands. -/
inductive Stance (β : Type) where
  | outside
  | ready (plan : Plan β)
  /-- A job has been handed over and the core is still to be marked. -/
  | handing (c : Core) (job : Job β) (plan : Plan β)
  /-- The core is no longer marked, and its outcome is still to be collected. -/
  | waiting (c : Core) (plan : Plan β)

/-- The cores of a tile, in index order, and the caller. -/
structure Machine (β : Type) where
  lanes : List (Lane β)
  stance : Stance β := .outside
  /-- What the calling thread was bound to before the run. -/
  former : Option Core := none

/-- Something that the caller or a worker did. -/
inductive Deed (β : Type) where
  | enter (caller : Thread)
  /-- The caller hands a job over: the core has accepted it. -/
  | hand (c : Core) (job : Job β)
  | mark (c : Core) (job : Job β)
  /-- The worker of a core takes a job and starts it. -/
  | take (c : Core) (job : Job β)
  | finish (c : Core) (o : Outcome β)
  | collect (c : Core) (o : Outcome β)
  /-- A join is answered, whether the body made it or a fork-join. -/
  | joined (c : Core) (answer : Except Fault Unit)
  /-- The caller runs its own share of a fork-join. -/
  | own (job : Job β) (ending : Except Payload Unit)
  /-- A call of the body is over. -/
  | reply (call : Call β) (reply : Reply)
  | ended (result : Except Payload Unit)
  /-- The run is over: what each core recorded, and the calling thread. -/
  | leave (recorded : List (List β)) (caller : Thread)

namespace Plan

variable {β : Type}

/-- `Spawns p c job` holds when `p` goes on by handing `job` to core `c`. -/
inductive Spawns : Plan β → Core → Job β → Plan β → Prop where
  | body {c : Core} {job : Job β} : Spawns .body c job .body
  | fork {jobs rest : List (Job β)} {own job : Job β} {c : Core} :
    Spawns (.fork jobs own c (job :: rest)) c job (.fork jobs own (c + 1) rest)

/-- `Joins n p c q` holds when `p` goes on by joining core `c` of a tile with `n` cores. -/
inductive Joins : Plan β → Core → Plan β → Prop where
  | body {c : Core} : Joins .body c .body
  | gather {jobs : List (Job β)} {c : Core} {cores : List Core} {answer : Except Fault Unit} :
    Joins (.gather jobs (c :: cores) answer) c (.gather jobs cores answer)

/-- What is shown of the answer to a hand-over. A refusal ends a fork-join at once. -/
def spawnDeeds (c : Core) (job : Job β) (answer : Except Fault Unit) : Plan β → List (Deed β)
  | .body => [.reply (.spawn c job) (.ok answer)]
  | .fork jobs _ _ _ =>
    match answer with
    | .ok () => []
    | .error e => [.reply (.forkJoin jobs) (.ok (.error e))]
  | _ => []

/-- What is left to do after the answer to a hand-over. A refusal ends the call. -/
def afterSpawn (answer : Except Fault Unit) : Plan β → Plan β
  | .fork jobs own next rest =>
    match answer with
    | .ok () => .fork jobs own next rest
    | .error _ => .body
  | p => p

/-- What is shown of the answer to a join. The end of a scope keeps it to itself. -/
def joinDeeds (c : Core) (answer : Except Fault Unit) : Plan β → List (Deed β)
  | .body => [.joined c answer, .reply (.join c) (.ok answer)]
  | .gather .. => [.joined c answer]
  | _ => []

/-- What the caller goes on with once a join is answered. A fork-join keeps the first failure. -/
def afterJoin (answer : Except Fault Unit) : Plan β → Plan β
  | .gather jobs cores first => .gather jobs cores (first.bind fun _ => answer)
  | p => p

end Plan

namespace Machine

variable {β : Type}

/-- A machine on which no run is going on. -/
def ofTile (tile : Tile) : Machine β :=
  ⟨({} :: tile.workers).map fun thread => { thread }, .outside, none⟩

/-- One core changes, and the caller turns to something. -/
def update (m : Machine β) (c : Core) (lane : Lane β) (stance : Stance β) : Machine β :=
  { m with lanes := m.lanes.set c lane, stance }

/-- The caller turns to something else. -/
def turn (m : Machine β) (stance : Stance β) : Machine β :=
  { m with stance }

/-- A core at the start of a run, which has no mark and has recorded nothing. -/
def fresh (lane : Lane β) : Lane β :=
  { lane with isSpawned := false, recorded := [] }

/-- The machine once a thread has started a run: the thread is bound to core 0, and no core is
marked. -/
def entered (m : Machine β) (caller : Thread) : Machine β where
  lanes := (m.lanes.modify orchestrator fun lane =>
    { lane with thread := { caller with binding := some orchestrator } }).map fresh
  stance := .ready .body
  former := caller.binding

/-- Why a job is not handed to a core. -/
inductive RefusesSpawn (m : Machine β) (c : Core) : Fault → Prop where
  | outOfRange : m.lanes.length ≤ c → RefusesSpawn m c (.coreOutOfRange c m.lanes.length)
  | orchestrator : c < m.lanes.length → c = orchestrator → RefusesSpawn m c (.coreBusy c)
  | busy {lane : Lane β} :
    m.lanes[c]? = some lane → lane.isSpawned = true → RefusesSpawn m c (.coreBusy c)

/-- Why a core is not joined. -/
inductive RefusesJoin (m : Machine β) (c : Core) : Fault → Prop where
  | outOfRange : m.lanes.length ≤ c → RefusesJoin m c (.coreOutOfRange c m.lanes.length)
  | idle {lane : Lane β} :
    m.lanes[c]? = some lane → lane.isSpawned = false → RefusesJoin m c (.notSpawned c)

/-- The answer to a join, by how the job of the core ended. -/
def answer (c : Core) (o : Outcome β) : Except Fault Unit :=
  o.ending.mapError fun p => .jobPanicked c p.message

/-- One step, of a worker or of the caller, and what it does. A worker outlives every run, so that
its channels are never closed. -/
inductive Step : Machine β → List (Deed β) → Machine β → Prop where
  | take {m : Machine β} {c : Core} {lane : Lane β} {job : Job β} :
    m.lanes[c]? = some lane → lane.slot = some job → lane.running = none →
    Step m [.take c job] (m.update c { lane with slot := none, running := some job } m.stance)
  /-- A worker finishes its job, once its last outcome has been collected. -/
  | finish {m : Machine β} {c : Core} {lane : Lane β} {job : Job β} :
    m.lanes[c]? = some lane → lane.running = some job → lane.outcome = none →
    Step m [.finish c (job lane.thread).value.1] (m.update c
      { lane with
        thread := (job lane.thread).value.2
        running := none
        outcome := some (job lane.thread).value.1 } m.stance)
  | enter {m : Machine β} {caller : Thread} :
    m.stance = .outside → Step m [.enter caller] (m.entered caller)
  /-- The caller hands a job over, once the slot of the core is empty. -/
  | hand {m : Machine β} {c : Core} {lane : Lane β} {job : Job β} {p q : Plan β} :
    m.stance = .ready p → p.Spawns c job q → m.lanes[c]? = some lane → c ≠ orchestrator →
    lane.isSpawned = false → lane.slot = none →
    Step m [.hand c job] (m.update c { lane with slot := some job } (.handing c job q))
  | mark {m : Machine β} {c : Core} {lane : Lane β} {job : Job β} {p : Plan β} :
    m.stance = .handing c job p → m.lanes[c]? = some lane →
    Step m (.mark c job :: p.spawnDeeds c job (.ok ()))
      (m.update c { lane with isSpawned := true } (.ready (p.afterSpawn (.ok ()))))
  | refuseSpawn {m : Machine β} {c : Core} {job : Job β} {e : Fault} {p q : Plan β} :
    m.stance = .ready p → p.Spawns c job q → RefusesSpawn m c e →
    Step m (p.spawnDeeds c job (.error e)) (m.turn (.ready (p.afterSpawn (.error e))))
  | await {m : Machine β} {c : Core} {lane : Lane β} {p q : Plan β} :
    m.stance = .ready p → p.Joins c q → m.lanes[c]? = some lane → lane.isSpawned = true →
    Step m [] (m.update c { lane with isSpawned := false } (.waiting c q))
  | refuseJoin {m : Machine β} {c : Core} {e : Fault} {p q : Plan β} :
    m.stance = .ready p → p.Joins c q → RefusesJoin m c e →
    Step m (q.joinDeeds c (.error e)) (m.turn (.ready (q.afterJoin (.error e))))
  | collect {m : Machine β} {c : Core} {lane : Lane β} {o : Outcome β} {p : Plan β} :
    m.stance = .waiting c p → m.lanes[c]? = some lane → lane.outcome = some o →
    Step m (.collect c o :: p.joinDeeds c (answer c o)) (m.update c
      { lane with outcome := none, recorded := lane.recorded ++ o.recorded }
      (.ready (p.afterJoin (answer c o))))
  | forkTooMany {m : Machine β} {jobs : List (Job β)} :
    m.stance = .ready .body → m.lanes.length < jobs.length →
    Step m [.reply (.forkJoin jobs)
      (.ok (.error (.coreOutOfRange (jobs.length - 1) m.lanes.length)))] m
  | forkNone {m : Machine β} :
    m.stance = .ready .body → Step m [.reply (.forkJoin []) (.ok (.ok ()))] m
  | fork {m : Machine β} {own : Job β} {rest : List (Job β)} :
    m.stance = .ready .body → (own :: rest).length ≤ m.lanes.length →
    Step m [] (m.turn (.ready (.fork (own :: rest) own 1 rest)))
  /-- The caller runs its own share once all others have been handed over. -/
  | own {m : Machine β} {lane : Lane β} {jobs : List (Job β)} {own : Job β} {next : Core} :
    m.stance = .ready (.fork jobs own next []) → m.lanes[orchestrator]? = some lane →
    (own lane.thread).value.1.ending = .ok () →
    Step m [.own own (.ok ())] (m.update orchestrator
      { lane with
        thread := (own lane.thread).value.2
        recorded := lane.recorded ++ (own lane.thread).value.1.recorded }
      (.ready (.gather jobs (List.range' 1 (next - 1)) (.ok ()))))
  /-- A panic of the own share reaches the body, which may catch it. -/
  | ownPanic {m : Machine β} {lane : Lane β} {jobs : List (Job β)} {own : Job β} {next : Core}
    {e : Payload} :
    m.stance = .ready (.fork jobs own next []) → m.lanes[orchestrator]? = some lane →
    (own lane.thread).value.1.ending = .error e →
    Step m [.own own (.error e), .reply (.forkJoin jobs) (.error e)]
      (m.update orchestrator
        { lane with
          thread := (own lane.thread).value.2
          recorded := lane.recorded ++ (own lane.thread).value.1.recorded }
        (.ready .body))
  | gathered {m : Machine β} {jobs : List (Job β)} {first : Except Fault Unit} :
    m.stance = .ready (.gather jobs [] first) →
    Step m [.reply (.forkJoin jobs) (.ok first)] (m.turn (.ready .body))
  | ended {m : Machine β} {result : Except Payload Unit} :
    m.stance = .ready .body → Step m [.ended result] (m.turn (.ready (.close 1)))
  | closeBusy {m : Machine β} {c : Core} {lane : Lane β} :
    m.stance = .ready (.close c) → m.lanes[c]? = some lane → lane.isSpawned = true →
    Step m [] (m.update c { lane with isSpawned := false } (.waiting c (.close (c + 1))))
  | closeIdle {m : Machine β} {c : Core} {lane : Lane β} :
    m.stance = .ready (.close c) → m.lanes[c]? = some lane → lane.isSpawned = false →
    Step m [] (m.turn (.ready (.close (c + 1))))
  /-- The run is over, and the calling thread gets its former binding back. -/
  | leave {m : Machine β} {c : Core} {lane : Lane β} :
    m.stance = .ready (.close c) → m.lanes.length ≤ c → m.lanes[orchestrator]? = some lane →
    Step m [.leave (m.lanes.map Lane.recorded) { lane.thread with binding := m.former }]
      (m.turn .outside)

/-- Steps one after another, with what they do in order. -/
inductive Run : Machine β → List (Deed β) → Machine β → Prop where
  | refl (m : Machine β) : Run m [] m
  | tail {m m₁ m₂ : Machine β} {deeds new : List (Deed β)} :
    Run m deeds m₁ → Step m₁ new m₂ → Run m (deeds ++ new) m₂

end Machine

/-- The number of things that a core holds: a job in the slot, a job that runs, an outcome. -/
def Lane.pending {β : Type} (lane : Lane β) : Nat :=
  lane.slot.toList.length + lane.running.toList.length + lane.outcome.toList.length

/-- Whether the caller is between handing a job to a core and marking the core, or between removing
the mark and collecting the outcome. -/
def Stance.isAt {β : Type} (c : Core) : Stance β → Bool
  | .handing d _ _ | .waiting d _ => decide (d = c)
  | _ => false

/-- The number of things that the caller counts on from a core. -/
def Machine.expected {β : Type} (m : Machine β) (c : Core) (lane : Lane β) : Nat :=
  if lane.isSpawned = true ∨ m.stance.isAt c = true then 1 else 0

/-- Every core holds one thing while the caller counts on it, and nothing otherwise. -/
def Machine.Accounted {β : Type} (m : Machine β) : Prop :=
  ∀ (c : Core) (lane : Lane β), m.lanes[c]? = some lane → lane.pending = m.expected c lane

end TileBench.Tile
