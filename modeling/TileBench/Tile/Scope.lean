import TileBench.Tile.Fault
import TileBench.Tile.Job

/-!
# Scopes

During a run a program hands jobs to the cores of a tile and joins them. A core takes one job at a
time, and what the job did becomes visible when the core is joined. A scope that ends joins every
core that still has a job.
-/

namespace TileBench

/-- One core during a run. -/
structure CoreState (β : Type) where
  thread : Thread
  /-- The job that was handed to the core and has not been joined. -/
  job : Option (Job β) := none
  recorded : List β := []

/-- The cores of a tile during a run, in index order; core 0 is the caller. -/
structure Scope (β : Type) where
  cores : List (CoreState β)

namespace Scope

variable {α β : Type}

/-- What an access to a scope gives, beside the scope after it. -/
abbrev Reply (β α : Type) := Except Tile.Fault α × Scope β

/-- The number of cores, the caller included. -/
def size (s : Scope β) : Nat :=
  s.cores.length

/-- Whether a core has a job that has not been joined. -/
def isSpawned (s : Scope β) (c : Core) : Bool :=
  s.cores[c]?.any fun state => state.job.isSome

def spawned (s : Scope β) : List Core :=
  (List.range s.size).filter s.isSpawned

def recorded (s : Scope β) (c : Core) : List β :=
  s.cores[c]?.elim [] CoreState.recorded

/-- The thread that made the run, which is that of core 0. -/
def caller (s : Scope β) : Thread :=
  s.cores[orchestrator]?.elim {} CoreState.thread

/-- The scope with one core changed. -/
def update (s : Scope β) (c : Core) (f : CoreState β → CoreState β) : Scope β :=
  ⟨s.cores.modify c f⟩

def describe (s : Scope β) : String :=
  let flags := ", ".intercalate <| (List.range s.size).map fun c => toString (s.isSpawned c)
  s!"Scope \x7b topology: Topology \x7b num_cores: {s.size} \x7d, spawned: [{flags}], .. \x7d"

/-- Hands a job to a core that is a free peer. -/
def spawn (s : Scope β) (c : Core) (job : Job β) : Logged (Reply β Unit) :=
  if s.size ≤ c then pure (.error (.coreOutOfRange c s.size), s)
  else if c = orchestrator ∨ s.isSpawned c = true then pure (.error (.coreBusy c), s)
  else do
    Logged.debug s!"spawned job on {c.name}"
    return (.ok (), s.update c fun state => { state with job := some job })

/-- A core that has run its job. -/
def finished (state : CoreState β) (o : Outcome β) (thread : Thread) : CoreState β :=
  { thread, job := none, recorded := state.recorded ++ o.recorded }

/-- Waits for the job of a core. The job ran on the thread of that core, whose events are its
own. -/
def finish (s : Scope β) (c : Core) : Reply β Unit :=
  match s.cores[c]? with
  | some state@{ job := some job, .. } =>
    let (outcome, thread) := (job state.thread).value
    let s := s.update c fun _ => finished state outcome thread
    match outcome.ending with
    | .ok () => (.ok (), s)
    | .error p => (.error (.jobPanicked c p.message), s)
  | _ => (.error (.notSpawned c), s)

/-- Waits for the job of a core and reports how it ended. -/
def join (s : Scope β) (c : Core) : Logged (Reply β Unit) :=
  if s.size ≤ c then pure (.error (.coreOutOfRange c s.size), s)
  else if s.isSpawned c = false then pure (.error (.notSpawned c), s)
  else do
    Logged.debug s!"joined {c.name}"
    return s.finish c

/-- Joins a core that still has a job when the scope ends. -/
def closeCore (s : Scope β) (c : Core) : Logged (Scope β) :=
  if s.isSpawned c then do
    Logged.warn s!"{c.name} still running at end of run; joining"
    let (outcome, s) := s.finish c
    match outcome with
    | .ok () => return s
    | .error e =>
      Logged.warn e.message
      return s
  else pure s

/-- Joins every core that still has a job, in ascending order. -/
def close (s : Scope β) : Logged (Scope β) :=
  (List.range s.size).foldlM closeCore s

/-- Hands jobs to consecutive cores until one is refused. -/
def spawnAll (s : Scope β) : Core → List (Job β) → Logged (Reply β Unit)
  | _, [] => pure (.ok (), s)
  | c, job :: jobs => do
    match ← s.spawn c job with
    | (.error e, s) => return (.error e, s)
    | (.ok (), s) => s.spawnAll (c + 1) jobs

/-- Joins cores in order, all of them, and gives the first failure. -/
def joinAll (s : Scope β) : List Core → Logged (Reply β Unit)
  | [] => pure (.ok (), s)
  | c :: cs => do
    let (first, s) ← s.join c
    let (others, s) ← s.joinAll cs
    return (first.bind fun _ => others, s)

/-- Runs the caller's own share of the work. Its panic unwinds the caller. -/
def runOwn (s : Scope β) (job : Job β) : Logged (Except Payload Unit × Scope β) := do
  let (outcome, thread) ← job s.caller
  return (outcome.ending, s.update orchestrator fun state => finished state outcome thread)

/-- Hands job `i` to core `i`, runs job 0 on the caller and joins the others. A core that cannot
take its job ends this at once. -/
def forkJoin (s : Scope β) (jobs : List (Job β)) :
    Logged (Except Payload (Except Tile.Fault Unit) × Scope β) :=
  if s.size < jobs.length then
    pure (.ok (.error (.coreOutOfRange (jobs.length - 1) s.size)), s)
  else match jobs with
    | [] => pure (.ok (.ok ()), s)
    | own :: peers => do
      match ← s.spawnAll 1 peers with
      | (.error e, s) => return (.ok (.error e), s)
      | (.ok (), s) =>
        match ← s.runOwn own with
        | (.error p, s) => return (.error p, s)
        | (.ok (), s) =>
          let (outcome, s) ← s.joinAll (List.range' 1 peers.length)
          return (.ok outcome, s)

end Scope

end TileBench
