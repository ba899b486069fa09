import TileBench.Tile.Run

/-!
# Nested runs

A job, like the body of a run, may run a body on a further tile, to any depth, and may catch its
panic. `JobCode` and `BodyCode` are the programs that are built in this way. The tile of a run is
given by its history, a `TileCode`: it was brought up, and any threads may have run bodies on it
since. A `Sighting` is what a program records: the core that its thread is bound to, and of an inner
run the bindings before and after it and what its cores recorded. `Sighting.At` says that a record
fits a thread with a given binding.
-/

namespace TileBench

/-- What a program saw of the threads that it ran on. -/
inductive Sighting where
  /-- The core that the thread is bound to. -/
  | bound (core : Option Core)
  /-- A run on a further tile: the bindings around it, and what each of its cores recorded. -/
  | run (before : Option Core) (recorded : List (List Sighting)) (after : Option Core)

/-- `At c s` holds when `s` was recorded by a thread that is bound to `c`, and everything recorded
in runs inside it by threads that are bound to the cores they stand for. -/
inductive Sighting.At : Option Core → Sighting → Prop where
  | bound (core : Option Core) : At core (.bound core)
  | run {core : Option Core} {recorded : List (List Sighting)} :
    (∀ (c : Core) (seen : List Sighting), recorded[c]? = some seen → ∀ s ∈ seen, At (some c) s) →
    At core (.run core recorded core)

mutual

/-- What a job does. -/
inductive JobCode where
  | done
  | panic (p : Payload)
  | observe (next : Option Core → JobCode)
  /-- Runs a body on another tile; `next` may pass its panic on or catch it. -/
  | run (tile : TileCode) (body : BodyCode) (next : Except Payload Unit → JobCode)

/-- What the body of a run does. It may pass on or catch the panic of its own share of a fork-join,
too. -/
inductive BodyCode where
  | done
  | panic (p : Payload)
  | observe (next : Option Core → BodyCode)
  | run (tile : TileCode) (body : BodyCode) (next : Except Payload Unit → BodyCode)
  | spawn (c : Core) (job : JobCode) (next : Except Tile.Fault Unit → BodyCode)
  | join (c : Core) (next : Except Tile.Fault Unit → BodyCode)
  | forkJoin (count : Nat) (jobs : Core → JobCode)
      (next : Except Payload (Except Tile.Fault Unit) → BodyCode)

/-- How a tile came to be what it is. -/
inductive TileCode where
  | start (t : Topology)
  /-- A thread has run a body on the tile. -/
  | after (tile : TileCode) (caller : Thread) (body : BodyCode)

end

/-- Adds something in front of what an outcome recorded. -/
def Outcome.after {β : Type} (v : β) (o : Outcome β) : Outcome β :=
  { o with recorded := v :: o.recorded }

/-- Adds something to what the caller recorded. -/
def Scope.note {β : Type} (s : Scope β) (v : β) (thread : Thread) : Scope β :=
  s.update orchestrator fun state => { state with thread, recorded := state.recorded ++ [v] }

/-- What a thread saw of a run that it made. -/
def Sighting.ofRun (thread : Thread) (ended : Tile.Ended Sighting Unit) : Sighting :=
  .run thread.binding ended.recorded ended.caller.binding

mutual

/-- The job that a program stands for. -/
def JobCode.job : JobCode → Job Sighting
  | .done, thread => pure ({}, thread)
  | .panic p, thread => pure ({ ending := .error p }, thread)
  | .observe next, thread => do
    let (o, after) ← (next thread.binding).job thread
    return (o.after (.bound thread.binding), after)
  | .run tile body next, thread => do
    let ended ← tile.tile.run thread body.carryOut
    let (o, after) ← (next ended.result).job ended.caller
    return (o.after (.ofRun thread ended), after)

/-- What a body does to its scope, and how it ends. -/
def BodyCode.carryOut : BodyCode → Scope Sighting → Logged (Except Payload Unit × Scope Sighting)
  | .done, s => pure (.ok (), s)
  | .panic p, s => pure (.error p, s)
  | .observe next, s =>
    (next s.caller.binding).carryOut (s.note (.bound s.caller.binding) s.caller)
  | .run tile body next, s => do
    let ended ← tile.tile.run s.caller body.carryOut
    (next ended.result).carryOut (s.note (.ofRun s.caller ended) ended.caller)
  | .spawn c job next, s => do
    let (answer, s) ← s.spawn c job.job
    (next answer).carryOut s
  | .join c next, s => do
    let (answer, s) ← s.join c
    (next answer).carryOut s
  | .forkJoin count jobs next, s => do
    let (reply, s) ← s.forkJoin ((List.range count).map fun i => (jobs i).job)
    (next reply).carryOut s

/-- The tile after its history. -/
def TileCode.tile : TileCode → Tile
  | .start t => (Tile.start t).value
  | .after tile caller body => (tile.tile.run caller body.carryOut).value.tile

end

end TileBench
