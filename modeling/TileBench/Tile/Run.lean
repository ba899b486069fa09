import TileBench.Tile.Scope
import TileBench.Tile.Topology

/-!
# Running on a tile

A tile has one worker thread per peer core, which lives as long as the tile. A run binds the calling
thread to core 0, gives the program a scope, closes the scope when the program returns or panics,
and binds the thread again to what it was bound to before.
-/

namespace TileBench

/-- A tile that has been brought up. -/
structure Tile where
  /-- The threads of the peer cores, in index order. -/
  workers : List Thread

namespace Tile

variable {α β : Type}

/-- Brings up a tile; each worker is bound to its core. -/
def start (t : Topology) : Logged Tile := do
  Logged.info s!"Bare thread runtime up: {t.cores} cores"
  return ⟨t.peers.map fun c => { binding := some c }⟩

def stop : Logged Unit :=
  Logged.debug "Bare thread runtime down"

/-- The number of cores, the caller included. -/
def cores (t : Tile) : Nat :=
  t.workers.length + 1

/-- The scope of a run on a tile, with the calling thread bound to core 0. -/
def scope (t : Tile) (caller : Thread) : Scope β :=
  let bound := { caller with binding := some orchestrator }
  ⟨(bound :: t.workers).map fun thread => { thread }⟩

/-- What is left after a run. -/
structure Ended (β α : Type) where
  /-- What the program returned, or its panic. -/
  result : Except Payload α
  recorded : List (List β)
  caller : Thread
  tile : Tile

/-- What is left once a scope is closed; the calling thread gets its former binding back. -/
def ended (s : Scope β) (result : Except Payload α) (binding : Option Core) : Ended β α where
  result
  recorded := s.cores.map CoreState.recorded
  caller := { s.caller with binding }
  tile := ⟨s.cores.tail.map CoreState.thread⟩

/-- Runs a program on a tile. The scope is closed whether it returns or unwinds. -/
def run (t : Tile) (caller : Thread) (program : Scope β → Logged (Except Payload α × Scope β)) :
    Logged (Ended β α) := do
  let (result, s) ← program (t.scope caller)
  let s ← s.close
  return ended s result caller.binding

end Tile

end TileBench
