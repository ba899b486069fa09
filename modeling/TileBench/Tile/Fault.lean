import TileBench.Accelerator.Fault
import TileBench.Tile.CoreCount

/-!
# Faults of the tile

What can go wrong while a program brings up a tile and hands out work to its cores, and the faults
of the parts that it uses.
-/

namespace TileBench.Tile

/-- A refusal or failure of the tile. -/
inductive Fault where
  | unsupportedCoreCount (count : Nat)
  /-- The tile of `count` cores has no such core. -/
  | coreOutOfRange (core count : Nat)
  /-- The core is the orchestrator or has a job already. -/
  | coreBusy (core : Core)
  | notSpawned (core : Core)
  | jobPanicked (core : Core) (message : String)
  | workerLost (core : Core)
  | accelerator (f : Accelerator.Fault)
  | controlStream (reason : String)
  | io (reason : String)
  deriving DecidableEq, Repr

def Fault.message : Fault → String
  | .unsupportedCoreCount count =>
    s!"Unsupported core count {count} (supported: {supported})"
  | .coreOutOfRange core count => s!"Core {core} out of range (have {count} cores)"
  | .coreBusy core => s!"Core {core} is busy"
  | .notSpawned core => s!"Core {core} has no spawned job to join"
  | .jobPanicked core message => s!"Job on core {core} panicked: {message}"
  | .workerLost core => s!"Worker for core {core} is no longer running"
  | .accelerator f => f.message
  | .controlStream reason => s!"Malformed control stream: {reason}"
  | .io reason => s!"I/O error: {reason}"
where
  /-- The supported core counts. -/
  supported : String := ", ".intercalate (CoreCount.supported.map Nat.repr)

end TileBench.Tile
