import TileBench.Tile.Fault

/-!
# Topologies

The number of cores of a tile is fixed when the tile is brought up, and is one of the supported
counts.
-/

namespace TileBench

/-- The cores `0` to `cores - 1` of a tile. -/
structure Topology where
  cores : Nat
  supported : CoreCount.isSupported cores = true

namespace Topology

/-- The tile with core 0 alone. -/
def single : Topology := ⟨1, by decide⟩

/-- The topology with a number of cores, if that is supported. -/
def ofCount (count : Nat) : Except Tile.Fault Topology :=
  if h : CoreCount.isSupported count = true then .ok ⟨count, h⟩
  else .error (.unsupportedCoreCount count)

/-- Whether a tile has a core. -/
def contains (t : Topology) (c : Core) : Bool :=
  decide (c < t.cores)

/-- The cores of a tile above the orchestrator. -/
def peers (t : Topology) : List Core :=
  List.range' 1 (t.cores - 1)

/-- Refuses a core that the tile does not have. -/
def check (t : Topology) (c : Core) : Except Tile.Fault Unit :=
  if t.contains c then .ok () else .error (.coreOutOfRange c t.cores)

/-- Every tile has core 0. -/
theorem cores_pos (t : Topology) : 0 < t.cores := by
  have h := t.supported
  simp only [CoreCount.isSupported, CoreCount.supported, decide_eq_true_eq, List.mem_cons,
    List.not_mem_nil, or_false] at h
  omega

end Topology

end TileBench
