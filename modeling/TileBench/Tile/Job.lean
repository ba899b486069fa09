import TileBench.Event
import TileBench.Tile.CoreCount

/-!
# Threads and jobs

A thread knows the core that it stands in for, if any. A job runs on a thread; it records values,
and it returns or panics.
-/

namespace TileBench

/-- What a panic carries. -/
inductive Payload where
  | text (message : String)
  | other
  deriving DecidableEq, Repr

def Payload.message : Payload → String
  | .text message => message
  | .other => "non-string panic payload"

/-- The state that a thread keeps for itself. -/
structure Thread where
  /-- The core that the thread is bound to. -/
  binding : Option Core := none
  deriving DecidableEq, Repr

/-- The core that a thread takes itself to be; outside of any tile that is the orchestrator. -/
def Thread.core (t : Thread) : Core :=
  t.binding.getD orchestrator

/-- What a job leaves behind: the values it recorded, in order, and how it ended. -/
structure Outcome (β : Type) where
  recorded : List β := []
  ending : Except Payload Unit := .ok ()

/-- A job, which may change the state of the thread that it runs on. -/
abbrev Job (β : Type) := Thread → Logged (Outcome β × Thread)

namespace Job

variable {β : Type}

/-- A job that records values and returns. -/
def values (vs : List β) : Job β :=
  fun thread => pure ({ recorded := vs }, thread)

/-- A job that records one value and returns. -/
def value (v : β) : Job β :=
  values [v]

/-- The job that records what it sees of its thread. -/
def observe (look : Thread → β) : Job β :=
  fun thread => pure ({ recorded := [look thread] }, thread)

/-- A job that panics at once. -/
def panic (p : Payload) : Job β :=
  fun thread => pure ({ ending := .error p }, thread)

end Job

end TileBench
