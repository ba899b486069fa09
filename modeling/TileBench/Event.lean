/-!
# Events and logged computations

Parts of the library report what they do as events. A `Logged` computation holds its result beside
the events that it reported, in order; `Logged.value` maps the monad to plain values, so that a
proof about results never sees the events.
-/

namespace TileBench

/-- How much an event matters. -/
inductive Level where
  | debug
  | info
  | warn
  deriving DecidableEq, Repr

def Level.name : Level → String
  | .debug => "DEBUG"
  | .info => "INFO"
  | .warn => "WARN"

/-- The thread that reports an event: the one that called, or the thread of the accelerator. -/
inductive Origin where
  | caller
  | device
  deriving DecidableEq, Repr

/-- One reported event. -/
structure Event where
  level : Level
  text : String
  origin : Origin := .caller
  deriving DecidableEq, Repr

def Event.line (e : Event) : String :=
  s!"{e.level.name} {e.text}"

/-- A result beside the events reported on the way to it. -/
structure Logged (α : Type) where
  value : α
  events : List Event := []

namespace Logged

/-- Continues with the result and keeps the events of both parts in order. -/
def bind {α β : Type} (x : Logged α) (f : α → Logged β) : Logged β :=
  let y := f x.value
  { value := y.value, events := x.events ++ y.events }

instance : Monad Logged where
  pure a := { value := a }
  bind := Logged.bind

def log (level : Level) (text : String) : Logged Unit :=
  { value := (), events := [{ level, text }] }

def debug (text : String) : Logged Unit :=
  log .debug text

def info (text : String) : Logged Unit :=
  log .info text

def warn (text : String) : Logged Unit :=
  log .warn text

variable {α β : Type}

/-- Without an event there is only the result. -/
@[simp] theorem value_pure (a : α) : (pure a : Logged α).value = a := rfl

/-- A result alone reports nothing. -/
@[simp] theorem events_pure (a : α) : (pure a : Logged α).events = [] := rfl

/-- The next step depends on the result and not on the events before it. -/
@[simp] theorem value_bind (x : Logged α) (f : α → Logged β) :
    (x >>= f).value = (f x.value).value :=
  rfl

/-- The events of two steps are kept in order. -/
@[simp] theorem events_bind (x : Logged α) (f : α → Logged β) :
    (x >>= f).events = x.events ++ (f x.value).events :=
  rfl

/-- A logged computation is its result and its events. -/
theorem ext {x y : Logged α} (hv : x.value = y.value) (he : x.events = y.events) : x = y := by
  cases x; cases y; simp_all

instance : LawfulMonad Logged :=
  LawfulMonad.mk' Logged
    (fun _ => ext rfl (by simp [Functor.map, Logged.bind]))
    (fun _ _ => ext rfl (by simp))
    (fun _ _ _ => ext rfl (by simp [List.append_assoc]))
    (fun _ _ => rfl)
    (fun _ _ => rfl)

/-- A function of the result reports nothing. -/
@[simp] theorem value_map (f : α → β) (x : Logged α) : (f <$> x).value = f x.value := by
  rw [← bind_pure_comp]; rfl

end Logged

end TileBench
