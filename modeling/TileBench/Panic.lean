import TileBench.Event

/-!
# Panics

A computation panics where its caller broke a promise or where its arithmetic left the machine's
integers. A panic is a result like any other here: the functions that can panic return
`Except Panic`, or are `Checked` if they also report events.
-/

namespace TileBench

/-- Why a computation panicked. -/
inductive Panic where
  | lengthMismatch
  | indexOutOfRange
  | divisionByZero
  | overflow
  /-- A job on the calling thread panicked. -/
  | unwound
  deriving DecidableEq, Repr

def Panic.message : Panic → String
  | .lengthMismatch => "lengths differ"
  | .indexOutOfRange => "index out of range"
  | .divisionByZero => "division by zero"
  | .overflow => "arithmetic overflow"
  | .unwound => "unwound by a job"

/-- A logged computation that may panic; the events reported before a panic stay. -/
abbrev Checked (α : Type) := ExceptT Panic Logged α

instance : MonadLift (Except Panic) Checked where
  monadLift x := ExceptT.mk (pure x)

namespace Checked

variable {α β : Type}

/-- A logged computation does not panic. -/
theorem value_bind_logged (x : Logged α) (f : α → Checked β) :
    ((liftM x : Checked α) >>= f).run.value = (f x.value).run.value :=
  rfl

/-- A value goes on to the next step. -/
theorem value_bind_ok (a : α) (f : α → Checked β) :
    ((liftM (Except.ok a : Except Panic α) : Checked α) >>= f).run.value = (f a).run.value :=
  rfl

/-- A step that does not panic gives its value to the next. -/
theorem value_bind_of_eq {x : Checked α} {a : α} (eq : x.run.value = .ok a) (f : α → Checked β) :
    (x >>= f).run.value = (f a).run.value := by
  have next : (x >>= f).run.value = (ExceptT.bindCont f x.run.value).value := rfl
  rw [next, eq]
  rfl

end Checked

/-- The number of values of a size or an index, which are integers of 64 bits. -/
def sizeLimit : Nat := UInt64.size

/-- A product, which has to be a size. -/
def checkedMul (a b : Nat) : Except Panic Nat :=
  if a * b < sizeLimit then .ok (a * b) else .error .overflow

/-- A sum, which has to be a size. -/
def checkedAdd (a b : Nat) : Except Panic Nat :=
  if a + b < sizeLimit then .ok (a + b) else .error .overflow

/-- A difference, which may not go below zero. -/
def checkedSub (a b : Nat) : Except Panic Nat :=
  if b ≤ a then .ok (a - b) else .error .overflow

/-- Taking something away leaves less. -/
theorem lt_of_checkedSub {a b c : Nat} (positive : 0 < b)
    (left : checkedSub a b = .ok c) : c < a := by
  unfold checkedSub at left
  split at left
  · cases left
    omega
  · cases left

/-- A shift to the left, which may lose no bit. -/
def checkedShiftLeft (a shift : Nat) : Except Panic Nat :=
  if shift < 64 ∧ a <<< shift < sizeLimit then .ok (a <<< shift) else .error .overflow

/-- A shift to the right by fewer than 64 bits. -/
def checkedShiftRight (a shift : Nat) : Except Panic Nat :=
  if shift < 64 then .ok (a >>> shift) else .error .overflow

/-- A sum of two words, which has to be a word. -/
def checkedAddWord (a b : UInt32) : Except Panic UInt32 :=
  if a.toNat + b.toNat < UInt32.size then .ok (a + b) else .error .overflow

section Loops

variable {α β γ : Type} {xs : List α}

/-- A loop of which no round panics does not panic. -/
theorem mapM_eq_ok {f : α → Except Panic β} {g : α → β} (each : ∀ x ∈ xs, f x = .ok (g x)) :
    xs.mapM f = .ok (xs.map g) := by
  induction xs with
  | nil => rfl
  | cons x xs ih =>
    rw [List.mapM_cons, each x List.mem_cons_self, ih fun y mem =>
      each y (List.mem_cons_of_mem _ mem)]
    rfl

/-- A loop whose steps do not panic is a fold. -/
theorem foldlM_eq_ok {f : γ → α → Except Panic γ} {g : γ → α → γ}
    (each : ∀ x ∈ xs, ∀ acc, f acc x = .ok (g acc x)) (acc : γ) :
    xs.foldlM f acc = .ok (xs.foldl g acc) := by
  induction xs generalizing acc with
  | nil => rfl
  | cons x xs ih =>
    rw [List.foldlM_cons, each x List.mem_cons_self]
    exact ih (fun y mem => each y (List.mem_cons_of_mem _ mem)) _

/-- A counting loop comes to the last of the states that its rounds go through. -/
theorem foldlM_range_eq_ok {f : γ → Nat → Except Panic γ} (state : Nat → γ) {count : Nat}
    (each : ∀ i < count, f (state i) i = .ok (state (i + 1))) :
    (List.range count).foldlM f (state 0) = .ok (state count) := by
  induction count with
  | zero => rfl
  | succ count ih =>
    rw [List.range_succ, List.foldlM_append, ih fun i below => each i (Nat.lt_succ_of_lt below)]
    exact (bind_pure _).trans (each count (Nat.lt_succ_self count))

end Loops

end TileBench
