import TileBench.Proofs.Accelerator.Calls

/-!
# Links that answer alike

Two devices in related states may answer a call alike, and be in related states after it. A program
then cannot tell them apart: `Like` relates their accelerators, and every call of the protocol
carries `Like` and its answer over from the calls that it makes through the links.
-/

namespace TileBench.Accelerator

variable {σ τ α β : Type}

/-- The same answer, and related states after it. -/
def Alike (R : σ → τ → Prop) (x : Except Fault α × σ) (y : Except Fault α × τ) : Prop :=
  x.1 = y.1 ∧ R x.2 y.2

/-- Devices in related states, and programs that have come equally far. -/
structure Like (R : σ → τ → Prop) (a : Accelerator σ) (b : Accelerator τ) : Prop where
  device : R a.device b.device
  phase : a.phase = b.phase
  written : a.written = b.written

variable {R : σ → τ → Prop} {l : Link σ} {k : Link τ} {a : Accelerator σ} {b : Accelerator τ}

/-- Programs that have come equally far have written the same registers. -/
lemma Like.mask_eq (like : Like R a b) : a.mask = b.mask := by
  unfold mask
  rw [like.written]

/-- Programs that have come equally far are refused the same calls for the same reasons. -/
lemma Like.refusal?_eq (like : Like R a b) (o : Operation) (ask : Ask) :
    ask.refusal? o a = ask.refusal? o b := by
  cases ask <;> simp only [Ask.refusal?, like.phase, like.mask_eq]

/-- Calls that are both specified are answered alike if their replies are. -/
lemma Specifies.alike {Q : Accelerator σ → Accelerator τ → Prop} {o : Operation} {ask : Ask}
    {x : Logged (Reply σ α)} {y : Logged (Reply τ α)} {u : Reply σ α} {v : Reply τ α}
    (related : Q a b) (refusals : ask.refusal? o a = ask.refusal? o b)
    (first : Specifies o a ask x u) (second : Specifies o b ask y v)
    (replies : ask.refusal? o a = none → Alike Q u v) : Alike Q x.value y.value := by
  unfold Specifies at first second
  rw [← refusals] at second
  cases refusal : ask.refusal? o a with
  | some e =>
    rw [refusal] at first second
    rw [first, second]
    exact ⟨rfl, related⟩
  | none =>
    rw [refusal] at first second
    rw [first, second]
    exact replies refusal

/-- Devices that answer a write alike keep the accelerators alike. -/
lemma Like.configure {r : Register} {value : UInt32} (like : Like R a b)
    (same : l.operation = k.operation)
    (write : Alike R (l.write a.device r value).value (k.write b.device r value).value) :
    Alike (Like R) (a.configure l r value).value (b.configure k r value).value := by
  refine (configure_spec l a r value).alike like (like.refusal?_eq ..)
    (same ▸ configure_spec k b r value) fun _ => ?_
  generalize (l.write a.device r value).value = x, (k.write b.device r value).value = y at write
  obtain ⟨x, s⟩ := x
  obtain ⟨y, t⟩ := y
  obtain ⟨⟨⟩, after⟩ := write
  cases x with
  | error e => exact ⟨rfl, after, like.phase, like.written⟩
  | ok => exact ⟨rfl, after, rfl, congrArg _ like.written⟩

/-- Devices that answer a start alike keep the accelerators alike; the start counts only while
loading. -/
lemma Like.trigger (like : Like R a b) (same : l.operation = k.operation)
    (go : a.phase = .loading → Alike R (l.go a.device).value (k.go b.device).value) :
    Alike (Like R) (a.trigger l).value (b.trigger k).value := by
  refine (trigger_spec l a).alike like (like.refusal?_eq ..) (same ▸ trigger_spec k b)
    fun passes => ?_
  replace go := go (trigger_passes passes).1
  generalize (l.go a.device).value = x, (k.go b.device).value = y at go
  obtain ⟨x, s⟩ := x
  obtain ⟨y, t⟩ := y
  obtain ⟨⟨⟩, after⟩ := go
  cases x with
  | error e => exact ⟨rfl, after, like.phase, like.written⟩
  | ok => exact ⟨rfl, after, rfl, like.written⟩

/-- Devices that give the same answer keep the accelerators alike; it counts only after a start. -/
lemma Like.complete (like : Like R a b) (same : l.operation = k.operation)
    (wait : a.phase = .triggered → Alike R (l.wait a.device).value (k.wait b.device).value) :
    Alike (Like R) (a.complete l).value (b.complete k).value := by
  refine (complete_spec l a).alike like (like.refusal?_eq ..) (same ▸ complete_spec k b)
    fun passes => ?_
  obtain ⟨answer, after⟩ := wait (complete_passes passes)
  exact ⟨answer, after, rfl, rfl⟩

/-- Links that show memories on which the work does the same keep the accelerators alike. -/
lemma Like.withMemory (like : Like R a b) (work : Memory → Except Fault α × Memory)
    (same : l.operation = k.operation)
    (lend : a.phase = .idle → Alike R (worked l work (l.lend a.device))
      (worked k work (k.lend b.device))) :
    Alike (Like R) (a.withMemory l work) (b.withMemory k work) := by
  refine (withMemory_spec l a work).alike like (like.refusal?_eq ..)
    (same ▸ withMemory_spec k b work) fun passes => ?_
  obtain ⟨answer, after⟩ := lend (memory_passes passes)
  exact ⟨answer, after, like.phase, like.written⟩

section Steps

variable {Q : Accelerator σ → Accelerator τ → Prop}

/-- Steps that are answered alike can be chained if the steps after them are as well. -/
lemma Alike.andThen {x : Logged (Reply σ α)} {y : Logged (Reply τ α)}
    {f : α → Accelerator σ → Logged (Reply σ β)} {g : α → Accelerator τ → Logged (Reply τ β)}
    (first : Alike Q x.value y.value)
    (next : ∀ v a b, Q a b → Alike Q (f v a).value (g v b).value) :
    Alike Q (andThen x f).value (andThen y g).value := by
  unfold Accelerator.andThen
  simp only [Logged.value_bind]
  generalize x.value = x, y.value = y at first
  obtain ⟨x, a⟩ := x
  obtain ⟨y, b⟩ := y
  obtain ⟨⟨⟩, after⟩ := first
  cases x with
  | error e => exact ⟨rfl, after⟩
  | ok v => exact next v a b after

/-- Accelerators that are related give the same answer to each step of a transaction and stay
related. -/
structure InStep (l : Link σ) (k : Link τ) (Q : Accelerator σ → Accelerator τ → Prop) : Prop where
  configure : ∀ {a b} (r : Register) (value : UInt32), Q a b →
    Alike Q (a.configure l r value).value (b.configure k r value).value
  trigger : ∀ {a b}, Q a b → Alike Q (a.trigger l).value (b.trigger k).value
  complete : ∀ {a b}, Q a b → Alike Q (a.complete l).value (b.complete k).value

/-- A whole transaction is answered alike if each of its steps is. -/
lemma InStep.transaction (inStep : InStep l k Q) (related : Q a b)
    (operands : List (Register × UInt32)) :
    Alike Q (a.transaction l operands).value (b.transaction k operands).value := by
  induction operands generalizing a b with
  | nil => exact (inStep.trigger related).andThen fun _ _ _ => inStep.complete
  | cons operand rest ih =>
    exact (inStep.configure operand.1 operand.2 related).andThen fun _ _ _ => ih

end Steps

/-- Every call gets the same answer in related states. -/
structure AnswerAlike (R : σ → τ → Prop) (l : Link σ) (k : Link τ) : Prop where
  operation : l.operation = k.operation
  write : ∀ {s t} r value, R s t → Alike R (l.write s r value).value (k.write t r value).value
  go : ∀ {s t}, R s t → Alike R (l.go s).value (k.go t).value
  wait : ∀ {s t}, R s t → Alike R (l.wait s).value (k.wait t).value
  lend : ∀ {s t} {α : Type} (work : Memory → Except Fault α × Memory), R s t →
    Alike R (worked l work (l.lend s)) (worked k work (k.lend t))

/-- Being answered alike does not depend on which side is named first. -/
lemma Alike.symm {x : Except Fault α × σ} {y : Except Fault α × τ} (alike : Alike R x y) :
    Alike (flip R) y x :=
  ⟨alike.1.symm, alike.2⟩

/-- Links that answer alike do so from either side. -/
lemma AnswerAlike.symm (links : AnswerAlike R l k) : AnswerAlike (flip R) k l where
  operation := links.operation.symm
  write r value related := (links.write r value related).symm
  go related := (links.go related).symm
  wait related := (links.wait related).symm
  lend work related := (links.lend work related).symm

/-- Links that answer alike keep accelerators in step. -/
lemma AnswerAlike.inStep (links : AnswerAlike R l k) : InStep l k (Like R) where
  configure r value like := like.configure links.operation (links.write r value like.device)
  trigger like := like.trigger links.operation fun _ => links.go like.device
  complete like := like.complete links.operation fun _ => links.wait like.device

end TileBench.Accelerator
