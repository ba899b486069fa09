import Mathlib.Tactic.Lemma
import TileBench.Accelerator.Protocol

/-!
# The calls of the protocol

What each call does, once for every link. `Ask.refusal?` says when the protocol refuses a call, by
the phase and the mask of written registers alone; `Specifies` says that a call is refused or gives
the reply that it has from its one call through the link.
-/

namespace TileBench.Accelerator

variable {σ α : Type}

/-- The bit of a register in the mask. -/
def Register.bit (r : Register) : UInt32 :=
  1 <<< UInt32.ofNat r.index

/-- The written registers as a mask. -/
def mask (a : Accelerator σ) : UInt32 :=
  a.written.foldr (fun r mask => mask ||| r.bit) 0

/-- Every register has a bit of the mask. -/
lemma Register.bit_ne_zero (r : Register) : r.bit ≠ 0 := by
  cases r <;> decide

/-- No two registers share a bit. -/
lemma Register.bit_and_bit {r s : Register} : r.bit &&& s.bit = 0 ↔ s ≠ r := by
  cases r <;> cases s <;> decide

/-- The mask is zero exactly when no register has been written. -/
lemma mask_eq_zero {a : Accelerator σ} : a.mask = 0 ↔ a.written = [] := by
  unfold mask
  cases a.written with
  | nil => simp
  | cons r rest =>
    have bit := r.bit_ne_zero
    simp only [← UInt32.toBitVec_inj, ne_eq] at bit
    simp only [List.foldr_cons, ← UInt32.toBitVec_inj, UInt32.toBitVec_or, reduceCtorEq, iff_false]
    exact fun zero => bit (BitVec.or_eq_zero_iff.mp zero).2

/-- The mask has the bits of the registers that have been written and no others. -/
lemma mask_and_bit {a : Accelerator σ} {s : Register} : a.mask &&& s.bit = 0 ↔ s ∉ a.written := by
  unfold mask
  induction a.written with
  | nil => simp
  | cons r rest ih =>
    have bits := r.bit_and_bit (s := s)
    simp only [← UInt32.toBitVec_inj, UInt32.toBitVec_and, UInt32.toBitVec_ofNat] at ih bits
    simp [← UInt32.toBitVec_inj, BitVec.and_or_distrib_right, BitVec.or_eq_zero_iff, ih, bits,
      and_comm]

/-- A call as the protocol looks at it. -/
inductive Ask where
  | configure (r : Register)
  | trigger
  | complete
  | memory

/-- Why the protocol refuses a call, if it does. -/
def Ask.refusal? (o : Operation) (a : Accelerator σ) : Ask → Option Fault
  | .configure r =>
    if o.accepts r = false then some (.reservedRegister r.index)
    else if a.phase ≠ .idle ∧ a.phase ≠ .loading then some (.protocolViolation "configure" a.phase)
    else none
  | .trigger =>
    if a.phase ≠ .loading then some (.protocolViolation "trigger" a.phase)
    else (o.required.find? (a.mask &&& ·.bit = 0)).map fun r => .missingRegister r.index
  | .complete =>
    if a.phase ≠ .triggered then some (.protocolViolation "complete_read" a.phase) else none
  | .memory =>
    if a.phase ≠ .idle then some (.protocolViolation "host memory access" a.phase) else none

/-- Whether a fault says that the device gave no answer, for good or so far. -/
def Fault.isSilence : Fault → Bool
  | .deviceLost _ | .unanswered => true
  | _ => false

/-- The protocol never gives the silence of a device as its reason. -/
lemma isSilence_refusal {o : Operation} {a : Accelerator σ} {ask : Ask} {e : Fault}
    (refusal : ask.refusal? o a = some e) : e.isSilence = false := by
  cases ask with
  | configure r =>
    simp only [Ask.refusal?] at refusal
    split at refusal
    · cases refusal
      rfl
    · split at refusal <;> cases refusal
      rfl
  | trigger =>
    simp only [Ask.refusal?] at refusal
    split at refusal
    · cases refusal
      rfl
    · obtain ⟨r, -, rfl⟩ := Option.map_eq_some_iff.mp refusal
      rfl
  | complete =>
    simp only [Ask.refusal?] at refusal
    split at refusal <;> cases refusal
    rfl
  | memory =>
    simp only [Ask.refusal?] at refusal
    split at refusal <;> cases refusal
    rfl

/-- A call is refused, and then leaves the accelerator as it is and reports nothing, or gives
`reply`. -/
def Specifies (o : Operation) (a : Accelerator σ) (ask : Ask) (step : Logged (Reply σ α))
    (reply : Reply σ α) : Prop :=
  match ask.refusal? o a with
  | some e => step = a.refuse e
  | none => step.value = reply

/-- A specified call is refused with the accelerator unchanged, or passes and gives its reply. -/
lemma Specifies.cases {o : Operation} {a : Accelerator σ} {ask : Ask} {step : Logged (Reply σ α)}
    {reply : Reply σ α} (spec : Specifies o a ask step reply) :
    (∃ e, ask.refusal? o a = some e ∧ step.value = (.error e, a)) ∨
    (ask.refusal? o a = none ∧ step.value = reply) := by
  unfold Specifies at spec
  cases refusal : ask.refusal? o a with
  | some e =>
    rw [refusal] at spec
    exact .inl ⟨e, rfl, by rw [spec]; rfl⟩
  | none =>
    rw [refusal] at spec
    exact .inr ⟨rfl, spec⟩

/-- The accelerator after a write that the device has answered. -/
def afterWrite (a : Accelerator σ) (r : Register) : Except Fault Unit × σ → Accelerator σ
  | (.ok (), device) => ⟨device, .loading, r :: a.written⟩
  | (.error _, device) => { a with device }

/-- The accelerator after a start that the device has answered. -/
def afterGo (a : Accelerator σ) : Except Fault Unit × σ → Accelerator σ
  | (.ok (), device) => { a with device, phase := .triggered }
  | (.error _, device) => { a with device }

/-- What a program sees when it works on the memory that a link shows. -/
def worked (link : Link σ) (work : Memory → Except Fault α × Memory) :
    Option Memory × σ → Except Fault α × σ
  | (none, device) => (.error (.noHostMemory link.kind.name), device)
  | (some m, device) => ((work m).1, link.restore device (work m).2)

section Sequence

variable {β : Type} {step : Logged (Reply σ α)} {next : α → Accelerator σ → Logged (Reply σ β)}
  {b : Accelerator σ}

/-- A step that succeeds hands its value and its accelerator to the next. -/
lemma andThen_ok {v : α} (ok : step.value = (.ok v, b)) :
    (andThen step next).value = (next v b).value := by
  rw [andThen, Logged.value_bind, ok]

/-- A step that fails is the last. -/
lemma andThen_error {e : Fault} (failed : step.value = (.error e, b)) :
    (andThen step next).value = (.error e, b) := by
  rw [andThen, Logged.value_bind, failed]
  rfl

end Sequence

variable (link : Link σ) (a : Accelerator σ)

/-- A write that is let through makes one write on the link, and the device decides on it. -/
lemma configure_spec (r : Register) (value : UInt32) :
    Specifies link.operation a (.configure r) (a.configure link r value)
      ((link.write a.device r value).value.1, a.afterWrite r
        (link.write a.device r value).value) := by
  unfold Specifies Ask.refusal? configure
  by_cases reserved : link.operation.accepts r = false
  · simp [reserved]
  · by_cases late : a.phase ≠ .idle ∧ a.phase ≠ .loading
    · simp [reserved, late]
    · simp only [if_neg reserved, if_neg late, Logged.value_bind]
      rcases (link.write a.device r value).value with ⟨_ | _, device⟩
      · rfl
      · rfl

/-- A start that is let through makes one start on the link, and the device decides on it. -/
lemma trigger_spec :
    Specifies link.operation a .trigger (a.trigger link)
      ((link.go a.device).value.1, a.afterGo (link.go a.device).value) := by
  unfold Specifies Ask.refusal? trigger
  by_cases loading : a.phase = .loading
  · simp only [loading, mask_and_bit, ne_eq, not_true, if_false]
    cases found : link.operation.required.find? (· ∉ a.written) with
    | some r => rfl
    | none =>
      simp only [Option.map_none, Logged.value_bind]
      rcases (link.go a.device).value with ⟨_ | _, device⟩
      · simp [afterGo, loading]
      · rfl
  · simp [loading]

/-- Reading the answer ends the transaction whatever the device answers. -/
lemma complete_spec :
    Specifies link.operation a .complete (a.complete link)
      ((link.wait a.device).value.1, ⟨(link.wait a.device).value.2, .idle, []⟩) := by
  unfold Specifies Ask.refusal? complete
  by_cases triggered : a.phase = .triggered
  · simp only [triggered, ne_eq, not_true, if_false]
    rfl
  · simp [triggered]

/-- Work on the memory that is let through sees what the link shows and leaves the phase alone. -/
lemma withMemory_spec (work : Memory → Except Fault α × Memory) :
    Specifies link.operation a .memory (pure (a.withMemory link work))
      ((worked link work (link.lend a.device)).1,
        { a with device := (worked link work (link.lend a.device)).2 }) := by
  unfold Specifies Ask.refusal? withMemory
  by_cases idle : a.phase = .idle
  · simp only [idle, ne_eq, not_true, if_false, Logged.value_pure]
    rcases link.lend a.device with ⟨_ | m, device⟩
    · rfl
    · rfl
  · simp [idle, refuse]

variable {link a}

/-- A write passes only before the start. -/
lemma configure_passes {r : Register} {o : Operation}
    (passes : (Ask.configure r).refusal? o a = none) : a.phase = .idle ∨ a.phase = .loading := by
  by_cases late : a.phase ≠ .idle ∧ a.phase ≠ .loading
  · simp only [Ask.refusal?, if_pos late] at passes
    split at passes <;> contradiction
  · by_cases idle : a.phase = .idle
    · exact .inl idle
    · exact .inr (Decidable.not_not.mp fun other => late ⟨idle, other⟩)

/-- A start passes only while loading and with every register written that the operation needs. -/
lemma trigger_passes {o : Operation} (passes : Ask.trigger.refusal? o a = none) :
    a.phase = .loading ∧ ∀ r ∈ o.required, r ∈ a.written := by
  by_cases loading : a.phase = .loading
  · simp only [Ask.refusal?, loading, mask_and_bit, ne_eq, not_true, if_false,
      Option.map_eq_none_iff] at passes
    exact ⟨loading, by simpa using passes⟩
  · simp [Ask.refusal?, loading] at passes

/-- An answer can be asked for only after a start. -/
lemma complete_passes {o : Operation} (passes : Ask.complete.refusal? o a = none) :
    a.phase = .triggered := by
  by_cases triggered : a.phase = .triggered
  · exact triggered
  · simp [Ask.refusal?, triggered] at passes

/-- The memory can be reached only between transactions. -/
lemma memory_passes {o : Operation} (passes : Ask.memory.refusal? o a = none) :
    a.phase = .idle := by
  by_cases idle : a.phase = .idle
  · exact idle
  · simp [Ask.refusal?, idle] at passes

/-- A write before the start to a register that the operation accepts is not refused. -/
lemma refusal?_configure {o : Operation} {r : Register} (accepted : o.accepts r = true)
    (early : a.phase = .idle ∨ a.phase = .loading) : (Ask.configure r).refusal? o a = none := by
  rcases early with phase | phase <;> simp [Ask.refusal?, accepted, phase]

/-- A start while loading with all registers written is not refused. -/
lemma refusal?_trigger {o : Operation} (loading : a.phase = .loading)
    (all : ∀ r ∈ o.required, r ∈ a.written) : Ask.trigger.refusal? o a = none := by
  simpa [Ask.refusal?, loading, mask_and_bit] using all

/-- After a start the request for the answer is not refused. -/
lemma refusal?_complete {o : Operation} (triggered : a.phase = .triggered) :
    Ask.complete.refusal? o a = none := by
  simp [Ask.refusal?, triggered]

/-- Between transactions access to the memory is not refused. -/
lemma refusal?_memory {o : Operation} (idle : a.phase = .idle) :
    Ask.memory.refusal? o a = none := by
  simp [Ask.refusal?, idle]

end TileBench.Accelerator
