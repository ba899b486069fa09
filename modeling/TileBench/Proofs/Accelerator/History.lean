import Mathlib.Logic.Function.Basic
import TileBench.Proofs.Accelerator.Requests
import TileBench.Proofs.Accelerator.Traffic

/-!
# What an accelerator keeps of its history

The registers of a device keep what was written into them, whatever came of it. A program never sees
any of it, since a transaction starts only once every register that the device reads has been
written anew. `Twins` carries a relation between two accelerators through every request. `Aligned`
is such a relation: it asks for equal registers only where the device may come to read them. `Told`
says that the transfers behind an accelerator tell what those registers hold.
`indistinguishable_of_history` follows for any two histories.
-/

namespace TileBench.Accelerator

variable {σ τ α : Type}

/-! ## Two accelerators under the same requests -/

/-- Whether a request may work on the memory. -/
def Request.usesMemory : Request → Bool
  | .access _ | .vectorAdd .. => true
  | .configure .. | .trigger | .complete | .transaction _ | .echo _ => false

section Requests

variable {l : Link σ} {k : Link τ} {Q : Accelerator σ → Accelerator τ → Prop} {a : Accelerator σ}
  {b : Accelerator τ}

/-- Accelerators that are in step give the same answer to a request that leaves the memory alone. -/
lemma InStep.perform (inStep : InStep l k Q) (same : expects l .null = expects k .null)
    {request : Request} (registers : request.usesMemory = false) (related : Q a b) :
    (perform l a request).value.1 = (perform k b request).value.1 ∧
      Q (perform l a request).value.2 (perform k b request).value.2 := by
  cases request with
  | configure r value =>
    obtain ⟨answer, after⟩ := inStep.configure r value related
    exact ⟨congrArg Answer.done answer, after⟩
  | trigger =>
    obtain ⟨answer, after⟩ := inStep.trigger related
    exact ⟨congrArg Answer.done answer, after⟩
  | complete =>
    obtain ⟨answer, after⟩ := inStep.complete related
    exact ⟨congrArg Answer.word answer, after⟩
  | transaction operands =>
    obtain ⟨answer, after⟩ := inStep.transaction related operands
    exact ⟨congrArg Answer.word answer, after⟩
  | echo value =>
    have alike : Alike Q (echo l a value).value (echo k b value).value := by
      unfold echo
      rw [same]
      cases expects k .null with
      | error e => exact ⟨rfl, related⟩
      | ok => exact inStep.transaction related _
    exact ⟨congrArg Answer.word alike.1, alike.2⟩
  | access => cases registers
  | vectorAdd => cases registers

/-- Accelerators that give the same answer to each of some requests give the same answers to all of
them. -/
lemma performAll_alike {requests : List Request} (phase : ∀ {a b}, Q a b → a.phase = b.phase)
    (each : ∀ request ∈ requests, ∀ a b, Q a b →
      (perform l a request).value.1 = (perform k b request).value.1 ∧
      Q (perform l a request).value.2 (perform k b request).value.2) (related : Q a b) :
    (performAll l a requests).value.1 = (performAll k b requests).value.1 ∧
      Q (performAll l a requests).value.2 (performAll k b requests).value.2 := by
  induction requests generalizing a b with
  | nil => exact ⟨rfl, related⟩
  | cons request rest ih =>
    obtain ⟨answer, after⟩ := each request List.mem_cons_self a b related
    obtain ⟨answers, last⟩ :=
      ih (fun request mem => each request (List.mem_cons_of_mem _ mem)) after
    exact ⟨congr (congrArg List.cons (Prod.ext answer (phase after))) answers, last⟩

end Requests

/-- Related accelerators are in the same phase, give the same answer to every call and stay
related. -/
structure Twins (l : Link σ) (k : Link τ) (Q : Accelerator σ → Accelerator τ → Prop) : Prop
    extends InStep l k Q where
  phase : ∀ {a b}, Q a b → a.phase = b.phase
  expects : ∀ o, expects l o = expects k o
  memory : ∀ {a b} {α : Type} (work : Memory → Except Fault α × Memory), Q a b →
    Alike Q (a.withMemory l work) (b.withMemory k work)

namespace Twins

variable {l : Link σ} {k : Link τ} {Q : Accelerator σ → Accelerator τ → Prop} {a : Accelerator σ}
  {b : Accelerator τ} (twins : Twins l k Q)

include twins

/-- The calls of an addition are answered alike. -/
lemma offload (related : Q a b) (xs ys : List UInt32) (count : Nat)
    (operands : UInt32 × UInt32 × UInt32 × UInt32) :
    Alike Q (offload l a xs ys count operands).value (offload k b xs ys count operands).value := by
  obtain ⟨src0, src1, dest, size⟩ := operands
  have staged : Alike Q (pure (a.withMemory l (stage src0 src1 dest xs ys)) : Logged _).value
      (pure (b.withMemory k (stage src0 src1 dest xs ys)) : Logged _).value :=
    twins.memory _ related
  refine staged.andThen fun _ _ _ related => ?_
  refine (twins.transaction related _).andThen fun _ _ _ related => ?_
  exact twins.memory _ related

/-- An addition gives the same outcome and the same result. -/
lemma vectorAdd_run (related : Q a b) (result xs ys : List Int32) :
    (vectorAdd.run l a result xs ys).value.1 = (vectorAdd.run k b result xs ys).value.1 ∧
      Q (vectorAdd.run l a result xs ys).value.2 (vectorAdd.run k b result xs ys).value.2 := by
  have same : ((Accelerator.expects l .add).bind fun _ => operandWords result.length) =
      (Accelerator.expects k .add).bind fun _ => operandWords result.length := by rw [twins.expects]
  have summed_alike {x : Reply σ (List UInt32)} {y : Reply τ (List UInt32)} (alike : Alike Q x y) :
      (summed result x).1 = (summed result y).1 ∧ Q (summed result x).2 (summed result y).2 := by
    obtain ⟨x, a⟩ := x
    obtain ⟨y, b⟩ := y
    obtain ⟨⟨⟩, after⟩ := alike
    cases x with
    | error e => exact ⟨rfl, after⟩
    | ok sums => exact ⟨rfl, after⟩
  cases found : (Accelerator.expects l .add).bind fun _ => operandWords result.length with
  | error e =>
    rw [vectorAdd.run_of_error found, vectorAdd.run_of_error (same ▸ found)]
    exact ⟨rfl, related⟩
  | ok operands =>
    rw [vectorAdd.run_of_ok found, vectorAdd.run_of_ok (same ▸ found)]
    exact summed_alike (twins.offload related _ _ _ operands)

/-- A request of any kind gets the same answer. -/
lemma perform (related : Q a b) (request : Request) :
    (perform l a request).value.1 = (perform k b request).value.1 ∧
      Q (perform l a request).value.2 (perform k b request).value.2 := by
  have apart {request : Request} (registers : request.usesMemory = false) :=
    twins.toInStep.perform (twins.expects .null) registers related
  cases request with
  | configure => exact apart rfl
  | trigger => exact apart rfl
  | complete => exact apart rfl
  | transaction => exact apart rfl
  | echo => exact apart rfl
  | access what =>
    obtain ⟨same, after⟩ := twins.memory what.perform related
    exact ⟨congrArg Answer.words same, after⟩
  | vectorAdd result xs ys =>
    change (Answer.ofSums a result (vectorAdd l a result xs ys)).value.1 =
        (Answer.ofSums b result (vectorAdd k b result xs ys)).value.1 ∧
      Q (Answer.ofSums a result (vectorAdd l a result xs ys)).value.2
        (Answer.ofSums b result (vectorAdd k b result xs ys)).value.2
    unfold vectorAdd
    split
    case isTrue lengths =>
      obtain ⟨same, after⟩ := twins.vectorAdd_run related result xs ys
      refine ⟨?_, after⟩
      exact congrArg (fun x : Except Fault Unit × List Int32 => Answer.sums (.ok x.1) x.2) same
    case isFalse mismatch => exact ⟨rfl, related⟩

/-- Any sequence of requests gets the same answers, phase by phase. -/
lemma performAll (related : Q a b) (requests : List Request) :
    (performAll l a requests).value.1 = (performAll k b requests).value.1 ∧
      Q (performAll l a requests).value.2 (performAll k b requests).value.2 :=
  performAll_alike twins.phase (fun request _ _ _ related => twins.perform related request) related

end Twins

/-- Links of one kind that answer alike are not told apart by any request. -/
lemma AnswerAlike.twins {R : σ → τ → Prop} {l : Link σ} {k : Link τ} (links : AnswerAlike R l k)
    (kind : l.kind = k.kind) (shares : l.sharesMemory = k.sharesMemory) : Twins l k (Like R) where
  toInStep := links.inStep
  phase like := like.phase
  expects o := by
    unfold expects
    rw [links.operation, kind, shares]
  memory work like := like.withMemory work links.operation fun _ => links.lend work like.device

/-! ## What the registers hold -/

/-- What the registers hold where they have been written. -/
def held (written : List Register) (registers : Registers) (r : Register) : Option UInt32 :=
  if r ∈ written then some (registers.get r) else none

section Held

variable {w w' : List Register} {registers registers' : Registers}

/-- Nothing is held while nothing has been written. -/
lemma held_nil : held [] registers = fun _ => none :=
  rfl

/-- A register holds something exactly where it has been written. -/
lemma isSome_held {r : Register} : (held w registers r).isSome ↔ r ∈ w := by
  unfold held
  split <;> simp_all

/-- Registers that hold the same have been written alike. -/
lemma mem_iff_of_held (same : held w registers = held w' registers') (r : Register) :
    r ∈ w ↔ r ∈ w' := by
  rw [← isSome_held, same, isSome_held]

/-- A write is held by its register. -/
lemma held_cons (r : Register) (value : UInt32) :
    held (r :: w) (registers.set r value) = Function.update (held w registers) r (some value) := by
  funext s
  by_cases eq : s = r
  · subst eq
    simp [held]
  · simp [held, eq, Ne.symm eq]

/-- Registers that hold the same are equal where they have been written. -/
lemma get_eq_of_held {r : Register} (same : held w registers = held w' registers')
    (written : r ∈ w) : registers.get r = registers'.get r := by
  have there := congrFun same r
  rwa [held, held, if_pos written, if_pos ((mem_iff_of_held same r).mp written), Option.some_inj]
    at there

/-- Starting leaves the operands in their registers. -/
lemma get_latched {o : Operation} {r : Register} (required : r ∈ o.required) :
    (SoftwareDevice.latched o registers).get r = registers.get r := by
  cases o with
  | null => rfl
  | add =>
    have operand : Register.go ≠ r := by
      rintro rfl
      exact absurd required (by decide)
    simp [SoftwareDevice.latched, Operation.dataInGo, operand]

/-- The device reads the registers that its operation requires and no others. -/
lemma completion?_congr {o : Operation} {m : Memory}
    (same : ∀ r ∈ o.required, registers.get r = registers'.get r) :
    Command.completion? o ⟨registers, m⟩ = Command.completion? o ⟨registers', m⟩ := by
  unfold Command.completion?
  cases o with
  | null =>
    have go := same .go (by decide)
    simp_all [Device.execute, Registers.get]
  | add =>
    have operands : Device.execute .add registers m = Device.execute .add registers' m := by
      have src0 : registers.src0 = registers'.src0 := same .src0 (by decide)
      have src1 : registers.src1 = registers'.src1 := same .src1 (by decide)
      have dest : registers.dest = registers'.dest := same .dest (by decide)
      have size : registers.size = registers'.size := same .size (by decide)
      simp only [Device.execute, src0, src1, dest, size]
    simp only [operands]

end Held

/-! ## Accelerators that agree where it matters -/

/-- Two accelerators that hold the same memory and agree on the registers that the device may come
to read. A device that has stopped holds no memory. -/
inductive Aligned (o : Operation) :
    Accelerator SoftwareDevice → Accelerator SoftwareDevice → Prop where
  | program {registers registers' : Registers} {v : Option Memory} {p : Phase}
      {w w' : List Register} :
    p ≠ .triggered → held w registers = held w' registers' →
    Aligned o ⟨⟨o, registers, v, none, v.isSome⟩, p, w⟩
      ⟨⟨o, registers', v, none, v.isSome⟩, p, w'⟩
  | command {registers registers' : Registers} {m : Memory} {w w' : List Register} :
    (∀ r ∈ o.required, registers.get r = registers'.get r) →
    Aligned o ⟨⟨o, registers, none, some ⟨registers, m⟩, true⟩, .triggered, w⟩
      ⟨⟨o, registers', none, some ⟨registers', m⟩, true⟩, .triggered, w'⟩

/-- The memory of a simulated accelerator, also while the device has it. -/
def SoftwareDevice.contents (d : SoftwareDevice) : Option Memory :=
  d.memory.or (d.command.map Command.memory)

namespace Aligned

variable {o : Operation} {a b : Accelerator SoftwareDevice}

/-- Aligned accelerators are in the same phase. -/
lemma phase (aligned : Aligned o a b) : a.phase = b.phase := by
  cases aligned <;> rfl

/-- Aligned accelerators have the same memory, wherever it is. -/
lemma contents (aligned : Aligned o a b) : a.device.contents = b.device.contents := by
  cases aligned <;> rfl

/-- Aligned accelerators are refused the same calls. -/
lemma refusal?_eq (aligned : Aligned o a b) (ask : Ask) : ask.refusal? o a = ask.refusal? o b := by
  cases aligned with
  | program _ same =>
    have written := mem_iff_of_held same
    cases ask <;> simp only [Ask.refusal?, mask_and_bit, written]
  | command => cases ask <;> rfl

/-- A write aligns its register, whatever stood there. -/
lemma configure (aligned : Aligned o a b) (r : Register) (value : UInt32) :
    Alike (Aligned o) (a.configure (SoftwareDevice.link o) r value).value
      (b.configure (SoftwareDevice.link o) r value).value := by
  refine (configure_spec (SoftwareDevice.link o) a r value).alike aligned (aligned.refusal?_eq _)
    (configure_spec (SoftwareDevice.link o) b r value) fun passes => ?_
  cases aligned with
  | program _ same => exact ⟨rfl, .program nofun (by rw [held_cons, held_cons, same])⟩
  | command => exact (configure_passes passes).elim nofun nofun

/-- A start sends commands that agree on all that the device reads. -/
lemma trigger (aligned : Aligned o a b) :
    Alike (Aligned o) (a.trigger (SoftwareDevice.link o)).value
      (b.trigger (SoftwareDevice.link o)).value := by
  refine (trigger_spec (SoftwareDevice.link o) a).alike aligned (aligned.refusal?_eq _)
    (trigger_spec (SoftwareDevice.link o) b) fun passes => ?_
  obtain ⟨loading, all⟩ := trigger_passes passes
  cases aligned with
  | @program registers registers' view _ _ _ outside same =>
    cases view with
    | none => exact ⟨rfl, .program outside same⟩
    | some m =>
      refine ⟨rfl, .command fun r required => ?_⟩
      rw [get_latched required, get_latched required, get_eq_of_held same (all r required)]
  | command => cases loading

/-- Commands that agree on all that the device reads get the same answer and leave the same
memory. -/
lemma complete (aligned : Aligned o a b) :
    Alike (Aligned o) (a.complete (SoftwareDevice.link o)).value
      (b.complete (SoftwareDevice.link o)).value := by
  refine (complete_spec (SoftwareDevice.link o) a).alike aligned (aligned.refusal?_eq _)
    (complete_spec (SoftwareDevice.link o) b) fun passes => ?_
  cases aligned with
  | program outside => exact absurd (complete_passes passes) outside
  | @command registers registers' m _ _ same =>
    have alike := completion?_congr (m := m) same
    cases completed : Command.completion? o ⟨registers, m⟩ with
    | none =>
      rw [completed] at alike
      rw [SoftwareDevice.wait_lost completed, SoftwareDevice.wait_lost alike.symm]
      exact ⟨rfl, .program (v := none) nofun rfl⟩
    | some done =>
      rw [completed] at alike
      rw [SoftwareDevice.wait_value completed, SoftwareDevice.wait_value alike.symm]
      exact ⟨rfl, .program (v := some done.memory) nofun rfl⟩

/-- Work on the same memory gives the same. -/
lemma withMemory {α : Type} (aligned : Aligned o a b) (work : Memory → Except Fault α × Memory) :
    Alike (Aligned o) (a.withMemory (SoftwareDevice.link o) work)
      (b.withMemory (SoftwareDevice.link o) work) := by
  refine (withMemory_spec (SoftwareDevice.link o) a work).alike aligned (aligned.refusal?_eq _)
    (withMemory_spec (SoftwareDevice.link o) b work) fun passes => ?_
  cases aligned with
  | @program _ _ view _ _ _ outside same =>
    cases view with
    | none => exact ⟨rfl, .program outside same⟩
    | some m => exact ⟨rfl, .program (v := some (work m).2) outside same⟩
  | command => cases memory_passes passes

/-- No request tells two accelerators apart that agree where it matters. -/
lemma twins (o : Operation) :
    Twins (SoftwareDevice.link o) (SoftwareDevice.link o) (Aligned o) where
  configure r value aligned := aligned.configure r value
  trigger aligned := aligned.trigger
  complete aligned := aligned.complete
  phase aligned := aligned.phase
  expects _ := rfl
  memory work aligned := aligned.withMemory work

end Aligned

/-! ## What was transferred and what the registers hold -/

/-- What a transfer makes of the word last written to a register. -/
def Transfer.update (found : Register → Option UInt32) : Transfer → Register → Option UInt32
  | .write r value (.ok ()) => Function.update found r (some value)
  | .wait _ => fun _ => none
  | .write _ _ (.error _) | .go _ | .lend _ => found

/-- The word last written to each register since the last answer. -/
def lastWritten (traffic : List Transfer) : Register → Option UInt32 :=
  traffic.foldl Transfer.update fun _ => none

/-- The last transfer updates what was written before it. -/
lemma lastWritten_concat (traffic : List Transfer) (t : Transfer) :
    lastWritten (traffic ++ [t]) = t.update (lastWritten traffic) := by
  rw [lastWritten, List.foldl_append]
  rfl

/-- The transfers behind a simulated accelerator tell what its registers hold where the device may
come to read them. -/
inductive Told (o : Operation) : Accelerator (Watched SoftwareDevice) → Prop where
  | program {registers : Registers} {v : Option Memory} {traffic : List Transfer} {p : Phase}
    {w : List Register} :
    p ≠ .triggered → (p = .idle → w = []) → lastWritten traffic = held w registers →
    Told o ⟨⟨⟨o, registers, v, none, v.isSome⟩, traffic⟩, p, w⟩
  | command {registers : Registers} {m : Memory} {traffic : List Transfer} {w : List Register} :
    (∀ r ∈ o.required, lastWritten traffic r = some (registers.get r)) →
    Told o ⟨⟨⟨o, registers, none, some ⟨registers, m⟩, true⟩, traffic⟩, .triggered, w⟩

/-- Every call keeps the registers told by the transfers. -/
lemma kept_told (o : Operation) : Kept (SoftwareDevice.link o).watched (Told o) where
  configure := by
    intro a r value told
    refine (configure_spec (SoftwareDevice.link o).watched a r value).keeps told fun passes => ?_
    have early := configure_passes passes
    cases told with
    | program _ _ same =>
      refine .program nofun nofun ?_
      rw [lastWritten_concat, held_cons, ← same]
      rfl
    | command => exact early.elim nofun nofun
  trigger := by
    intro a told
    refine (trigger_spec (SoftwareDevice.link o).watched a).keeps told fun passes => ?_
    obtain ⟨loading, all⟩ := trigger_passes passes
    cases told with
    | @program registers view traffic _ _ outside fresh same =>
      cases view with
      | none =>
        -- Nothing starts without the memory.
        exact .program outside fresh ((lastWritten_concat ..).trans same)
      | some m =>
        -- The command holds only what the device reads, and all of that has been written.
        refine .command fun r required => ?_
        rw [lastWritten_concat, get_latched required]
        exact (congrFun same r).trans (if_pos (all r required))
    | command => cases loading
  complete := by
    intro a told
    refine (complete_spec (SoftwareDevice.link o).watched a).keeps told fun passes => ?_
    cases told with
    | program outside => exact absurd (complete_passes passes) outside
    | @command registers m traffic _ =>
      -- With an answer the program forgets what it has written, whatever the answer is.
      have forgotten (answer : Except Fault UInt32) :
          lastWritten (traffic ++ [.wait answer]) = held [] registers := lastWritten_concat ..
      rw [wait_watched]
      cases completed : Command.completion? o ⟨registers, m⟩ with
      | none =>
        rw [SoftwareDevice.wait_lost completed]
        exact .program (v := none) nofun (fun _ => rfl) (forgotten _)
      | some done =>
        rw [SoftwareDevice.wait_value completed]
        exact .program (v := some done.memory) nofun (fun _ => rfl) (forgotten _)
  memory := by
    intro a α work _ told
    refine (withMemory_spec (SoftwareDevice.link o).watched a work).keeps told fun passes => ?_
    cases told with
    | @program _ view traffic _ _ outside fresh same =>
      have shown : lastWritten (traffic ++ [.lend view]) = _ := (lastWritten_concat ..).trans same
      cases view with
      | none => exact .program outside fresh shown
      | some m => exact .program (v := some (work m).2) outside fresh shown
    | command => cases memory_passes passes

/-! ## Histories -/

/-- A simulated accelerator that was brought up with a memory, after what a program asked of it. -/
def reached (o : Operation) (m : Memory) (history : List Request) : Accelerator SoftwareDevice :=
  (performAll (SoftwareDevice.link o) { device := { operation := o, memory := some m } }
    history).value.2

/-- The transfers that a history makes. -/
def transfers (o : Operation) (m : Memory) (history : List Request) : List Transfer :=
  (performAll (SoftwareDevice.link o).watched
    { device := ⟨{ operation := o, memory := some m }, []⟩ } history).value.2.device.traffic

/-- No requests tell two accelerators apart: each gets the same answer and leads to the same phase,
and the memory is the same in the end, also where the device has it. -/
structure Indistinguishable (o : Operation) (a b : Accelerator SoftwareDevice) : Prop where
  answers : ∀ requests, (performAll (SoftwareDevice.link o) a requests).value.1 =
    (performAll (SoftwareDevice.link o) b requests).value.1
  contents : ∀ requests, (performAll (SoftwareDevice.link o) a requests).value.2.device.contents =
    (performAll (SoftwareDevice.link o) b requests).value.2.device.contents

section Histories

variable {o : Operation} {a b : Accelerator SoftwareDevice}

/-- Accelerators that agree where it matters are told apart by no requests. -/
lemma Aligned.indistinguishable (aligned : Aligned o a b) : Indistinguishable o a b where
  answers requests := ((Aligned.twins o).performAll aligned requests).1
  contents requests := ((Aligned.twins o).performAll aligned requests).2.contents

/-- Every history leaves an accelerator that its transfers tell about. -/
lemma exists_told (o : Operation) (m : Memory) (history : List Request) :
    ∃ a, Told o a ∧ a.device.traffic = transfers o m history ∧
      a.unwatched = reached o m history := by
  have fresh : Told o { device := ⟨{ operation := o, memory := some m }, []⟩ } :=
    .program (v := some m) nofun (fun _ => rfl) rfl
  have like : Like (@Watched.Of SoftwareDevice)
      { device := ⟨{ operation := o, memory := some m }, []⟩ }
      { device := { operation := o, memory := some m } } := ⟨rfl, rfl, rfl⟩
  obtain ⟨device, phase, written⟩ :=
    (((watched_alike (SoftwareDevice.link o)).twins rfl rfl).performAll like history).2
  refine ⟨_, (kept_told o).performAll fresh history, rfl, ?_⟩
  exact congr (congr (congrArg Accelerator.mk device) phase) written

/-- Accelerators whose transfers tell the same agree where it matters. -/
lemma Told.aligned {a b : Accelerator (Watched SoftwareDevice)} (first : Told o a)
    (second : Told o b) (phase : a.phase = b.phase)
    (contents : a.device.device.contents = b.device.device.contents)
    (same : lastWritten a.device.traffic = lastWritten b.device.traffic) :
    Aligned o a.unwatched b.unwatched := by
  cases first with
  | program outside _ tells =>
    cases second with
    | program _ _ tells' =>
      cases phase
      simp only [SoftwareDevice.contents, Option.map_none, Option.or_none] at contents
      cases contents
      exact .program outside (by rw [← tells, same, tells'])
    | command => exact absurd phase outside
  | command tells =>
    cases second with
    | program outside => exact absurd phase.symm outside
    | command tells' =>
      cases contents
      refine .command fun r required => Option.some_inj.mp ?_
      rw [← tells r required, same, tells' r required]

/-- Between transactions the transfers tell of no register. -/
lemma Told.forgotten {a : Accelerator (Watched SoftwareDevice)} (told : Told o a)
    (idle : a.phase = .idle) : lastWritten a.device.traffic = fun _ => none := by
  cases told with
  | program _ fresh tells => rw [tells, fresh idle, held_nil]
  | command => cases idle

/-- Between transactions the program has the memory. -/
lemma Told.contents_of_idle {a : Accelerator (Watched SoftwareDevice)} (told : Told o a)
    (idle : a.phase = .idle) : a.device.device.contents = a.device.device.memory := by
  cases told with
  | program => exact Option.or_none
  | command => cases idle

end Histories

/-- An accelerator shows nothing of its history but its memory and the words that were written to
its registers since the last answer: two that have nothing in progress and hold the same memory
cannot be told apart, and two that are in the middle of a transaction cannot if in addition those
words are the same. -/
theorem indistinguishable_of_history (o : Operation) (m₁ m₂ : Memory)
    (history₁ history₂ : List Request) (a b : Accelerator SoftwareDevice)
    (reached₁ : reached o m₁ history₁ = a) (reached₂ : reached o m₂ history₂ = b) :
    (a.phase = .idle → b.phase = .idle → a.device.memory = b.device.memory →
      Indistinguishable o a b) ∧
      (a.phase = b.phase → a.device.contents = b.device.contents →
        lastWritten (transfers o m₁ history₁) = lastWritten (transfers o m₂ history₂) →
        Indistinguishable o a b) := by
  obtain ⟨a', told₁, traffic₁, eq₁⟩ := exists_told o m₁ history₁
  obtain ⟨b', told₂, traffic₂, eq₂⟩ := exists_told o m₂ history₂
  rw [← traffic₁, ← traffic₂]
  obtain rfl : a'.unwatched = a := eq₁.trans reached₁
  obtain rfl : b'.unwatched = b := eq₂.trans reached₂
  constructor
  · intro idle₁ idle₂ memory
    refine (told₁.aligned told₂ (idle₁.trans idle₂.symm) ?_ ?_).indistinguishable
    · rw [told₁.contents_of_idle idle₁, told₂.contents_of_idle idle₂]
      exact memory
    · rw [told₁.forgotten idle₁, told₂.forgotten idle₂]
  · intro phase contents same
    exact (told₁.aligned told₂ phase contents same).indistinguishable

/-- A transaction that the device refused leaves other words in the registers than a fresh
accelerator has, but no request shows them, neither from the start nor once one register has been
written anew. -/
theorem indistinguishable_of_history_refused :
    (reached .add (.zero 16)
      [.transaction [(.size, 1), (.src0, 2), (.src1, 0), (.dest, 0)]]).device.registers ≠
      (reached .add (.zero 16) []).device.registers ∧
    (performAll (SoftwareDevice.link .add)
        (reached .add (.zero 16) [.transaction [(.size, 1), (.src0, 2), (.src1, 0), (.dest, 0)]])
        [.trigger, .access (.load 0 [1, 2]),
          .transaction [(.src0, 0), (.src1, 4), (.dest, 8), (.size, 2)],
          .access (.readMany 0 4)]).value.1 =
      [(.done (.error (.protocolViolation "trigger" .idle)), .idle), (.words (.ok []), .idle),
        (.word (.ok 0), .idle), (.words (.ok [1, 2, 3, 5]), .idle)] ∧
    Indistinguishable .add
      (reached .add (.zero 16) [.transaction [(.size, 1), (.src0, 2), (.src1, 0), (.dest, 0)],
        .configure .src0 0, .configure .src0 4])
      (reached .add (.zero 16) [.configure .src0 4]) := by
  refine ⟨by decide, ?_, ?_⟩
  · have idle := (indistinguishable_of_history .add (.zero 16) (.zero 16)
      [.transaction [(.size, 1), (.src0, 2), (.src1, 0), (.dest, 0)]] [] _ _ rfl rfl).1 rfl rfl rfl
    rw [idle.answers]
    rfl
  · refine (indistinguishable_of_history .add (.zero 16) (.zero 16) _ _ _ _ rfl rfl).2 rfl rfl ?_
    funext r
    cases r <;> rfl

end TileBench.Accelerator
