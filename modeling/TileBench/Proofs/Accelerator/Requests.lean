import TileBench.Accelerator.Request
import TileBench.Proofs.Accelerator.Calls
import TileBench.Proofs.Accelerator.Device

/-!
# What every request keeps

Every request is made of calls of the protocol, one after another until one fails. What each call
keeps, any sequence of requests therefore keeps: `Kept` says it of the calls, and `Kept.performAll`
of the requests. With a simulated accelerator in an addressable memory, `Owned` is kept: the memory
is with the program or in the triggered command, it has the words that it began with, and the device
still runs.
-/

namespace TileBench.Accelerator

variable {σ α β : Type} {link : Link σ} {P : Accelerator σ → Prop} {a : Accelerator σ}

/-- The calls of an addition once the words of its operands are known. -/
def offload (link : Link σ) (a : Accelerator σ) (xs ys : List UInt32) (count : Nat) :
    UInt32 × UInt32 × UInt32 × UInt32 → Logged (Reply σ (List UInt32))
  | (src0, src1, dest, size) =>
    andThen (pure (a.withMemory link (stage src0 src1 dest xs ys))) fun _ a =>
      andThen (a.transaction link [(.src0, src0), (.src1, src1), (.dest, dest), (.size, size)])
        fun _ a => pure (a.withMemory link fun m => (m.readMany dest count, m))

/-- The outcome of an addition and the contents of its result, which only the sums replace. -/
def summed (result : List Int32) : Reply σ (List UInt32) →
    (Except Fault Unit × List Int32) × Accelerator σ
  | (.ok sums, a) => ((.ok (), sums.map UInt32.toInt32), a)
  | (.error e, a) => ((.error e, result), a)

/-- The outcome of an addition comes with the accelerator of its last call. -/
lemma summed_snd (result : List Int32) (reply : Reply σ (List UInt32)) :
    (summed result reply).2 = reply.2 := by
  rcases reply with ⟨_ | sums, b⟩ <;> rfl

section Run

variable {result xs ys : List Int32}

/-- The addition of vectors of one length does not panic. -/
lemma value_vectorAdd (lengthX : xs.length = result.length) (lengthY : ys.length = result.length) :
    (vectorAdd link a result xs ys).run.value = .ok (vectorAdd.run link a result xs ys).value := by
  rw [vectorAdd, if_pos ⟨lengthX, lengthY⟩]
  rfl

/-- The request for an addition leaves what the addition leaves, also where it panics. -/
lemma perform_vectorAdd (lengthX : xs.length = result.length)
    (lengthY : ys.length = result.length) :
    (perform link a (.vectorAdd result xs ys)).value.2 =
      (vectorAdd.run link a result xs ys).value.2 := by
  change (Answer.ofSums a result (vectorAdd link a result xs ys)).value.2 = _
  rw [Answer.ofSums, Logged.value_bind, value_vectorAdd lengthX lengthY]
  rfl

/-- Without words for its operands an addition makes no call. -/
lemma vectorAdd.run_of_error {e : Fault}
    (refused : ((expects link .add).bind fun _ => operandWords result.length) = .error e) :
    (vectorAdd.run link a result xs ys).value = summed result (.error e, a) := by
  rw [vectorAdd.run, refused]
  rfl

/-- With words for its operands an addition is its calls, one after another. -/
lemma vectorAdd.run_of_ok {operands : UInt32 × UInt32 × UInt32 × UInt32}
    (found : ((expects link .add).bind fun _ => operandWords result.length) = .ok operands) :
    (vectorAdd.run link a result xs ys).value = summed result
      (offload link a (xs.map Int32.toUInt32)
        (ys.map Int32.toUInt32) result.length operands).value := by
  obtain ⟨src0, src1, dest, size⟩ := operands
  rw [vectorAdd.run, found]
  simp only [offload]
  rcases a.withMemory link
    (stage src0 src1 dest (xs.map Int32.toUInt32) (ys.map Int32.toUInt32)) with ⟨e | -, b⟩
  · rfl
  · rw [andThen_ok (v := ()) (b := b) rfl]
    simp only [Logged.value_bind]
    rcases answered : (b.transaction link _).value with ⟨e | word, c⟩
    · rw [andThen_error answered]
      rfl
    · rw [andThen_ok answered]
      simp only [Logged.value_pure]
      rcases c.withMemory link fun m => (m.readMany dest result.length, m)
        with ⟨e | sums, d⟩ <;> rfl

end Run

/-- What holds of an accelerator after each call if it held before. No work on the memory may change
the number of its words. -/
structure Kept (link : Link σ) (P : Accelerator σ → Prop) : Prop where
  configure : ∀ {a} (r : Register) (value : UInt32), P a → P (a.configure link r value).value.2
  trigger : ∀ {a}, P a → P (a.trigger link).value.2
  complete : ∀ {a}, P a → P (a.complete link).value.2
  memory : ∀ {a} {α : Type} (work : Memory → Except Fault α × Memory),
    (∀ m, (work m).2.wordCount = m.wordCount) → P a → P (a.withMemory link work).2

/-- What two steps keep, their chain keeps, also if the first one fails. -/
lemma andThen_keeps {step : Logged (Reply σ α)} {next : α → Accelerator σ → Logged (Reply σ β)}
    (first : P step.value.2) (rest : ∀ v b, P b → P (next v b).value.2) :
    P (andThen step next).value.2 := by
  rcases made : step.value with ⟨_ | v, b⟩
  · rw [made] at first
    rwa [andThen_error made]
  · rw [made] at first
    rw [andThen_ok made]
    exact rest v b first

/-- Staging the operands leaves the number of words. -/
lemma wordCount_stage (src0 src1 dest : UInt32) (xs ys : List UInt32) (m : Memory) :
    (stage src0 src1 dest xs ys m).2.wordCount = m.wordCount := by
  unfold stage
  cases first : m.load src0 xs with
  | error e => rfl
  | ok m₁ =>
    cases second : m₁.load src1 ys with
    | error e => simpa only [second] using Memory.wordCount_load first
    | ok m₂ =>
      simp only [second]
      rw [Memory.wordCount_load second, Memory.wordCount_load first]

namespace Kept

variable (kept : Kept link P)

include kept

/-- A transaction keeps what its calls keep. -/
lemma transaction (holds : P a) (operands : List (Register × UInt32)) :
    P (a.transaction link operands).value.2 := by
  induction operands generalizing a with
  | nil => exact andThen_keeps (kept.trigger holds) fun _ _ => kept.complete
  | cons operand rest ih =>
    exact andThen_keeps (kept.configure operand.1 operand.2 holds) fun _ _ => ih

/-- The calls of an addition keep what each call keeps; none of them changes the number of words. -/
lemma offload (holds : P a) (xs ys : List UInt32) (count : Nat)
    (operands : UInt32 × UInt32 × UInt32 × UInt32) :
    P (offload link a xs ys count operands).value.2 := by
  obtain ⟨src0, src1, dest, size⟩ := operands
  refine andThen_keeps (kept.memory _ (wordCount_stage src0 src1 dest xs ys) holds)
    fun _ b holds => ?_
  refine andThen_keeps (kept.transaction holds _) fun _ c holds => ?_
  exact kept.memory _ (fun _ => rfl) holds

/-- An addition keeps what each call keeps, also where it makes none. -/
lemma vectorAdd_run (holds : P a) (result xs ys : List Int32) :
    P (vectorAdd.run link a result xs ys).value.2 := by
  cases found : (expects link .add).bind fun _ => operandWords result.length with
  | error e =>
    rw [vectorAdd.run_of_error found]
    exact holds
  | ok operands =>
    rw [vectorAdd.run_of_ok found, summed_snd]
    exact kept.offload holds _ _ _ operands

/-- One request keeps what each call keeps. -/
lemma perform (holds : P a) (request : Request) : P (perform link a request).value.2 := by
  cases request with
  | configure r value => exact kept.configure r value holds
  | trigger => exact kept.trigger holds
  | complete => exact kept.complete holds
  | transaction operands => exact kept.transaction holds operands
  | access what => exact kept.memory _ what.wordCount_perform holds
  | echo value =>
    change P (echo link a value).value.2
    unfold echo
    cases expects link .null with
    | error e => exact holds
    | ok => exact kept.transaction holds _
  | vectorAdd result xs ys =>
    change P (Answer.ofSums a result (vectorAdd link a result xs ys)).value.2
    unfold vectorAdd
    split
    case isTrue lengths => exact kept.vectorAdd_run holds result xs ys
    case isFalse mismatch => exact holds

/-- Any sequence of requests keeps what each call keeps. -/
lemma performAll (holds : P a) (requests : List Request) :
    P (performAll link a requests).value.2 := by
  induction requests generalizing a with
  | nil => exact holds
  | cons request rest ih => exact ih (kept.perform holds request)

end Kept

/-- Where the memory of a simulated accelerator is, which has `words` words: with the program, or in
the command that was triggered. -/
inductive Owned (o : Operation) (words : Nat) : Accelerator SoftwareDevice → Prop where
  | program {registers : Registers} {m : Memory} {p : Phase} {w : List Register} :
    p ≠ .triggered → m.wordCount = words → Owned o words ⟨⟨o, registers, some m, none, true⟩, p, w⟩
  | command {registers : Registers} {c : Command} {w : List Register} :
    c.memory.wordCount = words → Owned o words ⟨⟨o, registers, none, some c, true⟩, .triggered, w⟩

/-- A refused call keeps everything, and one that passes keeps what its reply has. -/
lemma Specifies.keeps {o : Operation} {ask : Ask} {step : Logged (Reply σ α)} {reply : Reply σ α}
    (spec : Specifies o a ask step reply) (holds : P a)
    (passes : ask.refusal? o a = none → P reply.2) : P step.value.2 := by
  unfold Specifies at spec
  cases refusal : ask.refusal? o a with
  | some e =>
    rw [refusal] at spec
    rw [spec]
    exact holds
  | none =>
    rw [refusal] at spec
    rw [spec]
    exact passes refusal

/-- In an addressable memory the device finishes every command, so that the memory always comes
back. -/
lemma kept_owned {o : Operation} {words : Nat} (small : words < Device.addressableWords) :
    Kept (SoftwareDevice.link o) (Owned o words) where
  configure := by
    intro a r value owned
    refine (configure_spec (SoftwareDevice.link o) a r value).keeps owned fun passes => ?_
    have early := configure_passes passes
    cases owned with
    | program _ size => exact .program nofun size
    | command => exact early.elim nofun nofun
  trigger := by
    intro a owned
    refine (trigger_spec (SoftwareDevice.link o) a).keeps owned fun passes => ?_
    cases owned with
    | program _ size => exact .command size
    | command => cases (trigger_passes passes).1
  complete := by
    intro a owned
    refine (complete_spec (SoftwareDevice.link o) a).keeps owned fun passes => ?_
    cases owned with
    | program outside => exact absurd (complete_passes passes) outside
    | @command registers c w size =>
      obtain ⟨done, completed, returned, -⟩ := c.exists_completion o (size ▸ small)
      rw [SoftwareDevice.wait_value completed]
      exact .program nofun (returned.trans size)
  memory := by
    intro a α work keeps owned
    refine (withMemory_spec (SoftwareDevice.link o) a work).keeps owned fun passes => ?_
    cases owned with
    | program outside size => exact .program outside ((keeps _).trans size)
    | command => cases memory_passes passes

end TileBench.Accelerator
