import Mathlib.Tactic.Lemma
import TileBench.Accelerator.Software
import TileBench.Proofs.Accelerator.Simulation

/-!
# Traffic between a program and its device

`Link.watched` is a link that keeps every call made through it with its answer, the `Transfer`s, and
changes nothing else. `Program` says which accelerators a program can bring about by calls in any
order. `Orderly` relates the phase and the written registers to the transfers behind them;
`orderly_of_program` proves it of every program on every link, whatever the device answers, with the
exact conditions under which a call is refused.
-/

namespace TileBench.Accelerator

variable {σ α : Type}

/-- The accelerator without the record. -/
def unwatched (a : Accelerator (Watched σ)) : Accelerator σ :=
  ⟨a.device.device, a.phase, a.written⟩

/-- `Program link a b` holds when a program can bring `a` to `b` by calls through `link`. -/
inductive Program (link : Link σ) : Accelerator σ → Accelerator σ → Prop where
  | refl (a : Accelerator σ) : Program link a a
  | configure {a b : Accelerator σ} (r : Register) (value : UInt32) :
    Program link a b → Program link a (b.configure link r value).value.2
  | trigger {a b : Accelerator σ} : Program link a b → Program link a (b.trigger link).value.2
  | complete {a b : Accelerator σ} : Program link a b → Program link a (b.complete link).value.2
  | transaction {a b : Accelerator σ} (operands : List (Register × UInt32)) :
    Program link a b → Program link a (b.transaction link operands).value.2
  | memory {a b : Accelerator σ} {α : Type} (work : Memory → Except Fault α × Memory) :
    Program link a b → Program link a (b.withMemory link work).2

/-- `Legal o p w t p' w'` holds when the transfer `t` is in order in phase `p` with the registers
`w` written, and leads to phase `p'` with the registers `w'` written. -/
inductive Legal (o : Operation) :
    Phase → List Register → Transfer → Phase → List Register → Prop where
  | lend {w : List Register} {view : Option Memory} : Legal o .idle w (.lend view) .idle w
  | writeFailed {p : Phase} {w : List Register} {r : Register} {value : UInt32} {e : Fault} :
    p = .idle ∨ p = .loading → Legal o p w (.write r value (.error e)) p w
  | write {p : Phase} {w : List Register} {r : Register} {value : UInt32} :
    p = .idle ∨ p = .loading → Legal o p w (.write r value (.ok ())) .loading (r :: w)
  | goFailed {w : List Register} {e : Fault} :
    (∀ r ∈ o.required, r ∈ w) → Legal o .loading w (.go (.error e)) .loading w
  | go {w : List Register} :
    (∀ r ∈ o.required, r ∈ w) → Legal o .loading w (.go (.ok ())) .triggered w
  | wait {w : List Register} {answer : Except Fault UInt32} :
    Legal o .triggered w (.wait answer) .idle []

/-- The phase after a transfer that is in order in phase `p`. -/
def Transfer.phaseAfter (p : Phase) : Transfer → Phase
  | .write _ _ (.ok ()) => .loading
  | .go (.ok ()) => .triggered
  | .wait _ => .idle
  | .write _ _ (.error _) | .go (.error _) | .lend _ => p

/-- Transfers one after another, each in order. -/
inductive Traffic (o : Operation) :
    Phase → List Register → List Transfer → Phase → List Register → Prop where
  | nil {p : Phase} {w : List Register} : Traffic o p w [] p w
  | cons {p p₁ p₂ : Phase} {w w₁ w₂ : List Register} {t : Transfer} {ts : List Transfer} :
    Legal o p w t p₁ w₁ → Traffic o p₁ w₁ ts p₂ w₂ → Traffic o p w (t :: ts) p₂ w₂

/-- Register `r` has been written, and no answer was read since. -/
def Configured (traffic : List Transfer) (r : Register) : Prop :=
  ∃ before value after, traffic = before ++ .write r value (.ok ()) :: after ∧
    ∀ answer, .wait answer ∉ after

/-! ## Transfers in order -/

/-- A transfer in front matters only if it writes the register and no answer is read later. -/
lemma Configured.cons {traffic : List Transfer} {t : Transfer} {r : Register} :
    Configured (t :: traffic) r ↔ Configured traffic r ∨
      (∃ value, t = .write r value (.ok ())) ∧ ∀ answer, .wait answer ∉ traffic := by
  constructor
  · rintro ⟨before, value, after, eq, settled⟩
    cases before with
    | nil =>
      obtain ⟨rfl, rfl⟩ := List.cons_eq_cons.mp eq
      exact .inr ⟨⟨value, rfl⟩, settled⟩
    | cons first before =>
      obtain ⟨rfl, rfl⟩ := List.cons_eq_cons.mp eq
      exact .inl ⟨before, value, after, rfl, settled⟩
  · rintro (⟨before, value, after, rfl, settled⟩ | ⟨⟨value, rfl⟩, settled⟩)
    · exact ⟨t :: before, value, after, rfl, settled⟩
    · exact ⟨[], value, traffic, rfl, settled⟩

variable {o : Operation} {p p₁ p₂ : Phase} {w w₁ w₂ : List Register} {t : Transfer}
  {ts us : List Transfer}

/-- Transfers in order can be continued from where they lead. -/
lemma Traffic.append (traffic : Traffic o p w ts p₁ w₁) (more : Traffic o p₁ w₁ us p₂ w₂) :
    Traffic o p w (ts ++ us) p₂ w₂ := by
  induction traffic with
  | nil => exact more
  | cons legal _ ih => exact .cons legal (ih more)

/-- Transfers in order can be cut anywhere, with a phase and written registers between the parts. -/
lemma Traffic.split (traffic : Traffic o p w (ts ++ us) p₂ w₂) :
    ∃ p₁ w₁, Traffic o p w ts p₁ w₁ ∧ Traffic o p₁ w₁ us p₂ w₂ := by
  induction ts generalizing p w with
  | nil => exact ⟨p, w, .nil, traffic⟩
  | cons t ts ih =>
    cases traffic with
    | cons legal traffic =>
      obtain ⟨p₁, w₁, front, back⟩ := ih traffic
      exact ⟨p₁, w₁, .cons legal front, back⟩

/-- The phase and the written registers agree on whether a transaction has begun. -/
def Agree (p : Phase) (w : List Register) : Prop :=
  p ≠ .done ∧ (p = .idle ↔ w = [])

/-- One transfer in order keeps the phase and the written registers in agreement. -/
lemma Legal.agree (legal : Legal o p w t p₁ w₁) (agree : Agree p w) : Agree p₁ w₁ := by
  cases legal with
  | lend => exact agree
  | writeFailed => exact agree
  | write => exact ⟨nofun, nofun, nofun⟩
  | goFailed => exact agree
  | go => exact ⟨nofun, nofun, fun none => nomatch agree.2.mpr none⟩
  | wait => exact ⟨nofun, fun _ => rfl, fun _ => rfl⟩

/-- Transfers in order keep the phase and the written registers in agreement. -/
lemma Traffic.agree (traffic : Traffic o p w ts p₁ w₁) (agree : Agree p w) : Agree p₁ w₁ := by
  induction traffic with
  | nil => exact agree
  | cons legal _ ih => exact ih (legal.agree agree)

/-- A transfer in order determines the phase that it leads to. -/
lemma Legal.phase_eq (legal : Legal o p w t p₁ w₁) : p₁ = t.phaseAfter p := by
  cases legal <;> rfl

/-- A successful write adds its register, and an answer forgets them all. -/
lemma Legal.mem_written (legal : Legal o p w t p₁ w₁) (r : Register) :
    r ∈ w₁ ↔ (∃ value, t = .write r value (.ok ())) ∨ r ∈ w ∧ ∀ answer, t ≠ .wait answer := by
  cases legal <;> simp [eq_comm]

/-- The written registers are those of successful writes since the last answer. -/
lemma Traffic.mem_written (traffic : Traffic o p w ts p₁ w₁) (r : Register) :
    r ∈ w₁ ↔ Configured ts r ∨ r ∈ w ∧ ∀ answer, .wait answer ∉ ts := by
  induction traffic with
  | nil => simp [Configured]
  | @cons _ _ _ _ _ _ t ts legal _ ih =>
    -- A register stays written unless one of the transfers, the first or a later one, is an answer.
    have unanswered : (∀ answer, .wait answer ∉ t :: ts) ↔
        (∀ answer, t ≠ .wait answer) ∧ ∀ answer, .wait answer ∉ ts := by
      simp only [List.mem_cons, not_or, forall_and, ne_eq, eq_comm]
    rw [ih, Configured.cons, legal.mem_written, unanswered, or_and_right, and_assoc, or_assoc]

/-- Only a start that succeeds leaves the device triggered. -/
lemma Traffic.last_eq_go (traffic : Traffic o p w ts .triggered w₁) (fresh : p ≠ .triggered) :
    ∃ earlier, ts = earlier ++ [.go (.ok ())] := by
  rcases ts.eq_nil_or_concat with rfl | ⟨earlier, t, rfl⟩
  · cases traffic
    contradiction
  · rw [List.concat_eq_append] at traffic ⊢
    obtain ⟨p₁, w₁, -, back⟩ := traffic.split
    rcases back with _ | ⟨legal, ⟨⟩⟩
    -- A failed write stays in its phase, which is not `triggered`.
    cases legal with
    | go => exact ⟨earlier, rfl⟩
    | writeFailed early => exact absurd early (by decide)

/-- After a start that succeeded the answer comes next. -/
lemma Traffic.after_go (traffic : Traffic o p w (.go (.ok ()) :: ts) p₂ w₂) :
    ts = [] ∧ p₂ = .triggered ∨ ∃ answer rest, ts = .wait answer :: rest := by
  rcases traffic with _ | ⟨⟨⟩, rest⟩
  rcases rest with _ | ⟨next, -⟩
  · exact .inl ⟨rfl, rfl⟩
  · cases next with
    | wait => exact .inr ⟨_, _, rfl⟩
    | writeFailed early => exact absurd early (by decide)
    | write early => exact absurd early (by decide)

/-! ## One call -/

/-- A call made one transfer, which was in order. -/
def Passes (o : Operation) (a : Accelerator (Watched σ)) (t : Transfer)
    (b : Accelerator (Watched σ)) : Prop :=
  b.device.traffic = a.device.traffic ++ [t] ∧ Legal o a.phase a.written t b.phase b.written

/-- A call is refused, and then leaves the accelerator as it is and reports nothing, or makes one
transfer. The device answers it with an `x` of its choice, of which `t` is the transfer and `answer`
what the program sees. -/
def Guards {ρ : Type} (o : Operation) (a : Accelerator (Watched σ)) (ask : Ask) (t : ρ → Transfer)
    (answer : ρ → Except Fault α) (step : Logged (Reply (Watched σ) α)) : Prop :=
  match ask.refusal? o a with
  | some e => step = a.refuse e
  | none => ∃ x b, step.value = (answer x, b) ∧ Passes o a (t x) b

/-- A call that the protocol lets through makes one transfer. -/
lemma Guards.passes {ρ : Type} {a : Accelerator (Watched σ)} {ask : Ask} {t : ρ → Transfer}
    {answer : ρ → Except Fault α} {step : Logged (Reply (Watched σ) α)}
    (guards : Guards o a ask t answer step) (passes : ask.refusal? o a = none) :
    ∃ x b, step.value = (answer x, b) ∧ Passes o a (t x) b := by
  unfold Guards at guards
  rwa [passes] at guards

/-- What a program sees of the memory that it was shown. -/
def seen (kind : LinkKind) (work : Memory → Except Fault α × Memory) :
    Option Memory → Except Fault α
  | none => .error (.noHostMemory kind.name)
  | some m => (work m).1

/-- Each call makes transfers of its own kind only. -/
structure Guarded (link : Link σ) (a : Accelerator (Watched σ)) : Prop where
  configure : ∀ r value, Guards link.operation a (.configure r) (.write r value) id
    (a.configure link.watched r value)
  trigger : Guards link.operation a .trigger .go id (a.trigger link.watched)
  complete : Guards link.operation a .complete .wait id (a.complete link.watched)
  memory : ∀ {α : Type} (work : Memory → Except Fault α × Memory),
    Guards link.operation a .memory .lend (seen link.kind work)
      (pure (a.withMemory link.watched work))

section Calls

variable {link : Link σ} {a : Accelerator (Watched σ)}

/-- A write is recorded with the answer of the device. -/
lemma write_watched (s : Watched σ) (r : Register) (value : UInt32) :
    (link.watched.write s r value).value = ((link.write s.device r value).value.1,
      s.after (.write r value (link.write s.device r value).value.1)
        (link.write s.device r value).value.2) := rfl

/-- A start is recorded with the answer of the device. -/
lemma go_watched (s : Watched σ) :
    (link.watched.go s).value = ((link.go s.device).value.1,
      s.after (.go (link.go s.device).value.1) (link.go s.device).value.2) := rfl

/-- An answer is recorded as it comes. -/
lemma wait_watched (s : Watched σ) :
    (link.watched.wait s).value = ((link.wait s.device).value.1,
      s.after (.wait (link.wait s.device).value.1) (link.wait s.device).value.2) := rfl

/-- A request for the memory is recorded with what was shown. -/
lemma lend_watched (s : Watched σ) :
    link.watched.lend s = ((link.lend s.device).1,
      s.after (.lend (link.lend s.device).1) (link.lend s.device).2) := rfl

/-- What a program sees depends on the memory shown and not on the device behind it. -/
lemma seen_eq (link : Link σ) (work : Memory → Except Fault α × Memory)
    (shown : Option Memory × σ) : seen link.kind work shown.1 = (worked link work shown).1 := by
  rcases shown with ⟨_ | m, device⟩
  · rfl
  · rfl

/-- Work on the memory of a watched link is recorded as one request and does what it does without
the record. -/
lemma worked_watched (link : Link σ) (work : Memory → Except Fault α × Memory) (s : Watched σ) :
    worked link.watched work (link.watched.lend s) =
      (seen link.kind work (link.lend s.device).1,
        s.after (.lend (link.lend s.device).1) (worked link work (link.lend s.device)).2) := by
  rw [lend_watched]
  rcases link.lend s.device with ⟨_ | m, device⟩
  · rfl
  · rfl

/-- A specification of a call whose reply is recorded as one transfer in order guards the call. -/
lemma Specifies.guards {ρ : Type} {ask : Ask} {t : ρ → Transfer} {answer : ρ → Except Fault α}
    {step : Logged (Reply (Watched σ) α)} {b : Accelerator (Watched σ)} (x : ρ)
    (spec : Specifies o a ask step (answer x, b))
    (passes : ask.refusal? o a = none → Passes o a (t x) b) : Guards o a ask t answer step := by
  unfold Specifies at spec
  unfold Guards
  cases refusal : ask.refusal? o a with
  | some e => rwa [refusal] at spec
  | none =>
    rw [refusal] at spec
    exact ⟨x, b, spec, passes refusal⟩

/-- A write is refused or makes one transfer, a write of the same value. -/
lemma guarded_configure (r : Register) (value : UInt32) :
    Guards link.operation a (.configure r) (.write r value) id
      (a.configure link.watched r value) := by
  refine Specifies.guards _ (configure_spec link.watched a r value) fun passes => ?_
  have early := configure_passes passes
  rw [write_watched]
  rcases (link.write a.device.device r value).value with ⟨_ | _, device⟩
  · exact ⟨rfl, .writeFailed early⟩
  · exact ⟨rfl, .write early⟩

/-- A start is refused or makes one transfer, a start. -/
lemma guarded_trigger :
    Guards link.operation a .trigger .go id (a.trigger link.watched) := by
  refine Specifies.guards _ (trigger_spec link.watched a) fun passes => ?_
  obtain ⟨loading, all⟩ := trigger_passes passes
  rw [go_watched]
  rcases (link.go a.device.device).value with ⟨_ | _, device⟩
  · exact ⟨rfl, loading ▸ .goFailed all⟩
  · exact ⟨rfl, loading ▸ .go all⟩

/-- A request for the answer is refused or makes one transfer, an answer. -/
lemma guarded_complete :
    Guards link.operation a .complete .wait id (a.complete link.watched) := by
  refine Specifies.guards _ (complete_spec link.watched a) fun passes => ?_
  exact ⟨rfl, complete_passes passes ▸ .wait⟩

/-- Work on the memory is refused or makes one transfer, which shows the memory. -/
lemma guarded_memory (work : Memory → Except Fault α × Memory) :
    Guards link.operation a .memory .lend (seen link.kind work)
      (pure (a.withMemory link.watched work)) := by
  have spec := withMemory_spec link.watched a work
  rw [worked_watched] at spec
  refine Specifies.guards _ spec fun passes => ?_
  exact ⟨rfl, by simpa only [memory_passes passes] using Legal.lend⟩

/-- All calls through a watched link are guarded, in every state. -/
lemma guarded : Guarded link a where
  configure := guarded_configure
  trigger := guarded_trigger
  complete := guarded_complete
  memory := guarded_memory

end Calls

/-! ## Programs -/

/-- `b` comes after `a` by transfers in order. -/
def Extends (o : Operation) (a b : Accelerator (Watched σ)) : Prop :=
  ∃ ts, b.device.traffic = a.device.traffic ++ ts ∧
    Traffic o a.phase a.written ts b.phase b.written

section Programs

variable {link : Link σ} {a b c : Accelerator (Watched σ)}

/-- Without transfers nothing changes. -/
lemma Extends.refl (o : Operation) (a : Accelerator (Watched σ)) : Extends o a a :=
  ⟨[], by simp, .nil⟩

/-- Transfers in order after transfers in order are transfers in order. -/
lemma Extends.trans (first : Extends o a b) (second : Extends o b c) : Extends o a c := by
  obtain ⟨ts, eq, traffic⟩ := first
  obtain ⟨us, eq', more⟩ := second
  exact ⟨ts ++ us, by rw [eq', eq, List.append_assoc], traffic.append more⟩

/-- One transfer in order extends the record. -/
lemma Passes.extends (passes : Passes o a t b) : Extends o a b :=
  ⟨[t], passes.1, .cons passes.2 .nil⟩

/-- A guarded call extends the record, by nothing if it is refused. -/
lemma Guards.extends {ρ : Type} {ask : Ask} {t : ρ → Transfer} {answer : ρ → Except Fault α}
    {step : Logged (Reply (Watched σ) α)} (guards : Guards o a ask t answer step) :
    Extends o a step.value.2 := by
  unfold Guards at guards
  split at guards
  · rw [guards]
    exact .refl ..
  · obtain ⟨x, b, eq, passes⟩ := guards
    rw [eq]
    exact passes.extends

/-- A step that fails ends a chain of steps, so that the chain extends as far as its steps do. -/
lemma extends_andThen {β : Type} {step : Logged (Reply (Watched σ) α)}
    {next : α → Accelerator (Watched σ) → Logged (Reply (Watched σ) β)}
    (first : Extends o a step.value.2)
    (second : ∀ x, Extends o step.value.2 (next x step.value.2).value.2) :
    Extends o a (andThen step next).value.2 := by
  unfold andThen
  rw [Logged.value_bind]
  rcases eq : step.value with ⟨e | x, b⟩
  · rw [eq] at first; exact first
  · rw [eq] at first second; exact first.trans (second x)

/-- A transaction extends the record, as far as it gets. -/
lemma extends_transaction (operands : List (Register × UInt32)) :
    Extends link.operation a (a.transaction link.watched operands).value.2 := by
  induction operands generalizing a with
  | nil => exact extends_andThen guarded_trigger.extends fun _ => guarded_complete.extends
  | cons operand rest ih =>
    exact extends_andThen (guarded_configure operand.1 operand.2).extends fun _ => ih

/-- Whatever a program does extends the record. -/
lemma Program.extends (program : Program link.watched a b) : Extends link.operation a b := by
  induction program with
  | refl => exact .refl ..
  | configure r value _ ih => exact ih.trans (guarded_configure r value).extends
  | trigger _ ih => exact ih.trans guarded_trigger.extends
  | complete _ ih => exact ih.trans guarded_complete.extends
  | transaction operands _ ih => exact ih.trans (extends_transaction operands)
  | memory work _ ih => exact ih.trans (guarded_memory work).extends

end Programs

/-! ## What the transfers tell -/

/-- What the phase and the mask of an accelerator say about the transfers behind it. -/
structure Orderly (o : Operation) (a : Accelerator (Watched σ)) : Prop where
  /-- The phase `done` is never seen between calls. -/
  between : a.phase = .idle ∨ a.phase = .loading ∨ a.phase = .triggered
  idle : a.phase = .idle ↔ a.mask = 0
  /-- The mask holds the registers that have been written since the last answer. -/
  mask : ∀ r, a.mask &&& r.bit ≠ 0 ↔ Configured a.device.traffic r
  /-- The device is started only once every register that it needs has been written. -/
  ready : ∀ before answer after, a.device.traffic = before ++ .go answer :: after →
    ∀ r ∈ o.required, Configured before r
  /-- The transfer after a start that succeeded reads the answer. -/
  started : ∀ before after, a.device.traffic = before ++ .go (.ok ()) :: after →
    after = [] ∧ a.phase = .triggered ∨ ∃ answer rest, after = .wait answer :: rest
  /-- An answer is read only right after a start that succeeded. -/
  answered : ∀ before answer after, a.device.traffic = before ++ .wait answer :: after →
    ∃ earlier, before = earlier ++ [.go (.ok ())]
  /-- An answer ends the transaction, whatever it is. -/
  ended : ∀ before answer, a.device.traffic = before ++ [.wait answer] →
    a.phase = .idle ∧ a.mask = 0

/-- All that the phase and the mask tell follows from the transfers being in order. -/
lemma Traffic.orderly {a : Accelerator (Watched σ)}
    (traffic : Traffic o .idle [] a.device.traffic a.phase a.written) : Orderly o a where
  between := by
    have agree := traffic.agree ⟨nofun, by simp⟩
    cases phase : a.phase with
    | idle => exact .inl rfl
    | loading => exact .inr (.inl rfl)
    | triggered => exact .inr (.inr rfl)
    | done => exact absurd phase agree.1
  idle := by
    rw [mask_eq_zero]
    exact (traffic.agree ⟨nofun, by simp⟩).2
  mask r := by
    rw [ne_eq, mask_and_bit, Decidable.not_not, traffic.mem_written r]
    simp
  ready before answer after eq r required := by
    rw [eq] at traffic
    obtain ⟨p, w, front, back⟩ := traffic.split
    -- What the start asks for is among the registers written by then.
    have written : r ∈ w := by
      cases back with
      | cons legal _ =>
        cases legal with
        | goFailed all => exact all r required
        | go all => exact all r required
    simpa using (front.mem_written r).mp written
  started before after eq := by
    rw [eq] at traffic
    obtain ⟨p, w, -, back⟩ := traffic.split
    exact back.after_go
  answered before answer after eq := by
    rw [eq] at traffic
    obtain ⟨p, w, front, back⟩ := traffic.split
    rcases back with _ | ⟨⟨⟩, -⟩
    exact front.last_eq_go nofun
  ended before answer eq := by
    rw [eq] at traffic
    rw [mask_eq_zero]
    obtain ⟨p, w, -, back⟩ := traffic.split
    generalize a.phase = p₁, a.written = w₁ at back
    rcases back with _ | ⟨⟨⟩, ⟨⟩⟩
    exact ⟨rfl, rfl⟩

/-! ## The record changes nothing -/

/-- The device behind a record. -/
def Watched.Of (s : Watched σ) (device : σ) : Prop :=
  s.device = device

/-- A watched link answers like the link itself. -/
lemma watched_alike (link : Link σ) : AnswerAlike Watched.Of link.watched link where
  operation := rfl
  write r value same := by
    cases same
    exact ⟨rfl, rfl⟩
  go same := by
    cases same
    exact ⟨rfl, rfl⟩
  wait same := by
    cases same
    exact ⟨rfl, rfl⟩
  lend work same := by
    cases same
    rw [worked_watched]
    exact ⟨seen_eq .., rfl⟩

/-- What a program brings about on one link it can bring about on a link that answers alike. -/
lemma Program.alike {τ : Type} {R : σ → τ → Prop} {l : Link σ} {k : Link τ} {a a' : Accelerator σ}
    {b : Accelerator τ} (links : AnswerAlike R l k) (program : Program l a a') (like : Like R a b) :
    ∃ b', Program k b b' ∧ Like R a' b' := by
  induction program with
  | refl => exact ⟨b, .refl b, like⟩
  | configure r value _ ih =>
    obtain ⟨b', program, like⟩ := ih
    exact ⟨_, program.configure r value, (links.inStep.configure r value like).2⟩
  | trigger _ ih =>
    obtain ⟨b', program, like⟩ := ih
    exact ⟨_, program.trigger, (links.inStep.trigger like).2⟩
  | complete _ ih =>
    obtain ⟨b', program, like⟩ := ih
    exact ⟨_, program.complete, (links.inStep.complete like).2⟩
  | transaction operands _ ih =>
    obtain ⟨b', program, like⟩ := ih
    exact ⟨_, program.transaction operands, (links.inStep.transaction like operands).2⟩
  | memory work _ ih =>
    obtain ⟨b', program, like⟩ := ih
    have after := like.withMemory work links.operation fun _ => links.lend _ like.device
    exact ⟨_, program.memory work, after.2⟩

/-- The record is of all that a program does: what it can do without a record it can do with one. -/
theorem exists_watched {link : Link σ} {device : σ} {b : Accelerator σ}
    (program : Program link { device } b) :
    ∃ a, Program link.watched { device := ⟨device, []⟩ } a ∧ a.unwatched = b := by
  have fresh : Like (flip Watched.Of) { device } { device := ⟨device, []⟩ } := ⟨rfl, rfl, rfl⟩
  obtain ⟨a, watched, ⟨device, phase, written⟩⟩ := program.alike (watched_alike link).symm fresh
  refine ⟨a, watched, ?_⟩
  cases b
  cases device
  cases phase
  cases written
  rfl

/-- Whatever a program does and whatever its device answers, the phase and the mask tell what has
been transferred, and each call is refused or makes one transfer. The record does not matter: the
program may do the same without it. -/
theorem orderly_of_program (link : Link σ) (device : σ) (a : Accelerator (Watched σ))
    (program : Program link.watched { device := ⟨device, []⟩ } a) :
    Orderly link.operation a ∧ Guarded link a ∧ Program link { device } a.unwatched := by
  obtain ⟨ts, eq, traffic⟩ := program.extends
  rw [List.nil_append] at eq
  rw [← eq] at traffic
  refine ⟨traffic.orderly, guarded, ?_⟩
  have fresh : Like Watched.Of { device := ⟨device, []⟩ } { device } := ⟨rfl, rfl, rfl⟩
  obtain ⟨b, unwatched, ⟨device, phase, written⟩⟩ := program.alike (watched_alike link) fresh
  cases b
  cases device
  cases phase
  cases written
  exact unwatched

/-- A program that starts too early, and then makes a transaction that the device refuses. -/
theorem orderly_of_program_refused : ∃ a : Accelerator (Watched SoftwareDevice),
    Program (SoftwareDevice.link .add).watched
      { device := ⟨⟨.add, {}, some (.zero 16), none, true⟩, []⟩ } a ∧
    a.device.traffic = [.lend (some (.zero 16)), .write .size 1 (.ok ()), .write .src0 2 (.ok ()),
      .write .src1 0 (.ok ()), .write .dest 0 (.ok ()), .go (.ok ()),
      .wait (.error (.misaligned 2))] ∧
    Orderly .add a ∧ Guarded (SoftwareDevice.link .add) a ∧
    Program (SoftwareDevice.link .add) { device := ⟨.add, {}, some (.zero 16), none, true⟩ }
      a.unwatched := by
  have fresh : Program (SoftwareDevice.link .add).watched _ _ :=
    .refl { device := ⟨⟨.add, {}, some (.zero 16), none, true⟩, []⟩ }
  have program :=
    ((fresh.memory fun m => (.ok m.wordCount, m)).configure .size 1).trigger.transaction
      [(.src0, 2), (.src1, 0), (.dest, 0)]
  exact ⟨_, program, rfl, orderly_of_program _ _ _ program⟩

end TileBench.Accelerator
