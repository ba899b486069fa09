import TileBench.Proofs.Accelerator.History

/-!
# Kernels that fail

A kernel that fails does not always give its accelerator back as it found it. A transaction is over
once an answer is read, whatever it is; one that the device stops before that, at a write or at the
start, stays where it is. `Transacts` lists the ways in which a transaction can go. `Aborts` says
which phase a failed kernel leaves and from which transfers one can tell; `settles_of_kernel` proves
it of both kernels on every link, with what it means for the kernels that come after.
-/

namespace TileBench.Accelerator

variable {σ α : Type} {link : Link σ}

/-! ## What a request transfers -/

/-- The accelerator with a record of its transfers, which is empty. -/
def watching (a : Accelerator σ) : Accelerator (Watched σ) :=
  ⟨⟨a.device, []⟩, a.phase, a.written⟩

/-- The record does not change where an accelerator stands. -/
lemma like_watching (a : Accelerator σ) : Like Watched.Of a.watching a :=
  ⟨rfl, rfl, rfl⟩

/-- The transfers that a request makes. -/
def transfersOf (link : Link σ) (a : Accelerator σ) (request : Request) : List Transfer :=
  (perform link.watched a.watching request).value.2.device.traffic

/-- No request tells the record. -/
lemma watched_twins (link : Link σ) : Twins link.watched link (Like Watched.Of) :=
  (watched_alike link).twins rfl rfl

/-! ## The ways of a transaction -/

/-- `Transacts p ts outcome p'` holds when a transaction that the protocol lets through and that
begins in phase `p` may make the transfers `ts`, end with `outcome` and leave phase `p'`. -/
inductive Transacts : Phase → List Transfer → Except Fault UInt32 → Phase → Prop where
  | unwritten {p : Phase} {r : Register} {value : UInt32} {e : Fault} :
    Transacts p [.write r value (.error e)] (.error e) p
  | write {p p' : Phase} {r : Register} {value : UInt32} {ts : List Transfer}
      {outcome : Except Fault UInt32} :
    Transacts .loading ts outcome p' → Transacts p (.write r value (.ok ()) :: ts) outcome p'
  | unstarted {e : Fault} : Transacts .loading [.go (.error e)] (.error e) .loading
  | answered {answer : Except Fault UInt32} :
    Transacts .loading [.go (.ok ()), .wait answer] answer .idle

/-- The device refused a write or the start with `e`. -/
def Transfer.Refused (e : Fault) (t : Transfer) : Prop :=
  (∃ r value, t = .write r value (.error e)) ∨ t = .go (.error e)

/-- After a write that it took, the device refused with `e` another one or the start, and then
nothing came. -/
def Abandoned (e : Fault) (ts : List Transfer) : Prop :=
  ∃ before t, ts = before ++ [t] ∧ t.Refused e ∧ ∃ r value, .write r value (.ok ()) ∈ before

/-- What can be told from its transfers of the phase that a kernel leaves which fails with `e`. -/
structure Aborts (e : Fault) (ts : List Transfer) (p : Phase) : Prop where
  phase : p = .idle ∨ p = .loading
  loading : p = .loading ↔ Abandoned e ts

section Transfers

variable {e : Fault} {t : Transfer} {ts : List Transfer} {p p₁ : Phase}

/-- Without transfers nothing was abandoned. -/
lemma not_abandoned_nil : ¬ Abandoned e [] := by
  rintro ⟨before, t, eq, -⟩
  cases before <;> cases eq

/-- A transaction is abandoned at its last transfer, after a write that was taken. -/
lemma abandoned_concat :
    Abandoned e (ts ++ [t]) ↔ t.Refused e ∧ ∃ r value, .write r value (.ok ()) ∈ ts := by
  constructor
  · rintro ⟨before, last, eq, refused, taken⟩
    obtain ⟨rfl, rfl⟩ := List.append_singleton_inj.mp eq
    exact ⟨refused, taken⟩
  · rintro ⟨refused, taken⟩
    exact ⟨ts, t, rfl, refused, taken⟩

/-- A request for the memory is not a refusal by the device. -/
lemma not_refused_lend {view : Option Memory} : ¬ (Transfer.lend view).Refused e := by
  rintro (⟨r, value, ⟨⟩⟩ | ⟨⟨⟩⟩)

/-- An answer is not a refusal by the device, whatever it is. -/
lemma not_refused_wait {answer : Except Fault UInt32} : ¬ (Transfer.wait answer).Refused e := by
  rintro (⟨r, value, ⟨⟩⟩ | ⟨⟨⟩⟩)

/-- The memory that was asked for first is no part of what was abandoned. -/
lemma abandoned_lend_cons {view : Option Memory} :
    Abandoned e (.lend view :: ts) ↔ Abandoned e ts := by
  rcases ts.eq_nil_or_concat with rfl | ⟨before, t, rfl⟩
  · rw [← List.nil_append [Transfer.lend view], abandoned_concat]
    exact iff_of_false (fun ⟨refused, _⟩ => not_refused_lend refused) not_abandoned_nil
  · rw [List.concat_eq_append, ← List.cons_append, abandoned_concat, abandoned_concat]
    simp

/-- A kernel that abandons nothing leaves nothing in progress. -/
lemma Aborts.of_idle (settled : ¬ Abandoned e ts) : Aborts e ts .idle :=
  ⟨.inl rfl, iff_of_false nofun settled⟩

/-- A transaction that fails in the middle was refused there, or was answered with the failure. -/
lemma Transacts.of_loading (transacts : Transacts .loading ts (.error e) p) :
    (p = .loading ∧ ∃ before t, ts = before ++ [t] ∧ t.Refused e) ∨
      (p = .idle ∧ ∃ before, ts = before ++ [.wait (.error e)]) := by
  generalize first : Phase.loading = p₀, ended : Except.error e = outcome at transacts
  induction transacts with
  | unwritten =>
    cases first
    cases ended
    exact .inl ⟨rfl, [], _, rfl, .inl ⟨_, _, rfl⟩⟩
  | write _ ih =>
    cases first
    rcases ih rfl ended with ⟨loading, before, t, rfl, refused⟩ | ⟨idle, before, rfl⟩
    · exact .inl ⟨loading, _ :: before, t, rfl, refused⟩
    · exact .inr ⟨idle, _ :: before, rfl⟩
  | unstarted =>
    cases ended
    exact .inl ⟨rfl, [], _, rfl, .inr rfl⟩
  | answered =>
    cases ended
    exact .inr ⟨rfl, [_], rfl⟩

/-- How a transaction from the start that fails went can be told from its transfers. -/
lemma Transacts.aborts (transacts : Transacts .idle ts (.error e) p) : Aborts e ts p := by
  cases transacts with
  | unwritten =>
    -- Nothing was taken before the write that was refused.
    refine .of_idle fun abandoned => ?_
    rw [← List.nil_append [Transfer.write _ _ _], abandoned_concat] at abandoned
    obtain ⟨-, r, value, ⟨⟩⟩ := abandoned
  | @write _ _ r value _ _ rest =>
    rcases rest.of_loading with ⟨rfl, before, t, rfl, refused⟩ | ⟨rfl, before, rfl⟩
    · exact ⟨.inr rfl, iff_of_true rfl ⟨_ :: before, t, rfl, refused, r, value, List.mem_cons_self⟩⟩
    · refine .of_idle fun abandoned => ?_
      rw [← List.cons_append, abandoned_concat] at abandoned
      exact not_refused_wait abandoned.1

/-- A transaction that gives a word is over. -/
lemma Transacts.idle_of_ok {word : UInt32} (transacts : Transacts p ts (.ok word) p₁) :
    p₁ = .idle := by
  generalize ended : Except.ok word = outcome at transacts
  induction transacts with
  | unwritten => cases ended
  | write _ ih => exact ih ended
  | unstarted => cases ended
  | answered => rfl

end Transfers

/-! ## Transactions -/

/-- A transaction that the protocol lets through goes one of its ways. -/
lemma exists_transacts (link : Link σ) (a : Accelerator (Watched σ))
    (operands : List (Register × UInt32))
    (accepted : ∀ x ∈ operands, link.operation.accepts x.1 = true)
    (all : ∀ r ∈ link.operation.required, r ∈ a.written ∨ r ∈ operands.map Prod.fst)
    (early : a.phase = .loading ∨ a.phase = .idle ∧ operands ≠ []) :
    ∃ ts outcome b, (a.transaction link.watched operands).value = (outcome, b) ∧
      b.device.traffic = a.device.traffic ++ ts ∧ Transacts a.phase ts outcome b.phase := by
  induction operands generalizing a with
  | nil =>
    have loading : a.phase = .loading := early.resolve_right fun idle => idle.2 rfl
    have written : ∀ r ∈ link.operation.required, r ∈ a.written := by simpa using all
    obtain ⟨x, b, started, traffic, legal⟩ :=
      guarded_trigger.passes (refusal?_trigger loading written)
    rw [loading]
    cases x with
    | error e =>
      refine ⟨_, _, b, andThen_error started, traffic, ?_⟩
      rw [legal.phase_eq, loading]
      exact .unstarted
    | ok =>
      have triggered : b.phase = .triggered := legal.phase_eq
      obtain ⟨answer, c, read, traffic', legal'⟩ :=
        guarded_complete.passes (refusal?_complete triggered)
      refine ⟨[.go (.ok ()), .wait answer], answer, c, (andThen_ok started).trans read, ?_, ?_⟩
      · rw [traffic', traffic, List.append_assoc]
        rfl
      · rw [legal'.phase_eq]
        exact .answered
  | cons operand rest ih =>
    obtain ⟨r, value⟩ := operand
    have begun : a.phase = .idle ∨ a.phase = .loading := early.symm.imp_left And.left
    have passes := refusal?_configure (accepted _ List.mem_cons_self) begun
    obtain ⟨x, b, written, traffic, legal⟩ := (guarded_configure r value).passes passes
    cases x with
    | error e =>
      refine ⟨_, _, b, andThen_error written, traffic, ?_⟩
      rw [legal.phase_eq]
      exact .unwritten
    | ok =>
      have loading : b.phase = .loading := legal.phase_eq
      -- A register that this write was about is written now, and the others as before.
      have still : ∀ s ∈ link.operation.required, s ∈ b.written ∨ s ∈ rest.map Prod.fst := by
        intro s required
        have found := all s required
        rw [List.map_cons, List.mem_cons] at found
        rw [legal.mem_written]
        rcases found with before | rfl | later
        · exact .inl (.inr ⟨before, nofun⟩)
        · exact .inl (.inl ⟨value, rfl⟩)
        · exact .inr later
      obtain ⟨ts, outcome, c, made, traffic', transacts⟩ :=
        ih b (fun x mem => accepted x (List.mem_cons_of_mem _ mem)) still (.inl loading)
      rw [loading] at transacts
      refine ⟨.write r value (.ok ()) :: ts, outcome, c, (andThen_ok written).trans made, ?_,
        .write transacts⟩
      rw [traffic', traffic, List.append_assoc]
      rfl

/-- Work on the memory asks for it once, and leaves nothing in progress. -/
lemma exists_view (link : Link σ) {a : Accelerator (Watched σ)} (idle : a.phase = .idle)
    (work : Memory → Except Fault α × Memory) :
    ∃ view b, (pure (a.withMemory link.watched work) : Logged _).value =
      (seen link.kind work view, b) ∧
      b.device.traffic = a.device.traffic ++ [.lend view] ∧ b.phase = .idle := by
  obtain ⟨view, b, shown, traffic, legal⟩ := (guarded_memory work).passes (refusal?_memory idle)
  exact ⟨view, b, shown, traffic, legal.phase_eq.trans idle⟩

/-! ## Kernels -/

/-- What a kernel leaves that ends with `outcome` after the transfers `ts`. -/
def Settles (outcome : Except Fault α) (ts : List Transfer) (p : Phase) : Prop :=
  match outcome with
  | .ok _ => p = .idle
  | .error e => Aborts e ts p

/-- The expected accelerator computes what was expected of it. -/
lemma operation_of_expects {o : Operation} (expected : expects link o = .ok ()) :
    link.operation = o := by
  unfold expects at expected
  split at expected
  · cases expected
  · exact Decidable.not_not.mp ‹_›

section Kernels

variable (link) {a : Accelerator (Watched σ)} (fresh : a.device.traffic = [])
    (idle : a.phase = .idle)

include fresh idle

/-- An addition with words for its operands settles. -/
lemma settles_offload (isAdd : link.operation = .add) (xs ys : List UInt32) (count : Nat)
    (operands : UInt32 × UInt32 × UInt32 × UInt32) :
    ∃ outcome b, (offload link.watched a xs ys count operands).value = (outcome, b) ∧
      Settles outcome b.device.traffic b.phase := by
  obtain ⟨src0, src1, dest, size⟩ := operands
  have accepted : ∀ x ∈ [(Register.src0, src0), (.src1, src1), (.dest, dest), (.size, size)],
      link.operation.accepts x.1 = true := by
    simp [isAdd, Operation.accepts]
  have all (b : Accelerator (Watched σ)) : ∀ r ∈ link.operation.required,
      r ∈ b.written ∨
        r ∈ [(Register.src0, src0), (.src1, src1), (.dest, dest), (.size, size)].map Prod.fst := by
    simp [isAdd, Operation.required, Register.operands]
  obtain ⟨view, b, shown, traffic, idle_b⟩ := exists_view link idle (stage src0 src1 dest xs ys)
  rw [fresh, List.nil_append] at traffic
  cases staged : seen link.kind (stage src0 src1 dest xs ys) view with
  | error e =>
    -- Staging fails before any register is written.
    rw [staged] at shown
    refine ⟨_, b, andThen_error shown, ?_⟩
    rw [traffic, idle_b]
    exact .of_idle fun abandoned => not_abandoned_nil (abandoned_lend_cons.mp abandoned)
  | ok =>
    rw [staged] at shown
    obtain ⟨ts, outcome, c, made, traffic', transacts⟩ :=
      exists_transacts link b _ accepted (all b) (.inr ⟨idle_b, List.cons_ne_nil _ _⟩)
    rw [traffic] at traffic'
    rw [idle_b] at transacts
    cases outcome with
    | error e =>
      refine ⟨_, c, (andThen_ok shown).trans (andThen_error made), ?_⟩
      obtain ⟨phase, loading⟩ := transacts.aborts
      rw [traffic']
      exact ⟨phase, loading.trans abandoned_lend_cons.symm⟩
    | ok word =>
      have idle_c : c.phase = .idle := transacts.idle_of_ok
      obtain ⟨view', d, read, traffic'', idle_d⟩ :=
        exists_view link idle_c fun m => (m.readMany dest count, m)
      refine ⟨_, d, (andThen_ok shown).trans ((andThen_ok made).trans read), ?_⟩
      rw [traffic'', idle_d]
      cases seen link.kind (fun m => (m.readMany dest count, m)) view' with
      | error e =>
        exact .of_idle fun abandoned => not_refused_lend (abandoned_concat.mp abandoned).1
      | ok sums => rfl

/-- An addition settles, and leaves its result alone if it fails. -/
lemma settles_vectorAdd (result xs ys : List Int32) :
    ∃ outcome after b, (vectorAdd.run link.watched a result xs ys).value = ((outcome, after), b) ∧
      Settles outcome b.device.traffic b.phase ∧ ∀ e, outcome = .error e → after = result := by
  cases found : (expects link.watched .add).bind fun _ => operandWords result.length with
  | error e =>
    refine ⟨_, _, a, vectorAdd.run_of_error found, ?_, fun _ _ => rfl⟩
    rw [fresh, idle]
    exact .of_idle not_abandoned_nil
  | ok operands =>
    have isAdd : link.operation = .add := by
      cases expected : expects link.watched .add with
      | error e =>
        rw [expected] at found
        cases found
      | ok => exact operation_of_expects expected
    obtain ⟨outcome, b, made, settles⟩ :=
      settles_offload link fresh idle isAdd (xs.map Int32.toUInt32) (ys.map Int32.toUInt32)
        result.length operands
    have run := (vectorAdd.run_of_ok found).trans (congrArg (summed result) made)
    cases outcome with
    | error e => exact ⟨_, _, b, run, settles, fun _ _ => rfl⟩
    | ok sums => exact ⟨_, _, b, run, settles, nofun⟩

/-- An echo settles. -/
lemma settles_echo (value : UInt32) :
    ∃ outcome b, (echo link.watched a value).value = (outcome, b) ∧
      Settles outcome b.device.traffic b.phase := by
  unfold echo
  cases expected : expects link.watched .null with
  | error e =>
    refine ⟨_, a, rfl, ?_⟩
    rw [fresh, idle]
    exact .of_idle not_abandoned_nil
  | ok =>
    have isNull : link.operation = .null := operation_of_expects expected
    obtain ⟨ts, outcome, b, made, traffic, transacts⟩ := exists_transacts link a [(.go, value)]
      (by simp [isNull, Operation.accepts, Operation.dataInGo])
      (by simp [isNull, Operation.required])
      (.inr ⟨idle, List.cons_ne_nil _ _⟩)
    refine ⟨outcome, b, made, ?_⟩
    rw [idle] at transacts
    rw [traffic, fresh]
    cases outcome with
    | error e => exact transacts.aborts
    | ok word => exact transacts.idle_of_ok

end Kernels

/-! ## What comes next -/

/-- What the kernels meet that a program calls next. -/
structure Sequel (link : Link σ) (b : Accelerator σ) : Prop where
  /-- The null accelerator is sent the word. -/
  echo : expects link .null = .ok () → ∀ value, ∃ answer rest,
    transfersOf link b (.echo value) = .write .go value answer :: rest
  /-- The adding accelerator is asked for its memory if nothing is in progress. -/
  addition : expects link .add = .ok () → b.phase = .idle → ∀ (result xs ys : List Int32) operands,
    xs.length = result.length → ys.length = result.length →
    operandWords result.length = .ok operands →
    ∃ view rest, transfersOf link b (.vectorAdd result xs ys) = .lend view :: rest
  /-- In the middle of a transaction the addition is refused, and nothing happens. -/
  refused : expects link .add = .ok () → b.phase = .loading →
    ∀ (result xs ys : List Int32) operands,
    xs.length = result.length → ys.length = result.length →
    operandWords result.length = .ok operands →
    (vectorAdd link b result xs ys).run.value =
      .ok ((.error (.protocolViolation "host memory access" .loading), result), b)

section Sequel

variable {b : Accelerator σ}

/-- The transfer of the first step of a chain is the first one of the chain. -/
lemma exists_transfer {β : Type} {o : Operation} {t : Transfer}
    {step : Logged (Reply (Watched σ) α)}
    {next : α → Accelerator (Watched σ) → Logged (Reply (Watched σ) β)} {x : Except Fault α}
    {c : Accelerator (Watched σ)} (made : step.value = (x, c)) (traffic : c.device.traffic = [t])
    (rest : ∀ v, Extends o c (next v c).value.2) :
    ∃ ts, (andThen step next).value.2.device.traffic = t :: ts := by
  cases x with
  | error e =>
    rw [andThen_error made]
    exact ⟨[], traffic⟩
  | ok v =>
    obtain ⟨ts, more, -⟩ := rest v
    rw [andThen_ok made, more, traffic]
    exact ⟨ts, rfl⟩

/-- Before a start the null accelerator is sent the word. -/
lemma exists_write (early : b.phase = .idle ∨ b.phase = .loading)
    (expected : expects link .null = .ok ()) (value : UInt32) :
    ∃ answer rest, transfersOf link b (.echo value) = .write .go value answer :: rest := by
  have accepted : link.operation.accepts .go = true := by
    rw [operation_of_expects expected]
    rfl
  obtain ⟨answer, c, made, traffic, -⟩ :=
    (guarded_configure (a := b.watching) .go value).passes (refusal?_configure accepted early)
  have same : expects link.watched .null = .ok () := expected
  refine ⟨answer, ?_⟩
  change ∃ rest, (echo link.watched b.watching value).value.2.device.traffic = _ :: rest
  rw [echo, same]
  exact exists_transfer made traffic fun _ => extends_transaction []

section Addition

variable {result xs ys : List Int32} {operands : UInt32 × UInt32 × UInt32 × UInt32}
  (expected : expects link .add = .ok ()) (lengthX : xs.length = result.length)
  (lengthY : ys.length = result.length) (found : operandWords result.length = .ok operands)

include expected lengthX lengthY found

/-- An addition with nothing in progress asks for the memory first. -/
lemma exists_lend (idle : b.phase = .idle) :
    ∃ view rest, transfersOf link b (.vectorAdd result xs ys) = .lend view :: rest := by
  have ready : ((expects link.watched .add).bind fun _ => operandWords result.length) =
      .ok operands := by
    have same : expects link.watched .add = .ok () := expected
    rw [same]
    exact found
  obtain ⟨src0, src1, dest, size⟩ := operands
  obtain ⟨view, c, shown, traffic, -⟩ := exists_view link (a := b.watching) idle
    (stage src0 src1 dest (xs.map Int32.toUInt32) (ys.map Int32.toUInt32))
  refine ⟨view, ?_⟩
  rw [transfersOf, perform_vectorAdd lengthX lengthY, vectorAdd.run_of_ok ready,
    summed_snd, offload]
  exact exists_transfer shown traffic fun _ =>
    extends_andThen (extends_transaction _) fun _ => (guarded_memory _).extends

/-- In the middle of a transaction the memory is refused, and with it the addition. -/
lemma vectorAdd_refused (loading : b.phase = .loading) :
    (vectorAdd link b result xs ys).run.value =
      .ok ((.error (.protocolViolation "host memory access" .loading), result), b) := by
  have ready : ((expects link .add).bind fun _ => operandWords result.length) = .ok operands := by
    rw [expected]
    exact found
  have refused {α : Type} (work : Memory → Except Fault α × Memory) :
      b.withMemory link work = (.error (.protocolViolation "host memory access" .loading), b) := by
    rw [withMemory, if_pos (by rw [loading]; decide), loading]
  obtain ⟨src0, src1, dest, size⟩ := operands
  rw [value_vectorAdd lengthX lengthY, vectorAdd.run_of_ok ready, offload, refused,
    andThen_error rfl]
  rfl

end Addition

/-- What comes next depends only on whether something is in progress. -/
lemma Sequel.of_early (early : b.phase = .idle ∨ b.phase = .loading) : Sequel link b where
  echo expected value := exists_write early expected value
  addition expected idle _ _ _ _ lengthX lengthY found :=
    exists_lend expected lengthX lengthY found idle
  refused expected loading _ _ _ _ lengthX lengthY found :=
    vectorAdd_refused expected lengthX lengthY found loading

/-- A kernel never leaves the device triggered. -/
lemma Settles.early {outcome : Except Fault α} {ts : List Transfer} {p : Phase}
    (settles : Settles outcome ts p) : p = .idle ∨ p = .loading := by
  cases outcome with
  | error e => exact settles.phase
  | ok v => exact .inl settles

end Sequel

/-! ## The phase that a kernel leaves -/

/-- A kernel that is called when nothing is in progress leaves nothing in progress, unless the
device takes a write and then refuses another one or the start: what was written stays, and while it
does every addition is refused. An addition that fails leaves its result alone. -/
theorem settles_of_kernel (link : Link σ) (a : Accelerator σ) (idle : a.phase = .idle) :
    (∀ result xs ys : List Int32, xs.length = result.length → ys.length = result.length →
      ∃ outcome after b, (vectorAdd link a result xs ys).run.value = .ok ((outcome, after), b) ∧
        Settles outcome (transfersOf link a (.vectorAdd result xs ys)) b.phase ∧
        (∀ e, outcome = .error e → after = result) ∧ Sequel link b) ∧
      ∀ value, ∃ outcome b, (echo link a value).value = (outcome, b) ∧
        Settles outcome (transfersOf link a (.echo value)) b.phase ∧ Sequel link b := by
  -- The record changes nothing, so that the phase may be read off the accelerator with one.
  constructor
  · intro result xs ys lengthX lengthY
    obtain ⟨outcome, after, b, run, settles, kept⟩ :=
      settles_vectorAdd link (a := a.watching) rfl idle result xs ys
    obtain ⟨same, device, phase, written⟩ :=
      (watched_twins link).vectorAdd_run a.like_watching result xs ys
    have transfers : transfersOf link a (.vectorAdd result xs ys) = b.device.traffic := by
      rw [transfersOf, perform_vectorAdd lengthX lengthY, run]
    rw [run] at same phase
    rw [phase] at settles
    refine ⟨outcome, after, (vectorAdd.run link a result xs ys).value.2, ?_, ?_, kept,
      .of_early settles.early⟩
    · exact (value_vectorAdd lengthX lengthY).trans (congrArg Except.ok (Prod.ext same.symm rfl))
    · rwa [transfers]
  · intro value
    obtain ⟨outcome, b, made, settles⟩ := settles_echo link (a := a.watching) rfl idle value
    obtain ⟨same, device, phase, written⟩ :=
      (watched_twins link).perform a.like_watching (.echo value)
    have transfers : transfersOf link a (.echo value) = b.device.traffic :=
      congrArg (·.2.device.traffic) made
    have outcome_eq : (echo link.watched a.watching value).value.1 = (echo link a value).value.1 :=
      Answer.word.inj same
    have phase_eq : (echo link.watched a.watching value).value.2.phase =
        (echo link a value).value.2.phase := phase
    rw [made] at outcome_eq phase_eq
    rw [phase_eq] at settles
    refine ⟨outcome, (echo link a value).value.2, ?_, ?_, .of_early settles.early⟩
    · exact Prod.ext outcome_eq.symm rfl
    · rwa [transfers]

/-! ## Devices that fail -/

/-- A device whose writes and starts fail as a script says: each takes the next entry, and none
fails once the script has ended. -/
structure Scripted (σ : Type) where
  device : σ
  script : List (Option Fault)

/-- What comes of a write or a start, which would be `step` if the device did not fail. -/
def Scripted.attempt (s : Scripted σ) (step : Logged (Except Fault Unit × σ)) :
    Logged (Except Fault Unit × Scripted σ) :=
  match s.script with
  | some e :: rest => pure (.error e, { s with script := rest })
  | rest => do
    let (answer, device) ← step
    return (answer, ⟨device, rest.tail⟩)

/-- The same link to a device that fails as a script says. -/
def Link.scripted (link : Link σ) : Link (Scripted σ) where
  operation := link.operation
  kind := link.kind
  sharesMemory := link.sharesMemory
  write s r value := s.attempt (link.write s.device r value)
  go s := s.attempt (link.go s.device)
  wait s := do
    let (answer, device) ← link.wait s.device
    return (answer, { s with device })
  lend s :=
    let (view, device) := link.lend s.device
    (view, { s with device })
  restore s m := { s with device := link.restore s.device m }

/-- An adding accelerator with six words of memory that fails as a script says. -/
def scripted (script : List (Option Fault)) : Accelerator (Scripted SoftwareDevice) :=
  { device := ⟨{ operation := .add, memory := some (.zero 24) }, script⟩ }

/-- An addition whose second write fails stays half loaded, which its transfers tell, and the next
one is refused. -/
theorem settles_of_kernel_unwritten :
    (scripted [none, some .unanswered]).phase = .idle ∧
    transfersOf (SoftwareDevice.link .add).scripted (scripted [none, some .unanswered])
      (.vectorAdd [7] [1] [2]) =
      [.lend (some (.zero 24)), .write .src0 0 (.ok ()), .write .src1 4 (.error .unanswered)] ∧
    ∃ b, (vectorAdd (SoftwareDevice.link .add).scripted (scripted [none, some .unanswered])
        [7] [1] [2]).run.value = .ok ((.error .unanswered, [7]), b) ∧
      b.phase = .loading ∧
      (vectorAdd (SoftwareDevice.link .add).scripted b [7] [1] [2]).run.value =
        .ok ((.error (.protocolViolation "host memory access" .loading), [7]), b) := by
  have transfers :
      transfersOf (SoftwareDevice.link .add).scripted (scripted [none, some .unanswered])
        (.vectorAdd [7] [1] [2]) =
      [.lend (some (.zero 24)), .write .src0 0 (.ok ()), .write .src1 4 (.error .unanswered)] := rfl
  obtain ⟨outcome, after, b, run, settles, -, next⟩ :=
    (settles_of_kernel (SoftwareDevice.link .add).scripted
      (scripted [none, some .unanswered]) rfl).1 [7] [1] [2] rfl rfl
  obtain ⟨rfl, rfl⟩ : .error .unanswered = outcome ∧ [7] = after := by
    have made := congrArg (·.map Prod.fst) run
    cases made
    exact ⟨rfl, rfl⟩
  have loading : b.phase = .loading := by
    rw [settles.loading, transfers]
    exact ⟨[_, _], _, rfl, .inl ⟨_, _, rfl⟩, _, _, List.mem_cons_of_mem _ List.mem_cons_self⟩
  exact ⟨rfl, transfers, b, run, loading, next.refused rfl loading [7] [1] [2] _ rfl rfl rfl⟩

/-- A start that fails once is enough: the addition after it is refused, although the device would
do it. -/
theorem vectorAdd_leaves_loading : ∃ a b : Accelerator (Scripted SoftwareDevice),
    a.phase = .idle ∧
    (vectorAdd (SoftwareDevice.link .add).scripted a [0, 0] [1, 2] [3, 4]).run.value =
      .ok ((.error (.deviceLost "stuck"), [0, 0]), b) ∧
    b.phase = .loading ∧
    (vectorAdd (SoftwareDevice.link .add).scripted b [0, 0] [1, 2] [3, 4]).run.value =
      .ok ((.error (.protocolViolation "host memory access" .loading), [0, 0]), b) ∧
    ((vectorAdd (SoftwareDevice.link .add).scripted { b with phase := .idle } [0, 0] [1, 2]
      [3, 4]).run.value.toOption.map fun ended => ended.1.2) = some [4, 6] :=
  ⟨scripted [none, none, none, none, some (.deviceLost "stuck")],
    ⟨⟨⟨.add, ⟨0, 0, 8, 16, 2⟩, some ⟨#[1, 2, 3, 4, 0, 0]⟩, none, true⟩, []⟩,
      .loading, [.size, .dest, .src1, .src0]⟩, rfl, rfl, rfl, rfl, by decide +kernel⟩

end TileBench.Accelerator
