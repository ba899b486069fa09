import TileBench.Accelerator.Window
import TileBench.Proofs.Accelerator.History

/-!
# The null accelerator behind a window and in simulation

A register window is a page of memory, into which its device may store at any time. `Shared` is a
window whose device stores what it likes before each call of the program. As long as it leaves the
go register and the status word alone, the null accelerator behind the window gives the answers of
the simulated one: `Paired` relates the two, and every call of the protocol keeps it. What the
window holds can be told from its history alone, of which the program wrote the registers that it
configured and nothing else.
-/

namespace TileBench.Accelerator

open RegisterWindow (slot statusSlot)

/-! ## A window that its device stores into -/

/-- A word that the device stores on its own. -/
structure Stray where
  place : Fin windowWords
  value : UInt32

/-- The go register and the status word are left alone. -/
def Stray.Harmless (stray : Stray) : Prop :=
  stray.place ≠ slot .go ∧ stray.place ≠ statusSlot

/-- The window after the device has stored the word. -/
def Stray.apply (w : RegisterWindow) (stray : Stray) : RegisterWindow :=
  w.store stray.place stray.value

/-- What happens to a window: its device stores a word, or the program makes a call. -/
inductive Happening where
  | stray (s : Stray)
  | call (t : Transfer)

/-- A window, the words that its device stores before each of the next calls, and what has happened
to the window, the latest last. -/
structure Shared where
  window : RegisterWindow
  ahead : List (List Stray)
  history : List Happening := []

namespace Shared

/-- The window at the time of the next call. -/
def catchUp (s : Shared) : Shared where
  window := (s.ahead.headD []).foldl Stray.apply s.window
  ahead := s.ahead.tail
  history := s.history ++ (s.ahead.headD []).map .stray

/-- Makes a call, which is the transfer `t` with its answer. -/
def call {α : Type} (s : Shared) (t : α → Transfer)
    (step : RegisterWindow → Logged (α × RegisterWindow)) : Logged (α × Shared) := do
  let (answer, window) ← step s.catchUp.window
  return (answer, { s.catchUp with window, history := s.catchUp.history ++ [.call (t answer)] })

/-- The link to a window that its device stores into. -/
def link (o : Operation) : Link Shared where
  operation := o
  kind := .window
  sharesMemory := false
  write s r value := s.call (.write r value) fun w => (RegisterWindow.link o).write w r value
  go s := s.call .go (RegisterWindow.link o).go
  wait s := s.call .wait (RegisterWindow.link o).wait
  lend s := (none, s)
  restore s _ := s

end Shared

/-! ## What a history leaves of a window -/

/-- What a call of the null accelerator makes of a window. -/
def Transfer.store (w : RegisterWindow) : Transfer → RegisterWindow
  | .write r value (.ok ()) => w.store (slot r) value
  | .write _ _ (.error _) | .go _ | .wait _ | .lend _ => w

namespace Happening

/-- What a window holds afterwards. -/
def apply (w : RegisterWindow) : Happening → RegisterWindow
  | .stray s => s.apply w
  | .call t => t.store w

/-- What the window would hold if the program had written nothing. -/
def applyStray (w : RegisterWindow) : Happening → RegisterWindow
  | .stray s => s.apply w
  | .call _ => w

/-- The register that the program wrote. -/
def write? : Happening → Option Register
  | .call (.write r _ (.ok ())) => some r
  | _ => none

end Happening

/-- The registers that the program wrote, in order. -/
def Shared.writes (s : Shared) : List Register :=
  s.history.filterMap Happening.write?

/-- The window after all that has happened. -/
def replay (w : RegisterWindow) (history : List Happening) : RegisterWindow :=
  history.foldl Happening.apply w

/-- The window as its device alone would have left it. -/
def replayStrays (w : RegisterWindow) (history : List Happening) : RegisterWindow :=
  history.foldl Happening.applyStray w

/-- Whether a transaction with this outcome has configured its operands. Only the first of them can
be refused. -/
def tookOperands : Except Fault UInt32 → Bool
  | .error (.protocolViolation "configure" _) => false
  | _ => true

/-- The registers that a request configured which got this answer. -/
def configured : Request → Answer → List Register
  | .configure r _, .done (.ok ()) => [r]
  | .transaction operands, .word outcome =>
    if tookOperands outcome then operands.map Prod.fst else []
  | .echo _, .word outcome => if tookOperands outcome then [.go] else []
  | _, _ => []

/-- The registers that requests configured, in order, by the answers that they got. -/
def configuredAll (requests : List Request) (answers : List (Answer × Phase)) : List Register :=
  (requests.zip answers).flatMap fun x => configured x.1 x.2.1

/-- What a program does to a window that was `w` in the beginning if it configures the registers
`rs`. -/
structure Spares (w : RegisterWindow) (rs : List Register) (s : Shared) : Prop where
  /-- It writes each register when it configures it, and no other word. -/
  writes : s.writes = rs
  /-- Every word is as it was last stored, by the device or into a register by the program. -/
  stored : s.window = replay w s.history
  /-- The words of all other registers and all words behind them are as the device alone would have
  left them. -/
  words : ∀ i, (∀ r ∈ rs, i ≠ slot r) → s.window.word i = (replayStrays w s.history).word i
  status : s.window.status = w.status

section Replay

variable {w w' : RegisterWindow} {history : List Happening} {i : Fin windowWords}

/-- Nothing that happens changes what the accelerator computes. -/
lemma operation_replay : (replay w history).operation = w.operation := by
  have kept (w : RegisterWindow) (h : Happening) : (h.apply w).operation = w.operation := by
    cases h with
    | stray => rfl
    | call t =>
      cases t with
      | write r value answer => cases answer <;> rfl
      | go => rfl
      | wait => rfl
      | lend => rfl
  induction history generalizing w with
  | nil => rfl
  | cons h rest ih => exact (ih (w := h.apply w)).trans (kept w h)

/-- A word that the program never writes is as the device alone would leave it. -/
lemma word_replay (same : w.word i = w'.word i)
    (spared : ∀ r ∈ history.filterMap Happening.write?, i ≠ slot r) :
    (replay w history).word i = (replayStrays w' history).word i := by
  induction history generalizing w w' with
  | nil => exact same
  | cons h rest ih =>
    have later : ∀ r ∈ rest.filterMap Happening.write?, i ≠ slot r := fun r mem =>
      spared r (((List.sublist_cons_self h rest).filterMap Happening.write?).subset mem)
    refine ih ?_ later
    cases h with
    | stray s =>
      simp only [Happening.apply, Happening.applyStray, Stray.apply,
        RegisterWindow.word_store, same]
    | call t =>
      cases t with
      | write r value answer =>
        cases answer with
        | error e => exact same
        | ok =>
          have other : i ≠ slot r := spared r List.mem_cons_self
          exact ((RegisterWindow.word_store ..).trans (if_neg other.symm)).trans same
      | go => exact same
      | wait => exact same
      | lend => exact same

/-- A word that the device never stores is as it was. -/
lemma word_replayStrays (spared : ∀ stray, .stray stray ∈ history → stray.place ≠ i) :
    (replayStrays w history).word i = w.word i := by
  induction history generalizing w with
  | nil => rfl
  | cons h rest ih =>
    refine (ih fun stray mem => spared stray (List.mem_cons_of_mem _ mem)).trans ?_
    cases h with
    | stray stray =>
      exact (RegisterWindow.word_store ..).trans (if_neg (spared stray List.mem_cons_self))
    | call => rfl

end Replay

/-- The status word is no register. -/
lemma slot_ne_statusSlot (r : Register) : statusSlot ≠ slot r := by
  cases r <;> decide

/-- Every register has a word of its own. -/
lemma slot_eq_iff {r s : Register} : slot r = slot s ↔ r = s := by
  constructor
  · exact fun eq => Register.index_injective (congrArg Fin.val eq)
  · exact congrArg slot

/-- `s` comes from the window `w` by calls of the program and harmless stores of the device. -/
structure Since (w : RegisterWindow) (s : Shared) : Prop where
  window : s.window = replay w s.history
  harmless : ∀ stray, .stray stray ∈ s.history → stray.Harmless
  ahead : ∀ batch ∈ s.ahead, ∀ stray ∈ batch, stray.Harmless

namespace Since

variable {w : RegisterWindow} {s : Shared} (since : Since w s)

include since

/-- A word that the program has not written is as the device alone has left it. -/
lemma word_eq {i : Fin windowWords} (spared : ∀ r ∈ s.writes, i ≠ slot r) :
    s.window.word i = (replayStrays w s.history).word i := by
  rw [since.window]
  exact word_replay rfl spared

/-- Neither side has touched the status. -/
lemma status : s.window.status = w.status := by
  have noStray : ∀ stray, .stray stray ∈ s.history → stray.place ≠ statusSlot :=
    fun stray mem => (since.harmless stray mem).2
  exact (since.word_eq fun r _ => slot_ne_statusSlot r).trans (word_replayStrays noStray)

/-- By its history the program spares all words but those of the registers that it wrote. -/
lemma spares {rs : List Register} (writes : s.writes = rs) : Spares w rs s where
  writes := writes
  stored := since.window
  words _ spared := since.word_eq (writes ▸ spared)
  status := since.status

/-- The accelerator computes what it did. -/
lemma operation : s.window.operation = w.operation := by
  rw [since.window, operation_replay]

/-- What the device stores next is harmless. -/
lemma mem_headD {stray : Stray} (mem : stray ∈ s.ahead.headD []) : stray.Harmless := by
  cases next : s.ahead with
  | nil =>
    rw [next] at mem
    cases mem
  | cons batch rest =>
    rw [next] at mem
    exact since.ahead batch (next ▸ List.mem_cons_self) stray mem

/-- The stores of the device before a call are part of the history. -/
lemma catchUp : Since w s.catchUp where
  window := by
    simp only [Shared.catchUp, since.window, replay, List.foldl_append, List.foldl_map]
    rfl
  harmless stray mem := by
    simp only [Shared.catchUp, List.mem_append, List.mem_map, Happening.stray.injEq,
      exists_eq_right] at mem
    exact mem.elim (since.harmless stray) since.mem_headD
  ahead batch mem := since.ahead batch (List.mem_of_mem_tail mem)

/-- What the program has put into the go register stays there until it writes another word. -/
lemma word_catchUp : s.catchUp.window.word (slot .go) = s.window.word (slot .go) := by
  have stores : ∀ (strays : List Stray) (w : RegisterWindow), (∀ stray ∈ strays, stray.Harmless) →
      (strays.foldl Stray.apply w).word (slot .go) = w.word (slot .go) := by
    intro strays
    induction strays with
    | nil => exact fun _ _ => rfl
    | cons stray rest ih =>
      intro w harmless
      refine (ih _ fun stray mem => harmless stray (List.mem_cons_of_mem _ mem)).trans ?_
      exact (RegisterWindow.word_store ..).trans (if_neg (harmless stray List.mem_cons_self).1)
  exact stores _ _ fun stray => since.mem_headD

end Since

/-! ## The calls of the null accelerator -/

/-- The window after a call of the program. -/
def Shared.after (s : Shared) (t : Transfer) : Shared :=
  { s with window := Happening.apply s.window (.call t), history := s.history ++ [.call t] }

section Calls

variable {w : RegisterWindow} {s : Shared}

/-- A call of the program is part of the history. -/
lemma Since.after (since : Since w s) (t : Transfer) : Since w (s.after t) where
  window := by
    rw [Shared.after, since.window, replay, replay, List.foldl_append]
    rfl
  harmless stray mem := by
    simp only [Shared.after, List.mem_append, List.mem_singleton, reduceCtorEq, or_false] at mem
    exact since.harmless stray mem
  ahead := since.ahead

/-- A write always succeeds, and stores into the register. -/
lemma write_shared {o : Operation} (r : Register) (value : UInt32) :
    ((Shared.link o).write s r value).value = (.ok (), s.catchUp.after (.write r value (.ok ()))) :=
  rfl

variable (null : w.operation = .null)

include null

/-- An accelerator that is not busy starts, and its go register is left alone. -/
lemma go_shared (free : w.status &&& RegisterWindow.busy = 0) (since : Since w s) :
    ((Shared.link .null).go s).value = (.ok (), s.catchUp.after (.go (.ok ()))) := by
  have later := since.catchUp
  have idle : ¬ s.catchUp.window.status &&& RegisterWindow.busy ≠ 0 := by
    rw [later.status]
    exact not_not.mpr free
  have operand : s.catchUp.window.operation.dataInGo = true := by
    rw [later.operation, null]
    rfl
  have started : s.catchUp.window.go = (.ok (), s.catchUp.window) := by
    rw [RegisterWindow.go, if_neg idle, if_pos operand]
  have made : ((Shared.link .null).go s).value = (s.catchUp.window.go.1,
      { s.catchUp with
        window := s.catchUp.window.go.2
        history := s.catchUp.history ++ [.call (.go s.catchUp.window.go.1)] }) := rfl
  rw [made, started]
  rfl

omit null in
/-- An accelerator that has finished answers with the word of its go register. -/
lemma wait_shared (finished : w.status &&& RegisterWindow.done ≠ 0) (since : Since w s) :
    ((Shared.link .null).wait s).value =
      (.ok (s.window.word (slot .go)),
        s.catchUp.after (.wait (.ok (s.window.word (slot .go))))) := by
  have ended : ¬ s.catchUp.window.status &&& RegisterWindow.done = 0 := by
    rwa [since.catchUp.status]
  have read : s.catchUp.window.wait = .ok (s.window.word (slot .go)) := by
    rw [RegisterWindow.wait, if_neg ended, since.word_catchUp]
  have made : ((Shared.link .null).wait s).value = (s.catchUp.window.wait,
      { s.catchUp with
        history := s.catchUp.history ++ [.call (.wait s.catchUp.window.wait)] }) := rfl
  rw [made, read]
  rfl

end Calls

/-! ## What the program writes -/

section Writes

variable {s : Shared} {a : Accelerator Shared}

/-- What the device stores is no write of the program. -/
lemma writes_catchUp : s.catchUp.writes = s.writes := by
  have none (strays : List Stray) :
      (strays.map Happening.stray).filterMap Happening.write? = [] := by
    induction strays with
    | nil => rfl
    | cons stray rest ih => exact ih
  rw [Shared.writes, Shared.catchUp, List.filterMap_append, none, List.append_nil]
  rfl

/-- A call of the program that is no write leaves the registers alone. -/
lemma writes_call {α : Type} {t : α → Transfer}
    {step : RegisterWindow → Logged (α × RegisterWindow)}
    (other : ∀ x, Happening.write? (.call (t x)) = none) :
    (s.call t step).value.2.writes = s.writes := by
  rw [← writes_catchUp (s := s), Shared.writes, Shared.call]
  simp only [Logged.value_bind, Logged.value_pure, List.filterMap_append,
    List.filterMap_cons, other, List.filterMap_nil, List.append_nil]
  rfl

/-- A write is one of its register. -/
lemma writes_write (r : Register) (value : UInt32) :
    ((Shared.link .null).write s r value).value.2.writes = s.writes ++ [r] := by
  rw [write_shared, ← writes_catchUp (s := s), Shared.writes, Shared.after, List.filterMap_append]
  rfl

/-- A write comes too late, and then nothing happens, or writes its register. -/
lemma configure_cases (a : Accelerator Shared) (r : Register) (value : UInt32) :
    (a.phase ≠ .idle ∧ a.phase ≠ .loading ∧
        (a.configure (Shared.link .null) r value).value =
          (.error (.protocolViolation "configure" a.phase), a)) ∨
      ∃ b, (a.configure (Shared.link .null) r value).value = (.ok (), b) ∧ b.phase = .loading ∧
        b.device.writes = a.device.writes ++ [r] := by
  have accepted : ¬ (Shared.link .null).operation.accepts r = false := by
    cases r <;> decide
  by_cases late : a.phase ≠ .idle ∧ a.phase ≠ .loading
  · refine .inl ⟨late.1, late.2, ?_⟩
    rw [configure, if_neg accepted, if_pos late]
    rfl
  · refine .inr ⟨⟨((Shared.link .null).write a.device r value).value.2, .loading, r :: a.written⟩,
      ?_, rfl, writes_write r value⟩
    rw [configure, if_neg accepted, if_neg late]
    rfl

/-- Only an operand is refused as one that comes too late. -/
lemma tookOperands_refusal {σ : Type} {o : Operation} {a : Accelerator σ} {ask : Ask} {e : Fault}
    (refusal : ask.refusal? o a = some e) (other : ∀ r, ask ≠ .configure r) :
    tookOperands (.error e) = true := by
  cases ask with
  | configure r => exact absurd rfl (other r)
  | trigger =>
    simp only [Ask.refusal?] at refusal
    split at refusal
    · cases refusal
      rfl
    · obtain ⟨r, -, rfl⟩ := Option.map_eq_some_iff.mp refusal
      rfl
  | complete =>
    simp only [Ask.refusal?] at refusal
    split at refusal <;> cases refusal
    rfl
  | memory =>
    simp only [Ask.refusal?] at refusal
    split at refusal <;> cases refusal
    rfl

/-- A start that fails is not taken for a refused operand. -/
lemma tookOperands_go {w : RegisterWindow} {e : Fault} (failed : w.go.1 = .error e) :
    tookOperands (.error e) = true := by
  unfold RegisterWindow.go at failed
  split at failed
  · cases failed
    rfl
  · split at failed <;> cases failed

/-- An answer is not taken for a refused operand, whatever it is. -/
lemma tookOperands_wait (w : RegisterWindow) : tookOperands w.wait = true := by
  unfold RegisterWindow.wait
  split <;> rfl

/-- Starting writes no register. -/
lemma trigger_writes (a : Accelerator Shared) :
    (a.trigger (Shared.link .null)).value.2.device.writes = a.device.writes ∧
      ∀ e, (a.trigger (Shared.link .null)).value.1 = .error e → tookOperands (.error e) = true := by
  obtain ⟨e, refusal, refused⟩ | ⟨-, made⟩ := (trigger_spec (Shared.link .null) a).cases
  · rw [refused]
    refine ⟨rfl, ?_⟩
    rintro _ ⟨⟩
    exact tookOperands_refusal refusal nofun
  · rw [made]
    have started : ((Shared.link .null).go a.device).value.2.writes = a.device.writes :=
      writes_call fun _ => rfl
    refine ⟨?_, fun e failed => tookOperands_go (w := a.device.catchUp.window) failed⟩
    rw [← started]
    rcases ((Shared.link .null).go a.device).value with ⟨_ | _, s⟩ <;> rfl

/-- Reading the answer writes no register. -/
lemma complete_writes (a : Accelerator Shared) :
    (a.complete (Shared.link .null)).value.2.device.writes = a.device.writes ∧
      tookOperands (a.complete (Shared.link .null)).value.1 = true := by
  obtain ⟨e, refusal, refused⟩ | ⟨-, made⟩ := (complete_spec (Shared.link .null) a).cases
  · rw [refused]
    exact ⟨rfl, tookOperands_refusal refusal nofun⟩
  · rw [made]
    have waited : ((Shared.link .null).wait a.device).value.2.writes = a.device.writes :=
      writes_call fun _ => rfl
    exact ⟨waited, tookOperands_wait a.device.catchUp.window⟩

/-- Once its operands are configured, a transaction writes nothing more. -/
lemma start_writes (a : Accelerator Shared) :
    (a.transaction (Shared.link .null) []).value.2.device.writes = a.device.writes ∧
      tookOperands (a.transaction (Shared.link .null) []).value.1 = true := by
  obtain ⟨writes, late⟩ := trigger_writes a
  rcases started : (a.trigger (Shared.link .null)).value with ⟨e | _, b⟩
  · rw [started] at writes late
    rw [transaction, andThen_error started]
    exact ⟨writes, late e rfl⟩
  · rw [started] at writes
    obtain ⟨after, took⟩ := complete_writes b
    rw [transaction, andThen_ok started]
    exact ⟨after.trans writes, took⟩

/-- A transaction that comes in time writes its operands in order. -/
lemma early_writes (operands : List (Register × UInt32))
    (early : a.phase = .idle ∨ a.phase = .loading) :
    (a.transaction (Shared.link .null) operands).value.2.device.writes =
        a.device.writes ++ operands.map Prod.fst ∧
      tookOperands (a.transaction (Shared.link .null) operands).value.1 = true := by
  induction operands generalizing a with
  | nil =>
    rw [List.map_nil, List.append_nil]
    exact start_writes a
  | cons operand rest ih =>
    obtain ⟨notIdle, notLoading, -⟩ | ⟨b, made, loading, writes⟩ :=
      configure_cases a operand.1 operand.2
    · exact (early.elim notIdle notLoading).elim
    · obtain ⟨after, took⟩ := ih (.inr loading)
      rw [transaction, andThen_ok made]
      refine ⟨?_, took⟩
      rw [after, writes, List.append_assoc]
      rfl

/-- A transaction writes its operands, or none of them if it comes too late. -/
lemma transaction_writes (a : Accelerator Shared) (operands : List (Register × UInt32)) :
    (a.transaction (Shared.link .null) operands).value.2.device.writes = a.device.writes ++
      if tookOperands (a.transaction (Shared.link .null) operands).value.1
        then operands.map Prod.fst else [] := by
  cases operands with
  | nil =>
    obtain ⟨writes, took⟩ := start_writes a
    rw [if_pos took, List.map_nil, List.append_nil]
    exact writes
  | cons operand rest =>
    obtain ⟨-, -, refused⟩ | ⟨b, made, loading, writes⟩ := configure_cases a operand.1 operand.2
    · rw [transaction, andThen_error refused, if_neg (by simp [tookOperands]), List.append_nil]
    · obtain ⟨after, took⟩ := early_writes rest (.inr loading)
      rw [transaction, andThen_ok made, if_pos took, after, writes, List.append_assoc]
      rfl

/-- A request writes the registers that it configures. -/
lemma perform_writes (a : Accelerator Shared) {request : Request}
    (registers : request.usesMemory = false) :
    (perform (Shared.link .null) a request).value.2.device.writes =
      a.device.writes ++ configured request (perform (Shared.link .null) a request).value.1 := by
  cases request with
  | configure r value =>
    change (a.configure (Shared.link .null) r value).value.2.device.writes =
      _ ++ configured (.configure r value) (.done (a.configure (Shared.link .null) r value).value.1)
    obtain ⟨-, -, refused⟩ | ⟨b, made, -, writes⟩ := configure_cases a r value
    · rw [refused]
      exact (List.append_nil _).symm
    · rw [made]
      exact writes
  | trigger => exact (trigger_writes a).1.trans (List.append_nil _).symm
  | complete => exact (complete_writes a).1.trans (List.append_nil _).symm
  | transaction operands => exact transaction_writes a operands
  | echo value => exact transaction_writes a [(.go, value)]
  | access => cases registers
  | vectorAdd => cases registers

/-- Requests write the registers that they configure, in order. -/
lemma performAll_writes (a : Accelerator Shared) {requests : List Request}
    (registers : ∀ request ∈ requests, request.usesMemory = false) :
    (performAll (Shared.link .null) a requests).value.2.device.writes =
      a.device.writes ++ configuredAll requests
        (performAll (Shared.link .null) a requests).value.1 := by
  induction requests generalizing a with
  | nil => exact (List.append_nil _).symm
  | cons request rest ih =>
    have first := perform_writes a (registers request List.mem_cons_self)
    have later := ih (perform (Shared.link .null) a request).value.2 fun request mem =>
      registers request (List.mem_cons_of_mem _ mem)
    rw [first, List.append_assoc] at later
    exact later

end Writes

/-! ## The two null accelerators -/

/-- The null accelerator behind a window that was `w` and the simulated one. They hold the same word
in their go registers from when the program writes it. -/
inductive Paired (w : RegisterWindow) : Accelerator Shared → Accelerator SoftwareDevice → Prop where
  | program {s : Shared} {registers : Registers} {m : Memory} {p : Phase}
      {written : List Register} :
    p ≠ .triggered → Since w s → (.go ∈ written → s.window.word (slot .go) = registers.go) →
    Paired w ⟨s, p, written⟩ ⟨⟨.null, registers, some m, none, true⟩, p, written⟩
  | command {s : Shared} {registers : Registers} {c : Command} {written : List Register} :
    Since w s → s.window.word (slot .go) = c.registers.go →
    Paired w ⟨s, .triggered, written⟩ ⟨⟨.null, registers, none, some c, true⟩, .triggered, written⟩

namespace Paired

variable {w : RegisterWindow} {a : Accelerator Shared} {b : Accelerator SoftwareDevice}

/-- Both accelerators are in the same phase. -/
lemma phase (paired : Paired w a b) : a.phase = b.phase := by
  cases paired <;> rfl

/-- The history of the window goes on. -/
lemma since (paired : Paired w a b) : Since w a.device := by
  cases paired with
  | program _ since => exact since
  | command since => exact since

/-- Both accelerators are refused the same calls. -/
lemma refusal?_eq (paired : Paired w a b) (ask : Ask) :
    ask.refusal? .null a = ask.refusal? .null b := by
  cases paired <;> cases ask <;> rfl

/-- A write to the go register makes both hold the same word, and no other register matters. -/
lemma configure (paired : Paired w a b) (r : Register) (value : UInt32) :
    Alike (Paired w) (a.configure (Shared.link .null) r value).value
      (b.configure (SoftwareDevice.link .null) r value).value := by
  refine (configure_spec (Shared.link .null) a r value).alike paired (paired.refusal?_eq _)
    (configure_spec (SoftwareDevice.link .null) b r value) fun passes => ?_
  rw [write_shared]
  cases paired with
  | @program s registers _ _ written _ since same =>
    refine ⟨rfl, .program nofun (since.catchUp.after _) fun mem => ?_⟩
    have stored : (s.catchUp.after (.write r value (.ok ()))).window.word (slot .go) =
        if r = .go then value else s.window.word (slot .go) := by
      have put := RegisterWindow.word_store s.catchUp.window (slot r) (slot .go) value
      simp only [slot_eq_iff] at put
      rw [since.word_catchUp] at put
      exact put
    have set : (registers.set r value).go = if r = .go then value else registers.go :=
      Registers.get_set registers r .go value
    rw [stored]
    refine Eq.trans ?_ set.symm
    split
    case isTrue => rfl
    case isFalse other =>
      exact same ((List.mem_cons.mp mem).resolve_left (Ne.symm other))
  | command => exact (configure_passes passes).elim nofun nofun

/-- A start takes along the word of the go register on both sides. -/
lemma trigger (null : w.operation = .null) (free : w.status &&& RegisterWindow.busy = 0)
    (paired : Paired w a b) :
    Alike (Paired w) (a.trigger (Shared.link .null)).value
      (b.trigger (SoftwareDevice.link .null)).value := by
  refine (trigger_spec (Shared.link .null) a).alike paired (paired.refusal?_eq _)
    (trigger_spec (SoftwareDevice.link .null) b) fun passes => ?_
  obtain ⟨loading, all⟩ := trigger_passes passes
  cases paired with
  | program _ since same =>
    rw [go_shared null free since]
    refine ⟨rfl, .command (since.catchUp.after _) ?_⟩
    exact since.word_catchUp.trans (same (all .go List.mem_cons_self))
  | command => cases loading

/-- The answer is the word of the go register on both sides. -/
lemma complete (finished : w.status &&& RegisterWindow.done ≠ 0) (paired : Paired w a b) :
    Alike (Paired w) (a.complete (Shared.link .null)).value
      (b.complete (SoftwareDevice.link .null)).value := by
  refine (complete_spec (Shared.link .null) a).alike paired (paired.refusal?_eq _)
    (complete_spec (SoftwareDevice.link .null) b) fun passes => ?_
  cases paired with
  | program outside => exact absurd (complete_passes passes) outside
  | @command _ _ c _ since same =>
    have completed : Command.completion? .null c = some ⟨.ok c.registers.go, c.memory⟩ := rfl
    rw [wait_shared finished since, SoftwareDevice.wait_value completed, same]
    exact ⟨rfl, .program nofun (since.catchUp.after _) nofun⟩

/-- The two null accelerators go in step. -/
lemma inStep (null : w.operation = .null) (finished : w.status &&& RegisterWindow.done ≠ 0)
    (free : w.status &&& RegisterWindow.busy = 0) :
    InStep (Shared.link .null) (SoftwareDevice.link .null) (Paired w) where
  configure r value paired := paired.configure r value
  trigger paired := paired.trigger null free
  complete paired := paired.complete finished

/-- The simulated accelerator echoes from any phase in which it takes operands. -/
lemma echo_value (paired : Paired w a b) (early : b.phase = .idle ∨ b.phase = .loading)
    (value : UInt32) : (echo (SoftwareDevice.link .null) b value).value.1 = .ok value := by
  cases paired with
  | program =>
    rcases early with rfl | rfl <;> rfl
  | command => exact early.elim nofun nofun

end Paired

/-- Whatever a window held before and whatever its device stores outside the go register and the
status word: as long as the status is that of an accelerator that has finished, the null accelerator
behind it answers every sequence of requests as the simulated one does, in the same phases, and
echoes from any phase in which it takes operands. The program changes no word of the window but the
registers that it configured. -/
theorem answers_of_shared (w : RegisterWindow) (ahead : List (List Stray)) (m : Memory)
    (requests : List Request) (null : w.operation = .null)
    (finished : w.status &&& RegisterWindow.done ≠ 0) (free : w.status &&& RegisterWindow.busy = 0)
    (harmless : ∀ batch ∈ ahead, ∀ stray ∈ batch, stray.Harmless)
    (registers : ∀ request ∈ requests, request.usesMemory = false) :
    ∃ answers a b,
      (performAll (Shared.link .null) { device := ⟨w, ahead, []⟩ } requests).value = (answers, a) ∧
      (performAll (SoftwareDevice.link .null) { device := { operation := .null, memory := some m } }
        requests).value = (answers, b) ∧
      a.phase = b.phase ∧ Spares w (configuredAll requests answers) a.device ∧
      (a.phase = .idle ∨ a.phase = .loading → ∀ value,
        (echo (Shared.link .null) a value).value.1 = .ok value ∧
        (echo (SoftwareDevice.link .null) b value).value.1 = .ok value) := by
  have fresh : Paired w { device := ⟨w, ahead, []⟩ }
      { device := { operation := .null, memory := some m } } :=
    .program nofun ⟨rfl, nofun, harmless⟩ nofun
  have inStep := Paired.inStep null finished free
  obtain ⟨answers, paired⟩ := performAll_alike Paired.phase
    (fun request mem _ _ => inStep.perform rfl (registers request mem)) fresh
  refine ⟨_, _, _, Prod.ext answers rfl, rfl, paired.phase, ?_, fun early value => ?_⟩
  · have writes := performAll_writes { device := ⟨w, ahead, []⟩ } registers
    rw [answers] at writes
    exact paired.since.spares writes
  · have simulated := paired.echo_value (paired.phase ▸ early) value
    have alike := inStep.transaction paired [(.go, value)]
    exact ⟨alike.1.trans simulated, simulated⟩

/-- A window that has been used: its status has bits beside the one that says that the accelerator
has finished. -/
def used : RegisterWindow :=
  ((⟨.null, .replicate _ 0⟩ : RegisterWindow).store statusSlot 6).store (slot .go) 7

/-- Stores into an operand register and behind the status word. -/
def strays : List (List Stray) :=
  [[⟨slot .src0, 3⟩], [], [⟨⟨40, by decide⟩, 5⟩, ⟨slot .src0, 4⟩]]

/-- A program that starts too early, writes the go register twice, once more when it is too late,
and forgets it in a transaction. -/
def attempts : List Request :=
  [.trigger, .configure .go 1, .configure .src0 9, .configure .go 5, .trigger, .configure .go 8,
    .complete, .transaction [(.size, 2)], .echo 3]

/-- What such a program gets from a used window, whose device stores into it at the same time. -/
theorem answers_of_shared_used :
    used.operation = .null ∧ used.status &&& RegisterWindow.done ≠ 0 ∧
    used.status &&& RegisterWindow.busy = 0 ∧
    ∃ a, (performAll (Shared.link .null) { device := ⟨used, strays, []⟩ } attempts).value =
        ([(.done (.error (.protocolViolation "trigger" .idle)), .idle), (.done (.ok ()), .loading),
          (.done (.ok ()), .loading), (.done (.ok ()), .loading), (.done (.ok ()), .triggered),
          (.done (.error (.protocolViolation "configure" .triggered)), .triggered),
          (.word (.ok 5), .idle), (.word (.error (.missingRegister 0)), .loading),
          (.word (.ok 3), .idle)], a) ∧
      Spares used [.go, .src0, .go, .size, .go] a.device ∧
      (echo (Shared.link .null) a 0xdeadbeef).value.1 = .ok 0xdeadbeef := by
  have status : used.status = 6 := by
    simp only [used, RegisterWindow.status, RegisterWindow.word_store]
    rfl
  have finished : used.status &&& RegisterWindow.done ≠ 0 := by
    rw [status]
    decide
  have free : used.status &&& RegisterWindow.busy = 0 := by
    rw [status]
    rfl
  have harmless : ∀ batch ∈ strays, ∀ stray ∈ batch, stray.Harmless := by
    unfold Stray.Harmless
    decide
  obtain ⟨answers, a, b, shared, simulated, phase, spares, echoes⟩ :=
    answers_of_shared used strays (.zero 16) attempts rfl finished free harmless (by decide)
  cases simulated
  exact ⟨rfl, finished, free, a, shared, spares, (echoes (phase ▸ .inl rfl) _).1⟩

end TileBench.Accelerator
