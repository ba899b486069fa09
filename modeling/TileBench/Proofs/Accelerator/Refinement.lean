import TileBench.Accelerator.Handshake
import TileBench.Proofs.Accelerator.Device
import TileBench.Proofs.Accelerator.Simulation

/-!
# The device on its own thread

A program and a device that step in any order do what `SoftwareDevice` does in one go. `Tracks` says
where the memory is and what the sequential device has in its place; every step of the device and
every call of the program keeps it, and `System.Run.simulates` carries it through a run. From it
follow who holds the memory, that the device is never lost, and that the sequential device gives the
same answers in the same phases.
-/

namespace TileBench.Accelerator

variable {o : Operation}

/-- `Tracks o a b` holds when the program behind `a` is where the one behind `b` is, and the memory
that `b` has is with the program, or in a command that was sent, or with the device, or in a
completion. -/
inductive Tracks (o : Operation) : Accelerator Handshake → Accelerator SoftwareDevice → Prop where
  | host {registers : Registers} {m : Memory} {p : Phase} {w : List Register} :
    p ≠ .triggered → m.wordCount < Device.addressableWords →
    Tracks o ⟨⟨o, registers, some m, none, none, none, true⟩, p, w⟩
      ⟨⟨o, registers, some m, none, true⟩, p, w⟩
  | sent {registers : Registers} {c : Command} {w : List Register} :
    c.memory.wordCount < Device.addressableWords →
    Tracks o ⟨⟨o, registers, none, some c, none, none, true⟩, .triggered, w⟩
      ⟨⟨o, registers, none, some c, true⟩, .triggered, w⟩
  | working {registers : Registers} {c : Command} {w : List Register} :
    c.memory.wordCount < Device.addressableWords →
    Tracks o ⟨⟨o, registers, none, none, some c, none, true⟩, .triggered, w⟩
      ⟨⟨o, registers, none, some c, true⟩, .triggered, w⟩
  | returned {registers : Registers} {c : Command} {done : Completion} {w : List Register} :
    c.completion? o = some done → done.memory.wordCount < Device.addressableWords →
    (∀ f, done.answer = .error f → f.isOfMemory = true) →
    Tracks o ⟨⟨o, registers, none, none, none, some done, true⟩, .triggered, w⟩
      ⟨⟨o, registers, none, some c, true⟩, .triggered, w⟩

/-- The same reply, in which the device is not silent, and tracking devices after it. -/
def Follows {α : Type} (o : Operation) (x : Reply Handshake α)
    (y : Reply SoftwareDevice α) : Prop :=
  Alike (Tracks o) x y ∧ ∀ e, x.1 = .error e → e.isSilence = false

/-- A fault of the memory is an answer of the device. -/
lemma isSilence_of_memory {e : Fault} (ofMemory : e.isOfMemory = true) : e.isSilence = false := by
  cases e with
  | misaligned => rfl
  | outOfBounds => rfl
  | _ => cases ofMemory

namespace Tracks

variable {a a' : Accelerator Handshake} {b : Accelerator SoftwareDevice}

/-- A step of the device leaves the sequential device as it is. -/
lemma device_step {h : Handshake} (tracks : Tracks o a b) (st : a.device.DeviceStep h) :
    Tracks o { a with device := h } b := by
  cases tracks with
  | host => cases st <;> contradiction
  | sent small =>
    cases st with
    | take taken =>
      cases taken
      exact .working small
    | finish => contradiction
    | panic => contradiction
  | @working _ c _ small =>
    -- The device finishes the command without a panic, since the memory is addressable.
    obtain ⟨done, eq, size, answer⟩ := c.exists_completion o small
    cases st with
    | take => contradiction
    | finish here completed =>
      cases here
      cases eq.symm.trans completed
      exact .returned completed (size ▸ small) answer
    | panic here panics =>
      cases here
      cases eq.symm.trans panics
  | returned => cases st <;> contradiction

/-- The program behind either device is refused the same calls. -/
lemma refusal?_eq (tracks : Tracks o a b) (ask : Ask) : ask.refusal? o a = ask.refusal? o b := by
  cases tracks <;> cases ask <;> rfl

/-- Calls that are both specified give replies that follow each other if their replies from the link
do. -/
lemma follows {α : Type} {ask : Ask} {x : Logged (Reply Handshake α)}
    {y : Logged (Reply SoftwareDevice α)} {u : Reply Handshake α} {v : Reply SoftwareDevice α}
    (tracks : Tracks o a b) (first : Specifies o a ask x u) (second : Specifies o b ask y v)
    (replies : ask.refusal? o a = none → Follows o u v) : Follows o x.value y.value := by
  refine ⟨first.alike tracks (tracks.refusal?_eq ask) second fun passes => (replies passes).1, ?_⟩
  unfold Specifies at first
  cases refusal : ask.refusal? o a with
  | some e =>
    rw [refusal] at first
    rw [first]
    rintro _ ⟨⟩
    exact isSilence_refusal refusal
  | none =>
    rw [refusal] at first
    rw [first]
    exact (replies refusal).2

/-- A write gets the same answer from both devices. -/
lemma configure (tracks : Tracks o a b) (r : Register) (value : UInt32) :
    Follows o (a.configure (Handshake.link o) r value).value
      (b.configure (SoftwareDevice.link o) r value).value := by
  refine tracks.follows (configure_spec (Handshake.link o) a r value)
    (configure_spec (SoftwareDevice.link o) b r value) fun passes => ?_
  have early := configure_passes passes
  cases tracks with
  | host _ small => exact ⟨⟨rfl, .host nofun small⟩, nofun⟩
  | sent => exact early.elim nofun nofun
  | working => exact early.elim nofun nofun
  | returned => exact early.elim nofun nofun

/-- A start gets the same answer from both devices, and the memory goes along with the command. -/
lemma trigger (tracks : Tracks o a b) :
    Follows o (a.trigger (Handshake.link o)).value (b.trigger (SoftwareDevice.link o)).value := by
  refine tracks.follows (trigger_spec (Handshake.link o) a)
    (trigger_spec (SoftwareDevice.link o) b) fun passes => ?_
  obtain ⟨loading, -⟩ := trigger_passes passes
  cases tracks with
  | host _ small => exact ⟨⟨rfl, .sent small⟩, nofun⟩
  | sent => cases loading
  | working => cases loading
  | returned => cases loading

/-- The program reads what the sequential device computes, unless it has to wait for it. -/
lemma complete (tracks : Tracks o a b)
    (answered : (a.complete (Handshake.link o)).value.1 ≠ .error .unanswered) :
    Follows o (a.complete (Handshake.link o)).value (b.complete (SoftwareDevice.link o)).value := by
  have spec := complete_spec (Handshake.link o) a
  refine tracks.follows spec (complete_spec (SoftwareDevice.link o) b) fun passes => ?_
  unfold Specifies at spec
  rw [show Ask.complete.refusal? (Handshake.link o).operation a = none from passes] at spec
  rw [spec] at answered
  -- The call did not have to wait, so that the completion is in its slot.
  have triggered := complete_passes passes
  cases tracks with
  | host outside => exact absurd triggered outside
  | sent => exact absurd rfl answered
  | working => exact absurd rfl answered
  | @returned registers c done w completed small ofMemory =>
    rw [SoftwareDevice.wait_value completed]
    exact ⟨⟨rfl, .host nofun small⟩, fun e faulty => isSilence_of_memory (ofMemory e faulty)⟩

/-- An access gets the same answer from both devices; it passes only where the program has the
memory. -/
lemma withMemory (tracks : Tracks o a b) (what : Access) :
    Follows o (a.withMemory (Handshake.link o) what.perform)
      (b.withMemory (SoftwareDevice.link o) what.perform) := by
  refine tracks.follows (withMemory_spec (Handshake.link o) a what.perform)
    (withMemory_spec (SoftwareDevice.link o) b what.perform) fun passes => ?_
  have idle := memory_passes passes
  cases tracks with
  | host outside small =>
    refine ⟨⟨rfl, .host outside ?_⟩, fun e faulty => ?_⟩
    · rwa [what.wordCount_perform]
    · exact isSilence_of_memory (Access.perform_error faulty)
  | sent => cases idle
  | working => cases idle
  | returned => cases idle

/-- The programs behind both devices are in one phase. -/
lemma phase_eq (tracks : Tracks o a b) : a.phase = b.phase := by
  cases tracks <;> rfl

/-- Both devices have the same registers and show the program the same memory. -/
lemma contents_eq (tracks : Tracks o a b) : a.written = b.written ∧
    a.device.registers = b.device.registers ∧ a.device.memory = b.device.memory := by
  cases tracks <;> exact ⟨rfl, rfl, rfl⟩

/-- One place holds the memory, and it is the program unless the device has been triggered. -/
lemma held_length (tracks : Tracks o a b) :
    a.device.held.length = 1 ∧ (a.phase ≠ .triggered → a.device.memory.isSome = true) ∧
      a.device.inFlight ≤ 1 := by
  cases tracks with
  | host => exact ⟨rfl, fun _ => rfl, Nat.zero_le 1⟩
  | sent => exact ⟨rfl, (absurd rfl ·), Nat.le_refl 1⟩
  | working => exact ⟨rfl, (absurd rfl ·), Nat.le_refl 1⟩
  | returned => exact ⟨rfl, (absurd rfl ·), Nat.le_refl 1⟩

/-- While the device has work it can take a step, and each step leaves less. -/
lemma device_progress (tracks : Tracks o a b) :
    (a.device.deviceWork ≠ 0 → ∃ h, a.device.DeviceStep h) ∧
      ∀ h, a.device.DeviceStep h → h.deviceWork < a.device.deviceWork := by
  constructor
  · intro busy
    cases tracks with
    | host => exact absurd rfl busy
    | sent => exact ⟨_, .take rfl rfl rfl⟩
    | @working _ c _ small =>
      obtain ⟨done, completed, -⟩ := c.exists_completion o small
      exact ⟨_, .finish rfl completed rfl⟩
    | returned => exact absurd rfl busy
  · intro h st
    cases st with
    | take sent _ working => simp [Handshake.deviceWork, sent, working]
    | finish working => simp [Handshake.deviceWork, working]
    | panic working => simp [Handshake.deviceWork, working]

/-- Once the device has no work left, the program need not wait for its answer. -/
lemma answered (tracks : Tracks o a b) (rest : a.device.deviceWork = 0) :
    (a.complete (Handshake.link o)).value.1 ≠ .error .unanswered := by
  have spec := complete_spec (Handshake.link o) a
  unfold Specifies at spec
  split at spec
  case h_1 refusal =>
    rw [spec]
    rintro ⟨⟩
    cases isSilence_refusal refusal
  case h_2 passes =>
    rw [spec]
    have triggered := complete_passes passes
    cases tracks with
    | host outside => exact absurd triggered outside
    | sent => cases rest
    | working => cases rest
    | returned _ _ ofMemory =>
      intro blocked
      cases ofMemory _ blocked

end Tracks

/-! ## Requests -/

/-- What the device on its own thread answers the sequential device answers as well. -/
lemma Follows.of_eq {α : Type} {x : Reply Handshake α} {y : Reply SoftwareDevice α}
    {v : Except Fault α} {a : Accelerator Handshake} (follows : Follows o x y) (made : x = (v, a)) :
    ∃ b, y = (v, b) ∧ Tracks o a b ∧ ∀ e, v = .error e → e.isSilence = false := by
  cases made
  exact ⟨y.2, Prod.ext follows.1.1.symm rfl, follows.1.2, follows.2⟩

/-- The kind of an answer does not matter to the accelerator after it. -/
lemma value_of {σ α : Type} (kind : Except Fault α → Answer) (step : Logged (Reply σ α)) :
    (Answer.of kind step).value = (kind step.value.1, step.value.2) := rfl

/-- Replies that follow each other also do so as answers of one kind. -/
lemma Follows.answer {α : Type} {kind : Except Fault α → Answer} {x : Logged (Reply Handshake α)}
    {y : Logged (Reply SoftwareDevice α)} {answer : Answer} {a : Accelerator Handshake}
    (follows : Follows o x.value y.value) (faults : ∀ v e, (kind v).fault? = some e → v = .error e)
    (made : (Answer.of kind x).value = (answer, a)) :
    ∃ b, (Answer.of kind y).value = (answer, b) ∧ Tracks o a b ∧
      ∀ e, answer.fault? = some e → e.isSilence = false := by
  obtain ⟨b, eq, tracks, given⟩ := follows.of_eq rfl
  rw [value_of] at made
  cases made
  exact ⟨b, by rw [value_of, eq], tracks, fun e faulty => given e (faults _ _ faulty)⟩

/-- The fault of an answer without a value is that of its call. -/
lemma fault?_done (v : Except Fault Unit) (e : Fault) (faulty : (Answer.done v).fault? = some e) :
    v = .error e := by
  cases v <;> cases faulty
  rfl

/-- The fault of an answer with a word is that of its call. -/
lemma fault?_word (v : Except Fault UInt32) (e : Fault) (faulty : (Answer.word v).fault? = some e) :
    v = .error e := by
  cases v <;> cases faulty
  rfl

/-- The fault of an answer with a run of words is that of its call. -/
lemma fault?_words (v : Except Fault (List UInt32)) (e : Fault)
    (faulty : (Answer.words v).fault? = some e) : v = .error e := by
  cases v <;> cases faulty
  rfl

/-- One call of a program gets the same answer from both devices, unless it has to wait for it. -/
lemma Tracks.request {request : Request} {answer : Answer} {a a' : Accelerator Handshake}
    {b : Accelerator SoftwareDevice} (tracks : Tracks o a b) (call : request.isCall = true)
    (made : (perform (Handshake.link o) a request).value = (answer, a'))
    (answered : request = .complete →
      (a.complete (Handshake.link o)).value.1 ≠ .error .unanswered) :
    ∃ b', (perform (SoftwareDevice.link o) b request).value = (answer, b') ∧ Tracks o a' b' ∧
      ∀ e, answer.fault? = some e → e.isSilence = false := by
  cases request with
  | configure r value => exact (tracks.configure r value).answer fault?_done made
  | trigger => exact tracks.trigger.answer fault?_done made
  | complete => exact (tracks.complete (answered rfl)).answer fault?_word made
  | access what => exact Follows.answer (tracks.withMemory what) fault?_words made
  | transaction => cases call
  | echo => cases call
  | vectorAdd => cases call

/-- What a transaction has come to in the middle. -/
inductive Partway {σ : Type} (link : Link σ) (a : Accelerator σ) : Task → Accelerator σ → Prop where
  | free : Partway link a .free a
  | transaction {operands : List (Register × UInt32)} :
    Partway link a (.loading operands operands) a
  | load {operands rest : List (Register × UInt32)} {r : Register} {value : UInt32}
      {b c : Accelerator σ} :
    Partway link a (.loading operands ((r, value) :: rest)) b →
    (b.configure link r value).value = (.ok (), c) → Partway link a (.loading operands rest) c
  | trigger {operands : List (Register × UInt32)} {b c : Accelerator σ} :
    Partway link a (.loading operands []) b → (b.trigger link).value = (.ok (), c) →
    Partway link a (.completing operands) c

namespace Partway

variable {σ : Type} {link : Link σ} {a b : Accelerator σ} {operands rest : List (Register × UInt32)}

/-- What is left of a transaction that still writes comes to what the whole transaction comes to. -/
lemma transaction_eq (partway : Partway link a (.loading operands rest) b) :
    (a.transaction link operands).value = (b.transaction link rest).value := by
  generalize task : Task.loading operands rest = t at partway
  induction partway generalizing rest with
  | free => cases task
  | transaction =>
    cases task
    rfl
  | load _ written ih =>
    cases task
    rw [ih rfl]
    exact andThen_ok written
  | trigger => cases task

/-- Reading the answer of a started transaction comes to what the whole transaction comes to. -/
lemma complete_eq (partway : Partway link a (.completing operands) b) :
    (a.transaction link operands).value = (b.complete link).value := by
  cases partway with
  | trigger loading started =>
    rw [loading.transaction_eq]
    exact andThen_ok started

end Partway

/-- `Replays o m log b` holds when the sequential device brought up with memory `m` gives the
answers in `log` in the phases that are there, and comes to `b`. -/
def Replays (o : Operation) (m : Memory) (log : List Exchange)
    (b : Accelerator SoftwareDevice) : Prop :=
  (performAll (SoftwareDevice.link o) { device := { operation := o, memory := some m } }
    (log.map Exchange.request)).value = (log.map fun x => (x.answer, x.phase), b)

/-- Requests can be continued by one more. -/
lemma performAll_concat {σ : Type} {link : Link σ} {a b c : Accelerator σ} {requests : List Request}
    {request : Request} {answers : List (Answer × Phase)} {answer : Answer}
    (before : (performAll link a requests).value = (answers, b))
    (last : (perform link b request).value = (answer, c)) :
    (performAll link a (requests ++ [request])).value = (answers ++ [(answer, c.phase)], c) := by
  induction requests generalizing a answers with
  | nil =>
    cases before
    simp [performAll, last]
  | cons first requests ih =>
    rcases first_eq : (perform link a first).value with ⟨x, a₁⟩
    rcases rest_eq : (performAll link a₁ requests).value with ⟨xs, b₁⟩
    simp only [performAll, Logged.value_bind, first_eq, rest_eq, Logged.value_pure] at before
    cases before
    simp [performAll, first_eq, ih rest_eq]

/-- A replayed log can be continued by one more answer. -/
lemma Replays.concat {m : Memory} {log : List Exchange} {b c : Accelerator SoftwareDevice}
    {request : Request} {answer : Answer} (replays : Replays o m log b)
    (last : (perform (SoftwareDevice.link o) b request).value = (answer, c)) :
    Replays o m (log ++ [⟨request, answer, c.phase⟩]) c := by
  unfold Replays
  simpa using performAll_concat replays last

/-- What holds after any run of a program and its device: `b` is what the answered requests leave of
the sequential device, and `c` what it comes to in the middle of a transaction. -/
structure Simulates (o : Operation) (m : Memory) (log : List Exchange) (s : System)
    (b c : Accelerator SoftwareDevice) : Prop where
  replays : Replays o m log b
  partway : Partway (SoftwareDevice.link o) b s.task c
  tracks : Tracks o s.host c
  given : ∀ x ∈ log, ∀ e, x.answer.fault? = some e → e.isSilence = false

/-- The simulation goes on with the answer to a call. -/
lemma Simulates.exchange {m : Memory} {log : List Exchange} {s : System}
    {a : Accelerator Handshake} {b c d : Accelerator SoftwareDevice} {request : Request}
    {answer : Answer} (simulates : Simulates o m log s b c)
    (last : (perform (SoftwareDevice.link o) b request).value = (answer, d)) (tracks : Tracks o a d)
    (given : ∀ e, answer.fault? = some e → e.isSilence = false) :
    Simulates o m (log ++ [⟨request, answer, a.phase⟩]) ⟨a, .free⟩ d d where
  replays := tracks.phase_eq ▸ simulates.replays.concat last
  partway := .free
  tracks := tracks
  given := by
    intro x mem
    rcases List.mem_append.mp mem with old | new
    · exact simulates.given x old
    · cases List.mem_singleton.mp new
      exact given

/-- The simulation goes on with the answer that a transaction has come to. -/
lemma Simulates.ends {m : Memory} {log : List Exchange} {s : System} {a : Accelerator Handshake}
    {b c d : Accelerator SoftwareDevice} {operands : List (Register × UInt32)}
    {x : Except Fault UInt32} (simulates : Simulates o m log s b c)
    (last : (b.transaction (SoftwareDevice.link o) operands).value = (x, d)) (tracks : Tracks o a d)
    (given : ∀ e, x = .error e → e.isSilence = false) :
    ∃ b' c', Simulates o m (log ++ [⟨.transaction operands, .word x, a.phase⟩])
      ⟨a, .free⟩ b' c' := by
  refine ⟨d, d, simulates.exchange ?_ tracks fun e faulty => given e (fault?_word _ _ faulty)⟩
  rw [perform, value_of, last]

/-- Every step of the program or the device keeps the simulation. -/
lemma System.Step.simulates {m : Memory} {log : List Exchange} {s s' : System}
    {new : Option Exchange} {b c : Accelerator SoftwareDevice} (st : System.Step o s new s')
    (simulates : Simulates o m log s b c) :
    ∃ b' c', Simulates o m (log ++ new.toList) s' b' c' := by
  obtain ⟨replays, partway, tracks, given⟩ := id simulates
  obtain ⟨host, task⟩ := s
  -- Only an exchange is added to the log: a whole request, or the call that ends a transaction.
  cases st with
  | device step =>
    refine ⟨b, c, ?_⟩
    rw [Option.toList_none, List.append_nil]
    exact ⟨replays, partway, tracks.device_step step, given⟩
  | @request request _ _ free call made answered =>
    cases free
    cases partway
    have ready : request = .complete →
        (host.complete (Handshake.link o)).value.1 ≠ .error .unanswered := by
      rintro rfl blocked
      cases made
      exact answered (by rw [blocked]; rfl)
    obtain ⟨d, last, tracks, given⟩ := tracks.request call made ready
    exact ⟨d, d, simulates.exchange last tracks given⟩
  | transaction free =>
    cases free
    cases partway
    refine ⟨b, b, ?_⟩
    rw [Option.toList_none, List.append_nil]
    exact ⟨replays, .transaction, tracks, given⟩
  | @load operands rest r value _ loading written =>
    cases loading
    obtain ⟨d, eq, tracks, -⟩ := (tracks.configure r value).of_eq written
    refine ⟨b, d, ?_⟩
    rw [Option.toList_none, List.append_nil]
    exact ⟨replays, partway.load eq, tracks, given⟩
  | @loadFailed operands rest r value _ _ loading failed =>
    cases loading
    obtain ⟨d, eq, tracks, given⟩ := (tracks.configure r value).of_eq failed
    refine simulates.ends ?_ tracks fun e' faulty => given e' (congrArg _ (Except.error.inj faulty))
    rw [partway.transaction_eq]
    exact andThen_error eq
  | trigger loading started =>
    cases loading
    obtain ⟨d, eq, tracks, -⟩ := tracks.trigger.of_eq started
    refine ⟨b, d, ?_⟩
    rw [Option.toList_none, List.append_nil]
    exact ⟨replays, partway.trigger eq, tracks, given⟩
  | triggerFailed loading failed =>
    cases loading
    obtain ⟨d, eq, tracks, given⟩ := tracks.trigger.of_eq failed
    refine simulates.ends ?_ tracks fun e' faulty => given e' (congrArg _ (Except.error.inj faulty))
    rw [partway.transaction_eq]
    exact andThen_error eq
  | complete completing read answered =>
    cases completing
    have follows := tracks.complete fun blocked => answered (by rw [read] at blocked; exact blocked)
    obtain ⟨d, eq, tracks, given⟩ := follows.of_eq read
    exact simulates.ends (partway.complete_eq.trans eq) tracks given

/-- The simulation holds after every run in an addressable memory. -/
lemma System.Run.simulates {m : Memory} {log : List Exchange} {s : System}
    (run : System.Run o (.start o m) log s) (small : m.wordCount < Device.addressableWords) :
    ∃ b c, Simulates o m log s b c := by
  induction run with
  | refl =>
    refine ⟨{ device := { operation := o, memory := some m } }, _, ?_, .free, ?_, ?_⟩
    · rfl
    · exact .host nofun small
    · exact fun x mem => absurd mem List.not_mem_nil
  | tail _ st ih =>
    obtain ⟨b, c, simulates⟩ := ih
    exact st.simulates simulates

/-- What a program sees of its device, and where the memory is. -/
structure Refines (o : Operation) (m : Memory) (log : List Exchange) (s : System) : Prop where
  /-- One of the program, the two slots and the device has the memory. -/
  held : s.host.device.held.length = 1
  /-- The program has it unless the device has been triggered. -/
  owner : s.host.phase ≠ .triggered → s.host.device.memory.isSome = true
  inFlight : s.host.device.inFlight ≤ 1
  given : ∀ x ∈ log, ∀ reason, x.answer.fault? ≠ some (.deviceLost reason)
  /-- The sequential device gives the same answers in the same phases, and comes to the same phase,
  the same registers and the same memory, also in the middle of a transaction. -/
  sequential : ∃ b c, Replays o m log b ∧ Partway (SoftwareDevice.link o) b s.task c ∧
    s.host.phase = c.phase ∧ s.host.written = c.written ∧
    s.host.device.registers = c.device.registers ∧ s.host.device.memory = c.device.memory
  /-- While the device has work it can take a step, and each step leaves less. -/
  busy : s.host.device.deviceWork ≠ 0 → ∃ h, s.host.device.DeviceStep h
  fewer : ∀ h, s.host.device.DeviceStep h → h.deviceWork < s.host.device.deviceWork
  /-- Only the call that reads the answer may have to wait, and only while the device has work. -/
  answered : ∀ request : Request, request.isCall = true →
    (request = .complete → s.host.device.deviceWork = 0) →
    (perform (Handshake.link o) s.host request).value.1.fault? ≠ some .unanswered

/-- A program and a device that step in any order refine the sequential device, in a memory that
32-bit addresses reach. -/
theorem refines_of_run (o : Operation) (m : Memory) (log : List Exchange) (s : System)
    (small : m.wordCount < Device.addressableWords) (run : System.Run o (.start o m) log s) :
    Refines o m log s := by
  obtain ⟨b, c, replays, partway, tracks, given⟩ := run.simulates small
  obtain ⟨held, owner, inFlight⟩ := tracks.held_length
  obtain ⟨busy, fewer⟩ := tracks.device_progress
  refine ⟨held, owner, inFlight, fun x mem reason lost => ?_,
    ⟨b, c, replays, partway, tracks.phase_eq, tracks.contents_eq⟩, busy, fewer, ?_⟩
  · cases given x mem _ lost
  · intro request call rest silent
    obtain ⟨-, -, -, given⟩ := tracks.request call rfl fun isComplete =>
      tracks.answered (rest isComplete)
    cases given _ silent

/-- A transaction of one word, between whose calls the device takes the command and finishes it. -/
theorem refines_of_run_echo : ∃ s : System,
    (Memory.zero 16).wordCount < Device.addressableWords ∧
    System.Run .null (.start .null (.zero 16)) [⟨.transaction [(.go, 5)], .word (.ok 5), .idle⟩] s ∧
    Refines .null (.zero 16) [⟨.transaction [(.go, 5)], .word (.ok 5), .idle⟩] s := by
  have asked : System.Step .null (.start .null (.zero 16)) none
      ⟨{ device := .start .null (.zero 16) }, .loading [(.go, 5)] [(.go, 5)]⟩ := .transaction rfl
  have sent := (((System.Run.refl _).tail asked).tail (.load rfl rfl)).tail (.trigger rfl rfl)
  have answered := ((sent.tail (.device (.take rfl rfl rfl))).tail
    (.device (.finish rfl rfl rfl))).tail (.complete rfl rfl nofun)
  have small : (Memory.zero 16).wordCount < Device.addressableWords := by decide
  exact ⟨_, small, answered, refines_of_run .null _ _ _ small answered⟩

end TileBench.Accelerator
