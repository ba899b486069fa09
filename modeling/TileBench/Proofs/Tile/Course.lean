import TileBench.Proofs.Tile.Call
import TileBench.Proofs.Tile.Service

/-!
# The first job of a core

`Lane.Course` follows one peer core from a moment at which it holds nothing: through the first job
that it is handed, which runs on the thread that the core has at that moment, and on to later jobs.
`Run.course` carries it through a run, and what the caller has done with the core tells how far it
has got (`Course.ahead_of_callers`, `Course.out_of_callers`, `Course.back_of_callers`).
-/

namespace TileBench.Tile

variable {β : Type} {c : Core} {thread : Thread} {job : Job β}

/-- Runs are started and ended by the caller. -/
lemma Deed.isCallers_of_isTurn {d : Deed β} (isTurn : d.isTurn = true) : d.isCallers = true := by
  cases d with
  | enter => rfl
  | leave => rfl
  | _ => cases isTurn

/-- `Course c thread lane deeds` holds when core `c`, which held nothing and had the thread
`thread`, is at `lane` after `deeds`: it still waits for a job, or it has got so far with the first
one, or it is through with it. -/
inductive Lane.Course (c : Core) (thread : Thread) : Lane β → List (Deed β) → Prop where
  | ahead {lane : Lane β} : lane.pending = 0 → lane.thread = thread → Course c thread lane []
  | handed {lane : Lane β} {job : Job β} :
    lane.slot = some job → lane.running = none → lane.outcome = none → lane.thread = thread →
    Course c thread lane [.hand c job]
  | taken {lane : Lane β} {job : Job β} :
    lane.slot = none → lane.running = some job → lane.outcome = none → lane.thread = thread →
    Course c thread lane [.hand c job, .take c job]
  | finished {lane : Lane β} {job : Job β} :
    lane.slot = none → lane.running = none → lane.outcome = some (job thread).value.1 →
    Course c thread lane [.hand c job, .take c job, .finish c (job thread).value.1]
  | collected {lane : Lane β} {job : Job β} {rest : List (Deed β)} :
    lane.Ledger c rest → Course c thread lane (service c job thread ++ rest)

namespace Lane

variable {lane old new : Lane β} {deeds before : List (Deed β)}

/-- Nothing is pending on a core whose three places are empty. -/
lemma pending_eq_zero_iff : lane.pending = 0 ↔
    lane.slot = none ∧ lane.running = none ∧ lane.outcome = none := by
  refine ⟨empty_of_pending_eq_zero, fun ⟨slot, running, outcome⟩ => ?_⟩
  simp [pending, slot, running, outcome]

/-- Whatever happens to a core, it goes on with its course. -/
lemma Moves.course {e e' : Nat} (moves : old.Moves c e deeds new e') (pending : old.pending = e)
    (kept : new.outcome = none → new.thread = old.thread)
    (calm : before ≠ [] ∨ ∀ d ∈ deeds, d.isTurn = false) (course : old.Course c thread before) :
    new.Course c thread (before ++ deeds) := by
  cases course with
  | ahead empty same =>
    obtain ⟨slot, running, outcome⟩ := empty_of_pending_eq_zero empty
    cases moves with
    | keep holds =>
      obtain ⟨hs, hr, ho⟩ := holds
      refine .ahead ?_ ((kept (ho.trans outcome)).trans same)
      exact pending_eq_zero_iff.mpr ⟨hs.trans slot, hr.trans running, ho.trans outcome⟩
    | turn isTurn holds =>
      rcases calm with none | calm
      · exact absurd rfl none
      · cases isTurn.symm.trans (calm _ List.mem_cons_self)
    | hand => exact .handed rfl running outcome same
    | take held => cases slot.symm.trans held
    | finish held => cases running.symm.trans held
    | collect held => cases outcome.symm.trans held
  | @handed job slot running outcome same =>
    cases moves with
    | keep holds =>
      obtain ⟨hs, hr, ho⟩ := holds
      rw [List.append_nil]
      exact .handed (hs.trans slot) (hr.trans running) (ho.trans outcome)
        ((kept (ho.trans outcome)).trans same)
    | turn => simp [Lane.pending, slot] at pending
    | hand => simp [Lane.pending, slot] at pending
    | take held =>
      cases slot.symm.trans held
      exact .taken rfl rfl outcome same
    | finish held => cases running.symm.trans held
    | collect held => cases outcome.symm.trans held
  | @taken job slot running outcome same =>
    cases moves with
    | keep holds =>
      obtain ⟨hs, hr, ho⟩ := holds
      rw [List.append_nil]
      exact .taken (hs.trans slot) (hr.trans running) (ho.trans outcome)
        ((kept (ho.trans outcome)).trans same)
    | turn => simp [Lane.pending, running] at pending
    | hand => simp [Lane.pending, running] at pending
    | take held => cases slot.symm.trans held
    | finish held =>
      -- The job runs on the thread that the core has had all along.
      cases running.symm.trans held
      subst same
      exact .finished slot rfl rfl
    | collect held => cases outcome.symm.trans held
  | @finished job slot running outcome =>
    cases moves with
    | keep holds =>
      obtain ⟨hs, hr, ho⟩ := holds
      rw [List.append_nil]
      exact .finished (hs.trans slot) (hr.trans running) (ho.trans outcome)
    | turn => simp [Lane.pending, outcome] at pending
    | hand => simp [Lane.pending, outcome] at pending
    | take held => cases slot.symm.trans held
    | finish held => cases running.symm.trans held
    | @collect o recorded held =>
      cases outcome.symm.trans held
      have idle : Ledger c { old with outcome := none, recorded } [] := .idle slot running rfl .nil
      exact .collected idle
  | collected ledger =>
    rw [List.append_assoc]
    exact .collected (moves.ledger pending ledger)

/-- A core that the caller has done nothing with, and that held nothing, has done nothing. -/
lemma Ledger.eq_nil (ledger : lane.Ledger c deeds) (none : deeds.filter Deed.isCallers = []) :
    deeds = [] ∧ lane.pending = 0 := by
  cases ledger with
  | idle slot running outcome served =>
    refine ⟨?_, pending_eq_zero_iff.mpr ⟨slot, running, outcome⟩⟩
    cases served with
    | nil => rfl
    | turn served isTurn => simp [Deed.isCallers_of_isTurn isTurn] at none
    | serve job thread served => simp [service, Deed.isCallers] at none
  | handed => simp [Deed.isCallers] at none
  | taken => simp [Deed.isCallers] at none
  | finished => simp [Deed.isCallers] at none

/-- What the caller does to serve a job. -/
lemma filter_isCallers_service : (service c job thread).filter Deed.isCallers =
    [.hand c job, .collect c (job thread).value.1] := rfl

/-- A core that has not been handed a job has done nothing and holds nothing. -/
lemma Course.ahead_of_callers (course : lane.Course c thread deeds)
    (none : deeds.filter Deed.isCallers = []) : deeds = [] ∧ lane.pending = 0 := by
  cases course with
  | ahead empty same => exact ⟨rfl, empty⟩
  | handed => cases none
  | taken => cases none
  | finished => cases none
  | collected ledger => cases none

/-- A core that has been handed a job which has not been collected holds the job or its outcome. -/
lemma Course.out_of_callers (course : lane.Course c thread deeds)
    (out : deeds.filter Deed.isCallers = [.hand c job]) : lane.pending = 1 := by
  cases course with
  | ahead => cases out
  | handed slot running outcome same => simp [pending, slot, running, outcome]
  | taken slot running outcome same => simp [pending, slot, running, outcome]
  | finished slot running outcome => simp [pending, slot, running, outcome]
  | collected ledger => cases out

/-- A core whose first job has been collected has served that job, on its own thread, and nothing
else. -/
lemma Course.back_of_callers {o : Outcome β} (course : lane.Course c thread deeds)
    (back : deeds.filter Deed.isCallers = [.hand c job, .collect c o]) :
    deeds = service c job thread ∧ o = (job thread).value.1 := by
  cases course with
  | ahead => cases back
  | handed => cases back
  | taken => cases back
  | finished => cases back
  | @collected job' rest ledger =>
    rw [List.filter_append, filter_isCallers_service] at back
    injection back with first back
    injection back with second back
    cases first
    cases second
    obtain ⟨rfl, -⟩ := ledger.eq_nil back
    exact ⟨List.append_nil _, rfl⟩

/-- A core that holds nothing, and was handed a job first, has served that job on its own thread,
and others after it. -/
lemma Course.served {more : List (Deed β)} (course : lane.Course c thread (deeds ++ more))
    (first : deeds.filter Deed.isCallers = [.hand c job]) (empty : lane.pending = 0) :
    ∃ rest, Served c rest ∧ deeds ++ more = service c job thread ++ rest := by
  generalize all : deeds ++ more = total at course
  have begins : total.filter Deed.isCallers = .hand c job :: more.filter Deed.isCallers := by
    rw [← all, List.filter_append, first]
    rfl
  cases course with
  | ahead => cases begins
  | handed slot => simp [pending, slot] at empty
  | taken slot running => simp [pending, running] at empty
  | finished slot running outcome => simp [pending, outcome] at empty
  | collected ledger =>
    injection begins with same
    cases same
    exact ⟨_, ledger.served empty, rfl⟩

end Lane

namespace Machine

variable {m m' : Machine β} {deeds new : List (Deed β)} {lane lane' : Lane β}

/-- A core keeps its thread when another one changes. -/
lemma thread_of_update {d : Core} {old moved : Lane β} {stance : Stance β}
    (found : m.lanes[d]? = some old) (here : m.lanes[c]? = some lane)
    (there : (m.update d moved stance).lanes[c]? = some lane') (none : lane'.outcome = none)
    (same : d = c → moved.outcome = .none → moved.thread = old.thread) :
    lane'.thread = lane.thread := by
  rw [getElem?_update found] at there
  by_cases hd : c = d
  · subst hd
    rw [if_pos rfl] at there
    cases there
    cases here.symm.trans found
    exact same rfl none
  · rw [if_neg hd] at there
    cases here.symm.trans there
    rfl

/-- The thread of a core changes only when the core finishes a job, and that of core 0 when a run
starts and when the caller runs a share of its own. -/
lemma Step.thread_eq (st : Step m new m')
    (away : c ≠ orchestrator ∨ new.filter Deed.movesCaller = []) (here : m.lanes[c]? = some lane)
    (there : m'.lanes[c]? = some lane') (none : lane'.outcome = none) :
    lane'.thread = lane.thread := by
  cases st
  case take found slot running => exact thread_of_update found here there none (fun _ _ => rfl)
  case finish found running outcome =>
    -- A finished job leaves an outcome, and here there is none.
    exact thread_of_update found here there none (fun _ => nofun)
  case hand found peer free slot => exact thread_of_update found here there none (fun _ _ => rfl)
  case mark found => exact thread_of_update found here there none (fun _ _ => rfl)
  case await found marked => exact thread_of_update found here there none (fun _ _ => rfl)
  case collect found outcome => exact thread_of_update found here there none (fun _ _ => rfl)
  case closeBusy found marked => exact thread_of_update found here there none (fun _ _ => rfl)
  case own found returns =>
    refine thread_of_update found here there none (fun core => ?_)
    exact away.elim (fun peer => absurd core.symm peer) nofun
  case ownPanic found panics =>
    refine thread_of_update found here there none (fun core => ?_)
    exact away.elim (fun peer => absurd core.symm peer) nofun
  case enter caller outside =>
    rcases away with peer | calm
    · have kept : (m.entered caller).lanes[c]? = some (fresh lane) := by
        simp [entered, here, Ne.symm peer]
      cases there.symm.trans kept
      rfl
    · cases calm
  all_goals
    cases here.symm.trans there
    rfl

section Runs

variable {earlier before : List (Deed β)}

/-- The books of a run go on through what follows it. -/
lemma Books.append (books : Books earlier m) (run : Run m deeds m') :
    Books (earlier ++ deeds) m' := by
  induction run with
  | refl =>
    rw [List.append_nil]
    exact books
  | tail _ st ih =>
    rw [← List.append_assoc]
    exact st.books ih

/-- A peer that is on its course stays on it. -/
lemma Run.course (run : Run m deeds m') (books : Books earlier m) (peer : c ≠ orchestrator)
    (here : m.lanes[c]? = some lane) (course : lane.Course c thread before)
    (calm : before ≠ [] ∨ ∀ d ∈ deeds, d.isTurn = false) :
    ∃ lane', m'.lanes[c]? = some lane' ∧
      lane'.Course c thread (before ++ deeds.filter (·.concerns c)) := by
  induction run with
  | refl => exact ⟨lane, here, by rwa [List.filter_nil, List.append_nil]⟩
  | @tail m₁ m₂ deeds new run st ih =>
    obtain ⟨mid, there, course⟩ :=
      ih (calm.imp_right fun calm d mem => calm d (List.mem_append_left _ mem))
    have now := books.append run
    obtain ⟨last, found, moves⟩ := st.moves now.tidy c mid there
    refine ⟨last, found, ?_⟩
    rw [List.filter_append, ← List.append_assoc]
    refine moves.course (now.accounted c mid there) (st.thread_eq (.inl peer) there found) ?_ course
    rcases calm with begun | calm
    · exact .inl fun none => begun (List.append_eq_nil_iff.mp none).1
    · exact .inr fun d mem => calm d (List.mem_append_right _ (List.mem_filter.mp mem).1)

/-- The caller keeps its thread until it runs a share of its own. -/
lemma Run.caller_thread_eq (run : Run m deeds m') (books : Books earlier m)
    (calm : deeds.filter Deed.movesCaller = []) (here : m.lanes[orchestrator]? = some lane) :
    ∃ lane', m'.lanes[orchestrator]? = some lane' ∧ lane'.thread = lane.thread := by
  induction run with
  | refl => exact ⟨lane, here, rfl⟩
  | @tail m₁ m₂ deeds new run st ih =>
    rw [List.filter_append, List.append_eq_nil_iff] at calm
    obtain ⟨mid, there, same⟩ := ih calm.1
    have now := books.append run
    obtain ⟨last, found, -⟩ := st.moves now.tidy orchestrator mid there
    refine ⟨last, found, (st.thread_eq (.inr calm.2) there found ?_).trans same⟩
    -- Nothing is ever handed to core 0, so that it has no outcome.
    have books := st.books now
    have away : m₂.stance.isAt orchestrator = false :=
      Bool.eq_false_iff.mpr fun there => (books.tidy.peer _ there).1 rfl
    obtain ⟨-, pending⟩ := books.pending_eq_zero found (.inl rfl) away
    exact (Lane.empty_of_pending_eq_zero pending).2.2

/-- When a run ends the caller has passed every core. -/
lemma Run.exists_last {m'' : Machine β} {later after : List (Deed β)} {recorded : List (List β)}
    {caller : Thread} (run : Run m later m'')
    (eq : later = before ++ .leave recorded caller :: after) :
    ∃ m' last, Run m before m' ∧ m'.stance = .ready (.close last) ∧ m'.lanes.length ≤ last := by
  induction run generalizing after with
  | refl => simp at eq
  | @tail m₁ m₂ deeds new run st ih =>
    -- Either an earlier step has ended the run, or this one has.
    rcases append_eq_append_cons eq with ⟨rest, split⟩ | ⟨mid, rfl, split⟩
    · exact ih split
    · have shown : .leave recorded caller ∈ new := by simp [split]
      cases st
      case leave last lane ready beyond here =>
        cases mid with
        | nil => exact ⟨m₁, last, by rwa [List.append_nil], ready, beyond⟩
        | cons d mid => simp at split
      case mark p handing here => cases p <;> simp [Plan.spawnDeeds] at shown
      case refuseSpawn ready spawns refuses => cases spawns <;> simp [Plan.spawnDeeds] at shown
      case refuseJoin ready joins refuses => cases joins <;> simp [Plan.joinDeeds] at shown
      case collect p waiting here outcome => cases p <;> simp [Plan.joinDeeds] at shown
      all_goals simp at shown

/-- A peer that was handed a job has served it by the end of the run. -/
lemma Run.served {m'' : Machine β} {later after : List (Deed β)} {recorded : List (List β)}
    {caller : Thread} (run : Run m later m'') (books : Books earlier m) (peer : c ≠ orchestrator)
    (here : m.lanes[c]? = some lane) (course : lane.Course c thread deeds)
    (handed : deeds.filter Deed.isCallers = [.hand c job])
    (eq : later = before ++ .leave recorded caller :: after) :
    ∃ rest, Served c rest ∧ deeds ++ before.filter (·.concerns c) =
      service c job thread ++ rest := by
  obtain ⟨m', last, run, ready, beyond⟩ := run.exists_last eq
  have begun : deeds ≠ [] := by
    rintro rfl
    cases handed
  obtain ⟨lane', there, course⟩ := run.course books peer here course (.inl begun)
  have now := books.append run
  have free := now.tidy.free_of_last ready beyond there
  refine course.served handed ((now.accounted c lane' there).trans ?_)
  exact expected_eq_zero free (by simp [ready])

end Runs

end Machine

end TileBench.Tile
