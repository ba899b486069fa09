import Mathlib.Data.List.Basic
import TileBench.Proofs.Tile.Caller
import TileBench.Proofs.Tile.Course

/-!
# Delivery of the jobs of a fork-join

A fork-join whose peers are free hands job `i` to core `i`, runs job 0 on the caller and joins the
peers in order. What the caller meets on a peer follows from the course of that peer (`Run.meets`),
and where a peer has got to follows from what the caller has done with it: `Makes.returns` and
`Makes.unwinds` read off a whole fork-join what each core did of it, and `delivers_of_run` gathers
it for any order of steps.
-/

namespace TileBench.Tile

variable {β : Type}

namespace Machine

variable {own job : Job β} {peers : List (Job β)} {m m' : Machine β}

/-! ## What a fork-join should do -/

/-- What the jobs of a fork-join give, each on the thread of its core. -/
def outcomes (m : Machine β) (jobs : List (Job β)) : List (Outcome β) :=
  List.zipWith (fun job lane => (job lane.thread).value.1) jobs m.lanes

/-- A fork-join that does nothing: the caller only answers, no mark changes, and no job runs on a
peer that had none. -/
structure Idles (m : Machine β) (jobs : List (Job β)) (deeds : List (Deed β)) (r : Reply)
    (m' : Machine β) : Prop where
  caller : deeds.filter Deed.isCallers = [.reply (.forkJoin jobs) r]
  marks : m'.marks = m.marks
  idle : ∀ c lane, c ≠ orchestrator → m.lanes[c]? = some lane → lane.isSpawned = false →
    deeds.filter (·.concerns c) = []

/-- A fork-join whose own share returns. -/
structure Returns (m : Machine β) (own : Job β) (peers : List (Job β))
    (deeds : List (Deed β)) (r : Reply) : Prop where
  /-- All peers have their jobs before the caller runs its share; then it joins them in order. -/
  caller : deeds.filter Deed.isCallers =
    Deed.transcript own peers (m.outcomes (own :: peers)).tail ++
    [.reply (.forkJoin (own :: peers)) r]
  /-- Each peer serves its job, once, and no other. -/
  served : ∀ c job lane, c ≠ orchestrator → (own :: peers)[c]? = some job →
    m.lanes[c]? = some lane → deeds.filter (·.concerns c) = service c job lane.thread
  ok : (∀ c o, c ≠ orchestrator → (m.outcomes (own :: peers))[c]? = some o → o.ending = .ok ()) →
    r = .ok (.ok ())
  /-- The lowest core whose job panicked is the one that is reported. -/
  failed : ∀ c o p, c ≠ orchestrator → (m.outcomes (own :: peers))[c]? = some o →
    o.ending = .error p →
    (∀ d o', d ≠ orchestrator → d < c → (m.outcomes (own :: peers))[d]? = some o' →
      o'.ending = .ok ()) →
    r = .ok (.error (.jobPanicked c p.message))

/-- A fork-join whose own share panics. -/
structure Unwinds (m : Machine β) (own : Job β) (peers : List (Job β)) (p : Payload)
    (deeds : List (Deed β)) (r : Reply) (m' : Machine β) : Prop where
  reply : r = .error p
  caller : deeds.filter Deed.isCallers =
    Deed.handOvers peers ++ [.own own (.error p), .reply (.forkJoin (own :: peers)) r]
  /-- When the run ends, each peer has served its job, once, and whatever it was handed later. -/
  served : ∀ c job lane, c ≠ orchestrator → (own :: peers)[c]? = some job →
    m.lanes[c]? = some lane →
    ∀ later m'' before after recorded thread, Run m' later m'' →
      later = before ++ .leave recorded thread :: after →
      ∃ rest, Served c rest ∧
        deeds.filter (·.concerns c) ++ before.filter (·.concerns c) =
          service c job lane.thread ++ rest

/-- `m.Delivers deeds r m' jobs` holds when `deeds` are what a fork-join of `jobs` should do that is
made at `m`, and `r` what it should answer. -/
inductive Delivers (m : Machine β) (deeds : List (Deed β)) (r : Reply) (m' : Machine β) :
    List (Job β) → Prop where
  | tooMany {jobs : List (Job β)} : m.lanes.length < jobs.length →
    r = .ok (.error (.coreOutOfRange (jobs.length - 1) m.lanes.length)) → m.Idles jobs deeds r m' →
    Delivers m deeds r m' jobs
  | none : r = .ok (.ok ()) → m.Idles [] deeds r m' → Delivers m deeds r m' []
  | returned {own : Job β} {peers : List (Job β)} {caller : Lane β} :
    (own :: peers).length ≤ m.lanes.length → m.lanes[orchestrator]? = some caller →
    (own caller.thread).value.1.ending = .ok () → m.Returns own peers deeds r →
    Delivers m deeds r m' (own :: peers)
  | panicked {own : Job β} {peers : List (Job β)} {caller : Lane β} {p : Payload} :
    (own :: peers).length ≤ m.lanes.length → m.lanes[orchestrator]? = some caller →
    (own caller.thread).value.1.ending = .error p → m.Unwinds own peers p deeds r m' →
    Delivers m deeds r m' (own :: peers)

/-- A call is answered whatever the order of steps: it can be made, and inside it every step leaves
less to do and goes on with it or answers it. -/
structure Terminates (m : Machine β) (call : Call β) : Prop where
  answered : ∃ deeds r m', m.Makes call deeds r m'
  goesOn : ∀ deeds m₁, Run m deeds m₁ → deeds.filter Deed.isSeen = [] →
    m₁.stance.call? = some call →
    (∃ new m₂, Step m₁ new m₂) ∧ ∀ new m₂, Step m₁ new m₂ → m₂.work < m₁.work ∧
      (new.filter Deed.isSeen = [] ∧ m₂.stance.call? = some call ∨
        ∃ r, m.Makes call (deeds ++ new) r m₂)

/-! ## What it does -/

/-- At `m` the body is free to make any call, and cores 1 to `count` exist and are free; `caller` is
core 0. -/
structure Affords (earlier : List (Deed β)) (m : Machine β) (count : Nat)
    (caller : Lane β) : Prop where
  books : Books earlier m
  body : m.stance = .ready .body
  core : m.lanes[orchestrator]? = some caller
  room : count < m.lanes.length
  free : ∀ i lane, i < count → m.lanes[1 + i]? = some lane → lane.isSpawned = false

/-- The peers that a fork-join uses are there. -/
lemma Affords.exists_peer {earlier : List (Deed β)} {count i : Nat} {caller : Lane β}
    (affords : m.Affords earlier count caller) (less : i < count) :
    ∃ lane, m.lanes[1 + i]? = some lane :=
  ⟨_, List.getElem?_eq_getElem (Nat.add_comm i 1 ▸ Nat.lt_of_le_of_lt less affords.room)⟩

section Runs

variable {m₁ : Machine β} {earlier deeds : List (Deed β)} {c : Core} {lane : Lane β} {r : Reply}

/-- Where no run is seen to start or to end, none does. -/
lemma calm_of_seen (seen : ∀ d ∈ deeds.filter Deed.isSeen, d.isTurn = false) :
    ∀ d ∈ deeds, d.isTurn = false := by
  intro d mem
  cases d with
  | enter caller => exact seen _ (List.mem_filter.mpr ⟨mem, rfl⟩)
  | leave recorded caller => exact seen _ (List.mem_filter.mpr ⟨mem, rfl⟩)
  | _ => rfl

/-- A peer that is free when the body makes a call is on its course during the call. -/
lemma Run.course_of_free (run : Run m deeds m₁) (books : Books earlier m)
    (body : m.stance = .ready .body) (calm : ∀ d ∈ deeds, d.isTurn = false)
    (peer : c ≠ orchestrator) (here : m.lanes[c]? = some lane) (free : lane.isSpawned = false) :
    ∃ lane', m₁.lanes[c]? = some lane' ∧
      lane'.Course c lane.thread (deeds.filter (·.concerns c)) := by
  have empty : lane.pending = 0 := by
    rw [books.accounted c lane here]
    exact expected_eq_zero free (by simp [body])
  exact run.course books peer here (.ahead empty rfl) (.inr calm)

/-- A core that holds nothing carries no mark. -/
lemma Accounted.unmarked (accounted : m.Accounted) (here : m.lanes[c]? = some lane)
    (empty : lane.pending = 0) : lane.isSpawned = false := by
  cases marked : lane.isSpawned with
  | false => rfl
  | true =>
    have counted := accounted c lane here
    rw [empty, expected_eq_one (.inl marked)] at counted
    cases counted

/-- A core that holds something and that the caller is not at carries a mark. -/
lemma Accounted.marked (accounted : m.Accounted) (here : m.lanes[c]? = some lane)
    (holds : lane.pending = 1) (away : m.stance.isAt c = false) : lane.isSpawned = true := by
  cases marked : lane.isSpawned with
  | true => rfl
  | false =>
    have counted := accounted c lane here
    rw [holds, expected_eq_zero marked away] at counted
    cases counted

/-- What a fork-join finds on its way when the machine could afford it. -/
lemma Run.meets {count : Nat} {caller : Lane β} (run : Run m deeds m₁)
    (affords : m.Affords earlier count caller) (unseen : deeds.filter Deed.isSeen = []) :
    m₁.Meets count caller.thread (deeds.filter Deed.isCallers) := by
  have calm : ∀ d ∈ deeds, d.isTurn = false := calm_of_seen (by simp [unseen])
  have now := affords.books.append run
  -- Every peer was free in the beginning, so that its course says how far it is.
  have course (i : Nat) (lane : Lane β) (less : i < count) (there : m₁.lanes[1 + i]? = some lane) :
      ∃ thread, lane.Course (1 + i) thread (deeds.filter (·.concerns (1 + i))) := by
    obtain ⟨old, here⟩ := affords.exists_peer less
    obtain ⟨lane', found, course⟩ :=
      run.course_of_free affords.books affords.body calm (one_add_ne i) here
        (affords.free i old less here)
    cases there.symm.trans found
    exact ⟨_, course⟩
  refine ⟨run.length_eq ▸ affords.room, fun i lane less there none => ?_,
    fun i lane job less there away out => ?_, fun lane there calm => ?_⟩
  · rw [List.filter_comm] at none
    obtain ⟨thread, course⟩ := course i lane less there
    exact now.accounted.unmarked there (course.ahead_of_callers none).2
  · rw [List.filter_comm] at out
    obtain ⟨thread, course⟩ := course i lane less there
    exact now.accounted.marked there (course.out_of_callers out) away
  · -- What moves the caller's thread is the caller's.
    have still : (deeds.filter Deed.isCallers).filter Deed.movesCaller =
        deeds.filter Deed.movesCaller := by
      rw [List.filter_filter]
      refine List.filter_congr fun d _ => ?_
      cases d <;> rfl
    obtain ⟨lane', found, same⟩ := run.caller_thread_eq affords.books (still ▸ calm) affords.core
    cases there.symm.trans found
    exact same

variable {own : Job β} {peers : List (Job β)} {caller : Lane β}

/-- Inside a fork-join that the machine could afford, the caller has got so far with it and no core
has refused. -/
lemma Run.forks (run : Run m deeds m₁) (affords : m.Affords earlier peers.length caller)
    (unseen : deeds.filter Deed.isSeen = [])
    (inside : m₁.stance.call? = some (.forkJoin (own :: peers))) :
    Forks own peers caller.thread m₁.stance (deeds.filter Deed.isCallers) := by
  induction run with
  | refl =>
    rw [affords.body] at inside
    cases inside
  | @tail m₁ m₂ deeds new run st ih =>
    rw [List.filter_append, List.append_eq_nil_iff] at unseen
    rw [List.filter_append]
    rcases run.unseen affords.body unseen.1 with ⟨still, -, none⟩ | ⟨call, before, -⟩
    · rw [none, List.nil_append]
      rcases st.starts still unseen.2 with works | ⟨call, starts⟩
      · rw [works.stance, still] at inside
        cases inside
      · cases starts.call?.symm.trans inside
        generalize m₂.stance = stands at starts
        cases starts with
        | forkJoin => exact .start own peers caller.thread
    · rcases st.inCall before with ⟨-, same⟩ | ⟨r, seen⟩
      · cases same.symm.trans inside
        rcases st.forks (ih unseen.1 before) (run.meets affords unseen.1)
          with ⟨-, forks⟩ | ⟨r, seen, -⟩
        · exact forks
        · cases unseen.2.symm.trans seen
      · cases unseen.2.symm.trans seen

/-- A call that is made is a run. -/
lemma Makes.run {call : Call β} (makes : m.Makes call deeds r m') : Run m deeds m' := by
  cases makes with
  | intro body run unseen st seen => exact run.tail st

/-- A call is made by the body. -/
lemma Makes.body {call : Call β} (makes : m.Makes call deeds r m') : m.stance = .ready .body := by
  cases makes with
  | intro body run unseen st seen => exact body

/-- Of a call that is made only its answer is seen. -/
lemma Makes.seen {call : Call β} (makes : m.Makes call deeds r m') :
    deeds.filter Deed.isSeen = [.reply call r] := by
  cases makes with
  | intro body run unseen st seen => rw [List.filter_append, unseen, seen, List.nil_append]

/-- No run starts or ends in the middle of a call. -/
lemma Makes.calm {call : Call β} (makes : m.Makes call deeds r m') :
    ∀ d ∈ deeds, d.isTurn = false := by
  refine calm_of_seen fun d mem => ?_
  rw [makes.seen, List.mem_singleton] at mem
  subst mem
  rfl

/-- A fork-join is answered at once, or once it has been gone through. -/
lemma Makes.forked {jobs : List (Job β)} (makes : m.Makes (.forkJoin jobs) deeds r m')
    (affords : jobs ≠ [] → jobs.length ≤ m.lanes.length →
      m.Affords earlier (jobs.length - 1) caller) :
    (deeds.filter Deed.isCallers = [.reply (.forkJoin jobs) r] ∧ m'.marks = m.marks ∧
      (m.lanes.length < jobs.length ∧
        r = .ok (.error (.coreOutOfRange (jobs.length - 1) m.lanes.length)) ∨
        jobs = [] ∧ r = .ok (.ok ()))) ∨
    ∃ own peers, jobs = own :: peers ∧ m.Affords earlier peers.length caller ∧
      Forked own peers caller.thread (deeds.filter Deed.isCallers) r := by
  cases makes with
  | @intro m₁ _ deeds last _ body run unseen st seen =>
    rw [List.filter_append]
    rcases run.unseen body unseen with ⟨still, marks, none⟩ | ⟨call, inside, fits⟩
    · obtain ⟨rfl, rfl, atOnce⟩ := st.answersForkJoin still seen
      rw [run.length_eq] at atOnce
      exact .inl ⟨by rw [none]; rfl, marks, atOnce⟩
    · obtain rfl : call = .forkJoin jobs := by
        rcases st.inCall inside with ⟨unseen, -⟩ | ⟨r, answered⟩
        · cases unseen.symm.trans seen
        · cases answered.symm.trans seen
          rfl
      cases jobs with
      | nil => exact absurd rfl fits.1
      | cons own peers =>
        replace affords : m.Affords earlier peers.length caller := affords fits.1 fits.2
        have forks := run.forks affords unseen inside
        rcases st.forks forks (run.meets affords unseen) with ⟨unseen, -⟩ | ⟨r, answered, forked⟩
        · cases unseen.symm.trans seen
        · cases answered.symm.trans seen
          exact .inr ⟨own, peers, rfl, affords, forked⟩

end Runs

section Deliveries

variable {earlier deeds : List (Deed β)} {r : Reply} {jobs : List (Job β)} {caller : Lane β}

/-- The jobs after the first one are those of the peers. -/
lemma getElem?_peer (i : Nat) : (own :: peers)[1 + i]? = peers[i]? := by
  rw [Nat.add_comm, List.getElem?_cons_succ]

/-- Every peer is some places behind core 0. -/
lemma exists_place {c : Core} (peer : c ≠ orchestrator) : ∃ i, c = 1 + i :=
  Nat.exists_eq_add_of_le (Nat.one_le_iff_ne_zero.mpr peer)

/-- The outcome of a share is what its job gives on the thread of its core. -/
lemma getElem?_outcomes {c : Core} {lane : Lane β} (share : jobs[c]? = some job)
    (here : m.lanes[c]? = some lane) : (m.outcomes jobs)[c]? = some (job lane.thread).value.1 := by
  rw [outcomes, List.getElem?_zipWith, share, here]

/-- A peer that is free when a fork-join is made is on its course when it is answered. -/
lemma Makes.course {c : Core} {lane : Lane β} (makes : m.Makes (.forkJoin jobs) deeds r m')
    (books : Books earlier m) (peer : c ≠ orchestrator) (here : m.lanes[c]? = some lane)
    (free : lane.isSpawned = false) :
    ∃ lane', m'.lanes[c]? = some lane' ∧ lane'.Course c lane.thread (deeds.filter (·.concerns c)) :=
  makes.run.course_of_free books makes.body makes.calm peer here free

/-- A fork-join that is answered at once does nothing. -/
lemma Makes.idles (makes : m.Makes (.forkJoin jobs) deeds r m') (books : Books earlier m)
    (only : deeds.filter Deed.isCallers = [.reply (.forkJoin jobs) r])
    (marks : m'.marks = m.marks) : m.Idles jobs deeds r m' where
  caller := only
  marks := marks
  idle := by
    intro c lane peer here free
    obtain ⟨lane', -, course⟩ := makes.course books peer here free
    refine (course.ahead_of_callers ?_).1
    rw [List.filter_comm, only]
    rfl

/-- A fork-join whose own share returned has been done as it should. -/
lemma Makes.returns {os : List (Outcome β)} (makes : m.Makes (.forkJoin (own :: peers)) deeds r m')
    (affords : m.Affords earlier peers.length caller) (count : os.length = peers.length)
    (answer : r = .ok (firstFault 1 os))
    (only : deeds.filter Deed.isCallers =
      Deed.transcript own peers os ++ [.reply (.forkJoin (own :: peers)) r]) :
    m.Returns own peers deeds r := by
  -- The caller has collected from every peer, which therefore is done with its job.
  have served (i : Nat) (lane : Lane β) (less : i < peers.length)
      (here : m.lanes[1 + i]? = some lane) :
      deeds.filter (·.concerns (1 + i)) = service (1 + i) peers[i] lane.thread ∧
        os[i] = (peers[i] lane.thread).value.1 := by
    obtain ⟨lane', -, course⟩ :=
      makes.course affords.books (one_add_ne i) here (affords.free i lane less here)
    refine course.back_of_callers ?_
    rw [List.filter_comm, only, List.filter_append, Deed.filter_transcript,
      List.getElem?_eq_getElem less, List.getElem?_eq_getElem (count ▸ less)]
    rfl
  -- So the outcomes that the caller collected are those that the jobs have to give.
  have same : os = (m.outcomes (own :: peers)).tail := by
    refine List.ext_getElem ?_ fun i less _ => ?_
    · have room := affords.room
      simp only [outcomes, List.length_tail, List.length_zipWith, List.length_cons]
      omega
    · have within : i < peers.length := count ▸ less
      obtain ⟨lane, here⟩ := affords.exists_peer within
      have share : (own :: peers)[1 + i]? = some peers[i] := by
        rw [getElem?_peer, List.getElem?_eq_getElem within]
      have given := getElem?_outcomes share here
      rw [(served i lane within here).2, List.getElem_tail, eq_comm,
        List.getElem_eq_iff, Nat.add_comm]
      exact given
  subst same
  refine ⟨only, fun c job lane peer share here => ?_, fun ok => ?_,
    fun c o p peer here fails before => ?_⟩
  · obtain ⟨i, rfl⟩ := exists_place peer
    rw [getElem?_peer] at share
    obtain ⟨less, rfl⟩ := List.getElem?_eq_some_iff.mp share
    exact (served i lane less here).1
  · rw [answer, firstFault_of_ok]
    intro o mem
    obtain ⟨i, here⟩ := List.mem_iff_getElem?.mp mem
    rw [List.getElem?_tail] at here
    exact ok (i + 1) o (Nat.succ_ne_zero i) here
  · obtain ⟨i, rfl⟩ := exists_place peer
    rw [answer, firstFault_of_error (i := i) ?_ fails]
    · intro k less o' there
      rw [List.getElem?_tail] at there
      exact before (k + 1) o' (Nat.succ_ne_zero k) (Nat.add_comm i 1 ▸ Nat.succ_lt_succ less) there
    · rw [List.getElem?_tail, Nat.add_comm]
      exact here

/-- A fork-join whose own share panicked leaves its jobs to the end of the run. -/
lemma Makes.unwinds {p : Payload} (makes : m.Makes (.forkJoin (own :: peers)) deeds r m')
    (affords : m.Affords earlier peers.length caller) (answer : r = .error p)
    (only : deeds.filter Deed.isCallers =
      Deed.handOvers peers ++ [.own own (.error p), .reply (.forkJoin (own :: peers)) r]) :
    m.Unwinds own peers p deeds r m' where
  reply := answer
  caller := only
  served := by
    intro c job lane peer share here later m'' before after recorded thread run eq
    obtain ⟨i, rfl⟩ := exists_place peer
    rw [getElem?_peer] at share
    obtain ⟨less, rfl⟩ := List.getElem?_eq_some_iff.mp share
    obtain ⟨lane', there, course⟩ :=
      makes.course affords.books peer here (affords.free i lane less here)
    refine run.served (affords.books.append makes.run) peer there course ?_ eq
    rw [List.filter_comm, only, List.filter_append, Deed.filter_handOvers, share]
    rfl

/-- Every fork-join with free peers has been done as it should. -/
lemma Makes.delivers (makes : m.Makes (.forkJoin jobs) deeds r m') (books : Books earlier m)
    (inhabited : 0 < m.lanes.length)
    (free : ∀ c lane, c ≠ orchestrator → c < jobs.length → m.lanes[c]? = some lane →
      lane.isSpawned = false) :
    m.Delivers deeds r m' jobs := by
  have core := List.getElem?_eq_getElem inhabited
  have affords (some : jobs ≠ []) (fits : jobs.length ≤ m.lanes.length) :
      m.Affords earlier (jobs.length - 1) m.lanes[0] := by
    have count : 0 < jobs.length := List.length_pos_iff.mpr some
    refine ⟨books, makes.body, core, by omega, fun i lane less here => ?_⟩
    have used : 1 + i < jobs.length := by omega
    exact free (1 + i) lane (one_add_ne i) used here
  rcases makes.forked affords
    with ⟨only, marks, ⟨many, rfl⟩ | ⟨rfl, rfl⟩⟩ | ⟨own, peers, rfl, affords, forked⟩
  · exact .tooMany many rfl (makes.idles books only marks)
  · exact .none rfl (makes.idles books only marks)
  · generalize only : deeds.filter Deed.isCallers = all at forked
    cases forked with
    | returned count returns =>
      exact .returned affords.room core returns (makes.returns affords count rfl only)
    | panicked panics => exact .panicked affords.room core panics (makes.unwinds affords rfl only)

/-- A call that has been started ends however the caller and the workers step. -/
lemma Books.goesOn {m₁ : Machine β} {call : Call β} (books : Books earlier m)
    (body : m.stance = .ready .body) (inhabited : 0 < m.lanes.length) (run : Run m deeds m₁)
    (unseen : deeds.filter Deed.isSeen = []) (inside : m₁.stance.call? = some call) :
    (∃ new m₂, Step m₁ new m₂) ∧ ∀ new m₂, Step m₁ new m₂ → m₂.work < m₁.work ∧
      (new.filter Deed.isSeen = [] ∧ m₂.stance.call? = some call ∨
        ∃ r, m.Makes call (deeds ++ new) r m₂) := by
  refine ⟨(books.append run).exists_step (run.length_eq ▸ inhabited), fun new m₂ st => ?_⟩
  refine ⟨st.work_lt (Stance.isEngaged_of_call? inside), ?_⟩
  rcases st.inCall inside with still | ⟨r, seen⟩
  · exact .inl still
  · exact .inr ⟨r, .intro body run unseen st seen⟩

/-- A fork-join that the body makes is answered. -/
lemma Books.terminates (books : Books earlier m) (body : m.stance = .ready .body)
    (inhabited : 0 < m.lanes.length) : m.Terminates (.forkJoin jobs) where
  goesOn := fun deeds m₁ run unseen inside => books.goesOn body inhabited run unseen inside
  answered := by
    by_cases many : m.lanes.length < jobs.length
    · exact ⟨_, _, _, .intro body (.refl m) rfl (.forkTooMany body many) rfl⟩
    · cases jobs with
      | nil => exact ⟨_, _, _, .intro body (.refl m) rfl (.forkNone body) rfl⟩
      | cons own rest =>
        have start : Step m [] (m.turn (.ready (.fork (own :: rest) own 1 rest))) :=
          .fork body (Nat.not_lt.mp many)
        have inside : (m.turn (.ready (.fork (own :: rest) own 1 rest))).stance.call? =
          some (.forkJoin (own :: rest)) := rfl
        obtain ⟨more, m₁, last, r, m', run, unseen, st, seen⟩ :=
          (start.books books).answers inhabited inside
        exact ⟨_, _, _, .intro body (((Run.refl m).tail start).append run) unseen st seen⟩

end Deliveries

end Machine

/-- A fork-join that is made while the cores it would use are free is answered, in whatever order
the caller and the workers step, and it delivers each of its jobs to the core at its place, once. -/
theorem delivers_of_run (t : Topology) (earlier : List (Deed β)) (m : Machine β)
    (jobs : List (Job β)) (run : Machine.Run (.ofTile (Tile.start t).value) earlier m)
    (body : m.stance = .ready .body)
    (free : ∀ c lane, c ≠ orchestrator → c < jobs.length → m.lanes[c]? = some lane →
      lane.isSpawned = false) :
    m.lanes.length = t.cores ∧ m.Terminates (.forkJoin jobs) ∧
      ∀ deeds r m', m.Makes (.forkJoin jobs) deeds r m' → m.Delivers deeds r m' jobs := by
  have length : m.lanes.length = t.cores := by
    rw [run.length_eq]
    simpa [Machine.ofTile, Tile.start, Topology.peers] using Nat.sub_add_cancel t.cores_pos
  have inhabited : 0 < m.lanes.length := length ▸ t.cores_pos
  exact ⟨length, run.books.terminates body inhabited, fun deeds r m' makes =>
    makes.delivers run.books inhabited free⟩

/-- On four cores the last of which is busy, a fork-join of three jobs whose last one panics. -/
theorem delivers_of_run_thirdBusy :
    ∃ (earlier : List (Deed Nat)) (m : Machine Nat),
      Machine.Run (.ofTile (Tile.start ⟨4, by decide⟩).value) earlier m ∧ m.stance = .ready .body ∧
      m.marks = [false, false, false, true] ∧
      (∀ c lane, c ≠ orchestrator → c < 3 → m.lanes[c]? = some lane → lane.isSpawned = false) ∧
      m.lanes.length = 4 ∧
      m.Terminates (.forkJoin [Job.value 1, Job.value 2, Job.panic (.text "lost")]) ∧
      ∀ deeds r m',
        m.Makes (.forkJoin [Job.value 1, Job.value 2, Job.panic (.text "lost")]) deeds r m' →
          m.Delivers deeds r m' [Job.value 1, Job.value 2, Job.panic (.text "lost")] := by
  have entered :=
    (Machine.Run.refl (Machine.ofTile (β := Nat) (Tile.start ⟨4, by decide⟩).value)).tail
      (.enter rfl : Machine.Step _ [.enter {}] _)
  have run := (entered.tail (.hand rfl .body rfl (by decide) rfl rfl :
    Machine.Step _ [.hand 3 (Job.value 7)] _)).tail (.mark (c := 3) rfl rfl)
  refine ⟨_, _, run, rfl, rfl, ?free, delivers_of_run ⟨4, by decide⟩ _ _ _ run rfl ?free⟩
  intro c lane peer used here
  match c, here with
  | 0, _ => exact absurd rfl peer
  | 1, here =>
    cases here
    rfl
  | 2, here =>
    cases here
    rfl

end TileBench.Tile
