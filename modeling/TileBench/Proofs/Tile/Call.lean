import TileBench.Proofs.Tile.Progress
import TileBench.Proofs.Tile.Sequential

/-!
# A call from its start to its answer

`Machine.Makes` is a stretch of a run that begins in the body and ends with the answer to a call,
nothing else being seen of it. In between the caller is in that call and in no other
(`Step.inCall`), and whichever way the machine steps the answer comes (`Books.answers`).
-/

namespace TileBench.Tile

variable {β : Type}

/-- Whether a deed is the caller's. The workers take jobs and finish them. -/
def Deed.isCallers : Deed β → Bool
  | .take .. | .finish .. => false
  | _ => true

/-- Whether a deed changes the thread of the caller: it is bound to core 0, or it runs a share of
its own. -/
def Deed.movesCaller : Deed β → Bool
  | .enter _ | .own .. => true
  | _ => false

/-- The call that the caller is in. -/
def Stance.call? : Stance β → Option (Call β)
  | .ready (.fork jobs ..) | .handing _ _ (.fork jobs ..) => some (.forkJoin jobs)
  | .ready (.gather jobs ..) | .waiting _ (.gather jobs ..) => some (.forkJoin jobs)
  | .handing c job .body => some (.spawn c job)
  | .waiting c .body => some (.join c)
  | _ => none

namespace Call

/-- How the body starts a call on `n` cores that is not answered at once: what the caller does, and
where it stands then. -/
inductive Starts (n : Nat) : Call β → List (Deed β) → Stance β → Prop where
  | spawn {c : Core} {job : Job β} : Starts n (.spawn c job) [.hand c job] (.handing c job .body)
  | join {c : Core} : Starts n (.join c) [] (.waiting c .body)
  | forkJoin {own : Job β} {rest : List (Job β)} : (own :: rest).length ≤ n →
    Starts n (.forkJoin (own :: rest)) [] (.ready (.fork (own :: rest) own 1 rest))

/-- A fork-join that is not answered at once has a job, and no more jobs than there are cores. -/
def Fits (n : Nat) : Call β → Prop
  | .forkJoin jobs => jobs ≠ [] ∧ jobs.length ≤ n
  | _ => True

variable {n : Nat} {call : Call β} {deeds : List (Deed β)} {stance : Stance β}

/-- A body that starts a call is in that call. -/
lemma Starts.call? (starts : Starts n call deeds stance) : stance.call? = some call := by
  cases starts <;> rfl

/-- A call that is not answered at once fits the cores. -/
lemma Starts.fits (starts : Starts n call deeds stance) : call.Fits n := by
  cases starts with
  | spawn => trivial
  | join => trivial
  | forkJoin fits => exact ⟨List.cons_ne_nil _ _, fits⟩

end Call

/-- Inside a call the caller has no choice. -/
lemma Stance.isEngaged_of_call? {stance : Stance β} {call : Call β}
    (call? : stance.call? = some call) : stance.isEngaged = true := by
  cases stance with
  | outside => cases call?
  | handing c job p => rfl
  | waiting c p => rfl
  | ready p =>
    cases p with
    | body => cases call?
    | fork jobs own next rest => rfl
    | gather jobs cores first => rfl
    | close next => rfl

namespace Machine

/-- The marks of the cores, in index order. -/
def marks (m : Machine β) : List Bool :=
  m.lanes.map Lane.isSpawned

/-- `m.Makes call deeds r m'` holds when the machine goes from `m`, where the body is free to make
any call, to `m'` by `deeds`, of which it is seen only that `call` is answered by `r`, and that in
the last step. -/
inductive Makes (m : Machine β) (call : Call β) : List (Deed β) → Reply → Machine β → Prop where
  | intro {m₁ m' : Machine β} {deeds last : List (Deed β)} {r : Reply} :
    m.stance = .ready .body → Run m deeds m₁ → deeds.filter Deed.isSeen = [] →
    Step m₁ last m' → last.filter Deed.isSeen = [.reply call r] → Makes m call (deeds ++ last) r m'

/-- What a step of a worker leaves alone. -/
structure Works (m : Machine β) (deeds : List (Deed β)) (m' : Machine β) : Prop where
  stance : m'.stance = m.stance
  marks : m'.marks = m.marks
  workers : deeds.filter Deed.isCallers = []
  unseen : deeds.filter Deed.isSeen = []

variable {m m₁ m' : Machine β} {deeds new : List (Deed β)} {c : Core} {lane : Lane β} {job : Job β}
  {call : Call β} {r : Reply}

/-- Changing a core without its mark leaves the marks. -/
lemma marks_update {new : Lane β} {stance : Stance β} (here : m.lanes[c]? = some lane)
    (same : new.isSpawned = lane.isSpawned) : (m.update c new stance).marks = m.marks := by
  obtain ⟨inside, rfl⟩ := List.getElem?_eq_some_iff.mp here
  rw [marks, update, List.map_set, same,
    ← List.getElem_map (h := by simpa using inside) Lane.isSpawned, List.set_getElem_self]
  rfl

/-- A worker that takes its job leaves the caller alone. -/
lemma works_take (here : m.lanes[c]? = some lane) :
    m.Works [.take c job]
      (m.update c { lane with slot := none, running := some job } m.stance) where
  stance := rfl
  marks := marks_update here rfl
  workers := rfl
  unseen := rfl

/-- A worker that finishes its job leaves the caller alone. -/
lemma works_finish {o : Outcome β} {thread : Thread} (here : m.lanes[c]? = some lane) :
    m.Works [.finish c o]
      (m.update c { lane with thread, running := none, outcome := some o } m.stance) where
  stance := rfl
  marks := marks_update here rfl
  workers := rfl
  unseen := rfl

/-- What the body does that is not seen at once is a worker's step or starts a call. -/
lemma Step.starts (st : Step m new m') (body : m.stance = .ready .body)
    (unseen : new.filter Deed.isSeen = []) :
    m.Works new m' ∨ ∃ call, Call.Starts m.lanes.length call new m'.stance := by
  cases st
  case take here slot running => exact .inl (works_take here)
  case finish here running outcome => exact .inl (works_finish here)
  case hand ready spawns here peer free slot =>
    cases body.symm.trans ready
    cases spawns
    exact .inr ⟨_, .spawn⟩
  case await ready joins here marked =>
    cases body.symm.trans ready
    cases joins
    exact .inr ⟨_, .join⟩
  case fork ready fits => exact .inr ⟨_, .forkJoin fits⟩
  case refuseSpawn ready through refuses | refuseJoin ready through refuses =>
    cases body.symm.trans ready
    cases through
    cases unseen
  case enter | forkTooMany | forkNone | ended | leave => cases unseen
  all_goals cases body.symm.trans ‹m.stance = _›

/-- A fork-join that is answered at once has more jobs than there are cores, or none. -/
lemma Step.answersForkJoin {jobs : List (Job β)} (st : Step m new m')
    (body : m.stance = .ready .body) (seen : new.filter Deed.isSeen = [.reply (.forkJoin jobs) r]) :
    new = [.reply (.forkJoin jobs) r] ∧ m' = m ∧
      (m.lanes.length < jobs.length ∧
        r = .ok (.error (.coreOutOfRange (jobs.length - 1) m.lanes.length)) ∨
        jobs = [] ∧ r = .ok (.ok ())) := by
  cases st
  case forkTooMany ready many =>
    cases seen
    exact ⟨rfl, rfl, .inl ⟨many, rfl⟩⟩
  case forkNone ready =>
    cases seen
    exact ⟨rfl, rfl, .inr ⟨rfl, rfl⟩⟩
  case refuseSpawn ready through refuses | refuseJoin ready through refuses =>
    cases body.symm.trans ready
    cases through
    cases seen
  case take | finish | enter | hand | await | fork | ended => cases seen
  all_goals cases body.symm.trans ‹m.stance = _›

/-- A step inside a call goes on with the call or answers it. -/
lemma Step.inCall (st : Step m new m') (inside : m.stance.call? = some call) :
    new.filter Deed.isSeen = [] ∧ m'.stance.call? = some call ∨
      ∃ r, new.filter Deed.isSeen = [.reply call r] := by
  -- The plan tells which call the caller is in, so that only some plans of each rule are left.
  cases st
  case take => exact .inl ⟨rfl, inside⟩
  case finish => exact .inl ⟨rfl, inside⟩
  case hand ready spawns here peer free slot =>
    rw [ready] at inside
    cases spawns with
    | body => cases inside
    | fork => exact .inl ⟨rfl, inside⟩
  case mark p handing here =>
    rw [handing] at inside
    cases p with
    | body =>
      cases inside
      exact .inr ⟨_, rfl⟩
    | fork => exact .inl ⟨rfl, inside⟩
    | gather => cases inside
    | close => cases inside
  case refuseSpawn ready spawns refuses =>
    rw [ready] at inside
    cases spawns with
    | body => cases inside
    | fork =>
      cases inside
      exact .inr ⟨_, rfl⟩
  case await ready joins here marked =>
    rw [ready] at inside
    cases joins with
    | body => cases inside
    | gather => exact .inl ⟨rfl, inside⟩
  case refuseJoin ready joins refuses =>
    rw [ready] at inside
    cases joins with
    | body => cases inside
    | gather => exact .inl ⟨rfl, inside⟩
  case collect p waiting here outcome =>
    rw [waiting] at inside
    cases p with
    | body =>
      cases inside
      exact .inr ⟨_, rfl⟩
    | fork => cases inside
    | gather => exact .inl ⟨rfl, inside⟩
    | close => cases inside
  case own ready here returns =>
    rw [ready] at inside
    exact .inl ⟨rfl, inside⟩
  case ownPanic ready here panics =>
    rw [ready] at inside
    cases inside
    exact .inr ⟨_, rfl⟩
  case gathered ready =>
    rw [ready] at inside
    cases inside
    exact .inr ⟨_, rfl⟩
  all_goals
    rw [‹m.stance = _›] at inside
    cases inside

/-- While nothing is seen of it, the caller has not started a call yet or is in one. -/
lemma Run.unseen (run : Run m deeds m₁) (body : m.stance = .ready .body)
    (unseen : deeds.filter Deed.isSeen = []) :
    (m₁.stance = .ready .body ∧ m₁.marks = m.marks ∧ deeds.filter Deed.isCallers = []) ∨
      ∃ call, m₁.stance.call? = some call ∧ call.Fits m.lanes.length := by
  induction run with
  | refl => exact .inl ⟨body, rfl, rfl⟩
  | tail run st ih =>
    rw [List.filter_append, List.append_eq_nil_iff] at unseen
    rcases ih unseen.1 with ⟨still, marks, none⟩ | ⟨call, inside, fits⟩
    · rcases st.starts still unseen.2 with works | ⟨call, starts⟩
      · refine .inl ⟨works.stance.trans still, works.marks.trans marks, ?_⟩
        rw [List.filter_append, none, works.workers]
        rfl
      · exact .inr ⟨call, starts.call?, run.length_eq ▸ starts.fits⟩
    · rcases st.inCall inside with ⟨-, inside⟩ | ⟨r, seen⟩
      · exact .inr ⟨call, inside, fits⟩
      · cases unseen.2.symm.trans seen

/-! ## Every call is answered -/

/-- A run can go on with another from where it stands. -/
lemma Run.append {m₂ : Machine β} (run : Run m deeds m₁) {more : List (Deed β)}
    (rest : Run m₁ more m₂) : Run m (deeds ++ more) m₂ := by
  induction rest with
  | refl =>
    rw [List.append_nil]
    exact run
  | tail _ st ih =>
    rw [← List.append_assoc]
    exact ih.tail st

/-- However far a call has got, it can be answered: every step leaves less to do and the machine is
never stuck. -/
lemma Books.answers {earlier : List (Deed β)} {m : Machine β} (books : Books earlier m)
    (inhabited : 0 < m.lanes.length) (inside : m.stance.call? = some call) :
    ∃ more m₁ last r m', Run m more m₁ ∧ more.filter Deed.isSeen = [] ∧ Step m₁ last m' ∧
      last.filter Deed.isSeen = [.reply call r] := by
  obtain ⟨new, m₁, st⟩ := books.exists_step inhabited
  rcases st.inCall inside with ⟨unseen, still⟩ | ⟨r, seen⟩
  · have less := st.work_lt (Stance.isEngaged_of_call? inside)
    obtain ⟨more, m₂, last, r, m', run, quiet, answers, seen⟩ :=
      (st.books books).answers (st.length_eq ▸ inhabited) still
    refine ⟨new ++ more, m₂, last, r, m', ((Run.refl m).tail st).append run, ?_, answers, seen⟩
    rw [List.filter_append, unseen, quiet]
    rfl
  · exact ⟨[], m, new, r, m₁, .refl m, rfl, st, seen⟩
termination_by m.work

end Machine

end TileBench.Tile
