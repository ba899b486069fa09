import TileBench.Proofs.Tile.Call

/-!
# The caller's side of a fork-join

What the caller does in a fork-join that no core refuses: it hands the peers their jobs in order,
runs its own share and joins the peers in the same order. `Forks` lists how far it has got, and
`Step.forks` says that every step, be it a worker's or its own, goes on from there or ends the
fork-join, provided that it meets the peers as it should (`Machine.Meets`).
-/

namespace TileBench.Tile

variable {β : Type}

/-- The cores after core 0 are peers. -/
lemma one_add_ne (i : Nat) : 1 + i ≠ orchestrator :=
  Nat.ne_of_gt (Nat.lt_add_right i Nat.one_pos)

namespace Deed

/-- Jobs handed over to the cores from 1 on, each with its mark. -/
def handOvers (jobs : List (Job β)) : List (Deed β) :=
  (jobs.zipIdx 1).flatMap fun (job, c) => [.hand c job, .mark c job]

/-- Joins of the cores from 1 on, with the outcomes that they collect. -/
def joins (outcomes : List (Outcome β)) : List (Deed β) :=
  (outcomes.zipIdx 1).flatMap fun (o, c) => [.collect c o, .joined c (Machine.answer c o)]

/-- What the caller does in a fork-join whose own share returns, as far as the joins that give these
outcomes. -/
def transcript (own : Job β) (peers : List (Job β)) (outcomes : List (Outcome β)) : List (Deed β) :=
  handOvers peers ++ .own own (.ok ()) :: joins outcomes

/-- One job more is handed to the next core. -/
lemma handOvers_concat (jobs : List (Job β)) (job : Job β) : handOvers (jobs ++ [job]) =
    handOvers jobs ++ [.hand (1 + jobs.length) job, .mark (1 + jobs.length) job] := by
  simp [handOvers, List.zipIdx_append]

/-- One outcome more is collected from the next core. -/
lemma transcript_concat (own : Job β) (peers : List (Job β)) (os : List (Outcome β))
    (o : Outcome β) :
    transcript own peers (os ++ [o]) = transcript own peers os ++
      [.collect (1 + os.length) o, .joined (1 + os.length) (Machine.answer (1 + os.length) o)] := by
  simp [transcript, joins, List.zipIdx_append]

/-- What is done along consecutive cores concerns each of them by its own part. -/
lemma filter_zipIdx {α : Type} {f : α × Core → List (Deed β)} {g : α → Core → Deed β}
    (part : ∀ a c d, (f (a, d)).filter (·.concerns c) = if d = c then [g a c] else []) (as : List α)
    (c i : Core) : ((as.zipIdx c).flatMap f).filter (·.concerns (c + i)) =
      (as[i]?.map fun a => g a (c + i)).toList := by
  induction as generalizing c i with
  | nil => rfl
  | cons a as ih =>
    rw [List.zipIdx_cons, List.flatMap_cons, List.filter_append, part]
    cases i with
    | succ i =>
      have next := ih (c + 1) i
      rw [Nat.add_right_comm, Nat.add_assoc] at next
      rw [if_neg (Nat.ne_of_lt (Nat.lt_add_of_pos_right (Nat.succ_pos i))), next]
      rfl
    | zero =>
      -- The cores after the first are beyond it.
      have others : ((as.zipIdx (c + 1)).flatMap f).filter (·.concerns c) = [] := by
        rw [List.filter_flatMap, List.flatMap_eq_nil_iff]
        intro ⟨a, d⟩ mem
        have beyond : c + 1 ≤ d := List.le_snd_of_mem_zipIdx mem
        rw [part, if_neg (Nat.ne_of_gt beyond)]
      rw [Nat.add_zero, others, if_pos rfl]
      rfl

/-- A peer has been handed its job if the hand-overs have come so far. -/
lemma filter_handOvers (jobs : List (Job β)) (i : Nat) :
    (handOvers jobs).filter (·.concerns (1 + i)) =
    (jobs[i]?.map fun job => .hand (1 + i) job).toList := by
  refine filter_zipIdx (g := fun job c => .hand c job) (fun job c d => ?_) jobs 1 i
  by_cases same : d = c
  · subst same
    simp
  · simp [same]

/-- The answer to a join moves no job. -/
@[simp] lemma concerns_joined (c d : Core) (a : Except Fault Unit) :
    (joined d a : Deed β).concerns c = false := rfl

/-- A peer has been collected from if the joins have come so far. -/
lemma filter_joins (os : List (Outcome β)) (i : Nat) : (joins os).filter (·.concerns (1 + i)) =
    (os[i]?.map fun o => .collect (1 + i) o).toList := by
  refine filter_zipIdx (g := fun o c => .collect c o) (fun o c d => ?_) os 1 i
  by_cases same : d = c
  · subst same
    simp
  · simp [same]

/-- By then each peer has been handed its job, and those that were joined have been collected
from. -/
lemma filter_transcript (own : Job β) (peers : List (Job β)) (os : List (Outcome β)) (i : Nat) :
    (transcript own peers os).filter (·.concerns (1 + i)) =
      (peers[i]?.map fun job => .hand (1 + i) job).toList ++
        (os[i]?.map fun o => .collect (1 + i) o).toList := by
  rw [transcript, List.filter_append, List.filter_cons_of_neg (by simp),
    filter_handOvers, filter_joins]

/-- Handing over jobs leaves the thread of the caller alone. -/
lemma filter_movesCaller_handOvers (jobs : List (Job β)) :
    (handOvers jobs).filter movesCaller = [] := by
  rw [handOvers, List.filter_flatMap, List.flatMap_eq_nil_iff]
  exact fun _ _ => rfl

end Deed

/-- The first failure among the outcomes of the cores from `c` on. -/
def firstFault : Core → List (Outcome β) → Except Fault Unit
  | _, [] => .ok ()
  | c, o :: os => (Machine.answer c o).bind fun _ => firstFault (c + 1) os

/-- One outcome more matters only if no job before it failed. -/
lemma firstFault_concat (c : Core) (os : List (Outcome β)) (o : Outcome β) :
    firstFault c (os ++ [o]) =
      (firstFault c os).bind fun _ => Machine.answer (c + os.length) o := by
  induction os generalizing c with
  | nil =>
    simp only [List.nil_append, firstFault, List.length_nil, Nat.add_zero]
    cases Machine.answer c o <;> rfl
  | cons first os ih =>
    rw [List.cons_append, firstFault, ih, firstFault]
    cases Machine.answer c first with
    | error e => rfl
    | ok u =>
      rw [List.length_cons, ← Nat.add_assoc, Nat.add_right_comm]
      rfl

/-- A job that returned is reported as such. -/
lemma answer_of_ok {c : Core} {o : Outcome β} (ok : o.ending = .ok ()) :
    Machine.answer c o = .ok () := by
  rw [Machine.answer, ok]
  rfl

/-- Jobs that all returned have no failure. -/
lemma firstFault_of_ok {c : Core} {os : List (Outcome β)} (ok : ∀ o ∈ os, o.ending = .ok ()) :
    firstFault c os = .ok () := by
  induction os generalizing c with
  | nil => rfl
  | cons o os ih =>
    rw [firstFault, answer_of_ok (ok o List.mem_cons_self)]
    exact ih fun o mem => ok o (List.mem_cons_of_mem _ mem)

/-- The first of the jobs that panicked is the one that is reported. -/
lemma firstFault_of_error {c : Core} {os : List (Outcome β)} {i : Nat} {o : Outcome β} {p : Payload}
    (here : os[i]? = some o) (fails : o.ending = .error p)
    (before : ∀ k < i, ∀ o', os[k]? = some o' → o'.ending = .ok ()) :
    firstFault c os = .error (.jobPanicked (c + i) p.message) := by
  induction os generalizing c i with
  | nil => cases here
  | cons first os ih =>
    rw [firstFault]
    cases i with
    | zero =>
      cases here
      rw [Machine.answer, fails]
      rfl
    | succ i =>
      have later := ih (c := c + 1) here fun k less => before (k + 1) (Nat.succ_lt_succ less)
      rw [answer_of_ok (before 0 (Nat.succ_pos i) first rfl), Nat.add_comm i, ← Nat.add_assoc]
      exact later

/-! ## How far a fork-join has got -/

/-- `Forks own peers thread stance deeds` holds when the caller, whose thread was `thread`, has come
to `stance` in a fork-join of `own` and `peers` by `deeds`, no core having refused. -/
inductive Forks (own : Job β) (peers : List (Job β)) (thread : Thread) :
    Stance β → List (Deed β) → Prop where
  | forking {done rest : List (Job β)} : done ++ rest = peers →
    Forks own peers thread (.ready (.fork (own :: peers) own (1 + done.length) rest))
      (Deed.handOvers done)
  | handing {done rest : List (Job β)} {job : Job β} : done ++ job :: rest = peers →
    Forks own peers thread
      (.handing (1 + done.length) job (.fork (own :: peers) own (1 + done.length + 1) rest))
      (Deed.handOvers done ++ [.hand (1 + done.length) job])
  | gathering {os : List (Outcome β)} {left : Nat} : os.length + left = peers.length →
    (own thread).value.1.ending = .ok () →
    Forks own peers thread
      (.ready (.gather (own :: peers) (List.range' (1 + os.length) left) (firstFault 1 os)))
      (Deed.transcript own peers os)
  | waiting {os : List (Outcome β)} {left : Nat} : os.length + (left + 1) = peers.length →
    (own thread).value.1.ending = .ok () →
    Forks own peers thread
      (.waiting (1 + os.length)
        (.gather (own :: peers) (List.range' (1 + os.length + 1) left) (firstFault 1 os)))
      (Deed.transcript own peers os)

/-- A fork-join that fits starts with all its jobs to be handed over. -/
lemma Forks.start (own : Job β) (peers : List (Job β)) (thread : Thread) :
    Forks own peers thread (.ready (.fork (own :: peers) own 1 peers)) [] :=
  @Forks.forking _ own peers thread [] peers rfl

/-- Once the own share has returned, all peers are still to be joined. -/
lemma Forks.joining {own : Job β} {peers : List (Job β)} {thread : Thread}
    (returns : (own thread).value.1.ending = .ok ()) :
    Forks own peers thread (.ready (.gather (own :: peers) (List.range' 1 peers.length) (.ok ())))
      (Deed.transcript own peers []) :=
  @Forks.gathering _ own peers thread [] peers.length (Nat.zero_add _) returns

/-- `Forked own peers thread deeds r` holds when the caller has done `deeds` in all in such a
fork-join, which it was answered by `r`. -/
inductive Forked (own : Job β) (peers : List (Job β)) (thread : Thread) :
    List (Deed β) → Reply → Prop where
  | returned {os : List (Outcome β)} : os.length = peers.length →
    (own thread).value.1.ending = .ok () →
    Forked own peers thread
      (Deed.transcript own peers os ++ [.reply (.forkJoin (own :: peers)) (.ok (firstFault 1 os))])
      (.ok (firstFault 1 os))
  | panicked {p : Payload} : (own thread).value.1.ending = .error p →
    Forked own peers thread
      (Deed.handOvers peers ++ [.own own (.error p), .reply (.forkJoin (own :: peers)) (.error p)])
      (.error p)

namespace Machine

variable {own job : Job β} {peers : List (Job β)} {thread : Thread} {m m' : Machine β}
  {new done : List (Deed β)}

/-- What the caller meets when it has done `done`: a peer that it has not handed a job to is free,
one that it has to collect from is marked, and its own thread is the same until it runs a share of
its own. -/
structure Meets (m : Machine β) (count : Nat) (thread : Thread) (done : List (Deed β)) : Prop where
  room : count < m.lanes.length
  free : ∀ i lane, i < count → m.lanes[1 + i]? = some lane → done.filter (·.concerns (1 + i)) = [] →
    lane.isSpawned = false
  marked : ∀ i lane job, i < count → m.lanes[1 + i]? = some lane → m.stance.isAt (1 + i) = false →
    done.filter (·.concerns (1 + i)) = [.hand (1 + i) job] → lane.isSpawned = true
  caller : ∀ lane, m.lanes[orchestrator]? = some lane → done.filter Deed.movesCaller = [] →
    lane.thread = thread

/-- A step goes on with a fork-join, or ends it. -/
def Goes (own : Job β) (peers : List (Job β)) (thread : Thread) (done new : List (Deed β))
    (m' : Machine β) : Prop :=
  new.filter Deed.isSeen = [] ∧
    Forks own peers thread m'.stance (done ++ new.filter Deed.isCallers) ∨
    ∃ r, new.filter Deed.isSeen = [.reply (.forkJoin (own :: peers)) r] ∧
      Forked own peers thread (done ++ new.filter Deed.isCallers) r

/-- A step of a worker leaves the fork-join where it is. -/
lemma Works.goes (works : m.Works new m') (forks : Forks own peers thread m.stance done) :
    Goes own peers thread done new m' := by
  refine .inl ⟨works.unseen, ?_⟩
  rw [works.workers, List.append_nil, works.stance]
  exact forks

/-- With free peers the next job is handed over, or the caller goes on to its own share. -/
lemma Step.forking {handed rest : List (Job β)} (st : Step m new m')
    (split : handed ++ rest = peers)
    (stance : m.stance = .ready (.fork (own :: peers) own (1 + handed.length) rest))
    (meets : m.Meets peers.length thread (Deed.handOvers handed)) :
    Goes own peers thread (Deed.handOvers handed) new m' := by
  have forks : Forks own peers thread m.stance (Deed.handOvers handed) := stance ▸ .forking split
  have unhanded : (Deed.handOvers handed).filter (·.concerns (1 + handed.length)) = [] := by
    rw [Deed.filter_handOvers, List.getElem?_eq_none (Nat.le_refl _)]
    rfl
  cases st
  case take here slot running => exact (works_take here).goes forks
  case finish here running outcome => exact (works_finish here).goes forks
  case hand ready spawns here peer free slot =>
    cases stance.symm.trans ready
    cases spawns with
    | fork => exact .inl ⟨rfl, .handing split⟩
  case refuseSpawn ready spawns refuses =>
    cases stance.symm.trans ready
    cases spawns with
    | fork =>
      -- No core refuses: the next one is a peer of the tile, and it is free.
      have inside : handed.length < peers.length := by
        rw [← split, List.length_append, List.length_cons]
        omega
      have room := meets.room
      cases refuses with
      | outOfRange beyond => omega
      | orchestrator _ core => exact absurd core (one_add_ne _)
      | busy here marked => cases (meets.free _ _ inside here unhanded).symm.trans marked
  case own ready here returns =>
    cases stance.symm.trans ready
    rw [List.append_nil] at split
    subst split
    rw [meets.caller _ here (Deed.filter_movesCaller_handOvers _)] at returns
    rw [Nat.add_sub_cancel_left]
    exact .inl ⟨rfl, .joining returns⟩
  case ownPanic ready here panics =>
    cases stance.symm.trans ready
    rw [List.append_nil] at split
    subst split
    rw [meets.caller _ here (Deed.filter_movesCaller_handOvers _)] at panics
    exact .inr ⟨_, rfl, .panicked panics⟩
  case await ready joins here marked | refuseJoin ready joins refuses =>
    cases stance.symm.trans ready
    cases joins
  all_goals cases stance.symm.trans ‹m.stance = _›

/-- A core that has been handed its job is marked next. -/
lemma Step.handing {handed rest : List (Job β)} (st : Step m new m')
    (split : handed ++ job :: rest = peers) (stance : m.stance = .handing (1 + handed.length) job
      (.fork (own :: peers) own (1 + handed.length + 1) rest)) :
    Goes own peers thread (Deed.handOvers handed ++ [.hand (1 + handed.length) job]) new m' := by
  have forks :
      Forks own peers thread m.stance (Deed.handOvers handed ++ [.hand (1 + handed.length) job]) :=
    stance ▸ .handing split
  cases st
  case take here slot running => exact (works_take here).goes forks
  case finish here running outcome => exact (works_finish here).goes forks
  case mark handing here =>
    cases stance.symm.trans handing
    rw [List.append_cons] at split
    have next : Forks own peers thread _ (Deed.handOvers (handed ++ [job])) := .forking split
    rw [List.length_append, List.length_singleton, ← Nat.add_assoc, Deed.handOvers_concat,
      List.append_cons] at next
    exact .inl ⟨rfl, next⟩
  all_goals cases stance.symm.trans ‹m.stance = _›

/-- With marked peers the caller goes to wait for the next one, or answers. -/
lemma Step.gathering {os : List (Outcome β)} {left : Nat} (st : Step m new m')
    (count : os.length + left = peers.length) (returns : (own thread).value.1.ending = .ok ())
    (stance : m.stance =
      .ready (.gather (own :: peers) (List.range' (1 + os.length) left) (firstFault 1 os)))
    (meets : m.Meets peers.length thread (Deed.transcript own peers os)) :
    Goes own peers thread (Deed.transcript own peers os) new m' := by
  have forks : Forks own peers thread m.stance (Deed.transcript own peers os) :=
    stance ▸ .gathering count returns
  cases st
  case take here slot running => exact (works_take here).goes forks
  case finish here running outcome => exact (works_finish here).goes forks
  case gathered ready =>
    cases left with
    | zero =>
      cases stance.symm.trans ready
      exact .inr ⟨_, rfl, .returned count returns⟩
    | succ left => cases stance.symm.trans ready
  case await ready joins here marked =>
    cases left with
    | zero =>
      cases stance.symm.trans ready
      cases joins
    | succ left =>
      cases stance.symm.trans ready
      cases joins with
      | gather =>
        refine .inl ⟨rfl, ?_⟩
        rw [List.filter_nil, List.append_nil]
        exact .waiting count returns
  case refuseJoin ready joins refuses =>
    cases left with
    | zero =>
      cases stance.symm.trans ready
      cases joins
    | succ left =>
      have inside : os.length < peers.length := by omega
      -- The next peer to join has been handed its job, which has not been collected.
      have out := Deed.filter_transcript own peers os os.length
      rw [List.getElem?_eq_getElem inside, List.getElem?_eq_none (Nat.le_refl _)] at out
      cases stance.symm.trans ready
      cases joins with
      | gather =>
        have room := meets.room
        cases refuses with
        | outOfRange beyond => omega
        | idle here free =>
          cases (meets.marked _ _ _ inside here (by simp [stance]) out).symm.trans free
  case hand ready spawns here peer free slot | refuseSpawn ready spawns refuses =>
    cases stance.symm.trans ready
    cases spawns
  all_goals cases stance.symm.trans ‹m.stance = _›

/-- The caller that waits for a peer collects its outcome next. -/
lemma Step.waiting {os : List (Outcome β)} {left : Nat} (st : Step m new m')
    (count : os.length + (left + 1) = peers.length) (returns : (own thread).value.1.ending = .ok ())
    (stance : m.stance = .waiting (1 + os.length)
      (.gather (own :: peers) (List.range' (1 + os.length + 1) left) (firstFault 1 os))) :
    Goes own peers thread (Deed.transcript own peers os) new m' := by
  have forks : Forks own peers thread m.stance (Deed.transcript own peers os) :=
    stance ▸ .waiting count returns
  cases st
  case take here slot running => exact (works_take here).goes forks
  case finish here running outcome => exact (works_finish here).goes forks
  case collect lane o p waiting here outcome =>
    cases stance.symm.trans waiting
    have counted : (os ++ [o]).length + left = peers.length := by
      rw [List.length_append, List.length_singleton]
      omega
    have next : Forks own peers thread _ (Deed.transcript own peers (os ++ [o])) :=
      .gathering counted returns
    rw [Deed.transcript_concat, firstFault_concat, List.length_append, List.length_singleton,
      ← Nat.add_assoc] at next
    exact .inl ⟨rfl, next⟩
  all_goals cases stance.symm.trans ‹m.stance = _›

/-- A step of a fork-join whose peers are as they should be goes on with it, or ends it. -/
lemma Step.forks (st : Step m new m') (forks : Forks own peers thread m.stance done)
    (meets : m.Meets peers.length thread done) : Goes own peers thread done new m' := by
  generalize stance : m.stance = stands at forks
  cases forks with
  | forking split => exact st.forking split stance meets
  | handing split => exact st.handing split stance
  | gathering count returns => exact st.gathering count returns stance meets
  | waiting count returns => exact st.waiting count returns stance

end Machine

end TileBench.Tile
