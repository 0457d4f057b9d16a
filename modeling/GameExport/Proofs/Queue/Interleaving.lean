import Mathlib.Data.List.Forall2
import Mathlib.Data.List.Induction
import Mathlib.Data.List.Perm.Basic
import GameExport.Proofs.Queue.Waiting

/-! # The queue among others

Several may submit jobs at once while the worker goes on, calls take too long and tokens fire. One
thing happens after the other, in any order. Main statements: whatever has happened, the number of
pending jobs is right, jobs are taken in the order in which they were sent, one at a time, and a job
whose token has fired is not begun.
-/

namespace GameExport

/-! ## What can happen -/

inductive JobEvent
  | announced
  | sent
  | taken
  | skipped
  /-- The work before its call is done, and if that goes well the call is begun. -/
  | started
  /-- Its call ends: by itself, by breaking down or because its token has fired. -/
  | finished
  /-- Its call is ended because it has taken too long. -/
  | expired
  | released
  deriving DecidableEq, Repr

inductive Move
  | of (event : JobEvent) (job : Job)
  /-- Files are changed or tokens fired, but not by the worker. -/
  | elsewhere

def jobsIn (event : JobEvent) (moves : List Move) : List Job :=
  moves.filterMap fun
    | .of other job => if other = event then some job else none
    | .elsewhere => none

section JobsIn

variable (event : JobEvent)

@[simp] theorem jobsIn_nil : jobsIn event [] = [] := rfl

@[simp] theorem jobsIn_append (first second : List Move) :
    jobsIn event (first ++ second) = jobsIn event first ++ jobsIn event second :=
  List.filterMap_append

theorem jobsIn_of (other : JobEvent) (job : Job) :
    jobsIn event [.of other job] = if other = event then [job] else [] := by
  by_cases same : other = event <;> simp [jobsIn, same]

@[simp] theorem jobsIn_elsewhere : jobsIn event [.elsewhere] = [] := rfl

theorem jobsIn_snoc (moves : List Move) (other : JobEvent) (job : Job) :
    jobsIn event (moves ++ [.of other job]) =
      jobsIn event moves ++ if other = event then [job] else [] := by
  rw [jobsIn_append, jobsIn_of]

theorem mem_jobsIn {event : JobEvent} {job : Job} {moves : List Move} :
    job ∈ jobsIn event moves ↔ .of event job ∈ moves := by
  simp only [jobsIn, List.mem_filterMap]
  constructor
  · rintro ⟨move, member, found⟩
    cases move with
    | elsewhere => cases found
    | of other job' =>
        dsimp only at found
        split at found
        · rename_i same
          obtain rfl := Option.some.inj found
          exact same ▸ member
        · cases found
  · intro member
    exact ⟨_, member, by simp⟩

end JobsIn

def World.IsLater (before after : World) : Prop :=
  ∀ token, before.hasFired token = true → after.hasFired token = true

theorem World.IsLater.refl {world : World} : world.IsLater world := fun _ => id

theorem World.IsLater.trans {first second third : World} (earlier : first.IsLater second)
    (later : second.IsLater third) : first.IsLater third :=
  fun token fired => later token (earlier token fired)

namespace Workshop

/-- How a workshop changes by one thing that happens. Tokens stay fired, also when the work before a
call is done. -/
inductive Moves : Workshop → Move → Workshop → Prop
  | announce (workshop : Workshop) (job : Job) :
      Moves workshop (.of .announced job)
        { workshop with queue := workshop.queue.announce job }
  | send {workshop : Workshop} {place : Nat} {job : Job}
      (counted : workshop.queue.announced[place]? = some job) :
      Moves workshop (.of .sent job) { workshop with queue := workshop.queue.send place }
  | take {workshop : Workshop} {job : Job} {rest : List Job}
      (free : workshop.queue.running = none) (first : workshop.queue.waiting = job :: rest) :
      Moves workshop (.of .taken job) workshop.take
  | skip {workshop : Workshop} {job : Job}
      (running : workshop.queue.running = some (job, .taken))
      (fired : workshop.world.hasFired job.token = true) :
      Moves workshop (.of .skipped job) (workshop.prepare job)
  | start {workshop : Workshop} {job : Job}
      (running : workshop.queue.running = some (job, .taken))
      (unfired : workshop.world.hasFired job.token = false)
      (later : workshop.world.IsLater (workshop.prepare job).world) :
      Moves workshop (.of .started job) (workshop.prepare job)
  | finish {workshop : Workshop} {job : Job}
      (running : workshop.queue.running = some (job, .compiling)) (files : FileTree) :
      Moves workshop (.of .finished job) (workshop.finish job files)
  | expire {workshop : Workshop} {job : Job}
      (running : workshop.queue.running = some (job, .compiling))
      (limited : workshop.queue.limit.isSome = true) (files : FileTree) :
      Moves workshop (.of .expired job) (workshop.expire job files)
  | release {workshop : Workshop} {job : Job}
      (running : workshop.queue.running = some (job, .ended)) :
      Moves workshop (.of .released job) workshop.release
  | elsewhere {workshop : Workshop} {world : World} (later : workshop.world.IsLater world) :
      Moves workshop .elsewhere { workshop with world := world }

inductive Runs (start : Workshop) : List Move → Workshop → Prop
  | refl : Runs start [] start
  | step {moves : List Move} {move : Move} {middle final : Workshop}
      (earlier : Runs start moves middle) (last : middle.Moves move final) :
      Runs start (moves ++ [move]) final

theorem Runs.append {start middle final : Workshop} {earlier later : List Move}
    (first : Runs start earlier middle) (second : Runs middle later final) :
    Runs start (earlier ++ later) final := by
  induction second with
  | refl => rwa [List.append_nil]
  | step _ last induction =>
      rw [← List.append_assoc]
      exact .step induction last

theorem Runs.last {start final : Workshop} {moves : List Move} {move : Move}
    (runs : Runs start (moves ++ [move]) final) :
    ∃ middle, Runs start moves middle ∧ middle.Moves move final := by
  generalize same : moves ++ [move] = all at runs
  cases runs with
  | refl => simp at same
  | step earlier last =>
      obtain ⟨rfl, single⟩ := List.append_inj' same rfl
      obtain rfl := List.singleton_inj.mp single
      exact ⟨_, earlier, last⟩

theorem Runs.between {start final : Workshop} {earlier later : List Move}
    (runs : Runs start (earlier ++ later) final) :
    ∃ middle, Runs start earlier middle ∧ Runs middle later final := by
  induction later using List.reverseRecOn generalizing final with
  | nil => exact ⟨final, by rwa [List.append_nil] at runs, .refl⟩
  | append_singleton later move induction =>
      rw [← List.append_assoc] at runs
      obtain ⟨_, before, last⟩ := runs.last
      obtain ⟨middle, first, second⟩ := induction before
      exact ⟨middle, first, .step second last⟩

/-! ## Tokens stay fired -/

theorem isLater_prepare_of_fired {workshop : Workshop} {job : Job}
    (fired : workshop.world.hasFired job.token = true) :
    workshop.world.IsLater (workshop.prepare job).world := by
  rw [prepare, if_pos fired]
  exact .refl

theorem Moves.isLater {workshop next : Workshop} {move : Move}
    (moves : workshop.Moves move next) : workshop.world.IsLater next.world := by
  cases moves with
  | announce => exact .refl
  | send => exact .refl
  | take free first =>
      rw [Workshop.take, free, first]
      exact .refl
  | skip running fired => exact isLater_prepare_of_fired fired
  | start _ _ later => exact later
  | finish => exact fun _ => id
  | expire => exact fun _ fired => World.hasFired_fire _ fired
  | release => exact .refl
  | elsewhere later => exact later

theorem Runs.isLater {start final : Workshop} {moves : List Move} (runs : Runs start moves final) :
    start.world.IsLater final.world := by
  induction runs with
  | refl => exact .refl
  | step _ last induction => exact induction.trans last.isLater

/-- A job whose token has fired is not begun any more. -/
theorem Runs.unfired_of_started {start final : Workshop} {moves : List Move}
    (runs : Runs start moves final) :
    ∀ job ∈ jobsIn .started moves, start.world.hasFired job.token = false := by
  induction runs with
  | refl => exact fun _ member => (List.not_mem_nil member).elim
  | @step moves move middle final earlier last induction =>
      intro job member
      rw [jobsIn_append, List.mem_append] at member
      rcases member with member | member
      · exact induction job member
      · have same := List.mem_singleton.mp (mem_jobsIn.mp member)
        subst same
        cases last with
        | start _ unfired =>
            cases before : start.world.hasFired job.token with
            | false => rfl
            | true => exact absurd (earlier.isLater _ before) (by simp [unfired])

theorem Runs.fired_of_expired {start final : Workshop} {earlier later : List Move} {job : Job}
    (runs : Runs start (earlier ++ .of .expired job :: later) final) :
    final.world.hasFired job.token = true := by
  rw [List.append_cons] at runs
  obtain ⟨middle, first, second⟩ := runs.between
  obtain ⟨_, _, last⟩ := first.last
  cases last
  exact second.isLater _ (World.hasFired_fire_self _ _)

/-- Once a call has taken too long no other job of the same token is begun. -/
theorem Runs.unshared_of_expired {start final : Workshop} {earlier later : List Move} {job : Job}
    (runs : Runs start (earlier ++ .of .expired job :: later) final) :
    ∀ other ∈ jobsIn .started later, other.token ≠ job.token := by
  rw [List.append_cons] at runs
  obtain ⟨middle, first, second⟩ := runs.between
  have fired : middle.world.hasFired job.token = true := first.fired_of_expired
  intro other member shared
  have unfired := second.unfired_of_started other member
  rw [shared, fired] at unfired
  cases unfired

/-! ## The number of pending jobs -/

theorem Moves.balanced {workshop next : Workshop} {move : Move} (moves : workshop.Moves move next)
    (balanced : workshop.queue.Balanced) : next.queue.Balanced := by
  cases moves with
  | announce job =>
      simp only [Queue.Balanced, Queue.announce, List.length_append, List.length_singleton]
        at balanced ⊢
      omega
  | @send place job counted =>
      obtain ⟨inside, found⟩ := List.getElem?_eq_some_iff.mp counted
      have fewer := (List.getElem_cons_eraseIdx_perm inside).length_eq
      rw [Queue.send, counted]
      simp only [Queue.Balanced, List.length_append, List.length_cons, List.length_nil]
        at balanced fewer ⊢
      omega
  | take => exact balanced_take balanced
  | skip running => exact balanced_prepare balanced (by rw [running]; rfl)
  | start running => exact balanced_prepare balanced (by rw [running]; rfl)
  | finish running => exact balanced_enter _ balanced (by rw [running]; rfl)
  | expire running => exact balanced_enter _ balanced (by rw [running]; rfl)
  | release running =>
      rw [Queue.Balanced, running] at balanced
      simp only [Queue.Balanced, Workshop.release, Option.toList, List.length_cons, List.length_nil]
        at balanced ⊢
      omega
  | elsewhere => exact balanced

/-! ## The queue keeps its order -/

theorem queue_prepare {workshop : Workshop} {job : Job}
    (unfired : workshop.world.hasFired job.token = false) :
    ∃ notes phase, job.Notes notes ∧ phase ≠ .taken ∧ (workshop.prepare job).queue =
      { workshop.queue with
        history := workshop.queue.history ++ notes
        running := some (job, phase) } := by
  have prepared := prepared_prepare unfired
  generalize workshop.prepare job = begun at prepared ⊢
  cases prepared with
  | plain held => exact ⟨_, .compiling, .called held, by decide, rfl⟩
  | done _ _ =>
      refine ⟨_, .compiling, .both, by decide, ?_⟩
      simp [begin, enter, Queue.note]
  | failed _ _ => exact ⟨_, .ended, .prepared, by decide, rfl⟩

end Workshop

def Queue.untouched (queue : Queue) : List Job :=
  match queue.running with
  | some (job, .taken) => [job]
  | _ => []

/-- What a queue that had no jobs at first owes to what has happened since. -/
structure Queue.Orderly (moves : List Move) (queue : Queue) : Prop where
  balanced : queue.Balanced
  /-- Each job that is counted is sent once at most. -/
  sent : (jobsIn .announced moves).Perm (jobsIn .sent moves ++ queue.announced)
  /-- Each job that is sent is taken once at most, first come first. -/
  taken : jobsIn .sent moves = jobsIn .taken moves ++ queue.waiting
  /-- Each job that is taken is done before the next is taken. -/
  released : jobsIn .taken moves = jobsIn .released moves ++ queue.running.toList.map (·.1)
  /-- Each job that is taken is either skipped or begun, once at most. -/
  turned : (jobsIn .taken moves).Perm
    (jobsIn .skipped moves ++ jobsIn .started moves ++ queue.untouched)
  /-- The worker works on the jobs that are begun, one after the other, and on nothing else. -/
  worked : ∃ notes, List.Forall₂ Job.Notes (jobsIn .started moves) notes ∧
    queue.history = notes.flatten

namespace Queue

theorem orderly_idle (log : Path) (limit : Option Duration) : (idle log limit).Orderly [] where
  balanced := rfl
  sent := .refl _
  taken := rfl
  released := rfl
  turned := .refl _
  worked := ⟨[], .nil, rfl⟩

namespace Orderly

variable {moves : List Move} {queue : Queue} {job : Job}

theorem announce (orderly : queue.Orderly moves) (balanced : (queue.announce job).Balanced) :
    (queue.announce job).Orderly (moves ++ [.of .announced job]) := by
  have ⟨_, sent, taken, released, turned, worked⟩ := orderly
  constructor
  case balanced => exact balanced
  all_goals simp only [jobsIn_snoc, reduceCtorEq, ↓reduceIte, List.append_nil]
  case sent =>
    rw [Queue.announce, ← List.append_assoc]
    exact sent.append_right [job]
  all_goals assumption

theorem send (orderly : queue.Orderly moves) {place : Nat}
    (counted : queue.announced[place]? = some job) (balanced : (queue.send place).Balanced) :
    (queue.send place).Orderly (moves ++ [.of .sent job]) := by
  have ⟨_, sent, taken, released, turned, worked⟩ := orderly
  obtain ⟨inside, found⟩ := List.getElem?_eq_some_iff.mp counted
  have erased := List.getElem_cons_eraseIdx_perm inside
  rw [found] at erased
  rw [Queue.send, counted] at balanced ⊢
  constructor
  case balanced => exact balanced
  all_goals simp only [jobsIn_snoc, reduceCtorEq, ↓reduceIte, List.append_nil]
  case sent =>
    rw [List.append_assoc, List.singleton_append]
    exact sent.trans (erased.symm.append_left _)
  case taken => rw [taken, List.append_assoc]
  all_goals assumption

theorem take (orderly : queue.Orderly moves) {rest : List Job} (free : queue.running = none)
    (first : queue.waiting = job :: rest)
    (balanced : Balanced { queue with waiting := rest, running := some (job, .taken) }) :
    Orderly (moves ++ [.of .taken job])
      { queue with waiting := rest, running := some (job, .taken) } := by
  have ⟨_, sent, taken, released, turned, worked⟩ := orderly
  have untouched : queue.untouched = [] := by rw [Queue.untouched, free]
  constructor
  case balanced => exact balanced
  all_goals simp only [jobsIn_snoc, reduceCtorEq, ↓reduceIte, List.append_nil]
  case taken => rw [taken, first, List.append_assoc, List.singleton_append]
  case released =>
    rw [released, free, Option.toList, List.map_nil, List.append_nil]
    rfl
  case turned =>
    rw [untouched, List.append_nil] at turned
    exact turned.append_right [job]
  all_goals assumption

theorem skip (orderly : queue.Orderly moves) (running : queue.running = some (job, .taken))
    (balanced : Balanced { queue with running := some (job, .ended) }) :
    Orderly (moves ++ [.of .skipped job]) { queue with running := some (job, .ended) } := by
  have ⟨_, sent, taken, released, turned, worked⟩ := orderly
  have untouched : queue.untouched = [job] := by rw [Queue.untouched, running]
  rw [running] at released
  constructor
  case balanced => exact balanced
  all_goals simp only [jobsIn_snoc, reduceCtorEq, ↓reduceIte, List.append_nil]
  case turned =>
    rw [untouched, List.append_assoc] at turned
    rw [Queue.untouched, List.append_nil, List.append_assoc]
    exact turned.trans (List.perm_append_comm.append_left _)
  all_goals assumption

theorem start (orderly : queue.Orderly moves) (running : queue.running = some (job, .taken))
    {notes : List Activity} (noted : job.Notes notes) {phase : JobPhase} (begun : phase ≠ .taken)
    (balanced : Balanced
      { queue with history := queue.history ++ notes, running := some (job, phase) }) :
    Orderly (moves ++ [.of .started job])
      { queue with history := queue.history ++ notes, running := some (job, phase) } := by
  have ⟨_, sent, taken, released, turned, worked⟩ := orderly
  have untouched : queue.untouched = [job] := by rw [Queue.untouched, running]
  have touched : Queue.untouched
      { queue with history := queue.history ++ notes, running := some (job, phase) } = [] := by
    cases phase with
    | taken => exact absurd rfl begun
    | compiling => rfl
    | ended => rfl
  rw [running] at released
  constructor
  case balanced => exact balanced
  all_goals simp only [jobsIn_snoc, reduceCtorEq, ↓reduceIte, List.append_nil]
  case turned =>
    rw [untouched] at turned
    rw [touched, List.append_nil, ← List.append_assoc]
    exact turned
  case worked =>
    obtain ⟨all, fit, history⟩ := worked
    refine ⟨all ++ [notes], List.rel_append fit (.cons noted .nil), ?_⟩
    rw [history, List.flatten_append, List.flatten_singleton]
  all_goals assumption

theorem finish (orderly : queue.Orderly moves) (running : queue.running = some (job, .compiling))
    {event : JobEvent} (ends : event = .finished ∨ event = .expired)
    (balanced : Balanced { queue with running := some (job, .ended) }) :
    Orderly (moves ++ [.of event job]) { queue with running := some (job, .ended) } := by
  have ⟨_, sent, taken, released, turned, worked⟩ := orderly
  have untouched : queue.untouched = [] := by rw [Queue.untouched, running]
  rw [running] at released
  rw [untouched] at turned
  constructor
  case balanced => exact balanced
  all_goals rcases ends with rfl | rfl
  all_goals simp only [jobsIn_snoc, reduceCtorEq, ↓reduceIte, List.append_nil]
  all_goals assumption

theorem release (orderly : queue.Orderly moves) (running : queue.running = some (job, .ended))
    (balanced : Balanced { queue with running := none, pending := queue.pending - 1 }) :
    Orderly (moves ++ [.of .released job])
      { queue with running := none, pending := queue.pending - 1 } := by
  have ⟨_, sent, taken, released, turned, worked⟩ := orderly
  have untouched : queue.untouched = [] := by rw [Queue.untouched, running]
  rw [untouched] at turned
  constructor
  case balanced => exact balanced
  all_goals simp only [jobsIn_snoc, reduceCtorEq, ↓reduceIte, List.append_nil]
  case released => rw [released, running, Option.toList, Option.toList, List.map_nil,
    List.append_nil, List.map_singleton]
  all_goals assumption

/-- When no job is pending, every job that was counted is done. -/
theorem released_of_done (orderly : queue.Orderly moves) (done : queue.pending = 0) :
    (jobsIn .announced moves).Perm (jobsIn .released moves) := by
  have empty := orderly.balanced.isEmpty done
  have same : jobsIn .sent moves ++ queue.announced = jobsIn .released moves := by
    rw [orderly.taken, orderly.released, empty.announced, empty.waiting, empty.running]
    simp
  exact same ▸ orderly.sent

end Orderly

end Queue

namespace Workshop

theorem Moves.orderly {workshop next : Workshop} {moves : List Move} {move : Move}
    (last : workshop.Moves move next) (orderly : workshop.queue.Orderly moves) :
    next.queue.Orderly (moves ++ [move]) := by
  have balanced := last.balanced orderly.balanced
  cases last with
  | announce => exact orderly.announce balanced
  | send counted => exact orderly.send counted balanced
  | take free first =>
      rw [Workshop.take, free, first] at balanced ⊢
      exact orderly.take free first balanced
  | skip running fired =>
      rw [prepare, if_pos fired] at balanced ⊢
      exact orderly.skip running balanced
  | start running unfired _ =>
      obtain ⟨notes, phase, noted, begun, shape⟩ := queue_prepare unfired
      rw [shape] at balanced ⊢
      exact orderly.start running noted begun balanced
  | finish running => exact orderly.finish running (.inl rfl) balanced
  | expire running => exact orderly.finish running (.inr rfl) balanced
  | release running => exact orderly.release running balanced
  | elsewhere =>
      obtain ⟨_, sent, taken, released, turned, worked⟩ := orderly
      constructor
      case balanced => exact balanced
      all_goals simp only [jobsIn_append, jobsIn_elsewhere, List.append_nil]
      all_goals assumption

/-- Whatever has happened to a queue that had no jobs at first, it has kept its order. -/
theorem Runs.orderly {world : World} {log : Path} {limit : Option Duration} {moves : List Move}
    {final : Workshop} (runs : Runs ⟨world, .idle log limit⟩ moves final) :
    final.queue.Orderly moves := by
  induction runs with
  | refl => exact Queue.orderly_idle log limit
  | step _ last induction => exact last.orderly induction

end Workshop

end GameExport
