import GameExport.Proofs.Queue.WaitLoop

/-! # The worker on its own

When nobody else submits jobs, a wait lets the worker take its steps for as long as it can, ends the
calls that take too long, and lets the host be free. Main statements: each step of the worker is one
of the things that can happen around a queue, and if no call may take for ever, such a wait always
ends because no job is pending or because its token has fired, and is one of the waits that there
can be.
-/

namespace GameExport

def JobEvent.isOfWorker : JobEvent → Bool
  | .announced | .sent => false
  | .taken | .skipped | .started | .finished | .expired | .released => true

def Move.isSubmission : Move → Bool
  | .of event _ => !event.isOfWorker
  | .elsewhere => false

def Job.KeepsFired (job : Job) : Prop :=
  ∀ preparation ∈ job.preparation, ∀ world : World, world.IsLater (preparation world).1

namespace Workshop

/-- The worker can go on by itself: no job is about to be sent. -/
structure IsSteady (workshop : Workshop) : Prop where
  balanced : workshop.queue.Balanced
  unannounced : workshop.queue.announced = []
  waiting : ∀ job ∈ workshop.queue.waiting, job.KeepsFired
  running : ∀ job phase, workshop.queue.running = some (job, phase) → job.KeepsFired

variable {workshop next : Workshop} {job : Job} {compiler : Compiler}

theorem isLater_prepare (keeps : job.KeepsFired) :
    workshop.world.IsLater (workshop.prepare job).world := by
  unfold prepare
  split
  · exact .refl
  · dsimp only
    cases preparation : job.preparation with
    | none => exact fun _ => id
    | some prepared =>
        have later := keeps prepared preparation { workshop.world with
          files := clearOutput workshop.world.files job.call.output }
        dsimp only
        split
        · exact later
        · exact later
        · exact later

theorem moves_of_next? (steady : workshop.IsSteady) (step : workshop.next? compiler = some next) :
    ∃ event job, event.isOfWorker = true ∧ workshop.Moves (.of event job) next := by
  unfold next? at step
  split at step
  · rename_i free
    cases first : workshop.queue.waiting with
    | nil => simp [first] at step
    | cons job rest =>
        simp only [first, List.isEmpty_cons, Bool.false_eq_true, ↓reduceIte,
          Option.some.injEq] at step
        subst step
        exact ⟨_, _, rfl, .take free first⟩
  · rename_i job running
    obtain rfl := Option.some.inj step
    cases fired : workshop.world.hasFired job.token with
    | true => exact ⟨_, _, rfl, .skip running fired⟩
    | false =>
        have keeps := steady.running job .taken running
        exact ⟨_, _, rfl, .start running fired (isLater_prepare keeps)⟩
  · rename_i job running
    split at step
    · obtain rfl := Option.some.inj step
      exact ⟨_, _, rfl, .finish running _⟩
    · obtain rfl := Option.some.inj step
      exact ⟨_, _, rfl, .finish running _⟩
    · split at step
      · obtain rfl := Option.some.inj step
        exact ⟨_, _, rfl, .finish running _⟩
      · cases step
  · rename_i job running
    obtain rfl := Option.some.inj step
    exact ⟨_, _, rfl, .release running⟩

theorem IsSteady.moves (steady : workshop.IsSteady) {move : Move}
    (others : move.isSubmission = false) (moves : workshop.Moves move next) : next.IsSteady := by
  have ⟨_, unannounced, waiting, running⟩ := steady
  have balanced := moves.balanced steady.balanced
  cases moves with
  | announce => cases others
  | send => cases others
  | @take job rest free first =>
      rw [first] at waiting
      rw [Workshop.take, free, first] at balanced ⊢
      refine ⟨balanced, unannounced, fun other member => ?_, fun other phase same => ?_⟩
      · exact waiting other (List.mem_cons_of_mem _ member)
      · cases same
        exact waiting job List.mem_cons_self
  | @skip job held fired =>
      rw [prepare, if_pos fired] at balanced ⊢
      refine ⟨balanced, unannounced, waiting, fun other phase same => ?_⟩
      cases same
      exact running job _ held
  | @start job held unfired _ =>
      obtain ⟨notes, phase, _, _, shape⟩ := queue_prepare unfired
      constructor
      case balanced => exact balanced
      all_goals rw [shape]
      case running =>
        intro other phase same
        cases same
        exact running job _ held
      all_goals assumption
  | @finish job held =>
      refine ⟨balanced, unannounced, waiting, fun other phase same => ?_⟩
      cases same
      exact running job _ held
  | @expire job held =>
      refine ⟨balanced, unannounced, waiting, fun other phase same => ?_⟩
      cases same
      exact running job _ held
  | release =>
      refine ⟨balanced, unannounced, waiting, fun other phase same => ?_⟩
      cases same
  | elsewhere => exact ⟨balanced, unannounced, waiting, running⟩

theorem Moves.limit {move : Move} (moves : workshop.Moves move next) :
    next.queue.limit = workshop.queue.limit := by
  cases moves with
  | announce => rfl
  | send counted => simp only [Queue.send, counted]
  | take free first => rw [Workshop.take, free, first]
  | skip running fired => rw [prepare, if_pos fired, enter]
  | start running unfired =>
      obtain ⟨_, _, _, _, shape⟩ := queue_prepare unfired
      rw [shape]
  | finish => rfl
  | expire => rfl
  | release => rfl
  | elsewhere => rfl

/-! ## How much there is to do -/

def remainingOf : JobPhase → Nat
  | .taken => 3
  | .compiling => 2
  | .ended => 1

/-- How many steps the worker takes at most until all jobs are done. -/
def effort (workshop : Workshop) : Nat :=
  stepsPerJob * workshop.queue.waiting.length +
    workshop.queue.running.elim 0 fun held => remainingOf held.2

def unended (workshop : Workshop) : Nat :=
  workshop.queue.waiting.length +
    workshop.queue.running.elim 0 fun held => if held.2 = .ended then 0 else 1

theorem remainingOf_le (phase : JobPhase) : remainingOf phase ≤ 3 := by
  cases phase <;> decide

theorem effort_le (workshop : Workshop) : workshop.effort ≤ workshop.remainingSteps := by
  have last : workshop.queue.running.elim 0 (fun held => remainingOf held.2) ≤ 3 := by
    cases workshop.queue.running with
    | none => exact Nat.zero_le 3
    | some held => exact remainingOf_le held.2
  simp only [effort, remainingSteps, stepsPerJob]
  omega

theorem unended_le (workshop : Workshop) :
    workshop.unended ≤ workshop.queue.waiting.length + 1 := by
  have last : workshop.queue.running.elim 0 (fun held => if held.2 = .ended then 0 else 1) ≤ 1 := by
    cases workshop.queue.running with
    | none => exact Nat.zero_le 1
    | some held =>
        dsimp only [Option.elim]
        split <;> decide
  exact Nat.add_le_add_left last _

/-- Whatever the worker does, less remains to be done. -/
theorem Moves.effort_lt {event : JobEvent} (own : event.isOfWorker = true)
    (moves : workshop.Moves (.of event job) next) :
    next.effort < workshop.effort ∧ next.unended ≤ workshop.unended ∧
      (event = .expired → next.unended < workshop.unended) := by
  cases moves with
  | announce => cases own
  | send => cases own
  | take free first =>
      simp [effort, unended, Workshop.take, free, first, remainingOf, stepsPerJob]
      omega
  | skip held fired => simp [effort, unended, prepare, fired, enter, held, remainingOf]
  | start held unfired _ =>
      obtain ⟨notes, phase, _, begun, shape⟩ := queue_prepare unfired
      cases phase with
      | taken => exact absurd rfl begun
      | compiling => simp [effort, unended, shape, held, remainingOf]
      | ended => simp [effort, unended, shape, held, remainingOf]
  | finish held => simp [effort, unended, Workshop.finish, enter, held, remainingOf]
  | expire held =>
      simp [effort, unended, Workshop.expire, Workshop.finish, enter, held, remainingOf]
  | release held => simp [effort, unended, Workshop.release, held, remainingOf]

/-! ## The worker goes on for as long as it can -/

variable {token : Token} {start final : Workshop} {first phase last : WaitPhase}

/-- A wait during which nobody submits jobs. -/
def WaitsAlone (token : Token) (start : Workshop) (first : WaitPhase) (final : Workshop)
    (last : WaitPhase) : Prop :=
  ∃ moves, (∀ move ∈ moves, move.isSubmission = false) ∧ Waits token start first moves final last

theorem WaitsAlone.refl : WaitsAlone token start first start first :=
  ⟨[], fun _ member => (List.not_mem_nil member).elim, .refl⟩

theorem WaitsAlone.own (alone : WaitsAlone token start first workshop phase)
    (step : workshop.WaitStep token phase last) : WaitsAlone token start first workshop last := by
  obtain ⟨moves, others, waits⟩ := alone
  exact ⟨moves, others, .own waits step⟩

theorem WaitsAlone.others (alone : WaitsAlone token start first workshop phase) {move : Move}
    (unsubmitted : move.isSubmission = false) (step : workshop.Moves move next) :
    WaitsAlone token start first next phase := by
  obtain ⟨moves, others, waits⟩ := alone
  refine ⟨moves ++ [move], fun other member => ?_, .others waits step⟩
  rcases List.mem_append.mp member with member | member
  · exact others other member
  · exact List.mem_singleton.mp member ▸ unsubmitted

theorem Runs.limit {moves : List Move} (runs : Runs start moves final) :
    final.queue.limit = start.queue.limit := by
  induction runs with
  | refl => rfl
  | step _ last induction => exact last.limit.trans induction

theorem WaitsAlone.limit (alone : WaitsAlone token start first workshop phase) :
    workshop.queue.limit = start.queue.limit := by
  obtain ⟨_, _, waits⟩ := alone
  exact waits.runs.limit

theorem waitsAlone_runSteps {steps : Nat} (steady : workshop.IsSteady)
    (enough : workshop.effort ≤ steps) (alone : WaitsAlone token start first workshop phase) :
    let settled := workshop.runSteps compiler steps
    WaitsAlone token start first settled phase ∧ settled.IsSteady ∧
      settled.next? compiler = none ∧ settled.unended ≤ workshop.unended := by
  -- The worker stops because it cannot go on, not because the steps are used up.
  induction steps generalizing workshop with
  | zero =>
      cases step : workshop.next? compiler with
      | none => exact ⟨alone, steady, step, Nat.le_refl _⟩
      | some next =>
          obtain ⟨event, job, own, moves⟩ := moves_of_next? steady step
          have less := (moves.effort_lt own).1
          omega
  | succ steps induction =>
      rw [runSteps]
      cases step : workshop.next? compiler with
      | none => exact ⟨alone, steady, step, Nat.le_refl _⟩
      | some next =>
          obtain ⟨event, job, own, moves⟩ := moves_of_next? steady step
          have unsubmitted : (Move.of event job).isSubmission = false := by
            rw [Move.isSubmission, own, Bool.not_true]
          obtain ⟨less, fewer, -⟩ := moves.effort_lt own
          obtain ⟨waits, settled, stuck, bound⟩ :=
            induction (steady.moves unsubmitted moves) (by omega) (alone.others unsubmitted moves)
          exact ⟨waits, settled, stuck, Nat.le_trans bound fewer⟩

/-- If jobs are pending when the worker cannot go on, the compiler hangs. -/
theorem compiling_of_stuck (steady : workshop.IsSteady) (stuck : workshop.next? compiler = none)
    (pending : workshop.queue.pending ≠ 0) :
    ∃ job, workshop.queue.running = some (job, .compiling) := by
  cases held : workshop.queue.running with
  | none =>
      have balanced := steady.balanced
      rw [Queue.Balanced, steady.unannounced, held] at balanced
      have waits : workshop.queue.waiting ≠ [] := by
        intro nothing
        rw [nothing] at balanced
        exact pending balanced
      simp [next?, held, waits] at stuck
  | some held' =>
      rcases held' with ⟨job, _ | _ | _⟩
      · simp [next?, held] at stuck
      · exact ⟨job, rfl⟩
      · simp [next?, held] at stuck

variable {waiting : Waiting}

theorem WaitsAlone.free {world : World}
    (alone : WaitsAlone token start first workshop .asleep)
    (unfired : workshop.world.hasFired token = false) (pending : workshop.queue.pending ≠ 0)
    (later : workshop.world.IsLater world) :
    WaitsAlone token start first { workshop with world := world } .asleep := by
  have away := (alone.own (.uncancelled unfired)).own .free
  have back := (away.others rfl (.elsewhere later)).own .back
  exact back.own (.busy pending)

theorem WaitsAlone.expireRunning (compiler : Compiler)
    (alone : WaitsAlone token start first workshop .asleep) (steady : workshop.IsSteady)
    (limited : start.queue.limit.isSome = true)
    (running : workshop.queue.running = some (job, .compiling)) :
    WaitsAlone token start first (workshop.expireRunning compiler) .asleep ∧
      (workshop.expireRunning compiler).IsSteady ∧
      (workshop.expireRunning compiler).unended < workshop.unended := by
  rw [Workshop.expireRunning, running]
  rw [← alone.limit] at limited
  have expires := Moves.expire running limited (workshop.abortedFiles compiler job)
  exact ⟨alone.others rfl expires, steady.moves rfl expires, (expires.effort_lt rfl).2.2 rfl⟩

/-- A wait goes on until no job is pending or its token has fired. -/
theorem waitsAlone_waitRounds (host : ∀ world : World, world.IsLater (waiting.host world))
    (limited : start.queue.limit.isSome = true) {moments rounds : Nat}
    (steady : workshop.IsSteady) (enough : workshop.unended < rounds)
    (alone : WaitsAlone waiting.token start first workshop .asleep) :
    WaitsAlone waiting.token start first
      (waitRounds waiting moments rounds workshop).workshop
      (.over (waitRounds waiting moments rounds workshop).isIdle) := by
  -- Each round ends a call that takes too long, and there are fewer such calls than rounds.
  induction rounds generalizing moments workshop with
  | zero => exact absurd enough (Nat.not_lt_zero _)
  | succ rounds induction =>
      have goesOn :
          WaitsAlone waiting.token start first (workshop.settle waiting.compiler) .asleep ∧
          (workshop.settle waiting.compiler).IsSteady ∧
          (workshop.settle waiting.compiler).next? waiting.compiler = none ∧
          (workshop.settle waiting.compiler).unended ≤ workshop.unended :=
        waitsAlone_runSteps steady workshop.effort_le alone
      rw [waitRounds]
      dsimp only
      generalize workshop.settle waiting.compiler = settled at goesOn ⊢
      obtain ⟨alone, steady, stuck, fewer⟩ := goesOn
      split
      · rename_i fired
        exact alone.own (.cancelled fired)
      rename_i unfired
      have unfired : settled.world.hasFired waiting.token = false := by simpa using unfired
      split
      · rename_i done
        exact ((alone.own (.uncancelled unfired)).own .changed).own (.idle done)
      rename_i pending
      obtain ⟨job, running⟩ := compiling_of_stuck steady stuck pending
      have freed : WaitsAlone waiting.token start first { settled with
          world := if hostComesFirst settled.queue.limit waiting.interval then
            waiting.host settled.world else settled.world } .asleep := by
        split
        · exact alone.free unfired pending (host settled.world)
        · exact alone
      generalize (if hostComesFirst settled.queue.limit waiting.interval then
        waiting.host settled.world else settled.world) = world at freed ⊢
      split
      · rename_i ends
        rcases ends with fired | unlimited
        · exact freed.own (.cancelled fired)
        · rw [← alone.limit, unlimited] at limited
          cases limited
      · have still : IsSteady { settled with world := world } :=
          ⟨steady.balanced, steady.unannounced, steady.waiting, steady.running⟩
        obtain ⟨expired, steady, less⟩ :=
          freed.expireRunning waiting.compiler still limited running
        have enough : settled.unended ≤ rounds :=
          Nat.le_of_lt_succ (Nat.lt_of_le_of_lt fewer enough)
        exact induction steady (Nat.lt_of_lt_of_le less enough) expired

theorem waitsAlone_wait (host : ∀ world : World, world.IsLater (waiting.host world))
    (limited : workshop.queue.limit.isSome = true) (steady : workshop.IsSteady) :
    WaitsAlone waiting.token workshop .looking (workshop.wait waiting).workshop
      (.over (workshop.wait waiting).isIdle) := by
  rw [wait]
  split
  · rename_i done
    exact WaitsAlone.refl.own (.idle done)
  rename_i pending
  have looked : WaitsAlone waiting.token workshop .looking workshop .asleep :=
    WaitsAlone.refl.own (.busy pending)
  split
  · rename_i fired
    exact looked.own (.cancelled fired)
  · exact waitsAlone_waitRounds host limited steady (Nat.lt_succ_of_le workshop.unended_le) looked

end Workshop

end GameExport
