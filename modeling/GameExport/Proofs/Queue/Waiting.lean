import GameExport.Queue.Waiting

/-! # Waiting for a job

Main statements: the number of pending jobs always is the number of jobs that are there, so a wait
that has ended in time leaves an empty queue; and if a job is submitted to an empty queue and the
wait for it ends in time, the worker has worked on that job and on nothing else.
-/

namespace GameExport

/-! ## The number of pending jobs -/

/-- The pending jobs are those that are counted, sent or taken. -/
def Queue.Balanced (queue : Queue) : Prop :=
  queue.pending = queue.announced.length + queue.waiting.length + queue.running.toList.length

structure Queue.IsEmpty (queue : Queue) : Prop where
  announced : queue.announced = []
  waiting : queue.waiting = []
  running : queue.running = none
  pending : queue.pending = 0

theorem Queue.Balanced.isEmpty {queue : Queue} (balanced : queue.Balanced)
    (done : queue.pending = 0) : queue.IsEmpty := by
  rw [Queue.Balanced, done] at balanced
  have announced : queue.announced.length = 0 := by omega
  have waiting : queue.waiting.length = 0 := by omega
  have running : queue.running.toList.length = 0 := by omega
  refine ⟨List.length_eq_zero_iff.mp announced, List.length_eq_zero_iff.mp waiting, ?_, done⟩
  cases shape : queue.running with
  | none => rfl
  | some job => rw [shape] at running; cases running

namespace Workshop

theorem balanced_enter {workshop : Workshop} {job : Job} (phase : JobPhase)
    (balanced : workshop.queue.Balanced) (running : workshop.queue.running.isSome = true) :
    (workshop.enter job phase).queue.Balanced := by
  cases shape : workshop.queue.running with
  | none => rw [shape] at running; cases running
  | some other =>
      rw [Queue.Balanced, shape] at balanced
      exact balanced

theorem balanced_prepare {workshop : Workshop} {job : Job} (balanced : workshop.queue.Balanced)
    (running : workshop.queue.running.isSome = true) : (workshop.prepare job).queue.Balanced := by
  unfold prepare
  split
  · exact balanced_enter _ balanced running
  · split
    · exact balanced_enter _ balanced running
    · dsimp only
      split
      · exact balanced_enter _ balanced running
      · exact balanced_enter _ balanced running
      · exact balanced_enter _ balanced running

theorem balanced_take {workshop : Workshop} (balanced : workshop.queue.Balanced) :
    workshop.take.queue.Balanced := by
  unfold take
  split
  · rename_i running waiting
    rw [Queue.Balanced, running, waiting] at balanced
    simp only [Queue.Balanced, Option.toList, List.length_cons, List.length_nil] at balanced ⊢
    omega
  · exact balanced

theorem balanced_next? {compiler : Compiler} {workshop next : Workshop}
    (balanced : workshop.queue.Balanced) (step : workshop.next? compiler = some next) :
    next.queue.Balanced := by
  unfold next? at step
  split at step
  · split at step
    · cases step
    · obtain rfl := Option.some.inj step
      exact balanced_take balanced
  · rename_i running
    obtain rfl := Option.some.inj step
    exact balanced_prepare balanced (by rw [running]; rfl)
  · rename_i running
    have isSome : workshop.queue.running.isSome = true := by rw [running]; rfl
    split at step
    · obtain rfl := Option.some.inj step
      exact balanced_enter _ balanced isSome
    · obtain rfl := Option.some.inj step
      exact balanced_enter _ balanced isSome
    · split at step
      · obtain rfl := Option.some.inj step
        exact balanced_enter _ balanced isSome
      · cases step
  · rename_i running
    obtain rfl := Option.some.inj step
    rw [Queue.Balanced, running] at balanced
    simp only [Queue.Balanced, release, Option.toList, List.length_cons, List.length_nil]
      at balanced ⊢
    omega

theorem balanced_expireRunning {compiler : Compiler} {workshop : Workshop}
    (balanced : workshop.queue.Balanced) : (workshop.expireRunning compiler).queue.Balanced := by
  unfold expireRunning
  split
  · rename_i running
    exact balanced_enter _ balanced (by rw [running]; rfl)
  · exact balanced

/-! ## What holds after a wait -/

section Wait

variable {waiting : Waiting} (property : Workshop → Prop)

theorem runSteps_keeps
    (step : ∀ workshop next, property workshop → workshop.next? waiting.compiler = some next →
      property next) (steps : Nat) {workshop : Workshop} (start : property workshop) :
    property (workshop.runSteps waiting.compiler steps) := by
  induction steps generalizing workshop with
  | zero => exact start
  | succ steps induction =>
      rw [runSteps]
      split
      · rename_i next taken
        exact induction (step _ _ start taken)
      · exact start

theorem waitRounds_keeps
    (step : ∀ workshop next, property workshop → workshop.next? waiting.compiler = some next →
      property next)
    (resumes : ∀ workshop world, property workshop → world.hasFired waiting.token = false →
      property ({ workshop with world := world }.expireRunning waiting.compiler))
    {moments rounds : Nat} {workshop : Workshop} (start : property workshop)
    (idle : (waitRounds waiting moments rounds workshop).isIdle = true) :
    property (waitRounds waiting moments rounds workshop).workshop ∧
      (waitRounds waiting moments rounds workshop).workshop.queue.pending = 0 := by
  induction rounds generalizing moments workshop with
  | zero => exact ⟨start, by simpa [waitRounds] using idle⟩
  | succ rounds induction =>
      -- A round that does not end the wait settles, and then ends the call that takes too long.
      have settled : property (workshop.settle waiting.compiler) :=
        runSteps_keeps property step _ start
      rw [waitRounds] at idle ⊢
      dsimp only at idle ⊢
      generalize workshop.settle waiting.compiler = settledShop at settled idle ⊢
      split at idle
      · cases idle
      rename_i unfired
      rw [if_neg unfired]
      split at idle
      · rename_i done
        rw [if_pos done]
        exact ⟨settled, done⟩
      rename_i pending
      rw [if_neg pending]
      generalize (if hostComesFirst settledShop.queue.limit waiting.interval then
        waiting.host settledShop.world else settledShop.world) = world at idle ⊢
      generalize (if hostComesFirst settledShop.queue.limit waiting.interval then
        moments + 1 else moments) = spent at idle ⊢
      split at idle
      · cases idle
      rename_i goesOn
      rw [if_neg goesOn]
      refine induction (resumes settledShop world settled ?_) idle
      cases fired : world.hasFired waiting.token with
      | false => rfl
      | true => exact absurd (.inl fired) goesOn

/-- What the worker keeps, and what lets a wait go on keeps, holds after a wait that has ended in
time, and then no job is pending. -/
theorem wait_keeps
    (step : ∀ workshop next, property workshop → workshop.next? waiting.compiler = some next →
      property next)
    (resumes : ∀ workshop world, property workshop → world.hasFired waiting.token = false →
      property ({ workshop with world := world }.expireRunning waiting.compiler))
    {workshop : Workshop} (start : property workshop)
    (idle : (workshop.wait waiting).isIdle = true) :
    property (workshop.wait waiting).workshop ∧
      (workshop.wait waiting).workshop.queue.pending = 0 := by
  rw [wait] at idle ⊢
  split at idle
  · rename_i done
    rw [if_pos done]
    exact ⟨start, done⟩
  rename_i pending
  rw [if_neg pending]
  split at idle
  · cases idle
  rename_i unfired
  rw [if_neg unfired]
  exact waitRounds_keeps property step resumes start idle

theorem waitRounds_maintains
    (step : ∀ workshop next, property workshop → workshop.next? waiting.compiler = some next →
      property next)
    (frees : ∀ workshop, property workshop →
      property { workshop with world := waiting.host workshop.world })
    (expires : ∀ workshop, property workshop → property (workshop.expireRunning waiting.compiler))
    {moments rounds : Nat} {workshop : Workshop} (start : property workshop) :
    property (waitRounds waiting moments rounds workshop).workshop := by
  induction rounds generalizing moments workshop with
  | zero => exact start
  | succ rounds induction =>
      have settled : property (workshop.settle waiting.compiler) :=
        runSteps_keeps property step _ start
      rw [waitRounds]
      dsimp only
      generalize workshop.settle waiting.compiler = settledShop at settled ⊢
      have freed : property { settledShop with
          world := if hostComesFirst settledShop.queue.limit waiting.interval then
            waiting.host settledShop.world else settledShop.world } := by
        split
        · exact frees settledShop settled
        · exact settled
      generalize (if hostComesFirst settledShop.queue.limit waiting.interval then
        waiting.host settledShop.world else settledShop.world) = world at freed ⊢
      generalize (if hostComesFirst settledShop.queue.limit waiting.interval then
        moments + 1 else moments) = spent
      split
      · exact settled
      · split
        · exact settled
        · split
          · exact freed
          · exact induction (expires _ freed)

theorem wait_maintains
    (step : ∀ workshop next, property workshop → workshop.next? waiting.compiler = some next →
      property next)
    (frees : ∀ workshop, property workshop →
      property { workshop with world := waiting.host workshop.world })
    (expires : ∀ workshop, property workshop → property (workshop.expireRunning waiting.compiler))
    {workshop : Workshop} (start : property workshop) :
    property (workshop.wait waiting).workshop := by
  rw [wait]
  split
  · exact start
  · split
    · exact start
    · exact waitRounds_maintains property step frees expires start

end Wait

theorem isEmpty_of_wait {waiting : Waiting} {workshop : Workshop}
    (balanced : workshop.queue.Balanced) (idle : (workshop.wait waiting).isIdle = true) :
    (workshop.wait waiting).workshop.queue.IsEmpty := by
  obtain ⟨balanced, done⟩ := wait_keeps (fun workshop => workshop.queue.Balanced)
    (fun _ _ => balanced_next?) (fun _ _ balanced _ => balanced_expireRunning balanced)
    balanced idle
  exact balanced.isEmpty done

end Workshop

/-! ## One job -/

inductive Job.Notes (job : Job) : List Activity → Prop
  | called (plain : job.preparation = none) : Notes job [.called job.call]
  | prepared : Notes job [.prepared job.label]
  | both : Notes job [.prepared job.label, .called job.call]

namespace Workshop

def cleared (workshop : Workshop) (job : Job) : World :=
  { workshop.world with files := clearOutput workshop.world.files job.call.output }

inductive Prepared (workshop : Workshop) (job : Job) : Workshop → Prop
  | plain (held : job.preparation = none) :
      Prepared workshop job ({ workshop with world := workshop.cleared job }.begin job)
  | done {preparation : World → World × Preparation} (held : job.preparation = some preparation)
      (went : (preparation (workshop.cleared job)).2 = .done) :
      Prepared workshop job (begin
        ⟨(preparation (workshop.cleared job)).1, workshop.queue.note (.prepared job.label)⟩ job)
  | failed {preparation : World → World × Preparation} (held : job.preparation = some preparation)
      (went : (preparation (workshop.cleared job)).2 ≠ .done) :
      Prepared workshop job (enter
        ⟨(preparation (workshop.cleared job)).1, workshop.queue.note (.prepared job.label)⟩ job
        .ended)

theorem prepared_prepare {workshop : Workshop} {job : Job}
    (unfired : workshop.world.hasFired job.token = false) :
    Prepared workshop job (workshop.prepare job) := by
  have unskipped : ¬ workshop.world.hasFired job.token = true := by simp [unfired]
  rw [prepare, if_neg unskipped]
  cases held : job.preparation with
  | none => exact .plain held
  | some preparation =>
      dsimp only
      cases went : (preparation { workshop.world with
        files := clearOutput workshop.world.files job.call.output }).2 with
      | done => exact .done held went
      | failed => exact .failed held fun done => Preparation.noConfusion (went.symm.trans done)
      | brokeDown => exact .failed held fun done => Preparation.noConfusion (went.symm.trans done)

/-- How far the work on the only job has come. `earlier` is what had been done before it. -/
inductive WorksOn (job : Job) (earlier : List Activity) : Workshop → Prop
  | sent {workshop} (unfired : workshop.world.hasFired job.token = false)
      (announced : workshop.queue.announced = []) (waiting : workshop.queue.waiting = [job])
      (running : workshop.queue.running = none) (history : workshop.queue.history = earlier) :
      WorksOn job earlier workshop
  | taken {workshop} (unfired : workshop.world.hasFired job.token = false)
      (announced : workshop.queue.announced = []) (waiting : workshop.queue.waiting = [])
      (running : workshop.queue.running = some (job, .taken))
      (history : workshop.queue.history = earlier) : WorksOn job earlier workshop
  | begun {workshop phase notes} (announced : workshop.queue.announced = [])
      (waiting : workshop.queue.waiting = []) (running : workshop.queue.running = some (job, phase))
      (untaken : phase ≠ .taken) (noted : job.Notes notes)
      (history : workshop.queue.history = earlier ++ notes) : WorksOn job earlier workshop
  | released {workshop notes} (announced : workshop.queue.announced = [])
      (waiting : workshop.queue.waiting = []) (running : workshop.queue.running = none)
      (noted : job.Notes notes) (history : workshop.queue.history = earlier ++ notes) :
      WorksOn job earlier workshop

variable {job : Job} {earlier : List Activity} {workshop next : Workshop}

theorem waiting_submit (empty : workshop.queue.IsEmpty) :
    (workshop.submit job).queue.waiting = [job] := by
  simp [submit, Queue.submit, Queue.announce, Queue.send, empty.announced, empty.waiting]

theorem balanced_submit (empty : workshop.queue.IsEmpty) :
    (workshop.submit job).queue.Balanced := by
  simp [Queue.Balanced, submit, Queue.submit, Queue.announce, Queue.send, empty.announced,
    empty.waiting, empty.running, empty.pending]

theorem take_submit (empty : workshop.queue.IsEmpty) :
    (workshop.submit job).take = { workshop with queue := { workshop.queue with
      running := some (job, .taken)
      pending := 1
      submitted := workshop.queue.submitted + 1 } } := by
  simp [take, submit, Queue.submit, Queue.announce, Queue.send, empty.announced, empty.waiting,
    empty.running, empty.pending]

theorem worksOn_prepare (unfired : workshop.world.hasFired job.token = false)
    (announced : workshop.queue.announced = []) (waiting : workshop.queue.waiting = [])
    (history : workshop.queue.history = earlier) : WorksOn job earlier (workshop.prepare job) := by
  have prepared := prepared_prepare unfired
  generalize workshop.prepare job = begun at prepared ⊢
  cases prepared with
  | plain held =>
      exact .begun announced waiting rfl (by decide) (.called held)
        (by simp [begin, enter, Queue.note, history])
  | done _ _ =>
      exact .begun announced waiting rfl (by decide) .both
        (by simp [begin, enter, Queue.note, history])
  | failed _ _ =>
      exact .begun announced waiting rfl (by decide) .prepared
        (by simp [enter, Queue.note, history])

theorem worksOn_next? {compiler : Compiler} (works : WorksOn job earlier workshop)
    (step : workshop.next? compiler = some next) : WorksOn job earlier next := by
  rw [next?] at step
  cases works with
  | sent unfired announced waiting running history =>
      rw [running] at step
      simp only [waiting, List.isEmpty_cons, Bool.false_eq_true, if_false, Option.some.injEq,
        take, running] at step
      subst step
      exact .taken unfired announced rfl rfl history
  | taken unfired announced waiting running history =>
      rw [running] at step
      obtain rfl := Option.some.inj step
      exact worksOn_prepare unfired announced waiting history
  | begun announced waiting running untaken noted history =>
      rename_i phase notes
      rw [running] at step
      cases phase with
      | taken => exact absurd rfl untaken
      | ended =>
          obtain rfl := Option.some.inj step
          exact .released announced waiting rfl noted history
      | compiling =>
          dsimp only at step
          split at step
          · obtain rfl := Option.some.inj step
            exact .begun announced waiting rfl (by decide) noted history
          · obtain rfl := Option.some.inj step
            exact .begun announced waiting rfl (by decide) noted history
          · split at step
            · obtain rfl := Option.some.inj step
              exact .begun announced waiting rfl (by decide) noted history
            · cases step
  | released announced waiting running noted history =>
      rw [running] at step
      simp [waiting] at step

theorem worksOn_resumes (compiler : Compiler) {world : World}
    (works : WorksOn job earlier workshop) (unfired : world.hasFired job.token = false) :
    WorksOn job earlier ({ workshop with world := world }.expireRunning compiler) := by
  cases works with
  | sent _ announced waiting running history =>
      simp only [expireRunning, running]
      exact .sent unfired announced waiting running history
  | taken _ announced waiting running history =>
      simp only [expireRunning, running]
      exact .taken unfired announced waiting running history
  | begun announced waiting running untaken noted history =>
      rename_i phase notes
      simp only [expireRunning, running]
      cases phase with
      | taken => exact absurd rfl untaken
      | ended => exact .begun announced waiting running (by decide) noted history
      | compiling => exact .begun announced waiting rfl (by decide) noted history
  | released announced waiting running noted history =>
      simp only [expireRunning, running]
      exact .released announced waiting running noted history

/-- If a wait for a job that was submitted to an empty queue ends in time, the worker has worked
on that job, and the queue is empty again. -/
theorem wait_submit {waiting : Waiting} (empty : workshop.queue.IsEmpty)
    (unfired : workshop.world.hasFired job.token = false) (sameToken : waiting.token = job.token)
    (idle : ((workshop.submit job).wait waiting).isIdle = true) :
    ((workshop.submit job).wait waiting).workshop.queue.IsEmpty ∧
      ∃ notes, job.Notes notes ∧ ((workshop.submit job).wait waiting).workshop.queue.history =
        workshop.queue.history ++ notes := by
  have sent : WorksOn job workshop.queue.history (workshop.submit job) := by
    refine .sent unfired ?_ ?_ ?_ ?_ <;>
      simp [submit, Queue.submit, Queue.announce, Queue.send, empty.announced, empty.waiting,
        empty.running]
  have nothing := isEmpty_of_wait (balanced_submit empty) idle
  obtain ⟨works, _⟩ := wait_keeps (WorksOn job workshop.queue.history)
    (fun _ _ => worksOn_next?)
    (fun _ _ works unfired => worksOn_resumes _ works (sameToken ▸ unfired)) sent idle
  refine ⟨nothing, ?_⟩
  cases works with
  | sent _ _ waiting => rw [nothing.waiting] at waiting; cases waiting
  | taken _ _ _ running => rw [nothing.running] at running; cases running
  | begun _ _ running => rw [nothing.running] at running; cases running
  | released _ _ _ noted history => exact ⟨_, noted, history⟩

/-! ## The files around a call -/

def calledFiles (compiler : Compiler) (job : Job) (workshop : Workshop) : FileTree :=
  (compiler job.call workshop.queue.log (workshop.cleared job).files).files

/-- How the files stand while the worker is at the only job, which was sent at `start` and only
calls the compiler. They are as `holds` says once the job has ended. -/
inductive FilesAround (job : Job) (start : Workshop) (holds : FileTree → Prop) : Workshop → Prop
  | sent {workshop : Workshop} (running : workshop.queue.running = none)
      (waiting : workshop.queue.waiting = [job]) (log : workshop.queue.log = start.queue.log)
      (files : workshop.world.files = start.world.files) : FilesAround job start holds workshop
  | taken {workshop : Workshop} (running : workshop.queue.running = some (job, .taken))
      (waiting : workshop.queue.waiting = []) (log : workshop.queue.log = start.queue.log)
      (files : workshop.world.files = start.world.files) : FilesAround job start holds workshop
  | called {workshop : Workshop} (running : workshop.queue.running = some (job, .compiling))
      (waiting : workshop.queue.waiting = []) (log : workshop.queue.log = start.queue.log)
      (files : workshop.world.files = (start.cleared job).files) :
      FilesAround job start holds workshop
  | ended {workshop : Workshop} (waiting : workshop.queue.waiting = [])
      (running : ∀ other phase, workshop.queue.running = some (other, phase) → phase = .ended)
      (files : holds workshop.world.files) : FilesAround job start holds workshop

section Around

variable {compiler : Compiler} {start : Workshop} {holds : FileTree → Prop}

theorem FilesAround.finish (called : holds (start.calledFiles compiler job))
    (waiting : workshop.queue.waiting = []) (log : workshop.queue.log = start.queue.log)
    (files : workshop.world.files = (start.cleared job).files) {after : FileTree}
    (leaves : (compiler job.call workshop.queue.log workshop.world.files).files = after) :
    FilesAround job start holds (workshop.finish job after) := by
  refine .ended waiting (fun _ _ same => ?_) ?_
  · cases same
    rfl
  · rw [log, files] at leaves
    exact leaves ▸ called

theorem FilesAround.prepare (plain : job.preparation = none) (before : holds start.world.files)
    (waiting : workshop.queue.waiting = []) (log : workshop.queue.log = start.queue.log)
    (files : workshop.world.files = start.world.files) :
    FilesAround job start holds (workshop.prepare job) := by
  rw [Workshop.prepare, plain]
  split
  · refine .ended waiting (fun _ _ same => ?_) (files ▸ before)
    cases same
    rfl
  · refine .called rfl waiting log ?_
    rw [cleared, ← files]
    rfl

theorem FilesAround.next? (plain : job.preparation = none) (before : holds start.world.files)
    (called : holds (start.calledFiles compiler job))
    (around : FilesAround job start holds workshop)
    (step : workshop.next? compiler = some next) : FilesAround job start holds next := by
  rw [Workshop.next?] at step
  cases around with
  | sent running waiting log files =>
      rw [running] at step
      simp only [waiting, List.isEmpty_cons, Bool.false_eq_true, if_false, Option.some.injEq,
        take, running] at step
      subst step
      exact .taken rfl rfl log files
  | taken running waiting log files =>
      rw [running] at step
      obtain rfl := Option.some.inj step
      exact .prepare plain before waiting log files
  | called running waiting log files =>
      rw [running] at step
      dsimp only at step
      split at step
      · rename_i outcome
        obtain rfl := Option.some.inj step
        exact .finish called waiting log files (by rw [outcome]; rfl)
      · rename_i outcome
        obtain rfl := Option.some.inj step
        exact .finish called waiting log files (by rw [outcome]; rfl)
      · rename_i outcome
        split at step
        · obtain rfl := Option.some.inj step
          exact .finish called waiting log files (by rw [outcome]; rfl)
        · cases step
  | ended waiting running files =>
      split at step
      · simp [waiting] at step
      · rename_i shape
        cases running _ _ shape
      · rename_i shape
        cases running _ _ shape
      · obtain rfl := Option.some.inj step
        exact .ended waiting nofun files

theorem FilesAround.withWorld {world : World} (same : world.files = workshop.world.files)
    (around : FilesAround job start holds workshop) :
    FilesAround job start holds { workshop with world := world } := by
  cases around with
  | sent running waiting log files => exact .sent running waiting log (same.trans files)
  | taken running waiting log files => exact .taken running waiting log (same.trans files)
  | called running waiting log files => exact .called running waiting log (same.trans files)
  | ended waiting running files => exact .ended waiting running (same ▸ files)

theorem FilesAround.expireRunning (called : holds (start.calledFiles compiler job))
    (around : FilesAround job start holds workshop) :
    FilesAround job start holds (workshop.expireRunning compiler) := by
  cases around with
  | sent running waiting log files =>
      simp only [Workshop.expireRunning, running]
      exact .sent running waiting log files
  | taken running waiting log files =>
      simp only [Workshop.expireRunning, running]
      exact .taken running waiting log files
  | called running waiting log files =>
      simp only [Workshop.expireRunning, running]
      exact (FilesAround.finish called waiting log files rfl).withWorld rfl
  | ended waiting running files =>
      rw [Workshop.expireRunning]
      split
      · rename_i shape
        cases running _ _ shape
      · exact .ended waiting running files

/-- After a wait in time for a job that only calls the compiler, the files are as before the job or
as the call has left them, if the host changes none. -/
theorem files_wait_submit {waiting : Waiting} (empty : start.queue.IsEmpty)
    (plain : job.preparation = none)
    (quiet : ∀ world, (waiting.host world).files = world.files)
    (before : holds start.world.files) (called : holds (start.calledFiles waiting.compiler job))
    (idle : ((start.submit job).wait waiting).isIdle = true) :
    holds ((start.submit job).wait waiting).workshop.world.files := by
  have sent : FilesAround job start holds (start.submit job) := by
    refine .sent ?_ (waiting_submit empty) ?_ rfl <;>
      simp [submit, Queue.submit, Queue.announce, Queue.send, empty.announced, empty.running]
  have around := wait_maintains (FilesAround job start holds)
    (fun _ _ around => around.next? plain before called)
    (fun _ around => around.withWorld (quiet _)) (fun _ around => around.expireRunning called) sent
  have nothing := isEmpty_of_wait (balanced_submit empty) idle
  cases around with
  | sent _ waiting => rw [nothing.waiting] at waiting; cases waiting
  | taken running => rw [nothing.running] at running; cases running
  | called running => rw [nothing.running] at running; cases running
  | ended _ _ files => exact files

end Around

end Workshop

end GameExport
