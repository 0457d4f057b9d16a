import GameExport.Proofs.FileTree.Clearing
import GameExport.Proofs.Queue.Interleaving

/-! # Outputs that no job makes

The worker clears the place of a job's output before it prepares the call. Main statement: if from
then on nobody makes the output, neither the job itself nor anybody else, then something is there
exactly if a directory stood there when the worker turned to the job.
-/

namespace GameExport

/-- Something is at a path after a change of the files if something was there before it. -/
def FileTree.SameAt (path : Path) (before after : FileTree) : Prop :=
  after.pathExists path = before.pathExists path

def Job.FailsCleanly (job : Job) : Prop :=
  ∀ preparation ∈ job.preparation, ∀ world, (preparation world).2 ≠ .done →
    (preparation world).1 = world

namespace Workshop

open FileTree

/-- Whatever happens, one thing after the other, nothing is made at a path and nothing is removed
there. -/
inductive Spares (output : Path) (start : Workshop) : Workshop → Prop
  | refl : Spares output start start
  | step {middle final : Workshop} {move : Move} (earlier : Spares output start middle)
      (last : middle.Moves move final)
      (same : SameAt output middle.world.files final.world.files) : Spares output start final

/-- A job comes to nothing: from when the worker turns to it nothing is made at the place of its
output. Either the work before its call fails, or neither that nor the call makes anything there,
however the call ends; and nobody else does. -/
structure ComesToNothing (job : Job) (turned final : Workshop) : Prop where
  taken : turned.queue.running = some (job, .taken)
  unfired : turned.world.hasFired job.token = false
  prepared : ∀ preparation ∈ job.preparation, (preparation (turned.cleared job)).2 = .done →
    SameAt job.call.output (turned.cleared job).files (preparation (turned.cleared job)).1.files
  rest : Spares job.call.output (turned.prepare job) final

variable {job : Job} {output : Path} {start turned final : Workshop}

theorem Spares.sameAt (spares : Spares output start final) :
    SameAt output start.world.files final.world.files := by
  induction spares with
  | refl => rfl
  | step _ _ same induction => exact same.trans induction

theorem sameAt_prepare (unfired : turned.world.hasFired job.token = false)
    (clean : job.FailsCleanly)
    (prepared : ∀ preparation ∈ job.preparation, (preparation (turned.cleared job)).2 = .done →
      SameAt job.call.output (turned.cleared job).files
        (preparation (turned.cleared job)).1.files) :
    SameAt job.call.output (turned.cleared job).files (turned.prepare job).world.files := by
  have steps := prepared_prepare unfired
  generalize turned.prepare job = begun at steps ⊢
  cases steps with
  | plain _ => rfl
  | done held went => exact prepared _ held went
  | failed held went =>
      change SameAt job.call.output (turned.cleared job).files _
      rw [enter, clean _ held _ went]
      rfl

/-- If a job comes to nothing, then something is at the place of its output exactly if a directory
stood there when the worker turned to it. -/
theorem ComesToNothing.pathExists_iff (nothing : ComesToNothing job turned final)
    (clean : job.FailsCleanly) :
    final.world.files.pathExists job.call.output = true ↔
      turned.world.files.HoldsDirectory job.call.output := by
  have prepared := sameAt_prepare nothing.unfired clean nothing.prepared
  have left : SameAt job.call.output (turned.cleared job).files final.world.files :=
    nothing.rest.sameAt.trans prepared
  rw [left]
  exact pathExists_clearOutput _ _

/-! ## The worker on its own -/

section Alone

variable {waiting : Waiting} {compiler : Compiler} {workshop next : Workshop} {steps : Nat}

theorem runSteps_succ (step : workshop.next? compiler = some next) :
    workshop.runSteps compiler (steps + 1) = next.runSteps compiler steps := by
  rw [runSteps, step]

theorem runSteps_of_stuck (stuck : workshop.next? compiler = none) :
    workshop.runSteps compiler steps = workshop := by
  cases steps with
  | zero => rfl
  | succ steps => rw [runSteps, stuck]

structure IsThrough (job : Job) (workshop : Workshop) : Prop where
  running : workshop.queue.running = some (job, .ended)
  waiting : workshop.queue.waiting = []
  pending : workshop.queue.pending = 1

theorem IsThrough.runSteps (through : workshop.IsThrough job) :
    workshop.runSteps compiler (steps + 1) = workshop.release := by
  have releases : workshop.next? compiler = some workshop.release := by
    rw [next?, through.running]
  have stuck : workshop.release.next? compiler = none := by
    simp [next?, release, through.waiting]
  rw [runSteps_succ releases, runSteps_of_stuck stuck]

def EndsCall (compiler : Compiler) (job : Job) (workshop : Workshop) (after : FileTree) : Prop :=
  compiler job.call workshop.queue.log workshop.world.files = .broken after ∨
    ∃ result, compiler job.call workshop.queue.log workshop.world.files = .ended after result

theorem EndsCall.next? {after : FileTree} (ends : EndsCall compiler job workshop after)
    (running : workshop.queue.running = some (job, .compiling)) :
    workshop.next? compiler = some (workshop.finish job after) := by
  rw [Workshop.next?, running]
  rcases ends with broken | ⟨result, ended⟩
  · simp only [broken]
  · simp only [ended]

theorem runSteps_taken (steps : Nat) (taken : turned.queue.running = some (job, .taken))
    (unwaited : turned.queue.waiting = []) (alone : turned.queue.pending = 1)
    (unfired : turned.world.hasFired job.token = false)
    (calls : (turned.prepare job).queue.running = some (job, .compiling) → ∃ after,
      EndsCall compiler job (turned.prepare job) after ∧
        SameAt output (turned.prepare job).world.files after) :
    ∃ ended : Workshop, ended.IsThrough job ∧ Spares output (turned.prepare job) ended ∧
      turned.runSteps compiler (steps + 3) = ended.release := by
  have prepares : turned.next? compiler = some (turned.prepare job) := by
    rw [Workshop.next?, taken]
  obtain ⟨notes, phase, _, untaken, shape⟩ := queue_prepare unfired
  have running : (turned.prepare job).queue.running = some (job, phase) := by rw [shape]
  have waiting : (turned.prepare job).queue.waiting = [] := by rw [shape]; exact unwaited
  have pending : (turned.prepare job).queue.pending = 1 := by rw [shape]; exact alone
  rw [runSteps_succ prepares]
  cases phase with
  | taken => exact absurd rfl untaken
  | ended =>
      have through : (turned.prepare job).IsThrough job := ⟨running, waiting, pending⟩
      exact ⟨_, through, .refl, through.runSteps⟩
  | compiling =>
      obtain ⟨after, ends, same⟩ := calls running
      have through : ((turned.prepare job).finish job after).IsThrough job :=
        ⟨rfl, waiting, pending⟩
      refine ⟨_, through, .step .refl (.finish running after) same, ?_⟩
      rw [runSteps_succ (ends.next? running), through.runSteps]

theorem settle_submit (empty : start.queue.IsEmpty) :
    (start.submit job).settle compiler = (start.submit job).take.runSteps compiler 7 := by
  have free : (start.submit job).queue.running = none := by
    simp [submit, Queue.submit, Queue.announce, Queue.send, empty.announced, empty.running]
  have takes : (start.submit job).next? compiler = some (start.submit job).take := by
    simp [Workshop.next?, free, waiting_submit empty]
  have steps : (start.submit job).remainingSteps = 7 + 1 := by
    rw [remainingSteps, waiting_submit empty]
    rfl
  rw [settle, steps, runSteps_succ takes]

theorem wait_of_settle {ended : Workshop} (empty : start.queue.IsEmpty)
    (unfired : start.world.hasFired waiting.token = false)
    (settles : (start.submit job).settle waiting.compiler = ended)
    (done : ended.queue.pending = 0) :
    ((start.submit job).wait waiting).workshop = ended := by
  have pending : (start.submit job).queue.pending ≠ 0 := by
    simp [submit, Queue.submit, Queue.announce, Queue.send, empty.announced]
  have unstopped : ¬ (start.submit job).world.hasFired waiting.token = true :=
    Bool.eq_false_iff.mp unfired
  rw [wait, if_neg pending, if_neg unstopped, waiting_submit empty]
  simp only [List.length_singleton, waitRounds, settles, done, if_true]
  split <;> rfl

/-- A job that is submitted to an empty queue comes to nothing if the worker goes on by itself and
neither the work before its call nor the call makes anything at the place of its output. -/
theorem comesToNothing_wait (empty : start.queue.IsEmpty)
    (unfired : start.world.hasFired job.token = false) (sameToken : waiting.token = job.token)
    (prepared : ∀ preparation ∈ job.preparation, (preparation (start.cleared job)).2 = .done →
      SameAt job.call.output (start.cleared job).files (preparation (start.cleared job)).1.files)
    (calls : ((start.submit job).take.prepare job).queue.running = some (job, .compiling) →
      ∃ after, EndsCall waiting.compiler job ((start.submit job).take.prepare job) after ∧
        SameAt job.call.output ((start.submit job).take.prepare job).world.files after) :
    ComesToNothing job (start.submit job).take ((start.submit job).wait waiting).workshop := by
  have turned : (start.submit job).take = _ := take_submit empty
  have sameWorld : (start.submit job).take.world = start.world := by rw [turned]
  have taken : (start.submit job).take.queue.running = some (job, .taken) := by rw [turned]
  have unwaited : (start.submit job).take.queue.waiting = [] := by
    rw [turned]
    exact empty.waiting
  have alone : (start.submit job).take.queue.pending = 1 := by rw [turned]
  have still : (start.submit job).take.world.hasFired job.token = false := by
    rw [sameWorld]
    exact unfired
  have sameCleared : (start.submit job).take.cleared job = start.cleared job := by
    rw [cleared, cleared, sameWorld]
  obtain ⟨ended, through, spares, ends⟩ := runSteps_taken 4 taken unwaited alone still calls
  have settles : (start.submit job).settle waiting.compiler = ended.release :=
    (settle_submit empty).trans ends
  have done : ended.release.queue.pending = 0 := by simp [release, through.pending]
  rw [wait_of_settle empty (sameToken ▸ unfired) settles done]
  exact {
    taken := taken
    unfired := still
    prepared := sameCleared ▸ prepared
    rest := .step spares (.release through.running) rfl }

theorem prepare_of_failed {preparation : World → World × Preparation}
    (held : job.preparation = some preparation)
    (unfired : turned.world.hasFired job.token = false)
    (failed : (preparation (turned.cleared job)).2 ≠ .done) :
    (turned.prepare job).queue.running = some (job, .ended) := by
  have steps := prepared_prepare unfired
  generalize turned.prepare job = begun at steps ⊢
  cases steps with
  | plain none =>
      rw [held] at none
      cases none
  | done other went =>
      obtain rfl := Option.some.inj (held.symm.trans other)
      exact absurd went failed
  | failed _ _ => rfl

theorem comesToNothing_of_failed (empty : start.queue.IsEmpty)
    (unfired : start.world.hasFired job.token = false) (sameToken : waiting.token = job.token)
    {preparation : World → World × Preparation} (held : job.preparation = some preparation)
    (failed : ∀ world, (preparation world).2 ≠ .done) :
    ComesToNothing job (start.submit job).take ((start.submit job).wait waiting).workshop := by
  have same : (start.submit job).take.world = start.world := by rw [take_submit empty]
  apply comesToNothing_wait empty unfired sameToken
  · intro other member done
    rw [held] at member
    obtain rfl := Option.some.inj member
    exact absurd done (failed _)
  · intro running
    rw [prepare_of_failed held (same ▸ unfired) (failed _)] at running
    cases running

end Alone

end Workshop

end GameExport
