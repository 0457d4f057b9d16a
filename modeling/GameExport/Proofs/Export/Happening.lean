import GameExport.Export.Compiling
import GameExport.Proofs.FileTree.Change
import GameExport.Proofs.Queue.Waiting

/-! # What happens to files during an export

Files change during an export because the export itself, the host, the compiler or the jobs of
others change them. Main statement: as long as the queue holds no other jobs than those of others
and jobs that make entries of some directories, nothing else happens to the files while the export
waits, however the wait ends.
-/

namespace GameExport

open FileTree
open Relation (ReflTransGen)

def ExportTool.workplaces (tool : ExportTool) (options : ExportOptions) : List Path :=
  [tool.workingDirectory, tool.settings.generatedDirectory, options.output]

def Queue.jobs (queue : Queue) : List Job :=
  queue.announced ++ queue.waiting ++ queue.running.toList.map Prod.fst

/-- A job that makes an entry of one of some directories, and before its call writes nothing else
than such entries. -/
structure Job.IsLocal (directories : List Path) (job : Job) : Prop where
  output : ∃ directory ∈ directories, ∃ name, IsName name ∧ job.call.output = directory.child name
  preparation : ∀ preparation ∈ job.preparation, ∀ world : World, world.files.WellNamed →
    Steps directories world.files (preparation world).1.files

/-! ## What happens to the files -/

section Happenings

variable (tool : ExportTool) (request : ExportRequest) (others : List Job)

/-- What changes files during an export. -/
inductive Happening : FileTree → FileTree → Prop
  | own {before after} (step : Step (tool.workplaces request.options) before after) :
      Happening before after
  | host (notice : Notice Progress) (world : World) :
      Happening world.files (request.react notice world).files
  | compiler {job : Job} (asked : job ∈ others ∨ job.IsLocal (tool.workplaces request.options))
      (log : Path) (files : FileTree) : Happening files (tool.compiler job.call log files).files
  | other {job : Job} (member : job ∈ others) (workshop : Workshop) :
      Happening workshop.world.files (workshop.prepare job).world.files

/-- Whoever else changes files during an export does so in a system that only takes names which
entries of directories can have. -/
structure KeepsNames : Prop where
  host : ∀ notice world, world.files.WellNamed → (request.react notice world).files.WellNamed
  compiler : ∀ call log files, files.WellNamed → (tool.compiler call log files).files.WellNamed
  others : ∀ job ∈ others, ∀ workshop : Workshop, workshop.world.files.WellNamed →
    (workshop.prepare job).world.files.WellNamed

def Happenings : FileTree → FileTree → Prop := ReflTransGen (Happening tool request others)

variable {tool request others} {before after : FileTree}

theorem Happening.wellNamed (keeps : KeepsNames tool request others)
    (happening : Happening tool request others before after) (wellNamed : before.WellNamed) :
    after.WellNamed := by
  cases happening with
  | own step => exact step.wellNamed wellNamed
  | host notice world => exact keeps.host notice world wellNamed
  | compiler _ log => exact keeps.compiler _ log before wellNamed
  | other member workshop => exact keeps.others _ member workshop wellNamed

theorem Happenings.wellNamed (keeps : KeepsNames tool request others)
    (happenings : Happenings tool request others before after) (wellNamed : before.WellNamed) :
    after.WellNamed := by
  induction happenings with
  | refl => exact wellNamed
  | tail _ happening induction => exact happening.wellNamed keeps induction

theorem happenings_of_steps (steps : Steps (tool.workplaces request.options) before after) :
    Happenings tool request others before after :=
  steps.lift id fun _ _ => .own

end Happenings

/-! ## The worker -/

section Worker

variable (tool : ExportTool) (request : ExportRequest) (others : List Job) (origin : FileTree)

/-- All that has happened to the files of a workshop so far may happen during an export, and its
queue has no other jobs than those of others and local ones. -/
structure Stays (workshop : Workshop) : Prop where
  leads : Happenings tool request others origin workshop.world.files
  wellNamed : workshop.world.files.WellNamed
  jobs : ∀ job ∈ workshop.queue.jobs,
    job ∈ others ∨ job.IsLocal (tool.workplaces request.options)

variable {tool request others origin} {workshop after : Workshop} {job : Job}

theorem Stays.extend (stays : Stays tool request others origin workshop)
    (keeps : KeepsNames tool request others)
    (happenings : Happenings tool request others workshop.world.files after.world.files)
    (jobs : ∀ job ∈ after.queue.jobs, job ∈ workshop.queue.jobs) :
    Stays tool request others origin after where
  leads := stays.leads.trans happenings
  wellNamed := happenings.wellNamed keeps stays.wellNamed
  jobs := fun job member => stays.jobs job (jobs job member)

theorem steps_clearOutput {directories : List Path} (isLocal : job.IsLocal directories)
    (files : FileTree) : Steps directories files (Workshop.clearOutput files job.call.output) := by
  rcases isLocal.output with ⟨directory, member, name, isName, same⟩
  rw [same, Workshop.clearOutput]
  split
  · cases removed : files.removeFile (directory.child name) with
    | error cause => exact .refl
    | ok after => exact .single (step_removeFile member isName removed)
  · exact .refl

theorem steps_prepare {directories : List Path} (isLocal : job.IsLocal directories)
    (wellNamed : workshop.world.files.WellNamed) :
    Steps directories workshop.world.files (workshop.prepare job).world.files := by
  have clears := steps_clearOutput isLocal workshop.world.files
  rw [Workshop.prepare]
  split
  · exact .refl
  · dsimp only
    cases prepares : job.preparation with
    | none => exact clears
    | some preparation =>
        have writes := isLocal.preparation preparation prepares
          { workshop.world with files := Workshop.clearOutput workshop.world.files job.call.output }
          (clears.wellNamed wellNamed)
        have steps := clears.trans writes
        dsimp only
        split
        · exact steps
        · exact steps
        · exact steps

theorem mem_jobs_enter {phase : JobPhase} {other : Job} (running : job ∈ workshop.queue.jobs)
    (member : other ∈ (workshop.enter job phase).queue.jobs) : other ∈ workshop.queue.jobs := by
  simp only [Queue.jobs, Workshop.enter, List.mem_append, Option.toList, List.map_cons,
    List.map_nil, List.mem_singleton] at member
  rcases member with (announced | waits) | rfl
  · exact List.mem_append_left _ (List.mem_append_left _ announced)
  · exact List.mem_append_left _ (List.mem_append_right _ waits)
  · exact running

theorem mem_jobs_prepare {other : Job} (running : job ∈ workshop.queue.jobs)
    (member : other ∈ (workshop.prepare job).queue.jobs) : other ∈ workshop.queue.jobs := by
  rw [Workshop.prepare] at member
  split at member
  · exact mem_jobs_enter running member
  · dsimp only at member
    split at member
    · exact mem_jobs_enter running member
    · split at member
      · exact mem_jobs_enter running member
      · exact mem_jobs_enter running member
      · exact mem_jobs_enter running member

theorem mem_jobs_take {other : Job} (member : other ∈ workshop.take.queue.jobs) :
    other ∈ workshop.queue.jobs := by
  rw [Workshop.take] at member
  split at member
  · rename_i running waiting
    simp only [Queue.jobs, running, waiting, Option.toList, List.map_cons, List.map_nil,
      List.mem_append, List.mem_cons] at member ⊢
    rcases member with (announced | waits) | runs
    · exact .inl (.inl announced)
    · exact .inl (.inr (.inr waits))
    · exact .inl (.inr (.inl (runs.resolve_right List.not_mem_nil)))
  · exact member

theorem mem_jobs_submit {other : Job} (member : other ∈ (workshop.submit job).queue.jobs) :
    other ∈ workshop.queue.jobs ∨ other = job := by
  simp only [Queue.jobs, Workshop.submit, Queue.submit, Queue.announce, Queue.send,
    List.getElem?_concat_length, List.eraseIdx_append_of_length_le (Nat.le_refl _), Nat.sub_self,
    List.eraseIdx_cons_zero, List.append_nil, List.mem_append, List.mem_singleton] at member ⊢
  rcases member with (announced | waits | same) | runs
  · exact .inl (.inl (.inl announced))
  · exact .inl (.inl (.inr waits))
  · exact .inr same
  · exact .inl (.inr runs)

theorem mem_jobs_running {phase : JobPhase} (running : workshop.queue.running = some (job, phase)) :
    job ∈ workshop.queue.jobs := by
  rw [Queue.jobs, running]
  exact List.mem_append_right _ (List.mem_singleton_self job)

theorem Stays.submit (stays : Stays tool request others origin workshop)
    (isLocal : job.IsLocal (tool.workplaces request.options)) :
    Stays tool request others origin (workshop.submit job) where
  leads := stays.leads
  wellNamed := stays.wellNamed
  jobs := by
    intro other member
    rcases mem_jobs_submit member with old | rfl
    · exact stays.jobs other old
    · exact .inr isLocal

section Keeping

variable (keeps : KeepsNames tool request others)

include keeps

theorem Stays.prepare (stays : Stays tool request others origin workshop)
    (member : job ∈ workshop.queue.jobs) :
    Stays tool request others origin (workshop.prepare job) := by
  apply stays.extend keeps _ fun _ => mem_jobs_prepare member
  rcases stays.jobs job member with isOther | isLocal
  · exact .single (.other isOther workshop)
  · exact happenings_of_steps (steps_prepare isLocal stays.wellNamed)

theorem Stays.finish (stays : Stays tool request others origin workshop)
    (member : job ∈ workshop.queue.jobs) (log : Path) :
    Stays tool request others origin
      (workshop.finish job (tool.compiler job.call log workshop.world.files).files) :=
  stays.extend keeps (.single (.compiler (stays.jobs job member) log _))
    fun _ => mem_jobs_enter member

theorem Stays.next? (stays : Stays tool request others origin workshop)
    (step : workshop.next? tool.compiler = some after) :
    Stays tool request others origin after := by
  unfold Workshop.next? at step
  split at step
  · split at step
    · cases step
    · cases step
      apply stays.extend keeps _ fun _ => mem_jobs_take
      rw [Workshop.take]
      split
      · exact .refl
      · exact .refl
  · rename_i running
    cases step
    exact stays.prepare keeps (mem_jobs_running running)
  · rename_i job running
    have finished := stays.finish keeps (mem_jobs_running running) workshop.queue.log
    split at step
    · rename_i ran
      cases step
      rwa [ran] at finished
    · rename_i ran
      cases step
      rwa [ran] at finished
    · rename_i ran
      split at step
      · cases step
        rwa [ran] at finished
      · cases step
  · rename_i running
    cases step
    have leads : Happenings tool request others workshop.world.files
      workshop.release.world.files := .refl
    apply stays.extend keeps leads
    intro other member
    simp only [Queue.jobs, Workshop.release, Option.toList, List.map_nil, List.append_nil] at member
    exact List.mem_append_left _ member

theorem Stays.expireRunning (stays : Stays tool request others origin workshop) :
    Stays tool request others origin (workshop.expireRunning tool.compiler) := by
  unfold Workshop.expireRunning
  split
  · rename_i job running
    have finished := stays.finish keeps (mem_jobs_running running) workshop.queue.log
    have same : workshop.abortedFiles tool.compiler job =
        (tool.compiler job.call workshop.queue.log workshop.world.files).files := by
      unfold Workshop.abortedFiles
      cases tool.compiler job.call workshop.queue.log workshop.world.files <;> rfl
    rw [← same] at finished
    exact ⟨finished.leads, finished.wellNamed, finished.jobs⟩
  · exact stays

/-- However a wait ends, no other things have happened than those that may happen. -/
theorem Stays.awaited (stays : Stays tool request others origin workshop) :
    Stays tool request others origin (awaited tool request workshop).workshop := by
  apply Workshop.wait_maintains (Stays tool request others origin)
  · exact fun _ _ stays step => stays.next? keeps step
  · intro workshop stays
    exact stays.extend keeps (.single (.host .idle workshop.world)) fun _ => id
  · exact fun _ stays => stays.expireRunning keeps
  · exact stays

end Keeping

end Worker

end GameExport
