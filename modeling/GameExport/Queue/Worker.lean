import GameExport.Queue.Basic

/-! # The worker of the queue

What the worker does with one job, step by step: take it, prepare its call, let the compiler
end, and count it as done. Between any two steps others may submit jobs, fire tokens and change
files. A job whose token has fired when the worker turns to it is skipped. What stands in the
place of the output is removed first, so that an output found later is that of this job.
-/

namespace GameExport.Workshop

def take (workshop : Workshop) : Workshop :=
  match workshop.queue.running, workshop.queue.waiting with
  | none, job :: rest =>
      { workshop with
        queue := { workshop.queue with waiting := rest, running := some (job, .taken) } }
  | _, _ => workshop

/-- Remove what stands in the place of an output. Failing to do so is no error. -/
def clearOutput (files : FileTree) (output : Path) : FileTree :=
  if files.pathExists output then (files.removeFile output).toOption.getD files else files

def begin (workshop : Workshop) (job : Job) : Workshop :=
  { workshop with queue := workshop.queue.note (.called job.call) }.enter job .compiling

def prepare (workshop : Workshop) (job : Job) : Workshop :=
  if workshop.world.hasFired job.token then workshop.enter job .ended
  else
    let files := clearOutput workshop.world.files job.call.output
    let world := { workshop.world with files := files }
    match job.preparation with
    | none => { workshop with world := world }.begin job
    | some preparation =>
        let (world, result) := preparation world
        let queue := workshop.queue.note (.prepared job.label)
        match result with
        | .done => { world, queue : Workshop }.begin job
        | .failed | .brokeDown => { world, queue : Workshop }.enter job .ended

def finish (workshop : Workshop) (job : Job) (files : FileTree) : Workshop :=
  { workshop with world := { workshop.world with files := files } }.enter job .ended

/-- End the call of a job that has taken too long. Its token fires, so that the other jobs of
the same token are skipped. -/
def expire (workshop : Workshop) (job : Job) (files : FileTree) : Workshop :=
  let workshop := workshop.finish job files
  { workshop with world := workshop.world.fire job.token }

def release (workshop : Workshop) : Workshop :=
  { workshop with
    queue := { workshop.queue with running := none, pending := workshop.queue.pending - 1 } }

/-- The files that a job leaves which is aborted while the compiler is at it. -/
def abortedFiles (compiler : Compiler) (workshop : Workshop) (job : Job) : FileTree :=
  match compiler job.call workshop.queue.log workshop.world.files with
  | .ended files _ | .broken files | .hangs files => files

/-- The next step that the worker takes by itself, if there is one. While the compiler hangs
there is none, until the token of the job fires. -/
def next? (compiler : Compiler) (workshop : Workshop) : Option Workshop :=
  match workshop.queue.running with
  | none => if workshop.queue.waiting.isEmpty then none else some workshop.take
  | some (job, .taken) => some (workshop.prepare job)
  | some (job, .compiling) =>
      match compiler job.call workshop.queue.log workshop.world.files with
      | .ended files _ | .broken files => some (workshop.finish job files)
      | .hangs files =>
          if workshop.world.hasFired job.token then some (workshop.finish job files) else none
  | some (_, .ended) => some workshop.release

end GameExport.Workshop
