import GameExport.Compiler.Command
import GameExport.Queue.Token
import GameExport.Unit

/-! # The queue of compiler jobs

Jobs run one at a time, in the order in which they were sent. The number of pending jobs is
raised before a job is sent and lowered after it has ended, so it never falls short of the
jobs that are waiting or running.
-/

namespace GameExport

inductive Preparation
  | done
  | failed
  | brokeDown
  deriving DecidableEq, Repr

structure Job where
  call : CompilerCall
  /-- The work right before the call, such as writing its input. -/
  preparation : Option (World → World × Preparation)
  unit : Option UnitName
  label : String
  /-- Once it has fired the job is skipped, or aborted. -/
  token : Token

inductive JobPhase
  | taken
  | compiling
  | ended
  deriving DecidableEq, Repr

inductive Activity
  | prepared (label : String)
  | called (call : CompilerCall)
  deriving DecidableEq, Repr

structure Queue where
  /-- Jobs that have been counted but not sent. -/
  announced : List Job
  /-- Jobs that have been sent, first come first. -/
  waiting : List Job
  running : Option (Job × JobPhase)
  pending : Nat
  submitted : Nat
  /-- What the worker has done so far. -/
  history : List Activity
  log : Path
  limit : Option Duration

namespace Queue

def idle (log : Path) (limit : Option Duration) : Queue where
  announced := []
  waiting := []
  running := none
  pending := 0
  submitted := 0
  history := []
  log := log
  limit := limit

def announce (queue : Queue) (job : Job) : Queue :=
  { queue with
    announced := queue.announced ++ [job]
    pending := queue.pending + 1
    submitted := queue.submitted + 1 }

def send (queue : Queue) (place : Nat) : Queue :=
  match queue.announced[place]? with
  | none => queue
  | some job =>
      { queue with
        announced := queue.announced.eraseIdx place
        waiting := queue.waiting ++ [job] }

def submit (queue : Queue) (job : Job) : Queue :=
  (queue.announce job).send queue.announced.length

def isBusy (queue : Queue) : Bool := queue.pending != 0

def note (queue : Queue) (activity : Activity) : Queue :=
  { queue with history := queue.history ++ [activity] }

def calls (queue : Queue) : List CompilerCall :=
  queue.history.filterMap fun
    | .called call => some call
    | .prepared _ => none

end Queue

structure Workshop where
  world : World
  queue : Queue

namespace Workshop

def submit (workshop : Workshop) (job : Job) : Workshop :=
  { workshop with queue := workshop.queue.submit job }

def enter (workshop : Workshop) (job : Job) (phase : JobPhase) : Workshop :=
  { workshop with queue := { workshop.queue with running := some (job, phase) } }

end Workshop

end GameExport
