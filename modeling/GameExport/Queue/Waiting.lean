import GameExport.Queue.Worker

/-! # Waiting for the queue

Whoever waits for the queue lets the worker go on until no job is pending, or until a token
fires. While the compiler hangs the host is free for a moment now and then, and a call that has
taken too long is ended.
-/

namespace GameExport.Workshop

def stepsPerJob : Nat := 4

/-- More steps than the worker can take before all jobs are done. -/
def remainingSteps (workshop : Workshop) : Nat :=
  stepsPerJob * (workshop.queue.waiting.length + 1)

def runSteps (compiler : Compiler) : (steps : Nat) → Workshop → Workshop
  | 0, workshop => workshop
  | steps + 1, workshop =>
      match workshop.next? compiler with
      | some next => runSteps compiler steps next
      | none => workshop

def settle (compiler : Compiler) (workshop : Workshop) : Workshop :=
  workshop.runSteps compiler workshop.remainingSteps

def expireRunning (compiler : Compiler) (workshop : Workshop) : Workshop :=
  match workshop.queue.running with
  | some (job, .compiling) => workshop.expire job (workshop.abortedFiles compiler job)
  | _ => workshop

abbrev HostMoment := World → World

structure Waiting where
  compiler : Compiler
  token : Token
  interval : Duration
  host : HostMoment

def hostComesFirst (limit : Option Duration) (interval : Duration) : Bool :=
  match limit with
  | some limit => decide (interval.nanoseconds < limit.nanoseconds)
  | none => true

structure WaitEnd where
  workshop : Workshop
  /-- Whether no job is pending. If one is, the token has ended the wait. -/
  isIdle : Bool
  moments : Nat

/-- Wait, with at most the given number of calls that take too long. -/
def waitRounds (waiting : Waiting) (moments : Nat) : (rounds : Nat) → Workshop → WaitEnd
  | 0, workshop => ⟨workshop, workshop.queue.pending == 0, moments⟩
  | rounds + 1, workshop =>
      let workshop := workshop.settle waiting.compiler
      if workshop.world.hasFired waiting.token then ⟨workshop, false, moments⟩
      else if workshop.queue.pending = 0 then ⟨workshop, true, moments⟩
      else
        let isFree := hostComesFirst workshop.queue.limit waiting.interval
        let world := if isFree then waiting.host workshop.world else workshop.world
        let workshop := { workshop with world := world }
        let moments := if isFree then moments + 1 else moments
        if workshop.world.hasFired waiting.token ∨ workshop.queue.limit = none then
          ⟨workshop, false, moments⟩
        else waitRounds waiting moments rounds (workshop.expireRunning waiting.compiler)

/-- Wait until no job is pending or the token has fired. If no job is pending to begin with,
the token does not matter; otherwise one that has fired ends the wait before the worker does
anything. -/
def wait (waiting : Waiting) (workshop : Workshop) : WaitEnd :=
  if workshop.queue.pending = 0 then ⟨workshop, true, 0⟩
  else if workshop.world.hasFired waiting.token then ⟨workshop, false, 0⟩
  else workshop.waitRounds waiting 0 (workshop.queue.waiting.length + 2)

def waitCancelled : String := "wait for the compiler queue was cancelled"

end GameExport.Workshop
