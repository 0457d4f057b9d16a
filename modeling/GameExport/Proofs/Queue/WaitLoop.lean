import GameExport.Proofs.Queue.Interleaving

/-! # Waiting among others

Whoever waits for the queue looks at the number of pending jobs, and as long as there are some
looks in turn at the token, at whether the number has changed and at whether the host is to be free
for a moment. Anything may happen between two looks. Main statements: a wait that ends without its
token has seen that no job was pending, and one that looks at its token after that has fired ends by
it.
-/

namespace GameExport

inductive WaitPhase
  | looking
  | asleep
  /-- The token has not fired. Look whether the number of pending jobs has changed, or whether the
  host is to be free. -/
  | listening
  | away
  | over (isIdle : Bool)
  deriving DecidableEq, Repr

namespace Workshop

inductive WaitStep (token : Token) (workshop : Workshop) : WaitPhase → WaitPhase → Prop
  | idle (done : workshop.queue.pending = 0) : WaitStep token workshop .looking (.over true)
  | busy (pending : workshop.queue.pending ≠ 0) : WaitStep token workshop .looking .asleep
  | cancelled (fired : workshop.world.hasFired token = true) :
      WaitStep token workshop .asleep (.over false)
  | uncancelled (unfired : workshop.world.hasFired token = false) :
      WaitStep token workshop .asleep .listening
  | unchanged : WaitStep token workshop .listening .asleep
  | changed : WaitStep token workshop .listening .looking
  | free : WaitStep token workshop .listening .away
  | back : WaitStep token workshop .away .looking

/-- A wait, with what happens around the queue in the meantime. -/
inductive Waits (token : Token) (start : Workshop) (first : WaitPhase) :
    List Move → Workshop → WaitPhase → Prop
  | refl : Waits token start first [] start first
  | others {moves : List Move} {move : Move} {workshop next : Workshop} {phase : WaitPhase}
      (earlier : Waits token start first moves workshop phase)
      (last : workshop.Moves move next) : Waits token start first (moves ++ [move]) next phase
  | own {moves : List Move} {workshop : Workshop} {phase next : WaitPhase}
      (earlier : Waits token start first moves workshop phase)
      (last : workshop.WaitStep token phase next) : Waits token start first moves workshop next

variable {token : Token} {start middle final : Workshop} {first phase last : WaitPhase}
  {moves earlier later : List Move}

theorem Waits.runs (waits : Waits token start first moves final phase) :
    Runs start moves final := by
  induction waits with
  | refl => exact .refl
  | others _ last induction => exact .step induction last
  | own _ _ induction => exact induction

theorem Waits.append (before : Waits token start first earlier middle phase)
    (after : Waits token middle phase later final last) :
    Waits token start first (earlier ++ later) final last := by
  induction after with
  | refl => rwa [List.append_nil]
  | others _ last induction =>
      rw [← List.append_assoc]
      exact .others induction last
  | own _ last induction => exact .own induction last

/-- A wait that ends without its token has seen that no job was pending. -/
theorem Waits.seen (waits : Waits token start .looking moves final (.over true)) :
    ∃ seen unseen shop, moves = seen ++ unseen ∧ Runs start seen shop ∧ shop.queue.pending = 0 := by
  generalize ends : WaitPhase.over true = phase at waits
  induction waits with
  | refl => cases ends
  | others _ _ induction =>
      obtain ⟨seen, unseen, shop, same, runs, done⟩ := induction ends
      exact ⟨seen, unseen ++ _, shop, by rw [same, List.append_assoc], runs, done⟩
  | own before last _ =>
      subst ends
      cases last with
      | idle done => exact ⟨_, [], _, (List.append_nil _).symm, before.runs, done⟩

theorem Waits.cancelled (waits : Waits token start .asleep moves final phase)
    (fired : start.world.hasFired token = true) : phase = .asleep ∨ phase = .over false := by
  induction waits with
  | refl => exact .inl rfl
  | others _ _ induction => exact induction
  | own before last induction =>
      rcases induction with rfl | rfl
      · cases last with
        | cancelled => exact .inr rfl
        | uncancelled unfired =>
            have later := before.runs.isLater token fired
            rw [unfired] at later
            cases later
      · cases last

/-- If a job that shares the token has taken too long when its waiter is about to look at the token,
then the wait does not end before the token has ended it. -/
theorem Waits.cancelled_of_expired {job : Job} {isIdle : Bool}
    (before : Waits job.token start first earlier middle .asleep)
    (expired : .of .expired job ∈ earlier)
    (after : Waits job.token middle .asleep later final (.over isIdle)) : isIdle = false := by
  obtain ⟨former, latter, rfl⟩ := List.append_of_mem expired
  have fired := before.runs.fired_of_expired
  rcases after.cancelled fired with same | same
  · cases same
  · exact WaitPhase.over.inj same

end Workshop

end GameExport
