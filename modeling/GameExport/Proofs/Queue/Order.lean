import GameExport.Proofs.Queue.Settling

/-! # The queue in order

Several submit jobs, tokens fire, calls take too long and some wait, in any order. Main statement:
the queue is in order whatever happens, and a wait that ends without its token has seen every job
done that was counted before it.
-/

namespace GameExport.Workshop

variable {middle final : Workshop} {earlier later : List Move}

/-- Whatever has happened around a queue that had no jobs at first, and in whatever order, the queue
is in order: it is busy as long as there are jobs, it counts down one by one, a job is not begun
once its token has fired, no job is begun that shares the token of one that has taken too long, and
a wait only ends without its token once every job that was counted before it is done. The wait that
lets the worker go on by itself is one of those. -/
theorem Runs.keepsOrder {world : World} {log : Path} {limit : Option Duration}
    (before : Runs ⟨world, .idle log limit⟩ earlier middle) (after : Runs middle later final) :
    final.queue.Orderly (earlier ++ later) ∧
    (final.queue.isBusy = false → final.queue.IsEmpty) ∧
    (∀ job next, final.Moves (.of .released job) next →
      next.queue.pending + 1 = final.queue.pending) ∧
    (∀ job ∈ jobsIn .started later, middle.world.hasFired job.token = false) ∧
    (∀ former latter job, later = former ++ .of .expired job :: latter →
      ∀ other ∈ jobsIn .started latter, other.token ≠ job.token) ∧
    (∀ token, Waits token middle .looking later final (.over true) →
      ∃ seen unseen, later = seen ++ unseen ∧
        (jobsIn .announced (earlier ++ seen)).Perm (jobsIn .released (earlier ++ seen))) ∧
    ∀ waiting : Waiting, (∀ world : World, world.IsLater (waiting.host world)) →
      limit.isSome = true → middle.IsSteady →
      WaitsAlone waiting.token middle .looking (middle.wait waiting).workshop
        (.over (middle.wait waiting).isIdle) := by
  have orderly := (before.append after).orderly
  refine ⟨orderly, ?_, ?_, after.unfired_of_started, ?_, ?_, ?_⟩
  · intro free
    exact orderly.balanced.isEmpty (by simpa [Queue.isBusy] using free)
  · intro job next released
    cases released with
    | release running =>
        have pending := orderly.balanced
        rw [Queue.Balanced, running, Option.toList, List.length_singleton] at pending
        exact Nat.sub_add_cancel (by omega)
  · intro former latter job same
    subst same
    exact after.unshared_of_expired
  · intro token waits
    obtain ⟨seen, unseen, shop, same, runs, done⟩ := waits.seen
    exact ⟨seen, unseen, same, (before.append runs).orderly.released_of_done done⟩
  · intro waiting host limited steady
    have sameLimit : middle.queue.limit = limit := before.limit
    rw [← sameLimit] at limited
    exact waitsAlone_wait host limited steady

def plainJob (name : String) (token : Token) : Job where
  call := .compile ⟨name ++ ".cpp"⟩ ⟨name ++ ".o"⟩
  preparation := none
  unit := none
  label := name
  token := token

def hangingShop (announced waiting : List Job) (running : Option (Job × JobPhase))
    (pending submitted : Nat) (history : List Activity) (fired : List Nat) : Workshop where
  world := ⟨⟨[], []⟩, fired⟩
  queue := {
    announced, waiting, running, pending, submitted, history
    log := ⟨"/log"⟩
    limit := some ⟨1⟩ }

/-- Two jobs of one token are counted by two who then send them the other way round. The one that is
begun takes too long, so the other is skipped, and someone else who waits sees both done. -/
theorem Runs.keepsOrder_twins :
    ∃ earlier later middle final,
      Runs ⟨⟨⟨[], []⟩, []⟩, .idle ⟨"/log"⟩ (some ⟨1⟩)⟩ earlier middle ∧
      Waits ⟨2, []⟩ middle .looking later final (.over true) ∧
      (jobsIn .announced (earlier ++ later)).map (·.label) = ["first", "second"] ∧
      (jobsIn .sent (earlier ++ later)).map (·.label) = ["second", "first"] ∧
      (jobsIn .started (earlier ++ later)).map (·.label) = ["second"] ∧
      (jobsIn .skipped (earlier ++ later)).map (·.label) = ["first"] ∧
      final.queue.Orderly (earlier ++ later) ∧
      ∃ seen unseen, later = seen ++ unseen ∧
        (jobsIn .announced (earlier ++ seen)).Perm (jobsIn .released (earlier ++ seen)) := by
  let first := plainJob "first" ⟨1, []⟩
  let second := plainJob "second" ⟨1, []⟩
  let called := [Activity.called second.call]
  let middle := hangingShop [first] [second] none 2 2 [] []
  have counted : Runs ⟨⟨⟨[], []⟩, []⟩, .idle ⟨"/log"⟩ (some ⟨1⟩)⟩
      [.of .announced first, .of .announced second]
      (hangingShop [first, second] [] none 2 2 [] []) :=
    .step (.step .refl (.announce _ _)) (.announce _ _)
  have before : Runs _ [.of .announced first, .of .announced second, .of .sent second] middle :=
    .step counted (@Moves.send _ 1 _ rfl)
  let begun := hangingShop [] [first] (some (second, .taken)) 2 2 [] []
  let cut := hangingShop [] [first] (some (second, .ended)) 2 2 called [1]
  let skips := hangingShop [] [] (some (first, .taken)) 1 2 called [1]
  let final := hangingShop [] [] none 0 2 called [1]
  have taken : Waits ⟨2, []⟩ middle .looking [.of .sent first, .of .taken second] begun .asleep :=
    .others (.others (.own .refl (.busy (by decide))) (@Moves.send _ 0 _ rfl)) (.take rfl rfl)
  have expired : Waits ⟨2, []⟩ begun .asleep [.of .started second, .of .expired second]
      cut .asleep :=
    .others (.others .refl (.start rfl rfl fun _ => id)) (.expire rfl rfl ⟨[], []⟩)
  have goesOn : Waits ⟨2, []⟩ cut .asleep [.of .released second, .of .taken first] skips .asleep :=
    .others (.others .refl (.release rfl)) (.take rfl rfl)
  have skipped : Waits ⟨2, []⟩ skips .asleep [.of .skipped first, .of .released first]
      final .asleep :=
    .others (.others .refl (.skip rfl rfl)) (.release rfl)
  have ended : Waits ⟨2, []⟩ final .asleep [] final (.over true) :=
    .own (.own (.own .refl (.uncancelled rfl)) .changed) (.idle rfl)
  have waits := (((taken.append expired).append goesOn).append skipped).append ended
  obtain ⟨orderly, _, _, _, _, seen, _⟩ := before.keepsOrder waits.runs
  exact ⟨_, _, _, _, before, waits, rfl, rfl, rfl, rfl, orderly, seen _ waits⟩

end GameExport.Workshop
