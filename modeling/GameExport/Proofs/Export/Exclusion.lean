import Mathlib.Logic.Function.Basic
import GameExport.Proofs.Export.Happening
import GameExport.Proofs.Export.Proceeding
import GameExport.Proofs.Queue.Settling

/-! # Exports side by side

Several exports may be asked for at once. They share one queue and one working directory, and a lock
lets in one export at a time. An export may give up the lock while its last job is still in the
queue, so the next one waits until no job is pending before it empties the working directory. Main
statements: only one export is inside, whatever happens, and from when it empties the working
directory until it has returned all jobs are its own.
-/

namespace GameExport

/-! ## While nobody submits jobs -/

namespace Workshop

variable {workshop next : Workshop} {move : Move} {job : Job}

theorem mem_jobs_send {place : Nat} {sent : Job}
    (counted : workshop.queue.announced[place]? = some sent)
    (member : job ∈ (workshop.queue.send place).jobs) : job ∈ workshop.queue.jobs := by
  simp only [Queue.send, counted, Queue.jobs, List.mem_append, List.mem_singleton] at member ⊢
  rcases member with (announced | waits | rfl) | runs
  · exact .inl (.inl (List.mem_of_mem_eraseIdx announced))
  · exact .inl (.inr waits)
  · exact .inl (.inl (List.mem_of_getElem? counted))
  · exact .inr runs

theorem Moves.mem_jobs (unsubmitted : move.isSubmission = false) (moves : workshop.Moves move next)
    (member : job ∈ next.queue.jobs) : job ∈ workshop.queue.jobs := by
  cases moves with
  | announce => cases unsubmitted
  | send => cases unsubmitted
  | take => exact mem_jobs_take member
  | skip running => exact mem_jobs_prepare (mem_jobs_running running) member
  | start running => exact mem_jobs_prepare (mem_jobs_running running) member
  | finish running => exact mem_jobs_enter (mem_jobs_running running) member
  | expire running => exact mem_jobs_enter (mem_jobs_running running) member
  | release running =>
      simp only [Queue.jobs, Workshop.release, Option.toList, List.map_nil, List.append_nil]
        at member
      exact List.mem_append_left _ member
  | elsewhere => exact member

theorem Moves.mem_jobs_of_started (moves : workshop.Moves (.of .started job) next) :
    job ∈ workshop.queue.jobs := by
  cases moves with
  | start running => exact mem_jobs_running running

theorem Moves.isEmpty (unsubmitted : move.isSubmission = false) (moves : workshop.Moves move next)
    (empty : workshop.queue.IsEmpty) : next.queue.IsEmpty := by
  have nobody (phase : JobPhase) (other : Job) : workshop.queue.running ≠ some (other, phase) := by
    intro running
    rw [empty.running] at running
    cases running
  cases moves with
  | announce => cases unsubmitted
  | send => cases unsubmitted
  | take _ first =>
      rw [empty.waiting] at first
      cases first
  | skip running => exact (nobody _ _ running).elim
  | start running => exact (nobody _ _ running).elim
  | finish running => exact (nobody _ _ running).elim
  | expire running => exact (nobody _ _ running).elim
  | release running => exact (nobody _ _ running).elim
  | elsewhere => exact empty

theorem Moves.announced (unsubmitted : move.isSubmission = false)
    (moves : workshop.Moves move next) : next.queue.announced = workshop.queue.announced := by
  cases moves with
  | announce => cases unsubmitted
  | send => cases unsubmitted
  | take free first => rw [Workshop.take, free, first]
  | skip running fired => rw [prepare, if_pos fired, enter]
  | start running unfired =>
      obtain ⟨_, _, _, _, shape⟩ := queue_prepare unfired
      rw [shape]
  | finish => rfl
  | expire => rfl
  | release => rfl
  | elsewhere => rfl

end Workshop

theorem ExportRequest.Submits.keepsFired {tool : ExportTool} {request : ExportRequest} {job : Job}
    (submits : request.Submits tool job) : job.KeepsFired := by
  cases submits with
  | source files =>
      intro preparation prepared
      cases prepared
  | events project compiled unit =>
      intro preparation prepared world token fired
      obtain rfl := Option.some.inj prepared
      rw [writeCode]
      split
      · exact fired
      · exact fired
      · split
        · exact fired
        · exact fired
  | link project objects files =>
      intro preparation prepared
      cases prepared

/-! ## What an export does -/

inductive ExportPhase
  | asking
  | checking
  | draining (wait : WaitPhase)
  | emptying
  | working
  | sending (job : Job)
  | awaiting (wait : WaitPhase)
  | leaving
  | returned

namespace ExportPhase

def isInside : ExportPhase → Bool
  | .asking | .returned => false
  | .checking | .draining _ | .emptying | .working | .sending _ | .awaiting _ | .leaving => true

def mayStop : ExportPhase → Bool
  | .checking | .emptying | .working => true
  | .draining wait | .awaiting wait => wait = .over false
  | .asking | .sending _ | .leaving | .returned => false

def isDrained : ExportPhase → Bool
  | .emptying => true
  | .draining wait => wait = .over true
  | .asking | .checking | .working | .sending _ | .awaiting _ | .leaving | .returned => false

/-- Whether the export empties the working directory or has done so, and has not returned. -/
def isOwner : ExportPhase → Bool
  | .emptying | .working | .sending _ | .awaiting _ | .leaving => true
  | .asking | .checking | .draining _ | .returned => false

def unsent : ExportPhase → List Job
  | .sending job => [job]
  | .asking | .checking | .draining _ | .emptying | .working | .awaiting _ | .leaving
  | .returned => []

theorem isInside_of_isOwner {phase : ExportPhase} (owner : phase.isOwner = true) :
    phase.isInside = true := by
  cases phase <;> first | rfl | cases owner

theorem isInside_of_isDrained {phase : ExportPhase} (drained : phase.isDrained = true) :
    phase.isInside = true := by
  cases phase <;> first | rfl | cases drained

theorem isInside_of_mayStop {phase : ExportPhase} (stops : phase.mayStop = true) :
    phase.isInside = true := by
  cases phase <;> first | rfl | cases stops

theorem unsent_of_mayStop {phase : ExportPhase} (stops : phase.mayStop = true) :
    phase.unsent = [] := by
  cases phase <;> first | rfl | cases stops

end ExportPhase

/-- What an export that has got hold of the lock does next, and what happens to the queue by it. -/
inductive ExportStep (tool : ExportTool) (request : ExportRequest) :
    Workshop → ExportPhase → List Move → Workshop → ExportPhase → Prop
  | busy {workshop} (busy : workshop.queue.isBusy = true) :
      ExportStep tool request workshop .checking [] workshop (.draining .looking)
  | free {workshop} (free : workshop.queue.isBusy = false) :
      ExportStep tool request workshop .checking [] workshop .emptying
  | drain {workshop wait next} (step : workshop.WaitStep request.token wait next) :
      ExportStep tool request workshop (.draining wait) [] workshop (.draining next)
  | drained {workshop} :
      ExportStep tool request workshop (.draining (.over true)) [] workshop .emptying
  | emptied {workshop} : ExportStep tool request workshop .emptying [] workshop .working
  | announce {workshop job} (submits : request.Submits tool job) :
      ExportStep tool request workshop .working [.of .announced job]
        { workshop with queue := workshop.queue.announce job } (.sending job)
  | send {workshop job} {place : Nat} (counted : workshop.queue.announced[place]? = some job) :
      ExportStep tool request workshop (.sending job) [.of .sent job]
        { workshop with queue := workshop.queue.send place } (.awaiting .looking)
  | await {workshop wait next} (step : workshop.WaitStep request.token wait next) :
      ExportStep tool request workshop (.awaiting wait) [] workshop (.awaiting next)
  | awaited {workshop} :
      ExportStep tool request workshop (.awaiting (.over true)) [] workshop .working
  | stop {workshop phase} (may : phase.mayStop = true) :
      ExportStep tool request workshop phase [] workshop .leaving

namespace ExportStep

variable {tool : ExportTool} {request : ExportRequest} {workshop next : Workshop}
  {phase after : ExportPhase} {moves : List Move}

theorem isInside (step : ExportStep tool request workshop phase moves next after) :
    phase.isInside = true ∧ after.isInside = true := by
  cases step with
  | stop may => exact ⟨ExportPhase.isInside_of_mayStop may, rfl⟩
  | _ => exact ⟨rfl, rfl⟩

theorem balanced (step : ExportStep tool request workshop phase moves next after)
    (balanced : workshop.queue.Balanced) : next.queue.Balanced := by
  cases step with
  | announce => exact (Workshop.Moves.announce workshop _).balanced balanced
  | send counted => exact (Workshop.Moves.send counted).balanced balanced
  | _ => exact balanced

theorem isEmpty (step : ExportStep tool request workshop phase moves next after)
    (balanced : workshop.queue.Balanced)
    (before : phase.isDrained = true → workshop.queue.IsEmpty)
    (drained : after.isDrained = true) : next.queue.IsEmpty := by
  cases step with
  | free free => exact balanced.isEmpty (by simpa [Queue.isBusy] using free)
  | drain step =>
      cases step with
      | idle done => exact balanced.isEmpty done
      | _ => cases drained
  | drained => exact before rfl
  | _ => cases drained

theorem isOwner (step : ExportStep tool request workshop phase moves next after)
    (owner : phase.isOwner = true) : after.isOwner = true := by
  cases step with
  | busy => cases owner
  | free => cases owner
  | drain => cases owner
  | drained => cases owner
  | _ => rfl

theorem announced (step : ExportStep tool request workshop phase moves next after)
    (before : workshop.queue.announced = phase.unsent) :
    next.queue.announced = after.unsent := by
  cases step with
  | @announce job =>
      show workshop.queue.announced ++ [job] = [job]
      rw [before]
      rfl
  | @send job place counted =>
      rw [before, ExportPhase.unsent] at counted
      obtain rfl : place = 0 := by
        have bound := (List.getElem?_eq_some_iff.mp counted).1
        exact Nat.lt_one_iff.mp bound
      show (workshop.queue.send 0).announced = []
      simp only [Queue.send, before, ExportPhase.unsent, List.getElem?_cons_zero,
        List.eraseIdx_cons_zero]
  | stop may =>
      rw [before, ExportPhase.unsent_of_mayStop may]
      rfl
  | _ => exact before

theorem limit (step : ExportStep tool request workshop phase moves next after) :
    next.queue.limit = workshop.queue.limit := by
  cases step with
  | announce => rfl
  | send counted => exact (Workshop.Moves.send counted).limit
  | _ => rfl

theorem jobsIn_started (step : ExportStep tool request workshop phase moves next after) :
    jobsIn .started moves = [] := by
  cases step <;> rfl

theorem submits (step : ExportStep tool request workshop phase moves next after) {job : Job}
    (announced : job ∈ jobsIn .announced moves) : request.Submits tool job := by
  cases step with
  | announce submits =>
      rw [jobsIn_of, if_pos rfl, List.mem_singleton] at announced
      exact announced ▸ submits
  | send => simp [jobsIn_of] at announced
  | _ => cases announced

theorem mem_jobs (step : ExportStep tool request workshop phase moves next after) {job : Job}
    (member : job ∈ next.queue.jobs) :
    job ∈ workshop.queue.jobs ∨ job ∈ jobsIn .announced moves := by
  cases step with
  | announce =>
      simp only [Queue.jobs, Queue.announce, List.mem_append, List.mem_singleton] at member
      rcases member with ((announced | rfl) | waits) | runs
      · exact .inl (List.mem_append_left _ (List.mem_append_left _ announced))
      · exact .inr (by simp [jobsIn_of])
      · exact .inl (List.mem_append_left _ (List.mem_append_right _ waits))
      · exact .inl (List.mem_append_right _ runs)
  | send counted => exact .inl (Workshop.mem_jobs_send counted member)
  | _ => exact .inl member

end ExportStep

/-- Where all exports are. -/
structure Site (ι : Type) where
  workshop : Workshop
  holder : Option ι
  phase : ι → ExportPhase

inductive Action (ι : Type)
  | around (move : Move)
  | own (index : ι) (moves : List Move)

def Action.moves {ι : Type} : Action ι → List Move
  | .around move => [move]
  | .own _ moves => moves

section Actions

variable {ι : Type} [DecidableEq ι]

def Action.movesBy (index : ι) : Action ι → List Move
  | .around _ => []
  | .own other moves => if other = index then moves else []

def startedIn (actions : List (Action ι)) : List Job :=
  jobsIn .started (actions.flatMap Action.moves)

def submittedBy (index : ι) (actions : List (Action ι)) : List Job :=
  jobsIn .announced (actions.flatMap (Action.movesBy index))

end Actions

namespace Site

variable {ι : Type} [DecidableEq ι] (tool : ExportTool) (request : ι → ExportRequest)

def fresh (world : World) (log : Path) (limit : Option Duration) : Site ι where
  workshop := ⟨world, .idle log limit⟩
  holder := none
  phase := fun _ => .asking

/-- How a site changes by an action. Only exports submit jobs. -/
inductive Acts : Site ι → Action ι → Site ι → Prop
  | around {site : Site ι} {move : Move} {workshop : Workshop}
      (unsubmitted : move.isSubmission = false) (moves : site.workshop.Moves move workshop) :
      Acts site (.around move) { site with workshop := workshop }
  | enter {site : Site ι} {index : ι} (free : site.holder = none)
      (asks : site.phase index = .asking) :
      Acts site (.own index []) { site with
        holder := some index
        phase := Function.update site.phase index .checking }
  | own {site : Site ι} {index : ι} {moves : List Move} {workshop : Workshop}
      {phase after : ExportPhase} (now : site.phase index = phase)
      (step : ExportStep tool (request index) site.workshop phase moves workshop after) :
      Acts site (.own index moves) { site with
        workshop := workshop
        phase := Function.update site.phase index after }
  | leave {site : Site ι} {index : ι} (leaves : site.phase index = .leaving) :
      Acts site (.own index []) { site with
        holder := none
        phase := Function.update site.phase index .returned }

/-- How a site changes by actions one after the other. -/
inductive Runs (start : Site ι) : List (Action ι) → Site ι → Prop
  | refl : Runs start [] start
  | step {actions : List (Action ι)} {action : Action ι} {middle final : Site ι}
      (earlier : Runs start actions middle) (last : middle.Acts tool request action final) :
      Runs start (actions ++ [action]) final

/-! ## Only one export is inside -/

/-- What holds at a site whatever has happened. -/
structure IsSound (site : Site ι) : Prop where
  balanced : site.workshop.queue.Balanced
  /-- Only the export that has got hold of the lock is inside. -/
  alone : ∀ index, (site.phase index).isInside = true → site.holder = some index
  drained : ∀ index, (site.phase index).isDrained = true → site.workshop.queue.IsEmpty
  announced : site.workshop.queue.announced =
    site.holder.elim [] fun index => (site.phase index).unsent
  kept : ∀ job ∈ site.workshop.queue.jobs, job.KeepsFired

omit [DecidableEq ι] in
theorem isSound_fresh (world : World) (log : Path) (limit : Option Duration) :
    (fresh world log limit : Site ι).IsSound where
  balanced := rfl
  alone := fun _ inside => by cases inside
  drained := fun _ drained => by cases drained
  announced := rfl
  kept := fun _ member => (List.not_mem_nil member).elim

variable {tool request} {site next : Site ι} {action : Action ι} {index : ι}

omit [DecidableEq ι] in
theorem IsSound.eq_of_isInside (sound : site.IsSound) {other : ι}
    (inside : (site.phase index).isInside = true) (insideToo : (site.phase other).isInside = true) :
    other = index := by
  have same := sound.alone other insideToo
  rw [sound.alone index inside] at same
  exact (Option.some.inj same).symm

omit [DecidableEq ι] in
theorem IsSound.announced_of_isInside (sound : site.IsSound)
    (inside : (site.phase index).isInside = true) :
    site.workshop.queue.announced = (site.phase index).unsent := by
  rw [sound.announced, sound.alone index inside, Option.elim]

omit [DecidableEq ι] in
theorem IsSound.isSteady (sound : site.IsSound) (inside : (site.phase index).isInside = true)
    (sent : (site.phase index).unsent = []) :
    site.workshop.IsSteady where
  balanced := sound.balanced
  unannounced := (sound.announced_of_isInside inside).trans sent
  waiting := fun job member =>
    sound.kept job (List.mem_append_left _ (List.mem_append_right _ member))
  running := fun job _ running => sound.kept job (mem_jobs_running running)

theorem isSound_update {workshop : Workshop} {holder : Option ι} {phase : ExportPhase}
    (outside : ∀ other, other ≠ index → (site.phase other).isInside ≠ true)
    (balanced : workshop.queue.Balanced) (held : phase.isInside = true → holder = some index)
    (drained : phase.isDrained = true → workshop.queue.IsEmpty)
    (announced : workshop.queue.announced = phase.unsent)
    (lets : holder = some index ∨ holder = none ∧ phase.unsent = [])
    (kept : ∀ job ∈ workshop.queue.jobs, job.KeepsFired) :
    IsSound ⟨workshop, holder, Function.update site.phase index phase⟩ := by
  refine ⟨balanced, fun other inside => ?_, fun other isDrained => ?_, ?_, kept⟩
  · dsimp only at inside ⊢
    by_cases same : other = index
    · subst same
      rw [Function.update_self] at inside
      exact held inside
    · rw [Function.update_of_ne same] at inside
      exact (outside other same inside).elim
  · dsimp only at isDrained ⊢
    by_cases same : other = index
    · subst same
      rw [Function.update_self] at isDrained
      exact drained isDrained
    · rw [Function.update_of_ne same] at isDrained
      exact (outside other same (ExportPhase.isInside_of_isDrained isDrained)).elim
  · dsimp only
    rcases lets with rfl | ⟨rfl, sent⟩
    · rw [announced, Option.elim, Function.update_self]
    · rw [announced, sent, Option.elim]

theorem IsSound.acts (sound : site.IsSound) (acts : site.Acts tool request action next) :
    next.IsSound := by
  have outside {index : ι} (inside : (site.phase index).isInside = true) (other : ι)
      (different : other ≠ index) : (site.phase other).isInside ≠ true :=
    fun insideToo => different (sound.eq_of_isInside inside insideToo)
  cases acts with
  | around unsubmitted moves =>
      refine ⟨moves.balanced sound.balanced, sound.alone, ?_, ?_, ?_⟩
      · exact fun index drained => moves.isEmpty unsubmitted (sound.drained index drained)
      · exact (moves.announced unsubmitted).trans sound.announced
      · exact fun job member => sound.kept job (moves.mem_jobs unsubmitted member)
  | @enter index free asks =>
      have announced : site.workshop.queue.announced = [] := by
        rw [sound.announced, free, Option.elim]
      refine isSound_update ?_ sound.balanced (fun _ => rfl) (fun drained => by cases drained)
        announced (.inl rfl) sound.kept
      intro other _ inside
      have held := sound.alone other inside
      rw [free] at held
      cases held
  | @own index moves workshop phase after now step =>
      subst now
      have inside := step.isInside.1
      have held := sound.alone index inside
      refine isSound_update (outside inside) (step.balanced sound.balanced) (fun _ => held)
        (step.isEmpty sound.balanced (sound.drained index))
        (step.announced (sound.announced_of_isInside inside)) (.inl held) ?_
      intro job member
      rcases step.mem_jobs member with before | submitted
      · exact sound.kept job before
      · exact (step.submits submitted).keepsFired
  | @leave index leaves =>
      have inside : (site.phase index).isInside = true := by rw [leaves]; rfl
      have announced := sound.announced_of_isInside inside
      rw [leaves] at announced
      exact isSound_update (outside inside) sound.balanced (fun inside => by cases inside)
        (fun drained => by cases drained) announced (.inr ⟨rfl, rfl⟩) sound.kept

theorem IsSound.runs {start final : Site ι} {actions : List (Action ι)} (sound : start.IsSound)
    (runs : Runs tool request start actions final) : final.IsSound := by
  induction runs with
  | refl => exact sound
  | step _ last induction => exact induction.acts last

theorem Runs.limit {start final : Site ι} {actions : List (Action ι)}
    (runs : Runs tool request start actions final) :
    final.workshop.queue.limit = start.workshop.queue.limit := by
  induction runs with
  | refl => rfl
  | step _ last induction =>
      rw [← induction]
      cases last with
      | around _ moves => exact moves.limit
      | enter => rfl
      | own _ step => exact step.limit
      | leave => rfl

/-! ## Until an export returns -/

/-- Since an export has emptied the working directory, all jobs have been its own. -/
structure IsOwned (index : ι) (actions : List (Action ι)) (site : Site ι) : Prop where
  owner : (site.phase index).isOwner = true
  queued : ∀ job ∈ site.workshop.queue.jobs, job ∈ submittedBy index actions
  started : ∀ job ∈ startedIn actions, job ∈ submittedBy index actions

variable {actions : List (Action ι)}

theorem submittedBy_append (first second : List (Action ι)) :
    submittedBy index (first ++ second) = submittedBy index first ++ submittedBy index second := by
  rw [submittedBy, List.flatMap_append, jobsIn_append]
  rfl

@[simp] theorem submittedBy_around (move : Move) : submittedBy index [.around move] = [] := rfl

@[simp] theorem submittedBy_own (moves : List Move) :
    submittedBy index [.own index moves] = jobsIn .announced moves := by
  simp [submittedBy, Action.movesBy]

omit [DecidableEq ι] in
theorem startedIn_append (first second : List (Action ι)) :
    startedIn (first ++ second) = startedIn first ++ startedIn second := by
  rw [startedIn, List.flatMap_append, jobsIn_append]
  rfl

/-- If the jobs that an action adds to the queue are those that the export submits by it, and it
begins only jobs that are there, then all jobs still are those of the export. -/
theorem IsOwned.step (owned : site.IsOwned index actions)
    (owner : (next.phase index).isOwner = true)
    (queued : ∀ job ∈ next.workshop.queue.jobs,
      job ∈ site.workshop.queue.jobs ∨ job ∈ submittedBy index [action])
    (started : ∀ job ∈ startedIn [action], job ∈ site.workshop.queue.jobs) :
    next.IsOwned index (actions ++ [action]) := by
  refine ⟨owner, fun job member => ?_, fun job member => ?_⟩
  · rw [submittedBy_append]
    rcases queued job member with before | submitted
    · exact List.mem_append_left _ (owned.queued job before)
    · exact List.mem_append_right _ submitted
  · rw [submittedBy_append]
    rw [startedIn_append] at member
    rcases List.mem_append.mp member with before | begun
    · exact List.mem_append_left _ (owned.started job before)
    · exact List.mem_append_left _ (owned.queued job (started job begun))

/-- Whatever happens next, all jobs still are those of the export, unless it returns. -/
theorem IsOwned.acts (owned : site.IsOwned index actions) (sound : site.IsSound)
    (acts : site.Acts tool request action next) :
    next.IsOwned index (actions ++ [action]) ∨ next.phase index = .returned := by
  have inside := ExportPhase.isInside_of_isOwner owned.owner
  cases acts with
  | @around move workshop unsubmitted moves =>
      refine .inl (owned.step owned.owner ?_ ?_)
      · exact fun job member => .inl (moves.mem_jobs unsubmitted member)
      · intro job begun
        have same : move = .of .started job := by
          simpa [startedIn, Action.moves, mem_jobsIn, eq_comm] using begun
        subst same
        exact moves.mem_jobs_of_started
  | enter free asks =>
      -- Nobody can enter while this export is inside.
      have held := sound.alone index inside
      rw [free] at held
      cases held
  | @own other moves workshop phase after now step =>
      subst now
      -- Whoever takes a step of its own is inside, so it is this export.
      obtain rfl := sound.eq_of_isInside inside step.isInside.1
      refine .inl (owned.step ?_ ?_ ?_)
      · dsimp only
        rw [Function.update_self]
        exact step.isOwner owned.owner
      · intro job member
        rcases step.mem_jobs member with before | submitted
        · exact .inl before
        · exact .inr (by rwa [submittedBy_own])
      · intro job begun
        have nothing : startedIn [.own other moves] = [] := by
          simpa [startedIn, Action.moves] using step.jobsIn_started
        rw [nothing] at begun
        cases begun
  | @leave other leaves =>
      have insideToo : (site.phase other).isInside = true := by rw [leaves]; rfl
      rw [sound.eq_of_isInside inside insideToo]
      exact .inr (Function.update_self ..)

theorem Acts.returned (acts : site.Acts tool request action next)
    (returned : site.phase index = .returned) : next.phase index = .returned := by
  have others {other : ι} {phase : ExportPhase} (moves : site.phase other ≠ .returned) :
      Function.update site.phase other phase index = .returned := by
    have different : index ≠ other := by
      intro same
      exact moves (same ▸ returned)
    rwa [Function.update_of_ne different]
  cases acts with
  | around => exact returned
  | enter free asks => exact others (fun same => by simp [asks] at same)
  | own now step =>
      refine others fun returned => ?_
      have inside := step.isInside.1
      rw [← now, returned] at inside
      cases inside
  | leave leaves => exact others (fun same => by simp [leaves] at same)

theorem IsOwned.runs (owned : site.IsOwned index []) (sound : site.IsSound) {final : Site ι}
    (runs : Runs tool request site actions final) :
    final.IsOwned index actions ∨ final.phase index = .returned := by
  induction runs with
  | refl => exact .inl owned
  | step earlier last induction =>
      rcases induction with owned | returned
      · exact owned.acts (sound.runs earlier) last
      · exact .inr (last.returned returned)

end Site

end GameExport
