import GameExport.Proofs.Export.Confinement
import GameExport.Proofs.Export.Exclusion
import GameExport.Proofs.Queue.Order

/-! # Exports take turns

Every export is one of those at a site: it empties the working directory when an export of a site
does, and waits and submits jobs as one does. Main statement: when an export empties the working
directory the queue is empty, and until it has returned no other jobs are begun than its own.
-/

namespace GameExport

open ExportM

/-! ## Before and after the working directory is emptied -/

namespace Awaiting

variable (await : Awaiting) (tool : ExportTool) (request : ExportRequest)

def drainQueue : ExportM Unit := do
  if (← get).workshop.queue.isBusy then
    say request "Compilation waiting for other task to finish..." none
    await.waitForQueue tool request

def untilEmptying : ExportM Unit := do
  await.workOf tool request .start
  enter .validateTargets
  await.workOf tool request .validateTargets
  enter .prepareResources
  await.drainQueue tool request

def sinceEmptying : ExportM Unit := do
  say request preparingMessage none
  renameResources request
  await.goThrough tool request (Stage.all.drop 3)

theorem prepareResources_parted : await.prepareResources tool request = (do
    await.drainQueue tool request
    emptyWorkingDirectory tool request
    say request preparingMessage none
    renameResources request) := by
  unfold prepareResources drainQueue
  rw [bind_assoc]
  congr 1
  funext state
  split
  · simp only [bind_assoc]
  · rw [pure_bind]

theorem exportStages_parted : await.exportStages tool request = (do
    await.untilEmptying tool request
    emptyWorkingDirectory tool request
    await.sinceEmptying tool request) := by
  have prepares : await.workOf tool request .prepareResources = _ :=
    await.prepareResources_parted tool request
  have goesOn : await.goThrough tool request Stage.all.tail = (do
      enter .validateTargets
      await.workOf tool request .validateTargets
      enter .prepareResources
      await.workOf tool request .prepareResources
      await.goThrough tool request (Stage.all.drop 3)) := by
    unfold goThrough
    simp only [Stage.all, List.tail_cons, List.forM_eq_forM, List.forM_cons, List.drop_succ_cons,
      List.drop_zero, bind_assoc]
  unfold exportStages untilEmptying sinceEmptying
  simp only [goesOn, prepares, bind_assoc]

/-- Each wait ends in a way in which it can end while nobody else submits jobs. -/
def IsPossible (token : Token) (limit : Option Duration) : Prop :=
  ∀ workshop : Workshop, workshop.IsSteady → workshop.queue.limit = limit →
    Workshop.WaitsAlone token workshop .looking (await.ends workshop).workshop
      (.over (await.ends workshop).isIdle)

end Awaiting

def ExportRequest.KeepsFired (request : ExportRequest) : Prop :=
  ∀ notice (world : World), world.IsLater (request.react notice world)

theorem isPossible_awaited (tool : ExportTool) {request : ExportRequest}
    (keeps : request.KeepsFired) (limit : Duration) :
    Awaiting.IsPossible ⟨awaited tool request⟩ request.token (some limit) := by
  intro workshop steady limited
  let waiting : Workshop.Waiting :=
    ⟨tool.compiler, request.token, tool.settings.yieldInterval, request.react .idle⟩
  have host : ∀ world : World, world.IsLater (waiting.host world) := keeps .idle
  exact Workshop.waitsAlone_wait host (by rw [limited]; rfl) steady

/-! ## An export at a site -/

variable {ι : Type} [DecidableEq ι] {tool : ExportTool} {request : ι → ExportRequest}
  {site : Site ι} {index : ι}

namespace Site

def put (site : Site ι) (index : ι) (workshop : Workshop) (phase : ExportPhase) : Site ι where
  workshop := workshop
  holder := site.holder
  phase := Function.update site.phase index phase

variable {actions : List (Action ι)} {workshop next : Workshop} {phase after : ExportPhase}
  {moves : List Move}

theorem put_self (same : site.phase index = phase) : site.put index site.workshop phase = site := by
  rw [put, ← same, Function.update_eq_self]

@[simp] theorem phase_put : (site.put index workshop phase).phase index = phase :=
  Function.update_self ..

theorem Runs.aroundPut (runs : Runs tool request site actions (site.put index workshop phase))
    {move : Move} (unsubmitted : move.isSubmission = false) (moves : workshop.Moves move next) :
    Runs tool request site (actions ++ [.around move]) (site.put index next phase) :=
  .step runs (.around unsubmitted moves)

theorem Runs.ownPut (runs : Runs tool request site actions (site.put index workshop phase))
    (step : ExportStep tool (request index) workshop phase moves next after) :
    Runs tool request site (actions ++ [.own index moves]) (site.put index next after) := by
  have acts : Acts tool request (site.put index workshop phase) (.own index moves) _ :=
    .own phase_put step
  have same : Function.update (site.put index workshop phase).phase index after =
      Function.update site.phase index after := Function.update_idem ..
  rw [same] at acts
  exact .step runs acts

theorem Runs.waitPut {step : WaitPhase → ExportPhase} {start final : Workshop}
    {first last : WaitPhase}
    (own : ∀ {workshop wait next}, workshop.WaitStep (request index).token wait next →
      ExportStep tool (request index) workshop (step wait) [] workshop (step next))
    (runs : Runs tool request site actions (site.put index start (step first)))
    (alone : Workshop.WaitsAlone (request index).token start first final last) :
    ∃ later, Runs tool request site (actions ++ later) (site.put index final (step last)) ∧
      submittedBy index later = [] := by
  obtain ⟨moves, unsubmitted, waits⟩ := alone
  induction waits with
  | refl => exact ⟨[], by rwa [List.append_nil], rfl⟩
  | @others moves move _ _ _ _ lastMove induction =>
      obtain ⟨later, runs, nothing⟩ := induction fun other member =>
        unsubmitted other (List.mem_append_left _ member)
      have runs := runs.aroundPut (unsubmitted move (by simp)) lastMove
      rw [List.append_assoc] at runs
      exact ⟨_, runs, by rw [submittedBy_append, nothing, submittedBy_around, List.append_nil]⟩
  | own _ lastStep induction =>
      obtain ⟨later, runs, nothing⟩ := induction unsubmitted
      have runs := runs.ownPut (own lastStep)
      rw [List.append_assoc] at runs
      refine ⟨_, runs, ?_⟩
      rw [submittedBy_append, nothing, submittedBy_own, jobsIn_nil, List.append_nil]

end Site

/-- At a site, an export can come to be about to do something, having submitted its jobs. -/
def ExportState.IsAt (tool : ExportTool) (request : ι → ExportRequest) (site : Site ι) (index : ι)
    (phase : ExportPhase) (state : ExportState) : Prop :=
  ∃ actions, Site.Runs tool request site actions (site.put index state.workshop phase) ∧
    submittedBy index actions = state.jobs.map (·.job)

/-- At a site, an export can come to where it may end. -/
def ExportState.IsStoppable (tool : ExportTool) (request : ι → ExportRequest) (site : Site ι)
    (index : ι) (state : ExportState) : Prop :=
  ∃ phase, phase.mayStop = true ∧ state.IsAt tool request site index phase

namespace ExportState.IsAt

variable {state : ExportState} {phase after : ExportPhase}

theorem initial (entered : site.phase index = .checking) (project : Project) :
    (ExportState.initial site.workshop project).IsAt tool request site index .checking :=
  ⟨[], by rw [ExportState.initial, Site.put_self entered]; exact .refl, rfl⟩

theorem own (isAt : state.IsAt tool request site index phase)
    (step : ExportStep tool (request index) state.workshop phase [] state.workshop after) :
    state.IsAt tool request site index after := by
  obtain ⟨actions, runs, submitted⟩ := isAt
  refine ⟨_, runs.ownPut step, ?_⟩
  rw [Site.submittedBy_append, submitted, Site.submittedBy_own, jobsIn_nil, List.append_nil]

theorem elsewhere (isAt : state.IsAt tool request site index phase) {world : World}
    (later : state.workshop.world.IsLater world) {next : ExportState}
    (same : next.workshop = { state.workshop with world := world })
    (sameJobs : next.jobs = state.jobs) : next.IsAt tool request site index phase := by
  obtain ⟨actions, runs, submitted⟩ := isAt
  have runs := runs.aroundPut rfl (.elsewhere later)
  refine ⟨_, same ▸ runs, ?_⟩
  rw [Site.submittedBy_append, submitted, Site.submittedBy_around, sameJobs, List.append_nil]

theorem isSteady (isAt : state.IsAt tool request site index phase) (sound : site.IsSound)
    (inside : phase.isInside = true) (sent : phase.unsent = []) :
    state.workshop.IsSteady ∧ state.workshop.queue.limit = site.workshop.queue.limit := by
  obtain ⟨actions, runs, -⟩ := isAt
  have reached := sound.runs runs
  exact ⟨reached.isSteady (by rwa [Site.phase_put]) (by rwa [Site.phase_put]), runs.limit⟩

theorem wait {step : WaitPhase → ExportPhase} {first last : WaitPhase} {final : Workshop}
    (isAt : state.IsAt tool request site index (step first))
    (own : ∀ {workshop wait next}, workshop.WaitStep (request index).token wait next →
      ExportStep tool (request index) workshop (step wait) [] workshop (step next))
    (alone : Workshop.WaitsAlone (request index).token state.workshop first final last)
    {next : ExportState} (same : next.workshop = final) (sameJobs : next.jobs = state.jobs) :
    next.IsAt tool request site index (step last) := by
  obtain ⟨actions, runs, submitted⟩ := isAt
  obtain ⟨later, runs, nothing⟩ := runs.waitPut own alone
  refine ⟨_, same ▸ runs, ?_⟩
  rw [Site.submittedBy_append, submitted, nothing, sameJobs, List.append_nil]

theorem submit (isAt : state.IsAt tool request site index .working) {job : Job}
    (submits : (request index).Submits tool job) (ended : Workshop.WaitEnd) :
    { state.submitted ⟨job, ended⟩ with workshop := state.workshop.submit job }.IsAt
      tool request site index (.awaiting .looking) := by
  obtain ⟨actions, runs, submitted⟩ := isAt
  have counted : (state.workshop.queue.announced ++ [job])[state.workshop.queue.announced.length]? =
      some job := by
    simp
  have runs := (runs.ownPut (.announce submits)).ownPut (.send counted)
  refine ⟨_, runs, ?_⟩
  rw [Site.submittedBy_append, Site.submittedBy_append, submitted, Site.submittedBy_own,
    Site.submittedBy_own]
  simp [ExportState.submitted, jobsIn_of]

end ExportState.IsAt

/-! ## Every part of an export -/

section Parts

variable {phase : ExportPhase}

theorem carries_tell_isAt (keeps : (request index).KeepsFired) (notice : Notice Progress)
    {ended : ExportError → ExportState → Prop} :
    Carries (ExportState.IsAt tool request site index phase) ended (tell (request index) notice) :=
  fun state isAt => isAt.elsewhere (keeps notice state.workshop.world) rfl rfl

/-- Nothing that an export does but waiting and submitting jobs changes what it is about to do. -/
theorem proceeding_isAt (keeps : (request index).KeepsFired) (may : phase.mayStop = true) :
    Proceeding (request index) (ExportState.IsAt tool request site index phase)
      (fun _ => ExportState.IsStoppable tool request site index) where
  said := fun _ _ => carries_tell_isAt keeps _
  progressed := fun _ => carries_tell_isAt keeps _
  recorded := by
    intro error
    unfold record
    split
    · exact Meets.throw fun _ isAt => ⟨phase, may, isAt⟩
    · apply Meets.bind (carries_tell_isAt keeps _)
      intro _
      exact Meets.modify fun _ => id
  failed := fun _ _ _ isAt => ⟨phase, may, isAt⟩
  changed := by
    intro state files isAt
    have later : state.workshop.world.IsLater { state.workshop.world with files := files } :=
      fun _ => id
    exact isAt.elsewhere later rfl rfl
  kept := fun _ _ _ _ _ _ => id

variable {await : Awaiting} (keeps : (request index).KeepsFired) (sound : site.IsSound)
  (possible : await.IsPossible (request index).token site.workshop.queue.limit)

include sound possible

theorem carries_submitAndWait_isAt {job : Job} (submits : (request index).Submits tool job) :
    Carries (ExportState.IsAt tool request site index .working)
      (fun _ => ExportState.IsStoppable tool request site index)
      (await.submitAndWait tool (request index) job) := by
  have ends {state : ExportState} (isAt : state.IsAt tool request site index .working) :
      (state.waited await job).IsAt tool request site index
        (.awaiting (.over (await.ends (state.workshop.submit job)).isIdle)) := by
    have submitted := isAt.submit submits (await.ends (state.workshop.submit job))
    obtain ⟨steady, limit⟩ := submitted.isSteady sound rfl rfl
    exact submitted.wait .await (possible _ steady limit) rfl rfl
  apply meets_waited
  · exact fun _ isAt _ => ⟨.working, rfl, isAt⟩
  · intro state isAt _ idle
    have past := ends isAt
    rw [idle] at past
    exact past.own .awaited
  · intro state isAt _ cancelled
    have past := ends isAt
    rw [cancelled] at past
    exact ⟨_, rfl, past⟩

include keeps

theorem meets_drainQueue :
    Meets (ExportState.IsAt tool request site index .checking)
      (await.drainQueue tool (request index))
      (fun _ => ExportState.IsAt tool request site index .emptying)
      (fun _ => ExportState.IsStoppable tool request site index) := by
  have ends {state : ExportState}
      (isAt : state.IsAt tool request site index (.draining .looking)) :
      (state.resumed (await.ends state.workshop)).IsAt tool request site index
        (.draining (.over (await.ends state.workshop).isIdle)) := by
    obtain ⟨steady, limit⟩ := isAt.isSteady sound rfl rfl
    exact isAt.wait .drain (possible _ steady limit) rfl rfl
  unfold Awaiting.drainQueue
  apply meets_get_bind
  intro start isAt
  split
  · rename_i busy
    -- It has seen that jobs are pending before it tells the host that it waits for them.
    have drains := isAt.own (.busy busy)
    apply Meets.start _ drains
    apply Meets.bind (carries_tell_isAt keeps _)
    intro _
    apply meets_waitForQueue
    · intro state isAt idle
      have past := ends isAt
      rw [idle] at past
      exact past.own .drained
    · intro state isAt cancelled
      have past := ends isAt
      rw [cancelled] at past
      exact ⟨_, rfl, past⟩
  · rename_i free
    apply Meets.pure
    intro state same
    exact same ▸ isAt.own (.free (by simpa using free))

theorem meets_untilEmptying :
    Meets (ExportState.IsAt tool request site index .checking)
      (await.untilEmptying tool (request index))
      (fun _ => ExportState.IsAt tool request site index .emptying)
      (fun _ => ExportState.IsStoppable tool request site index) := by
  have checks : Proceeding (request index) (ExportState.IsAt tool request site index .checking)
      (fun _ => ExportState.IsStoppable tool request site index) := proceeding_isAt keeps rfl
  have enters (stage : Stage) : Carries (ExportState.IsAt tool request site index .checking)
      (fun _ => ExportState.IsStoppable tool request site index) (enter stage) :=
    fun _ => id
  apply Meets.bind (checks.said _ _)
  intro _
  apply Meets.bind (enters _)
  intro _
  apply Meets.bind checks.validateTargets
  intro _
  apply Meets.bind (enters _)
  intro _
  exact meets_drainQueue keeps sound possible

/-- An export does what one at a site does, until it has returned. -/
theorem meets_exportStages :
    Meets (ExportState.IsAt tool request site index .checking)
      (await.exportStages tool (request index))
      (fun _ => ExportState.IsStoppable tool request site index)
      (fun _ => ExportState.IsStoppable tool request site index) := by
  have works : Proceeding (request index) (ExportState.IsAt tool request site index .working)
      (fun _ => ExportState.IsStoppable tool request site index) := proceeding_isAt keeps rfl
  have empties : Proceeding (request index) (ExportState.IsAt tool request site index .emptying)
      (fun _ => ExportState.IsStoppable tool request site index) := proceeding_isAt keeps rfl
  rw [Awaiting.exportStages_parted]
  apply Meets.bind (meets_untilEmptying keeps sound possible)
  intro _
  apply Meets.bind empties.emptyWorkingDirectory
  intro _
  have since : Carries (ExportState.IsAt tool request site index .working)
      (fun _ => ExportState.IsStoppable tool request site index)
      (await.sinceEmptying tool (request index)) := by
    apply Meets.bind (works.said _ _)
    intro _
    apply Meets.bind works.renameResources
    intro _
    apply works.goThrough (fun _ _ => id) (fun member => by simp [Stage.all] at member)
    exact fun job submits => carries_submitAndWait_isAt sound possible submits
  -- What follows only starts once the working directory has been emptied.
  exact since.weaken (fun _ isAt => isAt.own .emptied) (fun _ _ isAt => ⟨_, rfl, isAt⟩)
    fun _ _ => id

end Parts

namespace Site

/-- Whatever exports there are and whatever has happened, the queue is empty when an export empties
the working directory, and until it has returned only jobs are begun that it has submitted since.
However its waits end, an export that has got hold of the lock only empties the working directory
when one at a site does, and goes on like that one until it ends. -/
theorem Runs.emptiesAlone {world : World} {log : Path} {limit : Option Duration}
    {earlier : List (Action ι)} (before : Runs tool request (fresh world log limit) earlier site)
    (index : ι) :
    (site.phase index = .emptying →
      site.workshop.queue.IsEmpty ∧
      ∀ later final, Runs tool request site later final → final.phase index ≠ .returned →
        ∀ job ∈ startedIn later, job ∈ submittedBy index later) ∧
    (site.phase index = .checking → (request index).KeepsFired →
      ∀ await : Awaiting, await.IsPossible (request index).token limit →
        let start := ExportState.initial site.workshop (request index).project
        await.exportStages tool (request index) = (do
          await.untilEmptying tool (request index)
          emptyWorkingDirectory tool (request index)
          await.sinceEmptying tool (request index)) ∧
        (∀ state, (await.untilEmptying tool (request index)).run.run start = (.ok (), state) →
          state.workshop.queue.IsEmpty ∧ state.IsAt tool request site index .emptying) ∧
        ((await.exportStages tool (request index)).run.run start).2.IsStoppable
          tool request site index) := by
  have sound : site.IsSound := (isSound_fresh world log limit).runs before
  constructor
  · intro empties
    -- With no job around, all jobs are those of this export, and that lasts until it returns.
    have empty : site.workshop.queue.IsEmpty := sound.drained index (by rw [empties]; rfl)
    have owned : site.IsOwned index [] := by
      refine ⟨by rw [empties]; rfl, fun job member => ?_, fun job member => by cases member⟩
      simp [Queue.jobs, empty.announced, empty.waiting, empty.running] at member
    refine ⟨empty, fun later final after unreturned => ?_⟩
    rcases owned.runs sound after with owned | returned
    · exact owned.started
    · exact (unreturned returned).elim
  · intro entered keeps await possible start
    have isAt : start.IsAt tool request site index .checking := .initial entered _
    have sameLimit : site.workshop.queue.limit = limit := before.limit
    rw [← sameLimit] at possible
    refine ⟨await.exportStages_parted tool (request index), ?_, ?_⟩
    · intro state run
      have emptying : state.IsAt tool request site index .emptying :=
        (meets_untilEmptying keeps sound possible).of_ok isAt run
      obtain ⟨actions, runs, -⟩ := id emptying
      exact ⟨(sound.runs runs).drained index (by rw [phase_put]; rfl), emptying⟩
    · have outcome := meets_exportStages keeps sound possible start isAt
      generalize (await.exportStages tool (request index)).run.run start = run at outcome ⊢
      rcases run with ⟨result, state⟩
      cases result with
      | ok => exact outcome
      | error => exact outcome

def pair (workshop : Workshop) (holder : Option Bool) (first second : ExportPhase) : Site Bool where
  workshop := workshop
  holder := holder
  phase := fun index => if index then second else first

def pairRequest (index : Bool) : ExportRequest :=
  { launcherRequest "Hero" with
    caller := if index then ⟨2, []⟩ else ⟨1, []⟩
    tokenId := if index then 4 else 3 }

section Pair

variable {start : Site Bool} {actions : List (Action Bool)} {workshop next : Workshop}
  {holder : Option Bool} {first second after : ExportPhase} {moves : List Move}

theorem update_pair (index : Bool) :
    Function.update (pair workshop holder first second).phase index after =
      (pair workshop holder (bif index then first else after)
        (bif index then after else second)).phase := by
  funext other
  cases index <;> cases other <;> rfl

theorem Runs.pairAround
    (runs : Runs obligingTool pairRequest start actions (pair workshop holder first second))
    {move : Move} (unsubmitted : move.isSubmission = false) (moves : workshop.Moves move next) :
    Runs obligingTool pairRequest start (actions ++ [.around move])
      (pair next holder first second) :=
  .step runs (.around unsubmitted moves)

theorem Runs.pairOwn (index : Bool)
    (runs : Runs obligingTool pairRequest start actions (pair workshop holder first second))
    (step : ExportStep obligingTool (pairRequest index) workshop (bif index then second else first)
      moves next after) :
    Runs obligingTool pairRequest start (actions ++ [.own index moves])
      (pair next holder (bif index then first else after) (bif index then after else second)) := by
  have now : (pair workshop holder first second).phase index =
      (bif index then second else first) := by
    cases index <;> rfl
  have acts : Acts obligingTool pairRequest (pair workshop holder first second)
      (.own index moves) ⟨next, holder, _⟩ := .own now step
  rw [update_pair] at acts
  exact .step runs acts

theorem fresh_eq_pair (world : World) (log : Path) (limit : Option Duration) :
    fresh world log limit = pair ⟨world, .idle log limit⟩ none .asking .asking := by
  have phases : (fun _ => .asking : Bool → ExportPhase) =
      fun index => if index then .asking else .asking := by
    funext index
    cases index <;> rfl
  rw [fresh, pair, phases]

theorem runs_pairEnters (world : World) (log : Path) (limit : Option Duration) :
    Runs obligingTool pairRequest (fresh world log limit) [.own false []]
      (pair ⟨world, .idle log limit⟩ (some false) .checking .asking) := by
  rw [fresh_eq_pair]
  have acts : Acts obligingTool pairRequest (pair ⟨world, .idle log limit⟩ none .asking .asking)
      (.own false []) ⟨⟨world, .idle log limit⟩, some false, _⟩ := .enter rfl rfl
  rw [update_pair] at acts
  exact .step .refl acts

theorem Runs.pairTurns
    (runs : Runs obligingTool pairRequest start actions
      (pair workshop (some false) .leaving .asking)) :
    Runs obligingTool pairRequest start (actions ++ [.own false []] ++ [.own true []])
      (pair workshop (some true) .returned .checking) := by
  have leaves : Acts obligingTool pairRequest (pair workshop (some false) .leaving .asking)
      (.own false []) ⟨workshop, none, _⟩ := .leave rfl
  rw [update_pair] at leaves
  have enters : Acts obligingTool pairRequest (pair workshop none .returned .asking)
      (.own true []) ⟨workshop, some true, _⟩ := .enter rfl rfl
  rw [update_pair] at enters
  exact .step (.step runs leaves) enters

end Pair

/-- The first export is cancelled while its job waits, and returns. The second one waits until the
worker has skipped that job, and then has its own job begun. -/
theorem Runs.emptiesAlone_cancelled :
    ∃ (entered earlier later : List (Action Bool)) (first site final : Site Bool),
      Runs obligingTool pairRequest (fresh ⟨⟨[], []⟩, []⟩ ⟨"/log"⟩ (some ⟨1⟩)) entered first ∧
      ((Awaiting.exportStages ⟨awaited obligingTool (pairRequest false)⟩ obligingTool
        (pairRequest false)).run.run
          (.initial first.workshop (pairRequest false).project)).2.IsStoppable
        obligingTool pairRequest first false ∧
      Runs obligingTool pairRequest (fresh ⟨⟨[], []⟩, []⟩ ⟨"/log"⟩ (some ⟨1⟩)) earlier site ∧
      site.phase false = .returned ∧ site.phase true = .emptying ∧
      (submittedBy false earlier).map (·.unit) = [some (.sourceFile "first")] ∧
      Runs obligingTool pairRequest site later final ∧ final.phase true = .awaiting .looking ∧
      (startedIn later).map (·.unit) = [some (.sourceFile "second")] ∧
      site.workshop.queue.IsEmpty ∧ ∀ job ∈ startedIn later, job ∈ submittedBy true later := by
  let job := sourceJob (pairRequest false) ⟨.sourceFile "first", ⟨"/first.cpp"⟩, ⟨"/first.o"⟩⟩
  let other := sourceJob (pairRequest true) ⟨.sourceFile "second", ⟨"/second.cpp"⟩, ⟨"/second.o"⟩⟩
  let unused := Workshop.hangingShop [] [] none 0 0 [] []
  let counted := Workshop.hangingShop [job] [] none 1 1 [] []
  let sent := Workshop.hangingShop [] [job] none 1 1 [] []
  let cancelled := Workshop.hangingShop [] [job] none 1 1 [] [1]
  let taken := Workshop.hangingShop [] [] (some (job, .taken)) 1 1 [] [1]
  let skipped := Workshop.hangingShop [] [] (some (job, .ended)) 1 1 [] [1]
  let emptied := Workshop.hangingShop [] [] none 0 1 [] [1]
  let countedNext := Workshop.hangingShop [other] [] none 1 2 [] [1]
  let sentNext := Workshop.hangingShop [] [other] none 1 2 [] [1]
  let takenNext := Workshop.hangingShop [] [] (some (other, .taken)) 1 2 [] [1]
  have fires : Workshop.Moves sent .elsewhere cancelled :=
    .elsewhere fun token => World.hasFired_fire ⟨1, []⟩
  have enters : Runs obligingTool pairRequest (fresh ⟨⟨[], []⟩, []⟩ ⟨"/log"⟩ (some ⟨1⟩)) _
      (pair unused (some false) .checking .asking) :=
    runs_pairEnters _ _ _
  have works : Runs obligingTool pairRequest _ _ (pair unused (some false) .working .asking) :=
    (enters.pairOwn false (.free rfl)).pairOwn false .emptied
  have counts : Runs obligingTool pairRequest _ _
      (pair counted (some false) (.sending job) .asking) :=
    works.pairOwn false (.announce (.source _))
  have sends : Runs obligingTool pairRequest _ _
      (pair sent (some false) (.awaiting .looking) .asking) :=
    counts.pairOwn false (@ExportStep.send _ _ counted job 0 rfl)
  have sleeps : Runs obligingTool pairRequest _ _
      (pair cancelled (some false) (.awaiting .asleep) .asking) :=
    (sends.pairOwn false (.await (.busy (by decide)))).pairAround rfl fires
  have stops : Runs obligingTool pairRequest _ _ (pair cancelled (some false) .leaving .asking) :=
    (sleeps.pairOwn false (.await (.cancelled rfl))).pairOwn false (.stop rfl)
  have drains : Runs obligingTool pairRequest _ _
      (pair cancelled (some true) .returned (.draining .asleep)) :=
    (stops.pairTurns.pairOwn true (.busy (by decide))).pairOwn true (.drain (.busy (by decide)))
  have takes : Runs obligingTool pairRequest _ _
      (pair taken (some true) .returned (.draining .asleep)) :=
    drains.pairAround rfl (.take rfl rfl)
  have skip : Workshop.Moves taken (.of .skipped job) skipped := .skip rfl rfl
  have skips : Runs obligingTool pairRequest _ _
      (pair skipped (some true) .returned (.draining .asleep)) :=
    takes.pairAround rfl skip
  have releases : Runs obligingTool pairRequest _ _
      (pair emptied (some true) .returned (.draining .looking)) :=
    ((skips.pairAround rfl (.release rfl)).pairOwn true (.drain (.uncancelled rfl))).pairOwn true
      (.drain .changed)
  have before : Runs obligingTool pairRequest _ _
      (pair emptied (some true) .returned .emptying) :=
    (releases.pairOwn true (.drain (.idle rfl))).pairOwn true .drained
  have counted : Runs obligingTool pairRequest (pair emptied (some true) .returned .emptying) _
      (pair countedNext (some true) .returned (.sending other)) :=
    (Runs.refl.pairOwn true .emptied).pairOwn true (.announce (.source _))
  have submits : Runs obligingTool pairRequest _ _
      (pair sentNext (some true) .returned (.awaiting .looking)) :=
    counted.pairOwn true (@ExportStep.send _ _ countedNext other 0 rfl)
  have taken : Runs obligingTool pairRequest _ _
      (pair takenNext (some true) .returned (.awaiting .looking)) :=
    submits.pairAround rfl (.take rfl rfl)
  have after : Runs obligingTool pairRequest _ _
      (pair (takenNext.prepare other) (some true) .returned (.awaiting .looking)) :=
    taken.pairAround rfl (.start rfl rfl fun _ => id)
  have keeps : (pairRequest false).KeepsFired := fun _ _ _ => id
  have possible := isPossible_awaited obligingTool keeps ⟨1⟩
  obtain ⟨-, -, stoppable⟩ := (Runs.emptiesAlone enters false).2 rfl keeps _ possible
  obtain ⟨empty, alone⟩ := (Runs.emptiesAlone before true).1 rfl
  refine ⟨_, _, _, _, _, _, enters, stoppable, before, rfl, rfl, ?_, after, rfl, rfl, empty,
    alone _ _ after fun returned => by cases returned⟩
  simp [submittedBy, Action.movesBy, jobsIn, job, sourceJob]

end Site

end GameExport
